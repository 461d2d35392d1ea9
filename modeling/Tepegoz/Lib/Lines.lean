import Mathlib.Data.List.Basic
import Mathlib.Tactic.Common

namespace Lines

/-- The characters with the Unicode property `White_Space`. -/
def isWhitespace (c : Char) : Bool :=
  let n := c.toNat
  (0x9 ≤ n ∧ n ≤ 0xd) ∨ n = 0x20 ∨ n = 0x85 ∨ n = 0xa0 ∨ n = 0x1680 ∨ (0x2000 ≤ n ∧ n ≤ 0x200a) ∨
    n = 0x2028 ∨ n = 0x2029 ∨ n = 0x202f ∨ n = 0x205f ∨ n = 0x3000

def trimStart (text : List Char) : List Char := text.dropWhile isWhitespace

def splitWhitespace (text : List Char) : List (List Char) :=
  (text.splitOnP isWhitespace).filter (· ≠ [])

/-- The pieces of a text, each with the line feed that ends it. -/
def splitInclusive : List Char → List (List Char)
  | [] => []
  | c :: rest =>
    if c = '\n' then [c] :: splitInclusive rest
    else match splitInclusive rest with
      | [] => [[c]]
      | piece :: pieces => (c :: piece) :: pieces

def dropCr (line : List Char) : List Char :=
  if line.getLast? = some '\r' then line.dropLast else line

/-- A carriage return is part of the line ending only in front of a line feed. -/
def lineOf (piece : List Char) : List Char :=
  if piece.getLast? = some '\n' then dropCr piece.dropLast else piece

def lines (text : List Char) : List (List Char) := (splitInclusive text).map lineOf

end Lines
