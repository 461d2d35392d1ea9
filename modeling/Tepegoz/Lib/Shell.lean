import Mathlib.Data.List.Basic
import Mathlib.Data.List.Induction
import Mathlib.Data.List.TakeWhile
import Mathlib.Tactic.Common

namespace Shell

/-- A character of a word, with whether it was quoted. -/
abbrev Piece := Char × Bool

inductive Token
  | word (pieces : List Piece)
  | ioNumber (digits : List Piece)
  | operator (text : List Char)
  deriving DecidableEq

/-- What the reader is in. `pieces` is the word so far; `started` tells an escape in a word from one
that would begin a word. -/
inductive Mode
  | blank
  | comment
  | word (pieces : List Piece)
  | single (pieces : List Piece)
  | double (pieces : List Piece)
  | escape (started : Bool) (pieces : List Piece)
  | doubleEscape (pieces : List Piece)
  | operator (text : List Char)
  deriving DecidableEq

structure Scan where
  tokens : List Token
  mode : Mode
  deriving DecidableEq

def operators : List (List Char) :=
  [['&'], ['|'], [';'], ['<'], ['>'], ['('], [')'], ['\n'], ['&', '&'], ['|', '|'], [';', ';'],
    ['<', '<'], ['<', '<', '-'], ['<', '&'], ['<', '>'], ['>', '>'], ['>', '&'], ['>', '|']]

/-- What an unquoted character does. -/
inductive Kind
  | blank
  | operator
  | single
  | double
  | backslash
  | expansion
  | plain
  deriving DecidableEq

def kind (c : Char) : Kind :=
  if c = ' ' ∨ c = '\t' then .blank
  else if [c] ∈ operators then .operator
  else if c = '\'' then .single
  else if c = '"' then .double
  else if c = '\\' then .backslash
  else if c = '$' ∨ c = '\x60' then .expansion
  else .plain

def allDigits (pieces : List Piece) : Bool := pieces.all fun piece => !piece.2 && piece.1.isDigit

namespace Scan

def start : Scan := ⟨[], .blank⟩

/-- A character between words. What an expansion gives is not in the text, so none is read. -/
def beginToken (tokens : List Token) (c : Char) : Option Scan :=
  match kind c with
  | .blank => some ⟨tokens, .blank⟩
  | .operator => some ⟨tokens, .operator [c]⟩
  | .single => some ⟨tokens, .single []⟩
  | .double => some ⟨tokens, .double []⟩
  | .backslash => some ⟨tokens, .escape false []⟩
  | .expansion => none
  | .plain => some ⟨tokens, if c = '#' then .comment else .word [(c, false)]⟩

/-- A number directly before a redirection is the descriptor that it is for. -/
def wordBefore (pieces : List Piece) (c : Char) : Token :=
  if (c = '<' ∨ c = '>') ∧ allDigits pieces then .ioNumber pieces else .word pieces

def inWord (tokens : List Token) (pieces : List Piece) (c : Char) : Option Scan :=
  match kind c with
  | .blank => some ⟨tokens ++ [.word pieces], .blank⟩
  | .operator => some ⟨tokens ++ [wordBefore pieces c], .operator [c]⟩
  | .single => some ⟨tokens, .single pieces⟩
  | .double => some ⟨tokens, .double pieces⟩
  | .backslash => some ⟨tokens, .escape true pieces⟩
  | .expansion => none
  | .plain => some ⟨tokens, .word (pieces ++ [(c, false)])⟩

def inDouble (tokens : List Token) (pieces : List Piece) (c : Char) : Option Scan :=
  match kind c with
  | .double => some ⟨tokens, .word pieces⟩
  | .backslash => some ⟨tokens, .doubleEscape pieces⟩
  | .expansion => none
  | _ => some ⟨tokens, .double (pieces ++ [(c, true)])⟩

/-- An escaped line feed is removed, also from between words. -/
def afterEscape (tokens : List Token) (started : Bool) (pieces : List Piece) (c : Char) : Scan :=
  if c = '\n' then ⟨tokens, if started then .word pieces else .blank⟩
  else ⟨tokens, .word (pieces ++ [(c, true)])⟩

/-- Between double quotes a backslash is a character of the word except before some characters. -/
def afterDoubleEscape (tokens : List Token) (pieces : List Piece) (c : Char) : Scan :=
  if c = '\n' then ⟨tokens, .double pieces⟩
  else match kind c with
    | .expansion | .double | .backslash => ⟨tokens, .double (pieces ++ [(c, true)])⟩
    | _ => ⟨tokens, .double (pieces ++ [('\\', true), (c, true)])⟩

def next (s : Scan) (c : Char) : Option Scan :=
  match s.mode with
  | .blank => beginToken s.tokens c
  | .comment => some (if c = '\n' then ⟨s.tokens, .operator [c]⟩ else s)
  | .word pieces => inWord s.tokens pieces c
  | .single pieces =>
    some ⟨s.tokens, if c = '\'' then .word pieces else .single (pieces ++ [(c, true)])⟩
  | .double pieces => inDouble s.tokens pieces c
  | .escape started pieces => some (afterEscape s.tokens started pieces c)
  | .doubleEscape pieces => some (afterDoubleEscape s.tokens pieces c)
  | .operator text =>
    if text ++ [c] ∈ operators then some ⟨s.tokens, .operator (text ++ [c])⟩
    else beginToken (s.tokens ++ [.operator text]) c

/-- The tokens at the end of the text, unless a quotation is left open. -/
def finish (s : Scan) : Option (List Token) :=
  match s.mode with
  | .blank | .comment => some s.tokens
  | .word pieces => some (s.tokens ++ [.word pieces])
  | .operator text => some (s.tokens ++ [.operator text])
  | .single _ | .double _ | .escape _ _ | .doubleEscape _ => none

end Scan

def tokenize (text : List Char) : Option (List Token) :=
  (text.foldlM Scan.next .start).bind Scan.finish

inductive Connector
  | andIf
  | orIf
  | pipe
  | sequential
  | background
  deriving DecidableEq

structure Redirect where
  descriptor : List Char
  operator : List Char
  target : List Char
  deriving DecidableEq

structure Command where
  assignments : List (List Char × List Char)
  words : List (List Char)
  redirects : List Redirect
  deriving DecidableEq

def Command.empty : Command := ⟨[], [], []⟩

/-- The commands that a connector follows, and the one after the last connector. -/
structure Script where
  connected : List (Command × Connector)
  last : Option Command
  deriving DecidableEq

/-- The script of one command that is only words. -/
def Script.words (words : List (List Char)) : Script := ⟨[], some ⟨[], words, []⟩⟩

def connectorOf (text : List Char) : Option Connector :=
  if text = ['&', '&'] then some .andIf
  else if text = ['|', '|'] then some .orIf
  else if text = ['|'] then some .pipe
  else if text = [';'] ∨ text = ['\n'] then some .sequential
  else if text = ['&'] then some .background
  else none

def redirections : List (List Char) := [['<'], ['>'], ['>', '>'], ['<', '&'], ['>', '&'], ['<', '>'], ['>', '|']]

def reservedWords : List (List Char) :=
  ["!", "\x7b", "\x7d", "case", "do", "done", "elif", "else", "esac", "fi", "for", "if", "in", "then",
    "until", "while"].map String.toList

def unquoted (text : List Char) : List Piece := text.map fun c => (c, false)

def quoted (text : List Char) : List Piece := text.map fun c => (c, true)

/-- Behind an opening bracket: at least one character and then a closing bracket, before any slash. -/
def closesBracket (pieces : List Piece) : Bool :=
  let body := if pieces.head? = some ('!', false) ∨ pieces.head? = some ('^', false) then pieces.tail
    else pieces
  match body.takeWhile fun piece => piece.1 ≠ '/' with
  | [] => false
  | _ :: rest => rest.contains (']', false)

/-- The word is a pattern, to be replaced by the paths that match it. -/
def isPattern : List Piece → Bool
  | [] => false
  | piece :: rest =>
    piece = ('*', false) || piece = ('?', false) || piece = ('[', false) && closesBracket rest ||
      isPattern rest

/-- What a word is apart from its quotes, unless a home directory or matching paths replace it. -/
def literal (pieces : List Piece) : Option (List Char) :=
  if pieces.head? = some ('~', false) ∨ isPattern pieces then none else some (pieces.map (·.1))

def isName (text : List Char) : Bool :=
  text.head?.any (fun c => c.isAlpha || c = '_') && text.all fun c => c.isAlphanum || c = '_'

/-- The name and the value of a word that is an assignment. -/
def assignment (pieces : List Piece) : Option (List Char × List Piece) :=
  let name := pieces.takeWhile (· ≠ ('=', false))
  match pieces.dropWhile (· ≠ ('=', false)) with
  | [] => none
  | _ :: value =>
    if (name.all fun piece => !piece.2) ∧ isName (name.map (·.1)) then some (name.map (·.1), value)
    else none

inductive Expected
  | any
  | operator (descriptor : List Char)
  | target (descriptor operator : List Char)
  deriving DecidableEq

structure Reading where
  connected : List (Command × Connector)
  command : Command
  expected : Expected
  deriving DecidableEq

namespace Reading

def start : Reading := ⟨[], .empty, .any⟩

def push (r : Reading) (word : List Char) : Reading :=
  { r with command := { r.command with words := r.command.words ++ [word] } }

/-- A word, which is an assignment or a reserved word only in front of the command. No aliases are
defined. -/
def addWord (r : Reading) (pieces : List Piece) : Option Reading :=
  if r.command.words ≠ [] then (literal pieces).map r.push
  else match assignment pieces with
    | some (name, value) =>
      if value.contains ('~', false) then none
      else some { r with command := { r.command with
        assignments := r.command.assignments ++ [(name, value.map (·.1))] } }
    | none =>
      if r.command = .empty ∧ pieces ∈ reservedWords.map unquoted then none
      else (literal pieces).map r.push

def addRedirect (r : Reading) (redirect : Redirect) : Reading :=
  { r with
    command := { r.command with redirects := r.command.redirects ++ [redirect] }, expected := .any }

def redirect (r : Reading) (descriptor operator : List Char) (pieces : List Piece) : Option Reading :=
  (literal pieces).map fun target => r.addRedirect ⟨descriptor, operator, target⟩

/-- The end of a command; empty lines are skipped. -/
def connect (r : Reading) (text : List Char) : Option Reading :=
  if r.command = .empty then if text = ['\n'] then some r else none
  else (connectorOf text).map fun c => ⟨r.connected ++ [(r.command, c)], .empty, .any⟩

def next (r : Reading) (token : Token) : Option Reading :=
  match r.expected, token with
  | .any, .word pieces => r.addWord pieces
  | .any, .ioNumber digits => some { r with expected := .operator (digits.map (·.1)) }
  | .any, .operator text =>
    if text ∈ redirections then some { r with expected := .target [] text } else r.connect text
  | .operator descriptor, .operator text =>
    if text ∈ redirections then some { r with expected := .target descriptor text } else none
  | .target descriptor operator, .word pieces => r.redirect descriptor operator pieces
  | _, _ => none

/-- The script, unless a redirection lacks its word or a connector the command after it. -/
def finish (r : Reading) : Option Script :=
  if r.expected ≠ .any then none
  else if r.command ≠ .empty then some ⟨r.connected, some r.command⟩
  else match r.connected.getLast? with
    | some (_, .andIf) | some (_, .orIf) | some (_, .pipe) => none
    | _ => some ⟨r.connected, none⟩

end Reading

def parse (tokens : List Token) : Option Script := (tokens.foldlM Reading.next .start).bind Reading.finish

/-- The simple commands that a shell reads in a text and how they are connected. `none` where the text
alone does not fix them (expansions, patterns), where it is no list of simple commands, and where it is
incomplete. -/
def read (text : List Char) : Option Script := (tokenize text).bind parse

/-- An unquoted text that is only itself. -/
def standsForItself (text : List Char) : Bool :=
  text.all (fun c => kind c = .plain) && text.head? ≠ some '#' && (literal (unquoted text)).isSome &&
    (assignment (unquoted text)).isNone

/-- Each quote ends the quotation, is escaped, and starts another. -/
def quoteChar (c : Char) : List Char := if c = '\'' then ['\'', '\\', '\'', '\''] else [c]

def quote (text : List Char) : List Char := '\'' :: (text.flatMap quoteChar ++ ['\''])

/-- What command lines are written from. -/
inductive Lexeme
  | bare (text : List Char)
  | quotation (text : List Char)
  | operator (text : List Char)

namespace Lexeme

def written : Lexeme → List Char
  | .bare text | .operator text => text
  | .quotation text => quote text

def token : Lexeme → Token
  | .bare text => .word (unquoted text)
  | .quotation text => .word (quoted text)
  | .operator text => .operator text

def isWord : Lexeme → Bool
  | .bare text => text ≠ [] && !reservedWords.contains text && standsForItself text
  | .quotation _ => true
  | .operator _ => false

def word : Lexeme → List Char
  | .bare text | .quotation text | .operator text => text

def isLexeme : Lexeme → Bool
  | .operator text => operators.contains text
  | lexeme => lexeme.isWord

/-- The lexemes with blanks between them. -/
def spaced : List Lexeme → List Char
  | [] => []
  | [lexeme] => lexeme.written
  | lexeme :: rest => lexeme.written ++ ' ' :: spaced rest

end Lexeme

def Connector.text : Connector → List Char
  | .andIf => ['&', '&']
  | .orIf => ['|', '|']
  | .pipe => ['|']
  | .sequential => [';']
  | .background => ['&']

/-- A command as it is written, each redirection by its operator and its target. -/
structure Clause where
  words : List Lexeme
  redirects : List (List Char × Lexeme)

namespace Clause

def isClause (clause : Clause) : Bool :=
  !clause.words.isEmpty && clause.words.all Lexeme.isWord &&
    clause.redirects.all fun redirect => redirections.contains redirect.1 && redirect.2.isWord

def lexemes (clause : Clause) : List Lexeme :=
  clause.words ++ clause.redirects.flatMap fun redirect => [.operator redirect.1, redirect.2]

def command (clause : Clause) : Command :=
  ⟨[], clause.words.map Lexeme.word,
    clause.redirects.map fun redirect => ⟨[], redirect.1, redirect.2.word⟩⟩

end Clause

structure Line where
  connected : List (Clause × Connector)
  last : Clause

namespace Line

def isLine (line : Line) : Bool :=
  line.connected.all (fun part => part.1.isClause) && line.last.isClause

def lexemes (line : Line) : List Lexeme :=
  (line.connected.flatMap fun part => part.1.lexemes ++ [.operator part.2.text]) ++ line.last.lexemes

def text (line : Line) : List Char := Lexeme.spaced line.lexemes

def script (line : Line) : Script :=
  ⟨line.connected.map fun part => (part.1.command, part.2), some line.last.command⟩

end Line

theorem kind_plain_of_all {text : List Char} (h : standsForItself text = true) :
    (∀ c ∈ text, kind c = .plain) ∧ text.head? ≠ some '#' := by
  simp only [standsForItself, Bool.and_eq_true, List.all_eq_true, decide_eq_true_eq] at h
  exact ⟨h.1.1.1, h.1.1.2⟩

namespace Scan

/-- A word goes on with plain characters. -/
theorem run_plain {text : List Char} (h : ∀ c ∈ text, kind c = .plain) (tokens : List Token)
    (pieces : List Piece) :
    text.foldlM next ⟨tokens, .word pieces⟩ = some ⟨tokens, .word (pieces ++ unquoted text)⟩ := by
  induction text generalizing pieces with
  | nil => simp [unquoted]
  | cons c rest ih =>
    have hc : next ⟨tokens, .word pieces⟩ c = some ⟨tokens, .word (pieces ++ [(c, false)])⟩ := by
      simp [next, inWord, h c List.mem_cons_self]
    rw [List.foldlM_cons, hc]
    simpa [unquoted] using ih (fun d hd => h d (List.mem_cons_of_mem c hd)) (pieces ++ [(c, false)])

theorem run_bare {text : List Char} (hne : text ≠ []) (h : standsForItself text = true)
    (tokens : List Token) :
    text.foldlM next ⟨tokens, .blank⟩ = some ⟨tokens, .word (unquoted text)⟩ := by
  obtain ⟨hplain, hhead⟩ := kind_plain_of_all h
  cases text with
  | nil => exact absurd rfl hne
  | cons c rest =>
    have hhash : c ≠ '#' := by simpa using hhead
    have hc : next ⟨tokens, .blank⟩ c = some ⟨tokens, .word [(c, false)]⟩ := by
      simp [next, beginToken, hplain c List.mem_cons_self, hhash]
    rw [List.foldlM_cons, hc]
    simpa [unquoted] using
      run_plain (fun d hd => hplain d (List.mem_cons_of_mem c hd)) tokens [(c, false)]

theorem run_quoteChar (c : Char) (tokens : List Token) (pieces : List Piece) :
    (quoteChar c).foldlM next ⟨tokens, .single pieces⟩ =
      some ⟨tokens, .single (pieces ++ [(c, true)])⟩ := by
  by_cases hc : c = '\''
  · subst c
    rfl
  · simp [quoteChar, hc, next]

theorem run_quoteChars (text : List Char) (tokens : List Token) (pieces : List Piece) :
    (text.flatMap quoteChar).foldlM next ⟨tokens, .single pieces⟩ =
      some ⟨tokens, .single (pieces ++ quoted text)⟩ := by
  induction text generalizing pieces with
  | nil => simp [quoted]
  | cons c rest ih =>
    rw [List.flatMap_cons, List.foldlM_append, run_quoteChar]
    simpa [quoted] using ih (pieces ++ [(c, true)])

/-- A quotation is one word, with nothing in it special. -/
theorem run_quote (text : List Char) (tokens : List Token) :
    (quote text).foldlM next ⟨tokens, .blank⟩ = some ⟨tokens, .word (quoted text)⟩ := by
  have hopen : next ⟨tokens, .blank⟩ '\'' = some ⟨tokens, .single []⟩ := rfl
  rw [quote, List.foldlM_cons, hopen]
  simp [List.foldlM_append, run_quoteChars, next]

theorem run_operator {text : List Char} (h : text ∈ operators) (tokens : List Token) :
    text.foldlM next ⟨tokens, .blank⟩ = some ⟨tokens, .operator text⟩ := by
  simp only [operators, List.mem_cons, List.not_mem_nil, or_false] at h
  rcases h with h | h | h | h | h | h | h | h | h | h | h | h | h | h | h | h | h | h <;> subst h <;> rfl

theorem operator_blank (text : List Char) : text ++ [' '] ∉ operators := by
  intro h
  have hlast : ∀ op ∈ operators, op.getLast? ≠ some ' ' := by decide
  exact hlast _ h (by simp)

end Scan

namespace Lexeme

/-- What a lexeme leaves the reader in. -/
def mode : Lexeme → Mode
  | .bare text => .word (unquoted text)
  | .quotation text => .word (quoted text)
  | .operator text => .operator text

theorem run_written {lexeme : Lexeme} (h : lexeme.isLexeme = true) (tokens : List Token) :
    lexeme.written.foldlM Scan.next ⟨tokens, .blank⟩ = some ⟨tokens, lexeme.mode⟩ := by
  cases lexeme with
  | bare text =>
    simp only [isLexeme, isWord, Bool.and_eq_true, decide_eq_true_eq] at h
    exact Scan.run_bare h.1.1 h.2 tokens
  | quotation text => exact Scan.run_quote text tokens
  | operator text =>
    have hop : text ∈ operators := by simpa [isLexeme] using h
    exact Scan.run_operator hop tokens

theorem next_blank (lexeme : Lexeme) (tokens : List Token) :
    Scan.next ⟨tokens, lexeme.mode⟩ ' ' = some ⟨tokens ++ [lexeme.token], .blank⟩ := by
  cases lexeme with
  | bare text => rfl
  | quotation text => rfl
  | operator text =>
    simp only [Scan.next, mode, if_neg (Scan.operator_blank text)]
    rfl

theorem finish_mode (lexeme : Lexeme) (tokens : List Token) :
    Scan.finish ⟨tokens, lexeme.mode⟩ = some (tokens ++ [lexeme.token]) := by
  cases lexeme <;> rfl

theorem run_spaced {lexemes : List Lexeme} (h : ∀ lexeme ∈ lexemes, lexeme.isLexeme = true)
    (tokens : List Token) :
    ((spaced lexemes).foldlM Scan.next ⟨tokens, .blank⟩).bind Scan.finish =
      some (tokens ++ lexemes.map token) := by
  induction lexemes generalizing tokens with
  | nil => simp [spaced, Scan.finish]
  | cons lexeme rest ih =>
    have hlexeme := run_written (h lexeme List.mem_cons_self) tokens
    cases rest with
    | nil => simp [spaced, hlexeme, finish_mode]
    | cons second rest =>
      have hrest := ih (fun l hl => h l (List.mem_cons_of_mem lexeme hl)) (tokens ++ [lexeme.token])
      simp [spaced, List.foldlM_append, hlexeme, next_blank, hrest]

/-- A text is read as the lexemes that it is written from. -/
theorem tokenize_spaced {lexemes : List Lexeme} (h : ∀ lexeme ∈ lexemes, lexeme.isLexeme = true) :
    tokenize (spaced lexemes) = some (lexemes.map token) := by
  simpa [tokenize, Scan.start] using run_spaced h []

end Lexeme

theorem unquoted_injective : Function.Injective unquoted :=
  List.map_injective_iff.mpr fun _ _ h => (Prod.mk.inj h).1

theorem isPattern_quoted (text : List Char) : isPattern (quoted text) = false := by
  induction text with
  | nil => rfl
  | cons c rest ih =>
    rw [quoted, List.map_cons, ← quoted, isPattern, ih]
    simp

theorem literal_quoted (text : List Char) : literal (quoted text) = some text := by
  have hhead : (quoted text).head? ≠ some ('~', false) := by simp [quoted]
  rw [literal, if_neg (by simp [hhead, isPattern_quoted])]
  simp [quoted, Function.comp_def]

theorem assignment_quoted (text : List Char) : assignment (quoted text) = none := by
  have hnone : ∀ piece ∈ quoted text, piece ≠ ('=', false) := by simp [quoted]
  unfold assignment
  rw [List.dropWhile_eq_nil_iff.mpr (by simpa using hnone)]

theorem literal_unquoted {text word : List Char} (h : literal (unquoted text) = some word) :
    word = text := by
  unfold literal at h
  split at h
  next => cases h
  next => simpa [unquoted, Function.comp_def] using (Option.some.inj h).symm

/-- A word stands in the line as what it is. -/
theorem Lexeme.token_word {lexeme : Lexeme} (h : lexeme.isWord = true) : ∃ pieces,
    lexeme.token = .word pieces ∧ literal pieces = some lexeme.word ∧ assignment pieces = none ∧
      pieces ∉ reservedWords.map unquoted := by
  cases lexeme with
  | bare text =>
    simp only [isWord, standsForItself, Bool.and_eq_true, Bool.not_eq_true',
      Option.isNone_iff_eq_none] at h
    obtain ⟨⟨-, hreserved⟩, ⟨⟨-, hliteral⟩, hassign⟩⟩ := h
    obtain ⟨word, hword⟩ := Option.isSome_iff_exists.mp hliteral
    rw [literal_unquoted hword] at hword
    refine ⟨_, rfl, hword, hassign, fun hmem => ?_⟩
    obtain ⟨word, hword, heq⟩ := List.mem_map.mp hmem
    rw [unquoted_injective heq] at hword
    simp [hword] at hreserved
  | quotation text =>
    refine ⟨_, rfl, literal_quoted text, assignment_quoted text, fun hmem => ?_⟩
    obtain ⟨word, hword, heq⟩ := List.mem_map.mp hmem
    have hne : ∀ word ∈ reservedWords, word ≠ [] := by decide
    cases word with
    | nil => exact hne [] hword rfl
    | cons c rest => cases text <;> simp [unquoted, quoted] at heq
  | operator text => cases h

namespace Reading

variable {r : Reading}

theorem next_word {lexeme : Lexeme} (h : lexeme.isWord = true) (hr : r.expected = .any) :
    r.next lexeme.token = some (r.push lexeme.word) := by
  obtain ⟨pieces, htoken, hliteral, hassign, hreserved⟩ := Lexeme.token_word h
  simp only [htoken, next, hr]
  unfold addWord
  split
  next => rw [hliteral]; rfl
  next => rw [hassign, if_neg (fun hboth => hreserved hboth.2), hliteral]; rfl

theorem run_words {words : List Lexeme} (h : ∀ lexeme ∈ words, lexeme.isWord = true)
    (hr : r.expected = .any) : (words.map Lexeme.token).foldlM next r =
      some ((words.map Lexeme.word).foldl push r) := by
  induction words generalizing r with
  | nil => rfl
  | cons lexeme rest ih =>
    obtain ⟨hword, hrest⟩ := List.forall_mem_cons.mp h
    rw [List.map_cons, List.foldlM_cons, next_word hword hr]
    exact ih hrest hr

theorem next_redirect {operator : List Char} {lexeme : Lexeme} (hop : operator ∈ redirections)
    (h : lexeme.isWord = true) (hr : r.expected = .any) :
    [.operator operator, lexeme.token].foldlM next r =
      some (r.addRedirect ⟨[], operator, lexeme.word⟩) := by
  obtain ⟨pieces, htoken, hliteral, -⟩ := Lexeme.token_word h
  have hfirst : r.next (.operator operator) = some { r with expected := .target [] operator } := by
    simp [next, hr, hop]
  rw [List.foldlM_cons, hfirst, htoken]
  simp [next, redirect, hliteral, addRedirect]

theorem run_redirects {redirects : List (List Char × Lexeme)}
    (h : ∀ redirect ∈ redirects, redirect.1 ∈ redirections ∧ redirect.2.isWord = true)
    (hr : r.expected = .any) :
    ((redirects.flatMap fun redirect => [.operator redirect.1, redirect.2]).map
        Lexeme.token).foldlM next r =
      some ((redirects.map fun redirect => ⟨[], redirect.1, redirect.2.word⟩).foldl addRedirect r) := by
  induction redirects generalizing r with
  | nil => rfl
  | cons redirect rest ih =>
    obtain ⟨⟨hop, hword⟩, hrest⟩ := List.forall_mem_cons.mp h
    have hfirst := next_redirect hop hword hr
    rw [List.flatMap_cons, List.map_append, List.foldlM_append, List.map_cons, List.map_cons,
      List.map_nil, Lexeme.token, hfirst]
    exact ih hrest rfl

theorem foldl_push (words : List (List Char)) (r : Reading) : words.foldl push r =
    { r with command := { r.command with words := r.command.words ++ words } } := by
  induction words generalizing r with
  | nil => simp
  | cons word rest ih => simp [ih, push]

theorem foldl_addRedirect {redirects : List Redirect} (hr : r.expected = .any) :
    redirects.foldl addRedirect r =
      { r with command := { r.command with redirects := r.command.redirects ++ redirects } } := by
  induction redirects generalizing r with
  | nil => simp
  | cons redirect rest ih =>
    rw [List.foldl_cons, ih rfl]
    simp [addRedirect, hr]

/-- A clause is read as its command. -/
theorem run_clause {clause : Clause} (h : clause.isClause = true)
    (connected : List (Command × Connector)) :
    (clause.lexemes.map Lexeme.token).foldlM next ⟨connected, .empty, .any⟩ =
      some ⟨connected, clause.command, .any⟩ := by
  simp only [Clause.isClause, Bool.and_eq_true, List.all_eq_true, List.contains_iff_mem] at h
  obtain ⟨⟨-, hwords⟩, hredirects⟩ := h
  rw [Clause.lexemes, List.map_append, List.foldlM_append, run_words hwords rfl, foldl_push]
  show List.foldlM next _ _ = _
  rw [run_redirects hredirects rfl, foldl_addRedirect rfl]
  rfl

theorem command_ne_empty {clause : Clause} (h : clause.isClause = true) :
    clause.command ≠ .empty := by
  simp only [Clause.isClause, Bool.and_eq_true, Bool.not_eq_true', List.isEmpty_eq_false_iff] at h
  intro hempty
  exact h.1.1 (List.map_eq_nil_iff.mp (congrArg Command.words hempty))

theorem next_connector {clause : Clause} (h : clause.isClause = true)
    (connected : List (Command × Connector)) (c : Connector) :
    next ⟨connected, clause.command, .any⟩ (.operator c.text) =
      some ⟨connected ++ [(clause.command, c)], .empty, .any⟩ := by
  have hne := command_ne_empty h
  have hconnector : connectorOf c.text = some c ∧ c.text ∉ redirections := by cases c <;> decide
  simp [next, connect, hne, hconnector]

theorem run_connected {parts : List (Clause × Connector)}
    (h : ∀ part ∈ parts, part.1.isClause = true) (connected : List (Command × Connector)) :
    ((parts.flatMap fun part => part.1.lexemes ++ [.operator part.2.text]).map
        Lexeme.token).foldlM next ⟨connected, .empty, .any⟩ =
      some ⟨connected ++ parts.map fun part => (part.1.command, part.2), .empty, .any⟩ := by
  induction parts generalizing connected with
  | nil => simp
  | cons part rest ih =>
    obtain ⟨hclause, hrest⟩ := List.forall_mem_cons.mp h
    have hlast := next_connector hclause connected part.2
    simp only [List.flatMap_cons, List.map_append, List.foldlM_append, run_clause hclause,
      List.map_cons, List.map_nil, List.foldlM_cons, List.foldlM_nil, Lexeme.token,
      Option.bind_eq_bind, Option.bind_some, hlast, Option.pure_def, ih hrest]
    simp

end Reading

theorem Clause.isLexeme_of_mem {clause : Clause} (h : clause.isClause = true) {lexeme : Lexeme}
    (hmem : lexeme ∈ clause.lexemes) : lexeme.isLexeme = true := by
  have hword : ∀ l : Lexeme, l.isWord = true → l.isLexeme = true := by
    intro l hl
    cases l with
    | operator text => cases hl
    | bare text => exact hl
    | quotation text => exact hl
  have hoperator : ∀ op ∈ redirections, operators.contains op = true := by decide
  simp only [isClause, Bool.and_eq_true, List.all_eq_true, List.contains_iff_mem] at h
  obtain ⟨⟨-, hwords⟩, hredirects⟩ := h
  rcases List.mem_append.mp hmem with hmem | hmem
  · exact hword lexeme (hwords lexeme hmem)
  · obtain ⟨redirect, hredirect, hmem⟩ := List.mem_flatMap.mp hmem
    obtain ⟨hop, htarget⟩ := hredirects redirect hredirect
    rcases List.mem_pair.mp hmem with rfl | rfl
    · exact hoperator _ hop
    · exact hword _ htarget

/-- What is written as a line is read as that line. -/
theorem Line.read_text {line : Line} (h : line.isLine = true) : read line.text = some line.script := by
  simp only [isLine, Bool.and_eq_true, List.all_eq_true] at h
  obtain ⟨hconnected, hlast⟩ := h
  have hlexemes : ∀ lexeme ∈ line.lexemes, lexeme.isLexeme = true := by
    intro lexeme hmem
    rcases List.mem_append.mp hmem with hmem | hmem
    · obtain ⟨part, hpart, hmem⟩ := List.mem_flatMap.mp hmem
      rcases List.mem_append.mp hmem with hmem | hmem
      · exact Clause.isLexeme_of_mem (hconnected part hpart) hmem
      · rw [List.mem_singleton.mp hmem]
        cases part.2 <;> decide
    · exact Clause.isLexeme_of_mem hlast hmem
  have hparse : (line.lexemes.map Lexeme.token).foldlM Reading.next .start =
      some ⟨line.connected.map fun part => (part.1.command, part.2), line.last.command, .any⟩ := by
    rw [lexemes, List.map_append, List.foldlM_append, Reading.start,
      Reading.run_connected hconnected]
    exact Reading.run_clause hlast _
  rw [read, text, Lexeme.tokenize_spaced hlexemes, Option.bind_some, parse, hparse]
  simp [Reading.finish, Reading.command_ne_empty hlast, script]

def Token.pieces : Token → List Piece
  | .word pieces => pieces
  | .ioNumber _ | .operator _ => []

/-- How much of the text became characters of words. -/
def Mode.size : Mode → Nat
  | .blank | .comment | .operator _ => 0
  | .word pieces | .single pieces | .double pieces | .escape _ pieces => pieces.length
  | .doubleEscape pieces => pieces.length + 1

def wordChars (tokens : List Token) : Nat := (tokens.flatMap Token.pieces).length

section Exact

@[simp] theorem wordChars_append (first second : List Token) :
    wordChars (first ++ second) = wordChars first + wordChars second := by
  simp [wordChars]

@[simp] theorem wordChars_word (pieces : List Piece) : wordChars [.word pieces] = pieces.length := by
  simp [wordChars, Token.pieces]

@[simp] theorem wordChars_operator (text : List Char) : wordChars [.operator text] = 0 := rfl

namespace Scan

def size (s : Scan) : Nat := wordChars s.tokens + s.mode.size

variable {s t : Scan} {tokens : List Token} {pieces : List Piece} {text : List Char} {c : Char}

theorem beginToken_cases (h : beginToken tokens c = some s) : s.size ≤ wordChars tokens ∨
    kind c = .plain ∧ c ≠ '#' ∧ s = ⟨tokens, .word [(c, false)]⟩ := by
  unfold beginToken at h
  cases hk : kind c with
  | expansion => simp [hk] at h
  | plain =>
    obtain rfl : ⟨tokens, if c = '#' then .comment else .word [(c, false)]⟩ = s := by simpa [hk] using h
    by_cases hhash : c = '#'
    · simp [hhash, size, Mode.size]
    · exact .inr ⟨rfl, hhash, by rw [if_neg hhash]⟩
  | blank | operator | single | double | backslash =>
    simp only [hk, Option.some.injEq] at h
    subst h
    exact .inl (Nat.le_refl _)

theorem inWord_cases (h : inWord tokens pieces c = some s) :
    s.size ≤ wordChars tokens + pieces.length ∨
      kind c = .plain ∧ s = ⟨tokens, .word (pieces ++ [(c, false)])⟩ := by
  unfold inWord at h
  cases hk : kind c with
  | expansion => simp [hk] at h
  | plain => exact .inr ⟨rfl, by simpa [hk] using h.symm⟩
  | operator =>
    simp only [hk, Option.some.injEq] at h
    subst h
    refine .inl ?_
    unfold wordBefore size
    split <;> simp [wordChars, Token.pieces, Mode.size]
  | blank | single | double | backslash =>
    simp only [hk, Option.some.injEq] at h
    subst h
    simp [size, Mode.size]

theorem inDouble_size (h : inDouble tokens pieces c = some s) :
    s.size ≤ wordChars tokens + pieces.length + 1 := by
  unfold inDouble at h
  cases hk : kind c with
  | expansion => simp [hk] at h
  | blank | plain | operator | single | double | backslash =>
    simp only [hk, Option.some.injEq] at h
    subst h
    simp only [size, Mode.size, List.length_append, List.length_singleton]
    omega

/-- A character of the text becomes at most one character of a word. -/
theorem next_size (h : s.next c = some t) : t.size ≤ s.size + 1 := by
  obtain ⟨tokens, mode⟩ := s
  cases mode with
  | blank =>
    rcases beginToken_cases h with hle | ⟨-, -, rfl⟩
    · exact Nat.le_succ_of_le hle
    · exact Nat.le_refl _
  | comment =>
    simp only [next, Option.some.injEq] at h
    subst h
    split <;> simp [size, Mode.size]
  | word pieces =>
    rcases inWord_cases h with hle | ⟨-, rfl⟩
    · exact Nat.le_succ_of_le hle
    · simp [size, Mode.size, Nat.add_assoc]
  | single pieces =>
    simp only [next, Option.some.injEq] at h
    subst h
    by_cases hc : c = '\'' <;> simp [hc, size, Mode.size, Nat.add_assoc]
  | double pieces => exact inDouble_size h
  | escape started pieces =>
    simp only [next, afterEscape, Option.some.injEq] at h
    subst h
    by_cases hc : c = '\n' <;> cases started <;> simp [hc, size, Mode.size, Nat.add_assoc]
  | doubleEscape pieces =>
    simp only [next, afterDoubleEscape, Option.some.injEq] at h
    subst h
    by_cases hc : c = '\n'
    · simp [hc, size, Mode.size, Nat.add_assoc]
    · rw [if_neg hc]
      split <;> simp [size, Mode.size, Nat.add_assoc]
  | operator text =>
    simp only [next] at h
    split at h
    next =>
      obtain rfl := Option.some.inj h
      simp [size, Mode.size]
    next =>
      rcases beginToken_cases h with hle | ⟨-, -, rfl⟩
      · simpa [size, Mode.size] using Nat.le_succ_of_le hle
      · simp [size, Mode.size]

/-- The text is read as the beginning of one word, each character as itself. -/
structure Literally (text : List Char) (s : Scan) : Prop where
  plain : ∀ c ∈ text, kind c = .plain
  comment : text.head? ≠ some '#'
  state : s = if text = [] then start else ⟨[], .word (unquoted text)⟩

theorem Literally.next (h : Literally text s) (hnext : s.next c = some t)
    (hsize : s.size + 1 ≤ t.size) : Literally (text ++ [c]) t := by
  obtain ⟨hplain, hcomment, rfl⟩ := h
  cases text with
  | nil =>
    rcases beginToken_cases hnext with hle | ⟨hc, hhash, rfl⟩
    · exact absurd (Nat.le_trans hsize hle) (by decide)
    · exact ⟨by simpa using hc, by simpa using hhash, rfl⟩
  | cons first rest =>
    rcases inWord_cases hnext with hle | ⟨hc, rfl⟩
    · exact absurd (Nat.le_trans hsize hle) (by simp [size, Mode.size])
    · refine ⟨?_, hcomment, by simp [unquoted]⟩
      intro d hd
      rcases List.mem_append.mp hd with hd | hd
      · exact hplain d hd
      · rwa [List.mem_singleton.mp hd]

/-- Only a text read literally becomes as many characters of words as it has. -/
theorem run_literally (h : text.foldlM next start = some s) :
    s.size ≤ text.length ∧ (text.length ≤ s.size → Literally text s) := by
  induction text using List.reverseRecOn generalizing s with
  | nil =>
    obtain rfl : start = s := by simpa using h
    exact ⟨Nat.le_refl _, fun _ => ⟨nofun, nofun, rfl⟩⟩
  | append_singleton text c ih =>
    rw [List.foldlM_append] at h
    obtain ⟨before, hbefore, hlast⟩ := Option.bind_eq_some_iff.mp h
    have hnext : before.next c = some s := by simpa using hlast
    obtain ⟨hle, hliterally⟩ := ih hbefore
    have hstep := next_size hnext
    rw [List.length_append, List.length_singleton]
    refine ⟨by omega, fun hfull => ?_⟩
    exact (hliterally (by omega)).next hnext (by omega)

theorem finish_wordChars (h : s.finish = some tokens) : wordChars tokens = s.size := by
  obtain ⟨before, mode⟩ := s
  unfold finish at h
  cases mode with
  | blank | comment | word | operator =>
    simp only [Option.some.injEq] at h
    subst h
    simp [size, Mode.size]
  | single | double | escape | doubleEscape => cases h

end Scan

namespace Reading

variable {r r' : Reading}

/-- A token gives the words no more characters than it has. -/
theorem addWord_flatten {pieces : List Piece} (h : r.addWord pieces = some r') :
    r'.command.words.flatten.length ≤ r.command.words.flatten.length + pieces.length := by
  have hpush : (literal pieces).map r.push = some r' →
      r'.command.words.flatten.length ≤ r.command.words.flatten.length + pieces.length := by
    intro hword
    obtain ⟨word, hliteral, rfl⟩ := Option.map_eq_some_iff.mp hword
    unfold literal at hliteral
    split at hliteral
    next => cases hliteral
    next =>
      obtain rfl := Option.some.inj hliteral
      simp [push]
  unfold addWord at h
  split at h
  next => exact hpush h
  next =>
    split at h
    next name value _ =>
      split at h
      next => cases h
      next =>
        obtain rfl := Option.some.inj h
        exact Nat.le_add_right ..
    next =>
      split at h
      next => cases h
      next => exact hpush h

theorem connect_flatten {text : List Char} (h : r.connect text = some r') :
    r'.command.words.flatten.length ≤ r.command.words.flatten.length := by
  unfold connect at h
  split at h
  next =>
    split at h
    next => rw [Option.some.inj h]
    next => cases h
  next =>
    obtain ⟨connector, -, rfl⟩ := Option.map_eq_some_iff.mp h
    exact Nat.zero_le _

/-- A token gives the words no more characters than it has. -/
theorem next_flatten {token : Token} (h : r.next token = some r') :
    r'.command.words.flatten.length ≤ r.command.words.flatten.length + token.pieces.length := by
  unfold next at h
  split at h
  next => exact addWord_flatten h
  next =>
    obtain rfl := Option.some.inj h
    exact Nat.le_add_right ..
  next =>
    split at h
    next =>
      obtain rfl := Option.some.inj h
      exact Nat.le_add_right ..
    next => exact connect_flatten h
  next =>
    split at h
    next =>
      obtain rfl := Option.some.inj h
      exact Nat.le_add_right ..
    next => cases h
  next =>
    obtain ⟨target, -, rfl⟩ := Option.map_eq_some_iff.mp h
    exact Nat.le_add_right ..
  next => cases h

theorem run_flatten {tokens : List Token} (h : tokens.foldlM next r = some r') :
    r'.command.words.flatten.length ≤ r.command.words.flatten.length + wordChars tokens := by
  induction tokens generalizing r with
  | nil =>
    obtain rfl : r = r' := by simpa using h
    exact Nat.le_refl _
  | cons token rest ih =>
    rw [List.foldlM_cons] at h
    obtain ⟨middle, hnext, hrest⟩ := Option.bind_eq_some_iff.mp h
    have hfirst := next_flatten hnext
    have hsum : wordChars (token :: rest) = token.pieces.length + wordChars rest := by
      simp [wordChars]
    have := ih hrest
    omega

theorem finish_words {word : List Char} (h : r.finish = some (.words [word])) :
    r.command = ⟨[], [word], []⟩ := by
  unfold finish at h
  split at h
  next => cases h
  next =>
    split at h
    next => exact Option.some.inj (congrArg Script.last (Option.some.inj h))
    next =>
      split at h
      next => cases h
      next => cases h
      next => cases h
      next => simp [Script.words] at h

end Reading

theorem parse_word {pieces : List Piece} {word : List Char}
    (h : parse [.word pieces] = some (.words [word])) : (literal pieces).isSome ∧
      assignment pieces = none ∧ pieces ∉ reservedWords.map unquoted := by
  obtain ⟨r, hrun, hfinish⟩ := Option.bind_eq_some_iff.mp h
  have hcommand := Reading.finish_words hfinish
  have hadd : Reading.start.addWord pieces = some r := by
    simpa [Reading.next, show Reading.start.expected = .any from rfl] using hrun
  rw [Reading.addWord, if_neg (by simp [Reading.start, Command.empty])] at hadd
  split at hadd
  next name value _ =>
    split at hadd
    next => cases hadd
    next =>
      obtain rfl := Option.some.inj hadd
      simp at hcommand
  next hassign =>
    split at hadd
    next => cases hadd
    next hreserved =>
      obtain ⟨target, hliteral, -⟩ := Option.map_eq_some_iff.mp hadd
      refine ⟨by rw [hliteral]; rfl, hassign, fun hmem => hreserved ⟨rfl, hmem⟩⟩

/-- Without quotes a text is one word equal to itself exactly when nothing in it is special. -/
theorem read_eq_word_iff (text : List Char) : read text = some (.words [text]) ↔
    (Lexeme.bare text).isWord = true := by
  constructor
  · intro h
    obtain ⟨tokens, htokens, hparse⟩ := Option.bind_eq_some_iff.mp h
    obtain ⟨s, hscan, hfinish⟩ := Option.bind_eq_some_iff.mp htokens
    obtain ⟨r, hrun, hwords⟩ := Option.bind_eq_some_iff.mp hparse
    obtain ⟨hle, hliterally⟩ := Scan.run_literally hscan
    have hchars := Reading.run_flatten hrun
    have hsize := Scan.finish_wordChars hfinish
    have hcommand := Reading.finish_words hwords
    have hfull : text.length ≤ s.size := by
      rw [hcommand] at hchars
      simpa [hsize, Reading.start, Command.empty] using hchars
    obtain ⟨hplain, hcomment, hstate⟩ := hliterally hfull
    have hne : text ≠ [] := by
      rintro rfl
      obtain rfl : tokens = [] := by simpa [hstate, Scan.finish, Scan.start] using hfinish.symm
      cases hparse
    rw [if_neg hne] at hstate
    obtain rfl : tokens = [.word (unquoted text)] := by
      simpa [hstate, Scan.finish] using hfinish.symm
    obtain ⟨hliteral, hassign, hreserved⟩ := parse_word hparse
    have hnot : text ∉ reservedWords := fun hmem => hreserved (List.mem_map_of_mem hmem)
    simpa [Lexeme.isWord, standsForItself, hne, hnot, hcomment, hliteral, hassign] using hplain
  · intro h
    have hline : (⟨[], ⟨[.bare text], []⟩⟩ : Line).isLine = true := by
      simpa [Line.isLine, Clause.isClause] using h
    exact Line.read_text hline

end Exact

section Paths

variable {back : List Piece}

theorem takeWhile_slash (front : List Piece) :
    (front ++ ('/', false) :: back).takeWhile (fun piece => piece.1 ≠ '/') =
      front.takeWhile fun piece => piece.1 ≠ '/' := by
  induction front with
  | nil => simp
  | cons piece front ih =>
    rw [List.cons_append, List.takeWhile_cons, List.takeWhile_cons, ih]

/-- A bracket expression does not reach over a slash. -/
theorem closesBracket_slash (front : List Piece) :
    closesBracket (front ++ ('/', false) :: back) = closesBracket front := by
  cases front with
  | nil => simp [closesBracket]
  | cons piece front =>
    unfold closesBracket
    rw [List.cons_append, List.head?_cons, List.head?_cons, List.tail_cons, List.tail_cons]
    split
    next => simp only [takeWhile_slash]
    next => simp only [← List.cons_append, takeWhile_slash]

theorem isPattern_slash (h : isPattern back = false) (front : List Piece) :
    isPattern (front ++ ('/', false) :: back) = isPattern front := by
  induction front with
  | nil => simp [isPattern, h]
  | cons piece front ih => rw [List.cons_append, isPattern, isPattern, closesBracket_slash, ih]

theorem assignment_append (h : ∀ piece ∈ back, piece ≠ ('=', false)) (front : List Piece) :
    (assignment (front ++ back)).isNone = (assignment front).isNone := by
  have hback : back.dropWhile (· ≠ ('=', false)) = [] :=
    List.dropWhile_eq_nil_iff.mpr (by simpa using h)
  unfold assignment
  cases hfront : front.dropWhile (· ≠ ('=', false)) with
  | nil => simp only [List.dropWhile_append, hfront, hback, List.isEmpty_nil, if_true]
  | cons equals value =>
    have hshort : (front.takeWhile (· ≠ ('=', false))).length ≠ front.length := by
      have hsplit := congrArg List.length (List.takeWhile_append_dropWhile
        (p := fun piece => decide (piece ≠ ('=', false))) (l := front))
      rw [hfront, List.length_append, List.length_cons] at hsplit
      omega
    simp only [List.dropWhile_append, List.takeWhile_append, hfront, List.isEmpty_cons,
      Bool.false_eq_true, if_false, List.cons_append, if_neg hshort]
    split <;> rfl

theorem literal_isSome (pieces : List Piece) : (literal pieces).isSome =
    (pieces.head? ≠ some ('~', false) && !isPattern pieces) := by
  unfold literal
  split
  next h => rcases h with h | h <;> simp [h]
  next h => simp [not_or.mp h]

/-- Not special at any place of a word. -/
def isOrdinary (c : Char) : Bool :=
  kind c = .plain && c ≠ '#' && c ≠ '~' && c ≠ '*' && c ≠ '?' && c ≠ '[' && c ≠ '='

theorem standsForItself_of_all {text : List Char} (h : text.all isOrdinary = true) :
    standsForItself text = true := by
  have hordinary : ∀ c ∈ text, isOrdinary c = true := List.all_eq_true.mp h
  have hhead : ∀ c, isOrdinary c = false → text.head? ≠ some c := fun c hc hhead => by
    rw [hordinary c (List.mem_of_mem_head? hhead)] at hc
    cases hc
  have hpattern : isPattern (unquoted text) = false := by
    clear hhead hordinary
    induction text with
    | nil => rfl
    | cons c rest ih =>
      obtain ⟨hc, hrest⟩ := Bool.and_eq_true_iff.mp h
      have hnot : c ≠ '*' ∧ c ≠ '?' ∧ c ≠ '[' := by
        simp only [isOrdinary, Bool.and_eq_true, decide_eq_true_eq] at hc
        exact ⟨hc.1.1.1.2, hc.1.1.2, hc.1.2⟩
      rw [unquoted, List.map_cons, ← unquoted, isPattern, ih hrest]
      simp [hnot]
  have hassign : (assignment (unquoted text)).isNone = true := by
    refine assignment_append (fun piece hmem hequals => ?_) []
    subst hequals
    exact absurd (hordinary '=' (by simpa [unquoted] using hmem)) (by decide)
  have htilde : (unquoted text).head? ≠ some ('~', false) := by
    have := hhead '~' (by decide)
    simpa [unquoted] using this
  have hliteral : (literal (unquoted text)).isSome = true := by
    simp [literal_isSome, hpattern, htilde]
  have hplain : text.all (fun c => kind c = .plain) = true :=
    List.all_eq_true.mpr fun c hc => by
      have := hordinary c hc
      simp only [isOrdinary, Bool.and_eq_true] at this
      exact this.1.1.1.1.1.1
  rw [standsForItself, hplain, hassign, hliteral]
  simpa using hhead '#' (by decide)

/-- What is behind a slash does not make a path special, unless it is special itself. -/
theorem standsForItself_slash {back : List Char} (h : standsForItself ('/' :: back) = true)
    (heq : '=' ∉ back) (front : List Char) :
    standsForItself (front ++ '/' :: back) = standsForItself front := by
  cases front with
  | nil => exact h
  | cons c front =>
    have hunquoted : unquoted (c :: front ++ '/' :: back) =
        unquoted (c :: front) ++ ('/', false) :: unquoted back := by simp [unquoted]
    have hassign : (assignment (unquoted (c :: front ++ '/' :: back))).isNone =
        (assignment (unquoted (c :: front))).isNone := by
      rw [hunquoted]
      refine assignment_append ?_ _
      intro piece hmem hequals
      subst hequals
      exact heq (by simpa [unquoted] using hmem)
    simp only [standsForItself, Bool.and_eq_true, literal_isSome, Bool.not_eq_true'] at h
    obtain ⟨⟨⟨hplain, -⟩, -, hpattern⟩, -⟩ := h
    have hback : isPattern (unquoted back) = false := by
      simpa [unquoted, isPattern] using hpattern
    have hliteral : (literal (unquoted (c :: front ++ '/' :: back))).isSome =
        (literal (unquoted (c :: front))).isSome := by
      rw [literal_isSome, literal_isSome, hunquoted, isPattern_slash hback]
      rfl
    rw [standsForItself, standsForItself, hliteral, hassign, List.all_append, hplain, Bool.and_true]
    rfl

end Paths

end Shell
