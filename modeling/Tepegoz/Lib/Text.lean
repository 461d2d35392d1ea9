import Mathlib.Data.List.DropRight
import Tepegoz.Lib.Lines

namespace Text

def trim (text : List Char) : List Char :=
  (Lines.trimStart text).rdropWhile Lines.isWhitespace

def isAsciiWhitespace (c : Char) : Bool :=
  c = ' ' || c = '\t' || c = '\n' || c = '\x0c' || c = '\r'

/-- Of the letters only those of ASCII have another case. -/
def eqIgnoreAsciiCase (xs ys : List Char) : Bool := xs.map Char.toLower = ys.map Char.toLower

/-- The number of bytes in UTF-8. -/
def byteLen : List Char → Nat
  | [] => 0
  | c :: rest => c.utf8Size + byteLen rest

/-- A text cut at a byte, when a character ends there. -/
def splitAtByte : Nat → List Char → Option (List Char × List Char)
  | 0, text => some ([], text)
  | _ + 1, [] => none
  | n + 1, c :: rest =>
    if c.utf8Size ≤ n + 1 then
      (splitAtByte (n + 1 - c.utf8Size) rest).map fun cut => (c :: cut.1, cut.2)
    else none

/-- The text before and after the last place where a pattern that is not empty stands. -/
def rsplitOnce (pattern : List Char) : List Char → Option (List Char × List Char)
  | [] => none
  | c :: rest =>
    match rsplitOnce pattern rest with
    | some (before, after) => some (c :: before, after)
    | none =>
      if pattern.isPrefixOf (c :: rest) then some ([], (c :: rest).drop pattern.length) else none

section Bytes

@[simp] theorem byteLen_append (xs ys : List Char) :
    byteLen (xs ++ ys) = byteLen xs + byteLen ys := by
  induction xs with
  | nil => simp [byteLen]
  | cons c xs ih => simp [byteLen, ih, Nat.add_assoc]

theorem length_le_byteLen (text : List Char) : text.length ≤ byteLen text := by
  induction text with
  | nil => exact Nat.le_refl 0
  | cons c rest ih =>
    have hc := c.utf8Size_pos
    rw [List.length_cons, byteLen]
    omega

theorem splitAtByte_zero (text : List Char) : splitAtByte 0 text = some ([], text) := by
  cases text <;> rfl

theorem splitAtByte_append (before after : List Char) :
    splitAtByte (byteLen before) (before ++ after) = some (before, after) := by
  induction before with
  | nil => exact splitAtByte_zero after
  | cons c before ih =>
    have hc := c.utf8Size_pos
    obtain ⟨n, hn⟩ := Nat.exists_eq_add_of_lt (show 0 < byteLen (c :: before) by rw [byteLen]; omega)
    rw [Nat.zero_add] at hn
    rw [byteLen] at hn
    rw [List.cons_append, byteLen, hn, splitAtByte, if_pos (by omega), ← hn,
      Nat.add_sub_cancel_left, ih]
    rfl

theorem eq_of_splitAtByte {n : Nat} {text before after : List Char}
    (h : splitAtByte n text = some (before, after)) : text = before ++ after ∧ byteLen before = n := by
  induction text generalizing n before with
  | nil =>
    cases n with
    | zero => cases h; exact ⟨rfl, rfl⟩
    | succ n => cases h
  | cons c rest ih =>
    cases n with
    | zero => cases h; exact ⟨rfl, rfl⟩
    | succ n =>
      rw [splitAtByte] at h
      split at h
      next hc =>
        obtain ⟨⟨first, last⟩, hcut, heq⟩ := Option.map_eq_some_iff.mp h
        cases heq
        obtain ⟨rfl, hlen⟩ := ih hcut
        exact ⟨rfl, by rw [byteLen, hlen]; omega⟩
      next => cases h

/-- Slicing succeeds between two characters, and only there. -/
theorem splitAtByte_eq_some {n : Nat} {text before after : List Char} :
    splitAtByte n text = some (before, after) ↔ text = before ++ after ∧ byteLen before = n := by
  constructor
  · exact eq_of_splitAtByte
  · rintro ⟨rfl, rfl⟩
    exact splitAtByte_append before after

theorem utf8Size_of_le {c : Char} (h : c.val.toNat ≤ 127) : c.utf8Size = 1 :=
  if_pos (UInt32.le_iff_toNat_le.mpr h)

@[simp] theorem utf8Size_toLower (c : Char) : c.toLower.utf8Size = c.utf8Size := by
  unfold Char.toLower
  split
  next h =>
    have hupper : 65 ≤ c.val.toNat ∧ c.val.toNat ≤ 90 :=
      ⟨UInt32.le_iff_toNat_le.mp h.1, UInt32.le_iff_toNat_le.mp h.2⟩
    have hlower : (c.val + ('a'.val - 'A'.val)).toNat = c.val.toNat + 32 := by
      have hcase : ('a'.val - 'A'.val).toNat = 32 := by decide
      rw [UInt32.toNat_add, hcase]
      omega
    have hsize : c.utf8Size = 1 := utf8Size_of_le (by omega)
    rw [hsize]
    exact utf8Size_of_le (le_of_eq_of_le hlower (by omega))
  next => rfl

/-- Texts that differ in case only take the same number of bytes. -/
theorem byteLen_of_eqIgnoreAsciiCase {xs ys : List Char} (h : eqIgnoreAsciiCase xs ys = true) :
    byteLen xs = byteLen ys := by
  have hmap : ∀ text : List Char, byteLen (text.map Char.toLower) = byteLen text := by
    intro text
    induction text with
    | nil => rfl
    | cons c rest ih => rw [List.map_cons, byteLen, byteLen, ih, utf8Size_toLower]
  rw [← hmap xs, ← hmap ys, of_decide_eq_true h]

end Bytes

section LastPlace

variable {pattern text before after : List Char}

theorem eq_of_rsplitOnce (h : rsplitOnce pattern text = some (before, after)) :
    text = before ++ (pattern ++ after) := by
  induction text generalizing before with
  | nil => cases h
  | cons c rest ih =>
    rw [rsplitOnce] at h
    split at h
    next first last hrest =>
      cases h
      rw [ih hrest, List.cons_append]
    next =>
      split at h
      next hp =>
        cases h
        exact (List.prefix_iff_eq_append.mp (List.isPrefixOf_iff_prefix.mp hp)).symm
      next => cases h

/-- Where a pattern stands, the last place found is not further to the left. -/
theorem rsplitOnce_last (hp : pattern ≠ []) (front back : List Char) :
    ∃ before after, rsplitOnce pattern (front ++ (pattern ++ back)) = some (before, after) ∧
      front.length ≤ before.length := by
  induction front with
  | nil =>
    obtain ⟨c, rest, rfl⟩ := List.exists_cons_of_ne_nil hp
    rw [List.nil_append, List.cons_append, rsplitOnce]
    split
    next first last _ => exact ⟨_, _, rfl, Nat.zero_le _⟩
    next =>
      rw [if_pos (by simp)]
      exact ⟨_, _, rfl, Nat.le_refl 0⟩
  | cons c front ih =>
    obtain ⟨before, after, h, hle⟩ := ih
    rw [List.cons_append, rsplitOnce, h]
    exact ⟨c :: before, after, rfl, Nat.succ_le_succ hle⟩

end LastPlace

end Text
