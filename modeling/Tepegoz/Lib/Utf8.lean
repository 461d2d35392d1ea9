import Tepegoz.Lib.Lines

namespace Utf8

open Lines

/-- A character that is begun: its bits so far, how many bytes are still to come, and the range of the
next of them. -/
structure Begun where
  code : Nat
  more : Nat
  low : Nat
  high : Nat

def replacement : Char := '\uFFFD'

/-- The first bytes that more must follow. Their ranges leave out what is too long, a surrogate or
above the last character. -/
def lead (b : Nat) : Option Begun :=
  if 0xc2 ≤ b ∧ b ≤ 0xdf then some ⟨b % 32, 1, 0x80, 0xbf⟩
  else if b = 0xe0 then some ⟨0, 2, 0xa0, 0xbf⟩
  else if b = 0xed then some ⟨13, 2, 0x80, 0x9f⟩
  else if 0xe1 ≤ b ∧ b ≤ 0xef then some ⟨b % 16, 2, 0x80, 0xbf⟩
  else if b = 0xf0 then some ⟨0, 3, 0x90, 0xbf⟩
  else if 0xf1 ≤ b ∧ b ≤ 0xf3 then some ⟨b % 8, 3, 0x80, 0xbf⟩
  else if b = 0xf4 then some ⟨4, 3, 0x80, 0x8f⟩
  else none

/-- A byte between characters: the characters that it gives and what it begins. -/
def first (b : Nat) : List Char × Option Begun :=
  if b < 0x80 then ([.ofNat b], none)
  else match lead b with
    | some begun => ([], some begun)
    | none => ([replacement], none)

def next : Option Begun → Nat → List Char × Option Begun
  | none, b => first b
  | some begun, b =>
    if begun.low ≤ b ∧ b ≤ begun.high then
      let code := begun.code * 64 + b % 64
      if begun.more = 1 then ([.ofNat code], none) else ([], some ⟨code, begun.more - 1, 0x80, 0xbf⟩)
    else (replacement :: (first b).1, (first b).2)

/-- The text of the bytes, with one replacement for as many of them as could have begun a character. -/
def decodeFrom : Option Begun → List UInt8 → List Char
  | none, [] => []
  | some _, [] => [replacement]
  | begun, b :: rest => (next begun b.toNat).1 ++ decodeFrom (next begun b.toNat).2 rest

def fromUtf8Lossy (bytes : List UInt8) : List Char := decodeFrom none bytes

def encode (text : List Char) : List UInt8 := text.flatMap String.utf8EncodeChar

section Decoding

theorem decodeFrom_cons (begun : Option Begun) {n : Nat} (hn : n < 256) (rest : List UInt8) :
    decodeFrom begun (UInt8.ofNat n :: rest) =
      (next begun n).1 ++ decodeFrom (next begun n).2 rest := by
  have hbyte : (UInt8.ofNat n).toNat = n := by
    rw [UInt8.toNat_ofNat']
    exact Nat.mod_eq_of_lt hn
  cases begun <;> rw [decodeFrom, hbyte]

variable {code more low high b v : Nat}

/-- A byte in the range continues the character. -/
theorem next_more (hlow : low ≤ b) (hhigh : b ≤ high) :
    next (some ⟨code, more + 2, low, high⟩) b =
      ([], some ⟨code * 64 + b % 64, more + 1, 0x80, 0xbf⟩) := by
  rw [next, if_pos ⟨hlow, hhigh⟩]
  exact if_neg (by simp)

theorem next_last (hlow : low ≤ b) (hhigh : b ≤ high) :
    next (some ⟨code, 1, low, high⟩) b = ([.ofNat (code * 64 + b % 64)], none) := by
  rw [next, if_pos ⟨hlow, hhigh⟩]
  rfl

theorem next_lead {begun : Begun} (hb : 0x80 ≤ b) (h : lead b = some begun) :
    next none b = ([], some begun) := by
  rw [next, first, if_neg (Nat.not_lt.mpr hb), h]

theorem lead_two (hlow : 0x7f < v) (hhigh : v ≤ 0x7ff) :
    lead (v / 64 % 32 + 192) = some ⟨v / 64, 1, 0x80, 0xbf⟩ := by
  rw [lead, if_pos (by omega), show (v / 64 % 32 + 192) % 32 = v / 64 by omega]

/-- The range after the first byte has what a character has there. -/
theorem lead_three (hlow : 0x7ff < v) (hhigh : v ≤ 0xffff) (hvalid : v < 0xd800 ∨ 0xdfff < v) :
    ∃ low high, lead (v / 4096 % 16 + 224) = some ⟨v / 4096, 2, low, high⟩ ∧
      low ≤ v / 64 % 64 + 128 ∧ v / 64 % 64 + 128 ≤ high := by
  rw [lead, if_neg (by omega)]
  by_cases hfirst : v / 4096 = 0
  · rw [if_pos (by omega), hfirst]
    exact ⟨_, _, rfl, by omega, by omega⟩
  rw [if_neg (by omega)]
  by_cases hsurrogates : v / 4096 = 13
  · rw [if_pos (by omega), hsurrogates]
    exact ⟨_, _, rfl, by omega, by omega⟩
  rw [if_neg (by omega), if_pos (by omega), show (v / 4096 % 16 + 224) % 16 = v / 4096 by omega]
  exact ⟨_, _, rfl, by omega, by omega⟩

theorem lead_four (hlow : 0xffff < v) (hhigh : v < 0x110000) :
    ∃ low high, lead (v / 262144 % 8 + 240) = some ⟨v / 262144, 3, low, high⟩ ∧
      low ≤ v / 4096 % 64 + 128 ∧ v / 4096 % 64 + 128 ≤ high := by
  rw [lead, if_neg (by omega), if_neg (by omega), if_neg (by omega), if_neg (by omega)]
  by_cases hfirst : v / 262144 = 0
  · rw [if_pos (by omega), hfirst]
    exact ⟨_, _, rfl, by omega, by omega⟩
  rw [if_neg (by omega)]
  by_cases hlast : v / 262144 = 4
  · rw [if_neg (by omega), if_pos (by omega), hlast]
    exact ⟨_, _, rfl, by omega, by omega⟩
  rw [if_pos (by omega), show (v / 262144 % 8 + 240) % 8 = v / 262144 by omega]
  exact ⟨_, _, rfl, by omega, by omega⟩

/-- The bytes of a character are read as that character, whatever follows. -/
theorem decodeFrom_encodeChar (c : Char) (rest : List UInt8) :
    decodeFrom none (String.utf8EncodeChar c ++ rest) = c :: decodeFrom none rest := by
  have hvalid : c.toNat < 0xd800 ∨ 0xdfff < c.toNat ∧ c.toNat < 0x110000 := c.valid
  have hchar : Char.ofNat c.toNat = c := Char.ofNat_toNat c
  unfold String.utf8EncodeChar
  rw [show c.val.toNat = c.toNat from rfl]
  generalize c.toNat = v at *
  dsimp only
  by_cases hone : v ≤ 127
  · rw [if_pos hone, List.singleton_append, decodeFrom_cons none (by omega), next, first,
      if_pos (by omega), hchar]
    rfl
  rw [if_neg hone]
  by_cases htwo : v ≤ 2047
  · rw [if_pos htwo, List.cons_append, List.singleton_append, decodeFrom_cons none (by omega),
      next_lead (by omega) (lead_two (by omega) htwo), decodeFrom_cons _ (by omega),
      next_last (by omega) (by omega), show v / 64 * 64 + (v % 64 + 128) % 64 = v by omega, hchar]
    rfl
  rw [if_neg htwo]
  by_cases hthree : v ≤ 65535
  · obtain ⟨low, high, hlead, hlow, hhigh⟩ := lead_three (by omega) hthree (by omega)
    rw [if_pos hthree, List.cons_append, List.cons_append, List.singleton_append,
      decodeFrom_cons none (by omega), next_lead (by omega) hlead, decodeFrom_cons _ (by omega),
      next_more hlow hhigh, decodeFrom_cons _ (by omega), next_last (by omega) (by omega),
      show (v / 4096 * 64 + (v / 64 % 64 + 128) % 64) * 64 + (v % 64 + 128) % 64 = v by omega, hchar]
    rfl
  · obtain ⟨low, high, hlead, hlow, hhigh⟩ := lead_four (show 0xffff < v by omega) (by omega)
    rw [if_neg hthree, List.cons_append, List.cons_append, List.cons_append, List.singleton_append,
      decodeFrom_cons none (by omega), next_lead (by omega) hlead, decodeFrom_cons _ (by omega),
      next_more hlow hhigh, decodeFrom_cons _ (by omega), next_more (by omega) (by omega),
      decodeFrom_cons _ (by omega), next_last (by omega) (by omega),
      show ((v / 262144 * 64 + (v / 4096 % 64 + 128) % 64) * 64 + (v / 64 % 64 + 128) % 64) * 64 +
        (v % 64 + 128) % 64 = v by omega, hchar]
    rfl

theorem fromUtf8Lossy_encode (text : List Char) : fromUtf8Lossy (encode text) = text := by
  unfold fromUtf8Lossy
  induction text with
  | nil => rfl
  | cons c rest ih => rw [encode, List.flatMap_cons, decodeFrom_encodeChar, ← encode, ih]

example : fromUtf8Lossy [0x61, 0xe2, 0x82, 0x62, 0xff, 0xed, 0xa0] =
    ['a', replacement, 'b', replacement, replacement, replacement] := by decide

end Decoding

section Split

variable {c : Char} {b : UInt8}

/-- A byte of ASCII is a character of its own. -/
theorem eq_of_mem_encodeChar (h : b ∈ String.utf8EncodeChar c) (hb : b.toNat < 128) :
    String.utf8EncodeChar c = [b] ∧ c = .ofNat b.toNat := by
  have hbyte : ∀ n, 128 ≤ n → n < 256 → b ≠ UInt8.ofNat n := by
    rintro n hlow hhigh rfl
    rw [UInt8.toNat_ofNat', Nat.mod_eq_of_lt hhigh] at hb
    omega
  have hchar : Char.ofNat c.toNat = c := Char.ofNat_toNat c
  unfold String.utf8EncodeChar at h ⊢
  rw [show c.val.toNat = c.toNat from rfl] at h ⊢
  generalize c.toNat = v at *
  dsimp only at h ⊢
  by_cases hone : v ≤ 127
  · rw [if_pos hone] at h ⊢
    have heq := List.mem_singleton.mp h
    refine ⟨by rw [heq], ?_⟩
    rw [heq, UInt8.toNat_ofNat', Nat.mod_eq_of_lt (by omega), hchar]
  · rw [if_neg hone] at h
    exfalso
    split at h
    next =>
      rcases List.mem_pair.mp h with h | h
      · exact hbyte _ (by omega) (by omega) h
      · exact hbyte _ (by omega) (by omega) h
    next =>
      split at h
      all_goals
        simp only [List.mem_cons, List.not_mem_nil, or_false] at h
      · rcases h with h | h | h
        all_goals exact hbyte _ (by omega) (by omega) h
      · rcases h with h | h | h | h
        all_goals exact hbyte _ (by omega) (by omega) h

theorem splitOn_append_of_not_mem {α : Type} [DecidableEq α] {a : α} {front : List α}
    (h : a ∉ front) (rest : List α) :
    (front ++ rest).splitOn a = (rest.splitOn a).modifyHead (front ++ ·) := by
  induction front with
  | nil => exact (congrFun List.modifyHead_id _).symm
  | cons x front ih =>
    obtain ⟨hx, hfront⟩ := List.ne_and_not_mem_of_not_mem_cons h
    rw [List.cons_append, List.splitOn_cons_eq_if_modifyHead, if_neg (by simpa using Ne.symm hx),
      ih hfront, List.modifyHead_modifyHead]
    rfl

/-- The bytes between line feeds are those of the text between line feeds. -/
theorem splitOn_encode (text : List Char) :
    (encode text).splitOn 0x0a = (text.splitOn '\n').map encode := by
  induction text with
  | nil => rfl
  | cons c rest ih =>
    obtain ⟨piece, pieces, hp⟩ := List.exists_cons_of_ne_nil (List.splitOn_ne_nil '\n' rest)
    rw [encode, List.flatMap_cons, ← encode, List.splitOn_cons_eq_if_modifyHead]
    by_cases hc : c = '\n'
    · subst hc
      rw [if_pos (by simp), show String.utf8EncodeChar '\n' = [0x0a] from rfl, List.singleton_append,
        List.splitOn_cons_eq_if_modifyHead, if_pos (by simp), ih]
      rfl
    · have hnot : 0x0a ∉ String.utf8EncodeChar c := fun hmem =>
        hc (eq_of_mem_encodeChar hmem (by decide)).2
      rw [if_neg (by simpa using hc), splitOn_append_of_not_mem hnot, ih, hp]
      simp [encode]

theorem encode_append (front back : List Char) : encode (front ++ back) = encode front ++ encode back :=
  List.flatMap_append

@[simp] theorem encode_eq_nil {text : List Char} : encode text = [] ↔ text = [] := by
  cases text with
  | nil => exact iff_of_true rfl rfl
  | cons c rest =>
    refine iff_of_false (fun h => ?_) (List.cons_ne_nil c rest)
    rw [encode, List.flatMap_cons] at h
    exact String.utf8EncodeChar_ne_nil (List.append_eq_nil_iff.mp h).1

/-- A carriage return at the end is one in the bytes. -/
theorem encode_dropCr (line : List Char) : encode (dropCr line) =
    if (encode line).getLast? = some 0x0d then (encode line).dropLast else encode line := by
  rcases List.eq_nil_or_concat' line with rfl | ⟨front, c, rfl⟩
  · rfl
  have hc : encode [c] = String.utf8EncodeChar c := by simp [encode]
  have hne : String.utf8EncodeChar c ≠ [] := String.utf8EncodeChar_ne_nil
  rw [dropCr, List.getLast?_concat, encode_append, hc, List.getLast?_append_of_ne_nil _ hne]
  by_cases hcr : c = '\r'
  · subst hcr
    have hreturn : String.utf8EncodeChar '\r' = [0x0d] := rfl
    rw [if_pos rfl, hreturn, List.getLast?_singleton, if_pos rfl, List.dropLast_concat,
      List.dropLast_concat]
  · have hlast : (String.utf8EncodeChar c).getLast? ≠ some 0x0d := fun hlast =>
      hcr (eq_of_mem_encodeChar (List.mem_of_getLast? hlast) (by decide)).2
    rw [if_neg (by simpa using hcr), if_neg hlast, encode_append, hc]

end Split

end Utf8
