import Mathlib.Data.List.Forall2
import Tepegoz.Tui.FilterBytes

namespace Tepegoz

/-- A control sequence of a terminal: `ESC [`, parameters, intermediate bytes and a final byte. -/
structure CsiSequence where
  params : List UInt8
  intermediates : List UInt8
  final : UInt8
  params_range : ∀ b ∈ params, 0x30 ≤ b ∧ b ≤ 0x3f
  intermediates_range : ∀ b ∈ intermediates, 0x20 ≤ b ∧ b ≤ 0x2f
  final_range : isCsiFinal final = true

namespace CsiSequence

def body (q : CsiSequence) : List UInt8 := q.params ++ q.intermediates

def bytes (q : CsiSequence) : List UInt8 := [esc, csiOpen] ++ q.body ++ [q.final]

theorem body_range {q : CsiSequence} {b : UInt8} (h : b ∈ q.body) :
    isCsiParamOrIntermediate b = true := by
  rcases List.mem_append.mp h with h | h
  · have hr := q.params_range b h
    simp only [isCsiParamOrIntermediate, decide_eq_true_eq, UInt8.le_iff_toNat_le] at hr ⊢
    exact ⟨le_trans (by decide) hr.1, hr.2⟩
  · have hr := q.intermediates_range b h
    simp only [isCsiParamOrIntermediate, decide_eq_true_eq, UInt8.le_iff_toNat_le] at hr ⊢
    exact ⟨hr.1, hr.2.trans (by decide)⟩

end CsiSequence

/-- Keyboard input as a terminal writes it. -/
inductive Piece
  | plain (b : UInt8) (h : b ≠ esc)
  | sequence (q : CsiSequence)

def Piece.bytes : Piece → List UInt8
  | .plain b _ => [b]
  | .sequence q => q.bytes

def ScopeKey.isChar : ScopeKey → Bool
  | .char _ => true
  | _ => false

/-- The keys that a piece should give. -/
def Piece.Yields : Piece → List ScopeKey → Prop
  | .plain b _, keys => keys = (ScopeKeyParser.parse .normal [b]).2
  | .sequence _, keys => keys.length ≤ 1 ∧ ∀ k ∈ keys, k.isChar = false

/-- The bytes of a sequence after `ESC [`. -/
def inSequence (b : UInt8) : Bool := isCsiParamOrIntermediate b || isCsiFinal b

/-- The bytes that `ScopeKeyParser` collects inside a sequence. -/
def isCollected (b : UInt8) : Bool := key '0' ≤ b ∧ b ≤ key '9' ∨ b = key ';'

def CsiSequence.Simple (q : CsiSequence) : Prop := ∀ b ∈ q.body, isCollected b = true

instance (q : CsiSequence) : Decidable q.Simple := inferInstanceAs (Decidable (∀ b ∈ q.body, _))

theorem CsiSequence.not_simple {q : CsiSequence} :
    ¬ q.Simple ↔ ∃ b ∈ q.body, isCollected b = false := by simp [Simple]

namespace ScopeKeyParser

/-- `parse` before it looks for a lone `ESC` at the end of the chunk. -/
def scan (state : KeyParserState) (bytes : List UInt8) : KeyParserState × List ScopeKey :=
  bytes.foldl (fun acc b => let next := step acc.1 b; (next.1, acc.2 ++ next.2)) (state, [])

/-- Each sequence is taken whole, the parser is not back in its normal state before the final byte,
and the other bytes give the keys that they give on their own. -/
def SequencesTaken (pieces : List Piece) : Prop :=
  (∃ keys, parse .normal (pieces.flatMap (·.bytes)) = (.normal, keys.flatten) ∧
    List.Forall₂ Piece.Yields pieces keys) ∧
  ∀ q, .sequence q ∈ pieces → ∀ part, part <+: q.bytes → part ≠ [] → part ≠ q.bytes →
    (scan .normal part).1 ≠ .normal

@[simp] theorem scan_nil (state : KeyParserState) : scan state [] = (state, []) := rfl

theorem scan_append (state : KeyParserState) (xs ys : List UInt8) : scan state (xs ++ ys) =
    ((scan (scan state xs).1 ys).1, (scan state xs).2 ++ (scan (scan state xs).1 ys).2) := by
  have hacc : ∀ (ys : List UInt8) (state : KeyParserState) (keys : List ScopeKey),
      ys.foldl (fun acc b => let next := step acc.1 b; (next.1, acc.2 ++ next.2)) (state, keys) =
        ((scan state ys).1, keys ++ (scan state ys).2) := by
    intro ys
    induction ys with
    | nil => simp
    | cons y ys ih =>
      intro state keys
      simp only [scan, List.foldl_cons, List.nil_append]
      rw [ih, ih (step state y).1 (step state y).2, List.append_assoc]
  rw [scan, List.foldl_append, ← scan, hacc]

theorem scan_cons (state : KeyParserState) (b : UInt8) (bytes : List UInt8) :
    scan state (b :: bytes) = ((scan (step state b).1 bytes).1,
      (step state b).2 ++ (scan (step state b).1 bytes).2) := scan_append state [b] bytes

theorem parse_eq_scan {state : KeyParserState} {bytes : List UInt8}
    (h : (scan state bytes).1 ≠ .escape) : parse state bytes = scan state bytes := if_neg h

section Bytes

variable {b c : UInt8} {accum : List UInt8}

theorem step_plain (h : b ≠ esc) : step .normal b = (.normal, [plainKey b]) := if_neg h

theorem scan_plain {bytes : List UInt8} (h : esc ∉ bytes) :
    scan .normal bytes = (.normal, bytes.map plainKey) := by
  induction bytes with
  | nil => rfl
  | cons b bytes ih =>
    obtain ⟨hb, hbytes⟩ := not_or.mp (mt List.mem_cons.mpr h)
    rw [scan_cons, step_plain (Ne.symm hb), ih hbytes]
    rfl

theorem ne_of_pred {p : UInt8 → Bool} (h : p b = true) (hc : p c = false) : b ≠ c := by
  rintro rfl
  simp [h] at hc

theorem isChar_plainKey (h : inSequence b = true) : (plainKey b).isChar = true := by
  simp [plainKey, ScopeKey.isChar, ne_of_pred h (c := 0x7f) rfl, ne_of_pred h (c := 0x08) rfl,
    ne_of_pred h (c := 0x0a) rfl, ne_of_pred h (c := 0x0d) rfl]

theorem step_csi_collected (h : isCollected b = true) :
    step (.csi accum) b = (.csi (accum ++ [b]), []) := by
  have hlast : key '0' ≤ b ∧ b ≤ key '9' ∨ b = key ';' := of_decide_eq_true h
  simp only [step, ne_of_pred h (c := key 'A') rfl, ne_of_pred h (c := key 'B') rfl,
    ne_of_pred h (c := key 'C') rfl, ne_of_pred h (c := key 'D') rfl,
    ne_of_pred h (c := key 'H') rfl, ne_of_pred h (c := key 'F') rfl,
    ne_of_pred h (c := key '~') rfl, or_self, if_false, if_pos hlast]

theorem step_csi_abandon (h : isCsiParamOrIntermediate b = true) (hb : isCollected b = false) :
    step (.csi accum) b = (.normal, []) := by
  have hlast : ¬ (key '0' ≤ b ∧ b ≤ key '9' ∨ b = key ';') := of_decide_eq_false hb
  simp only [step, ne_of_pred h (c := key 'A') rfl, ne_of_pred h (c := key 'B') rfl,
    ne_of_pred h (c := key 'C') rfl, ne_of_pred h (c := key 'D') rfl,
    ne_of_pred h (c := key 'H') rfl, ne_of_pred h (c := key 'F') rfl,
    ne_of_pred h (c := key '~') rfl, or_self, if_false, if_neg hlast]

theorem not_collected_of_final (h : isCsiFinal b = true) : isCollected b = false := by
  refine decide_eq_false fun hb => ?_
  have hrange : 0x40 ≤ b ∧ b ≤ 0x7e := of_decide_eq_true h
  rcases hb with hb | rfl
  · have hle : (0x40 : UInt8) ≤ key '9' := UInt8.le_trans hrange.1 hb.2
    exact absurd hle (by decide)
  · exact absurd hrange.1 (by decide)

theorem tildeKey_single : (tildeKey accum).length ≤ 1 ∧ ∀ k ∈ tildeKey accum, k.isChar = false := by
  unfold tildeKey
  split_ifs <;> simp [ScopeKey.isChar]

theorem step_csi_final (h : isCsiFinal b = true) : (step (.csi accum) b).1 = .normal ∧
    (step (.csi accum) b).2.length ≤ 1 ∧ ∀ k ∈ (step (.csi accum) b).2, k.isChar = false := by
  have hlast : ¬ (key '0' ≤ b ∧ b ≤ key '9' ∨ b = key ';') :=
    of_decide_eq_false (not_collected_of_final h)
  simp only [step, if_neg hlast]
  split_ifs <;> first | exact ⟨rfl, tildeKey_single⟩ | simp [ScopeKey.isChar]

/-- The inside of a sequence, up to a byte that is not collected. -/
theorem scan_csi_collected {body : List UInt8} (h : ∀ b ∈ body, isCollected b = true) :
    scan (.csi accum) body = (.csi (accum ++ body), []) := by
  induction body generalizing accum with
  | nil => simp
  | cons b body ih =>
    obtain ⟨hb, hbody⟩ := List.forall_mem_cons.mp h
    rw [scan_cons, step_csi_collected hb, ih hbody]
    simp

/-- From a byte that is not collected on, the rest of the sequence is taken as plain keys. -/
theorem scan_csi_leaks {body : List UInt8} {final : UInt8}
    (hbody : ∀ b ∈ body, isCsiParamOrIntermediate b = true) (hfinal : isCsiFinal final = true)
    (hbad : ∃ b ∈ body, isCollected b = false) :
    (scan (.csi accum) (body ++ [final])).1 = .normal ∧
      0 < (scan (.csi accum) (body ++ [final])).2.countP (·.isChar) := by
  induction body generalizing accum with
  | nil => simp at hbad
  | cons b body ih =>
    obtain ⟨hb, hbody⟩ := List.forall_mem_cons.mp hbody
    rw [List.cons_append, scan_cons]
    cases hcollected : isCollected b with
    | true =>
      have hbad' : ∃ c ∈ body, isCollected c = false := by simpa [hcollected] using hbad
      simpa only [step_csi_collected hcollected, List.nil_append] using ih hbody hbad'
    | false =>
      have hplain : esc ∉ body ++ [final] := by
        rw [List.mem_append, List.mem_singleton]
        rintro (h | h)
        · exact ne_of_pred (hbody esc h) rfl rfl
        · exact ne_of_pred hfinal (c := esc) rfl h.symm
      have hchar : (plainKey final).isChar = true := isChar_plainKey (by simp [inSequence, hfinal])
      rw [step_csi_abandon hb hcollected, scan_plain hplain]
      simp [hchar]

end Bytes

/-- The keys that a piece gives. -/
def keysOf (p : Piece) : List ScopeKey := (scan .normal p.bytes).2

theorem scan_opened (bytes : List UInt8) :
    scan .normal ([esc, csiOpen] ++ bytes) = scan (.csi []) bytes := by
  simp [scan_cons, step, esc, csiOpen]

theorem scan_sequence (q : CsiSequence) :
    scan .normal q.bytes = scan (.csi []) (q.body ++ [q.final]) := by
  rw [CsiSequence.bytes, List.append_assoc, scan_opened]

theorem scan_simple {q : CsiSequence} (h : q.Simple) :
    scan .normal q.bytes = step (.csi q.body) q.final := by
  rw [scan_sequence, scan_append, scan_csi_collected h]
  simp [scan_cons]

theorem scan_piece (p : Piece) : scan .normal p.bytes = (.normal, keysOf p) := by
  refine Prod.ext ?_ rfl
  cases p with
  | plain b h => simp [Piece.bytes, scan_cons, step_plain h]
  | sequence q =>
    by_cases hq : q.Simple
    · exact (scan_simple hq).symm ▸ (step_csi_final q.final_range).1
    · exact (scan_sequence q).symm ▸ (scan_csi_leaks (fun b hb => q.body_range hb) q.final_range
        (CsiSequence.not_simple.mp hq)).1

theorem scan_pieces (pieces : List Piece) :
    scan .normal (pieces.flatMap (·.bytes)) = (.normal, pieces.flatMap keysOf) := by
  induction pieces with
  | nil => rfl
  | cons p pieces ih => rw [List.flatMap_cons, scan_append, scan_piece, ih, List.flatMap_cons]

theorem parse_pieces (pieces : List Piece) :
    parse .normal (pieces.flatMap (·.bytes)) = (.normal, pieces.flatMap keysOf) := by
  rw [parse_eq_scan (by simp [scan_pieces]), scan_pieces]

/-- A sequence whose rest is taken as keys. -/
def leaks : Piece → Bool
  | .plain _ _ => false
  | .sequence q => !decide q.Simple

theorem yields_keysOf {p : Piece} (h : leaks p = false) : p.Yields (keysOf p) := by
  cases p with
  | plain b hb =>
    show keysOf (.plain b hb) = (parse .normal [b]).2
    simpa [Piece.bytes] using (congrArg Prod.snd (parse_pieces [.plain b hb])).symm
  | sequence q =>
    have hq : q.Simple := by simpa [leaks] using h
    have hkeys : keysOf (.sequence q) = (step (.csi q.body) q.final).2 :=
      congrArg Prod.snd (scan_simple hq)
    show (keysOf (.sequence q)).length ≤ 1 ∧ ∀ k ∈ keysOf (.sequence q), k.isChar = false
    rw [hkeys]
    exact (step_csi_final q.final_range).2

/-- Each sequence that leaks gives a character key too many. -/
theorem leaks_counted {pieces : List Piece} {keys : List (List ScopeKey)}
    (h : List.Forall₂ Piece.Yields pieces keys) :
    keys.flatten.countP (·.isChar) + pieces.countP leaks ≤
      (pieces.flatMap keysOf).countP (·.isChar) := by
  induction h with
  | nil => simp
  | @cons p ks pieces keys hp _ ih =>
    have hfirst : ks.countP (·.isChar) + (if leaks p then 1 else 0) ≤
        (keysOf p).countP (·.isChar) := by
      cases hl : leaks p with
      | false =>
        cases p with
        | plain b hb => simp [show ks = keysOf (.plain b hb) from hp.trans (yields_keysOf hl).symm]
        | sequence q => simp [List.countP_eq_zero.mpr fun k hk => by simpa using hp.2 k hk]
      | true =>
        cases p with
        | plain b hb => simp [leaks] at hl
        | sequence q =>
          have hbad := CsiSequence.not_simple.mp (by simpa [leaks] using hl)
          have hleak : 0 < (keysOf (.sequence q)).countP (·.isChar) := by
            rw [keysOf, Piece.bytes, scan_sequence]
            exact (scan_csi_leaks (fun b hb => q.body_range hb) q.final_range hbad).2
          have hnone : ks.countP (·.isChar) = 0 :=
            List.countP_eq_zero.mpr fun k hk => by simpa using hp.2 k hk
          simpa only [hnone, Nat.zero_add, if_true] using Nat.succ_le_of_lt hleak
    simp only [List.flatten_cons, List.flatMap_cons, List.countP_append, List.countP_cons]
    omega

/-- Inside a sequence that does not leak the parser waits for the final byte. -/
theorem scan_part {q : CsiSequence} {part : List UInt8} (h : q.Simple) (hp : part <+: q.bytes)
    (hnil : part ≠ []) (hne : part ≠ q.bytes) : (scan .normal part).1 ≠ .normal := by
  have hq : q.bytes = esc :: csiOpen :: (q.body ++ [q.final]) := by simp [CsiSequence.bytes]
  rw [hq] at hp hne
  cases part with
  | nil => exact absurd rfl hnil
  | cons b part =>
    obtain ⟨rfl, htail⟩ := List.cons_prefix_cons.mp hp
    cases part with
    | nil => simp [scan_cons, step]
    | cons c part =>
      obtain ⟨rfl, hrest⟩ := List.cons_prefix_cons.mp htail
      have hbody : part <+: q.body :=
        (List.prefix_concat_iff.mp hrest).resolve_left fun heq => hne (by rw [heq])
      have hscan := scan_opened part
      rw [scan_csi_collected fun b hb => h b (hbody.subset hb)] at hscan
      simp only [List.cons_append, List.nil_append] at hscan
      simp [hscan]

end ScopeKeyParser

namespace InputFilter

theorem not_final_of_param {b : UInt8} (h : isCsiParamOrIntermediate b = true) :
    isCsiFinal b = false := by
  refine decide_eq_false fun hb => ?_
  have hrange : 0x20 ≤ b ∧ b ≤ 0x3f := of_decide_eq_true h
  exact absurd (UInt8.le_trans hb.1 hrange.2) (by decide)

theorem process_collect {buf body out rest : List UInt8} {final : UInt8}
    (hbody : ∀ b ∈ body, isCsiParamOrIntermediate b = true) (hfinal : isCsiFinal final = true) :
    process (.bareCsiCollect buf) out (body ++ final :: rest) =
      process .normal (out ++ ([esc, csiOpen] ++ (buf ++ body) ++ [final])) rest := by
  induction body generalizing buf with
  | nil => simp [process, hfinal]
  | cons b body ih =>
    obtain ⟨hb, hbody⟩ := List.forall_mem_cons.mp hbody
    rw [List.cons_append, process, if_neg (by simp [not_final_of_param hb]), if_pos hb, ih hbody]
    simp

/-- The filter forwards every sequence but Shift-Tab as it is. -/
theorem process_sequence {q : CsiSequence} (h : q.bytes ≠ [esc, csiOpen, key 'Z'])
    (out rest : List UInt8) :
    process .normal out (q.bytes ++ rest) = process .normal (out ++ q.bytes) rest := by
  have hopen : process .normal out (q.bytes ++ rest) =
      process .bareCsi out (q.body ++ q.final :: rest) := by
    simp [CsiSequence.bytes, process, esc, tab, prefixByte]
  have hrange : ∀ b ∈ q.body, isCsiParamOrIntermediate b = true := fun b hb => q.body_range hb
  rw [hopen]
  cases hbody : q.body with
  | nil =>
    have hz : q.final ≠ key 'Z' := fun hz => h (by simp [CsiSequence.bytes, hbody, hz])
    simp [process, hz, q.final_range, CsiSequence.bytes, hbody]
  | cons b body =>
    rw [hbody] at hrange
    obtain ⟨hb, hothers⟩ := List.forall_mem_cons.mp hrange
    rw [List.cons_append, process, if_neg (ScopeKeyParser.ne_of_pred hb rfl),
      if_neg (by simp [not_final_of_param hb]), if_pos hb, process_collect hothers q.final_range]
    simp [CsiSequence.bytes, hbody]

end InputFilter

open ScopeKeyParser in
/-- The scope keys take every sequence whole if and only if no sequence has a byte other than digits
and `;` before its final byte; the filter before them forwards all of them, Shift-Tab apart. -/
theorem sequences_taken_iff (pieces : List Piece) :
    (SequencesTaken pieces ↔ ∀ q, .sequence q ∈ pieces → q.Simple) ∧
    ∀ q, .sequence q ∈ pieces → q.bytes ≠ [esc, csiOpen, key 'Z'] → ∀ out rest,
      InputFilter.process .normal out (q.bytes ++ rest) =
        InputFilter.process .normal (out ++ q.bytes) rest := by
  refine ⟨⟨fun ⟨⟨keys, hparse, hyields⟩, _⟩ q hq => ?_, fun h => ⟨⟨pieces.map keysOf, ?_, ?_⟩, ?_⟩⟩,
    fun q _ hne => InputFilter.process_sequence hne⟩
  · have hcount := leaks_counted hyields
    have hkeys := congrArg Prod.snd ((parse_pieces pieces).symm.trans hparse)
    rw [show pieces.flatMap keysOf = keys.flatten from hkeys] at hcount
    have hnone := List.countP_eq_zero.mp (show pieces.countP leaks = 0 by omega) _ hq
    simpa [leaks] using hnone
  · rw [parse_pieces, List.flatMap]
  · rw [List.forall₂_map_right_iff, List.forall₂_same]
    intro p hp
    refine yields_keysOf ?_
    cases p with
    | plain b hb => rfl
    | sequence q => simp [leaks, h q hp]
  · exact fun q hq part => scan_part (h q hq)

/-- `ESC [ ? K`. -/
def privateErase : CsiSequence :=
  ⟨[key '?'], [], key 'K', by simp [key, UInt8.le_iff_toNat_le], by simp, by decide⟩

/-- Its final byte is taken as the key that kills a container. -/
theorem final_byte_leaks : ¬ ScopeKeyParser.SequencesTaken [.sequence privateErase] := by
  rintro ⟨⟨keys, hparse, hyields⟩, -⟩
  have hscan : ScopeKeyParser.parse .normal ([Piece.sequence privateErase].flatMap (·.bytes)) =
      (.normal, [.char (key 'K')]) := by decide
  obtain hkeys := (Prod.mk.inj (hparse.symm.trans hscan)).2
  have hmem : ScopeKey.char (key 'K') ∈ keys.flatten := by simp [hkeys]
  obtain ⟨ks, hks, hk⟩ := List.mem_flatten.mp hmem
  cases hyields with
  | cons hp hnil =>
    cases hnil
    obtain rfl := List.mem_singleton.mp hks
    exact absurd (hp.2 _ hk) (by decide)

end Tepegoz
