import Mathlib.Data.Nat.Bitwise
import Mathlib.Data.Nat.Digits.Defs
import Tepegoz.Tui.App

namespace Tepegoz

def sgrMarker : UInt8 := key '<'
def sgrPress : UInt8 := key 'M'
def sgrRelease : UInt8 := key 'm'

def buttonMask : Nat := 3
def motionBit : Nat := 32
def wheelBit : Nat := 64

inductive MouseState
  | idle
  | escape
  | csi
  | params (buf : List UInt8)
  deriving DecidableEq

def isDigit (b : UInt8) : Bool := key '0' ≤ b ∧ b ≤ key '9'

def digitsValue (digits : List UInt8) : Nat :=
  digits.foldl (fun value b => value * 10 + (b.toNat - (key '0').toNat)) 0

/-- `str::parse` for `u32`: one `+` may stand before the digits. -/
def parseU32 (text : List UInt8) : Option Nat :=
  let digits := if text.head? = some (key '+') then text.tail else text
  if digits ≠ [] ∧ digits.all isDigit ∧ digitsValue digits < 2 ^ 32 then some (digitsValue digits)
  else none

/-- The event of a button code and a cell, both as they are reported. -/
def mouseEvent (cb cx cy : Nat) (isPress : Bool) : Option AppEvent :=
  let x := cx - 1
  let y := cy - 1
  if u16Max < x ∨ u16Max < y then none
  else if cb &&& motionBit ≠ 0 then some (.mouseHover x y)
  else if cb &&& wheelBit ≠ 0 then none
  else if isPress ∧ cb &&& buttonMask = 0 then some (.mouseClick x y)
  else none

/-- What is not ASCII is no digit, so that the check for UTF-8 makes no difference. -/
def parseSgrParams (params : List UInt8) (isPress : Bool) : Option AppEvent :=
  match (params.splitOn (key ';')).map parseU32 with
  | [some cb, some cx, some cy] => mouseEvent cb cx cy isPress
  | _ => none

/-- What `MouseParser` makes of some bytes. -/
structure MouseParsed where
  state : MouseState
  remaining : List UInt8
  events : List AppEvent
  deriving DecidableEq

namespace MouseParser

def step (state : MouseState) (b : UInt8) : MouseParsed :=
  match state with
  | .idle => if b = esc then ⟨.escape, [], []⟩ else ⟨.idle, [b], []⟩
  | .escape => if b = csiOpen then ⟨.csi, [], []⟩ else ⟨.idle, [esc, b], []⟩
  | .csi => if b = sgrMarker then ⟨.params [], [], []⟩ else ⟨.idle, [esc, csiOpen, b], []⟩
  | .params buf =>
    if b = sgrPress ∨ b = sgrRelease then ⟨.idle, [], (parseSgrParams buf (b = sgrPress)).toList⟩
    else ⟨.params (buf ++ [b]), [], []⟩

def parse : MouseState → List UInt8 → MouseParsed
  | state, [] => ⟨state, [], []⟩
  | state, b :: input =>
    let first := step state b
    let others := parse first.state input
    ⟨others.state, first.remaining ++ others.remaining, first.events ++ others.events⟩

/-- The chunks of stdin one after the other. -/
def parseAll : MouseState → List (List UInt8) → MouseParsed
  | state, [] => ⟨state, [], []⟩
  | state, chunk :: chunks =>
    let first := parse state chunk
    let others := parseAll first.state chunks
    ⟨others.state, first.remaining ++ others.remaining, first.events ++ others.events⟩

theorem parse_append (state : MouseState) (xs ys : List UInt8) : parse state (xs ++ ys) =
    ⟨(parse (parse state xs).state ys).state,
      (parse state xs).remaining ++ (parse (parse state xs).state ys).remaining,
      (parse state xs).events ++ (parse (parse state xs).state ys).events⟩ := by
  induction xs generalizing state with
  | nil => rfl
  | cons x xs ih => simp [parse, ih]

/-- Where the stream is cut makes no difference. -/
theorem parseAll_eq_parse (state : MouseState) (chunks : List (List UInt8)) :
    parseAll state chunks = parse state chunks.flatten := by
  induction chunks generalizing state with
  | nil => rfl
  | cons chunk chunks ih => rw [parseAll, List.flatten_cons, parse_append, ih]

end MouseParser

/-- The bytes that a state of the parser holds back. -/
def MouseState.held : MouseState → List UInt8
  | .idle => []
  | .escape => [esc]
  | .csi => [esc, csiOpen]
  | .params buf => [esc, csiOpen, sgrMarker] ++ buf

/-- A number in a mouse report. -/
structure Digits where
  bytes : List UInt8
  nonempty : bytes ≠ []
  digits : bytes.all isDigit = true

/-- The number that the digits write in base ten. -/
def Digits.value (d : Digits) : Nat :=
  Nat.ofDigits 10 (d.bytes.reverse.map fun b => b.toNat - 0x30)

/-- A well-formed SGR mouse sequence. -/
structure SgrReport where
  button : Digits
  column : Digits
  row : Digits
  press : Bool

namespace SgrReport

def params (r : SgrReport) : List UInt8 :=
  r.button.bytes ++ key ';' :: (r.column.bytes ++ key ';' :: r.row.bytes)

def bytes (r : SgrReport) : List UInt8 :=
  [esc, csiOpen, sgrMarker] ++ r.params ++ [if r.press then sgrPress else sgrRelease]

/-- Bit 5 of the button code. -/
def moves (r : SgrReport) : Prop := r.button.value / 32 % 2 = 1

/-- Bit 6 of the button code. -/
def scrolls (r : SgrReport) : Prop := r.button.value / 64 % 2 = 1

/-- The lowest two bits of the button code. -/
def isLeft (r : SgrReport) : Prop := r.button.value % 4 = 0

/-- A button code in 32 bits, and a cell in 16 bits that is counted from one. -/
def fits (r : SgrReport) : Prop :=
  r.button.value < 2 ^ 32 ∧ r.column.value ≤ 2 ^ 16 ∧ r.row.value ≤ 2 ^ 16

instance (r : SgrReport) : Decidable r.moves := inferInstanceAs (Decidable (_ = _))
instance (r : SgrReport) : Decidable r.scrolls := inferInstanceAs (Decidable (_ = _))
instance (r : SgrReport) : Decidable r.isLeft := inferInstanceAs (Decidable (_ = _))
instance (r : SgrReport) : Decidable r.fits := inferInstanceAs (Decidable (_ ∧ _))

/-- The event that a report denotes: any motion is a hover, a press of the left button a click, on
the cell counted from zero. -/
def event (r : SgrReport) : Option AppEvent :=
  if ¬ r.fits then none
  else if r.moves then some (.mouseHover (r.column.value - 1) (r.row.value - 1))
  else if r.press ∧ r.isLeft ∧ ¬ r.scrolls then
    some (.mouseClick (r.column.value - 1) (r.row.value - 1))
  else none

end SgrReport

/-- Bytes without the start of a mouse sequence. -/
structure Segment where
  bytes : List UInt8
  clean : ¬ [esc, csiOpen, sgrMarker] <:+: bytes

/-- A stream of mouse sequences, each with the bytes before it, and the bytes after the last one. -/
structure MouseStream where
  items : List (Segment × SgrReport)
  last : Segment

namespace MouseStream

def bytes (s : MouseStream) : List UInt8 :=
  (s.items.flatMap fun item => item.1.bytes ++ item.2.bytes) ++ s.last.bytes

def text (s : MouseStream) : List UInt8 := (s.items.flatMap fun item => item.1.bytes) ++ s.last.bytes

def events (s : MouseStream) : List AppEvent := s.items.filterMap fun item => item.2.event

end MouseStream

/-- The bytes can be read as single bytes other than `ESC`, pairs of `ESC` and a byte other than `[`,
and `ESC [` with one more byte. -/
def settled : List UInt8 → Bool
  | [] => true
  | b :: rest =>
    if b = esc then
      match rest with
      | [] => false
      | c :: rest =>
        if c = csiOpen then
          match rest with
          | [] => false
          | _ :: rest => settled rest
        else settled rest
    else settled rest

namespace MouseParser

/-- Bytes that passed, but for an `ESC` or `ESC [` at their end if they are not settled. -/
structure PassedOn (bytes : List UInt8) (done : Bool) (p : MouseParsed) : Prop where
  conserved : p.remaining ++ p.state.held = bytes
  silent : p.events = []
  state : p.state ∈ if done then [.idle] else [.escape, .csi]

theorem PassedOn.prepend {p rest : List UInt8} {done : Bool}
    (h : PassedOn rest done (parse .idle rest)) (hp : parse .idle p = ⟨.idle, p, []⟩) :
    PassedOn (p ++ rest) done (parse .idle (p ++ rest)) := by
  rw [parse_append, hp]
  exact ⟨by rw [List.append_assoc, h.conserved], h.silent, h.state⟩

theorem parse_segment {bytes : List UInt8} (h : ¬ [esc, csiOpen, sgrMarker] <:+: bytes) :
    PassedOn bytes (settled bytes) (parse .idle bytes) := by
  have hrest {p rest : List UInt8} (h : ¬ [esc, csiOpen, sgrMarker] <:+: p ++ rest) :
      ¬ [esc, csiOpen, sgrMarker] <:+: rest := fun hr => h (hr.trans (List.suffix_append _ _).isInfix)
  fun_induction settled bytes
  case case1 => exact ⟨rfl, rfl, by simp [parse]⟩
  case case2 => exact ⟨rfl, rfl, by simp [parse, step]⟩
  case case3 => exact ⟨rfl, rfl, by simp [parse, step, esc, csiOpen]⟩
  case case4 c rest ih =>
    have hc : c ≠ sgrMarker := by
      rintro rfl
      exact h (List.prefix_append [esc, csiOpen, sgrMarker] rest).isInfix
    exact (ih (hrest (p := [esc, csiOpen, c]) h)).prepend (p := [esc, csiOpen, c])
      (by simp [parse, step, hc])
  case case5 c rest hc ih =>
    exact (ih (hrest (p := [esc, c]) h)).prepend (p := [esc, c]) (by simp [parse, step, hc])
  case case6 b rest hb ih =>
    exact (ih (hrest (p := [b]) h)).prepend (p := [b]) (by simp [parse, step, hb])

theorem parse_plain {bytes : List UInt8} (h : esc ∉ bytes) : parse .idle bytes = ⟨.idle, bytes, []⟩ := by
  induction bytes with
  | nil => rfl
  | cons b bytes ih =>
    obtain ⟨hb, hbytes⟩ := not_or.mp (mt List.mem_cons.mpr h)
    simp [parse, step, Ne.symm hb, ih hbytes]

theorem parse_params {buf params : List UInt8}
    (h : ∀ b ∈ params, b ≠ sgrPress ∧ b ≠ sgrRelease) :
    parse (.params buf) params = ⟨.params (buf ++ params), [], []⟩ := by
  induction params generalizing buf with
  | nil => simp [parse]
  | cons b params ih =>
    obtain ⟨hb, hparams⟩ := List.forall_mem_cons.mp h
    simp [parse, step, hb, ih hparams]

end MouseParser

theorem Digits.isDigit_of_mem {d : Digits} {b : UInt8} (h : b ∈ d.bytes) : isDigit b = true :=
  List.all_eq_true.mp d.digits b h

theorem Digits.not_mem {d : Digits} {b : UInt8} (h : isDigit b = false) : b ∉ d.bytes :=
  fun hb => by simp [Digits.isDigit_of_mem hb] at h

theorem digitsValue_eq (digits : List UInt8) :
    digitsValue digits = Nat.ofDigits 10 (digits.reverse.map fun b => b.toNat - 0x30) := by
  induction digits using List.reverseRecOn with
  | nil => rfl
  | append_singleton digits b ih =>
    have hlast : digitsValue (digits ++ [b]) = digitsValue digits * 10 + (b.toNat - 0x30) := by
      rw [digitsValue, List.foldl_append]
      rfl
    rw [hlast, ih, List.reverse_append, List.reverse_singleton, List.singleton_append, List.map_cons,
      Nat.ofDigits_cons]
    omega

theorem parseU32_digits (d : Digits) :
    parseU32 d.bytes = if d.value < 2 ^ 32 then some d.value else none := by
  rw [Digits.value, ← digitsValue_eq]
  have hplus : d.bytes.head? ≠ some (key '+') := fun h =>
    Digits.not_mem (b := key '+') rfl (List.mem_of_head? h)
  unfold parseU32
  rw [if_neg hplus]
  by_cases hv : digitsValue d.bytes < 2 ^ 32
  · rw [if_pos ⟨d.nonempty, d.digits, hv⟩, if_pos hv]
  · rw [if_neg fun h => hv h.2.2, if_neg hv]

namespace SgrReport

theorem mem_params {r : SgrReport} {b : UInt8} (h : b ∈ r.params) :
    isDigit b = true ∨ b = key ';' := by
  simp only [params, List.mem_append, List.mem_cons] at h
  rcases h with h | rfl | h | rfl | h
  · exact .inl (Digits.isDigit_of_mem h)
  · exact .inr rfl
  · exact .inl (Digits.isDigit_of_mem h)
  · exact .inr rfl
  · exact .inl (Digits.isDigit_of_mem h)

theorem params_ne {r : SgrReport} {b c : UInt8} (h : b ∈ r.params) (hc : isDigit c = false)
    (hc' : c ≠ key ';') : b ≠ c := by
  rintro rfl
  rcases mem_params h with hd | rfl
  · simp [hd] at hc
  · exact hc' rfl

theorem motionBit_iff (r : SgrReport) : r.button.value &&& motionBit ≠ 0 ↔ r.moves := by
  have hbit : r.button.value &&& motionBit = (r.button.value.testBit 5).toNat * 32 :=
    Nat.and_two_pow r.button.value 5
  rw [hbit, moves, Nat.toNat_testBit]
  omega

theorem wheelBit_iff (r : SgrReport) : r.button.value &&& wheelBit ≠ 0 ↔ r.scrolls := by
  have hbit : r.button.value &&& wheelBit = (r.button.value.testBit 6).toNat * 64 :=
    Nat.and_two_pow r.button.value 6
  rw [hbit, scrolls, Nat.toNat_testBit]
  omega

theorem buttonMask_iff (r : SgrReport) : r.button.value &&& buttonMask = 0 ↔ r.isLeft := by
  have hmask : r.button.value &&& buttonMask = r.button.value % 4 :=
    Nat.and_two_pow_sub_one_eq_mod r.button.value 2
  rw [hmask, isLeft]

theorem mouseEvent_eq (r : SgrReport) (hcode : r.button.value < 2 ^ 32) :
    mouseEvent r.button.value r.column.value r.row.value r.press = r.event := by
  unfold mouseEvent event
  simp only [motionBit_iff, wheelBit_iff, buttonMask_iff]
  have hcell : u16Max < r.column.value - 1 ∨ u16Max < r.row.value - 1 ↔ ¬ r.fits := by
    unfold fits u16Max
    omega
  rw [if_congr hcell rfl rfl]
  by_cases hscroll : r.scrolls
  · simp [hscroll]
  · simp [hscroll]

/-- A number of more than 32 bits is not parsed, and as a coordinate it is out of range. -/
theorem event_of_large {r : SgrReport}
    (h : ¬ (r.button.value < 2 ^ 32 ∧ r.column.value < 2 ^ 32 ∧ r.row.value < 2 ^ 32)) :
    r.event = none := by
  refine if_pos fun hfits => h ?_
  unfold fits at hfits
  omega

theorem parseSgrParams_params (r : SgrReport) : parseSgrParams r.params r.press = r.event := by
  have hsplit : r.params.splitOn (key ';') = [r.button.bytes, r.column.bytes, r.row.bytes] := by
    have hnot (d : Digits) : key ';' ∉ d.bytes := Digits.not_mem rfl
    rw [params, List.splitOn_append_cons_self_of_not_mem (hnot _),
      List.splitOn_append_cons_self_of_not_mem (hnot _), List.splitOn_eq_singleton (hnot _)]
  simp only [parseSgrParams, hsplit, List.map_cons, List.map_nil, parseU32_digits]
  by_cases hb : r.button.value < 2 ^ 32
  · by_cases hc : r.column.value < 2 ^ 32
    · by_cases hr : r.row.value < 2 ^ 32
      · rw [if_pos hb, if_pos hc, if_pos hr]
        exact mouseEvent_eq r hb
      · rw [if_pos hb, if_pos hc, if_neg hr]
        exact (event_of_large fun h => hr h.2.2).symm
    · rw [if_pos hb, if_neg hc]
      exact (event_of_large fun h => hc h.2.1).symm
  · rw [if_neg hb]
    exact (event_of_large fun h => hb h.1).symm

end SgrReport

namespace MouseParser

theorem parse_report (r : SgrReport) : parse .idle r.bytes = ⟨.idle, [], r.event.toList⟩ := by
  have hopen : parse .idle [esc, csiOpen, sgrMarker] = ⟨.params [], [], []⟩ := rfl
  have hparams : parse (.params []) r.params = ⟨.params r.params, [], []⟩ :=
    parse_params fun b hb => ⟨SgrReport.params_ne hb rfl (by decide),
      SgrReport.params_ne hb rfl (by decide)⟩
  have hfinal : parse (.params r.params) [if r.press then sgrPress else sgrRelease] =
      ⟨.idle, [], r.event.toList⟩ := by
    rw [← SgrReport.parseSgrParams_params]
    cases hp : r.press <;> simp [parse, step, sgrPress, sgrRelease, key]
  rw [SgrReport.bytes, parse_append, parse_append, hopen, hparams, hfinal]
  rfl

/-- Behind an `ESC` or `ESC [` that is held back, a report passes as text. -/
theorem parse_report_held {state : MouseState} (h : state ∈ [MouseState.escape, .csi])
    (r : SgrReport) : parse state r.bytes = ⟨.idle, state.held ++ r.bytes, []⟩ := by
  have hplain : esc ∉ [csiOpen, sgrMarker] ++ r.params ++ [if r.press then sgrPress else sgrRelease] := by
    simp only [List.mem_append, not_or]
    refine ⟨⟨by decide, fun hp => SgrReport.params_ne hp rfl (by decide) rfl⟩, ?_⟩
    cases r.press <;> decide
  have hesc : parse state [esc] = ⟨.idle, state.held ++ [esc], []⟩ := by
    simp only [List.mem_cons, List.not_mem_nil, or_false] at h
    rcases h with rfl | rfl <;> rfl
  have hbytes : r.bytes = [esc] ++
      ([csiOpen, sgrMarker] ++ r.params ++ [if r.press then sgrPress else sgrRelease]) := rfl
  rw [hbytes, parse_append, hesc, parse_plain hplain]
  simp

end MouseParser

/-- What passes as text of the report of an item. -/
def leaked (item : Segment × SgrReport) : List UInt8 :=
  if settled item.1.bytes then [] else item.2.bytes

def noticed (item : Segment × SgrReport) : List AppEvent :=
  if settled item.1.bytes then item.2.event.toList else []

namespace MouseParser

theorem parse_item (item : Segment × SgrReport) : parse .idle (item.1.bytes ++ item.2.bytes) =
    ⟨.idle, item.1.bytes ++ leaked item, noticed item⟩ := by
  have hseg := parse_segment item.1.clean
  rw [parse_append]
  cases hsettled : settled item.1.bytes with
  | true =>
    have hstate : (parse .idle item.1.bytes).state = .idle := by simpa [hsettled] using hseg.state
    have hpassed : (parse .idle item.1.bytes).remaining = item.1.bytes := by
      simpa [hstate, MouseState.held] using hseg.conserved
    simp [hstate, hpassed, hseg.silent, parse_report, leaked, noticed, hsettled]
  | false =>
    have hstate : (parse .idle item.1.bytes).state ∈ [MouseState.escape, .csi] := by
      simpa [hsettled] using hseg.state
    rw [parse_report_held hstate]
    simp [← List.append_assoc, hseg.conserved, hseg.silent, leaked, noticed, hsettled]

theorem parse_items (items : List (Segment × SgrReport)) :
    parse .idle (items.flatMap fun item => item.1.bytes ++ item.2.bytes) =
      ⟨.idle, items.flatMap fun item => item.1.bytes ++ leaked item, items.flatMap noticed⟩ := by
  induction items with
  | nil => rfl
  | cons item items ih =>
    rw [List.flatMap_cons, parse_append, parse_item, ih]
    rfl

end MouseParser

/-- However the stream is cut, the mouse sequences are removed, each gives its event, and all the rest
passes but for an `ESC` or `ESC [` that is held back at the end. -/
def MouseStream.Stripped (s : MouseStream) : Prop :=
  ∀ chunks, chunks.flatten = s.bytes →
    let parsed := MouseParser.parseAll .idle chunks
    parsed.remaining ++ parsed.state.held = s.text ∧ parsed.events = s.events ∧
      parsed.state.held ∈ [[], [esc], [esc, csiOpen]]

theorem MouseParser.parse_stream (s : MouseStream) :
    let parsed := parse .idle s.bytes
    parsed.remaining ++ parsed.state.held =
        (s.items.flatMap fun item => item.1.bytes ++ leaked item) ++ s.last.bytes ∧
      parsed.events = s.items.flatMap noticed ∧
      parsed.state.held ∈ [[], [esc], [esc, csiOpen]] := by
  have hlast := parse_segment s.last.clean
  have hheld : (parse .idle s.last.bytes).state.held ∈ [[], [esc], [esc, csiOpen]] := by
    have hstate := hlast.state
    split at hstate <;> simp only [List.mem_cons, List.not_mem_nil, or_false] at hstate
    · simp [hstate, MouseState.held]
    · rcases hstate with h | h <;> simp [h, MouseState.held]
  simp only [MouseStream.bytes, parse_append, parse_items, hlast.silent, List.append_nil,
    List.append_assoc, hlast.conserved, hheld, and_self]

theorem leaked_eq_nil_iff {item : Segment × SgrReport} :
    leaked item = [] ↔ settled item.1.bytes = true := by
  simp [leaked, SgrReport.bytes]

theorem length_text_le (items : List (Segment × SgrReport)) :
    (items.flatMap fun item => item.1.bytes).length ≤
      (items.flatMap fun item => item.1.bytes ++ leaked item).length := by
  induction items with
  | nil => simp
  | cons item items ih =>
    simp only [List.flatMap_cons, List.length_append]
    omega

theorem no_leak_of_text {items : List (Segment × SgrReport)}
    (h : (items.flatMap fun item => item.1.bytes ++ leaked item) =
      items.flatMap fun item => item.1.bytes) : ∀ item ∈ items, leaked item = [] := by
  have hlen := congrArg List.length h
  clear h
  induction items with
  | nil => simp
  | cons item items ih =>
    simp only [List.flatMap_cons, List.length_append] at hlen
    have hge := length_text_le items
    exact List.forall_mem_cons.mpr ⟨List.length_eq_zero_iff.mp (by omega), ih (by omega)⟩

/-- The parser strips the mouse sequences exactly if and only if every segment before a mouse sequence
is settled. -/
theorem mouse_stripped_iff (s : MouseStream) :
    s.Stripped ↔ ∀ item ∈ s.items, settled item.1.bytes = true := by
  obtain ⟨htext, hevents, hheld⟩ := MouseParser.parse_stream s
  constructor
  · intro h item hitem
    obtain ⟨hall, -⟩ := h [s.bytes] (by simp)
    rw [MouseParser.parseAll_eq_parse, List.flatten_singleton, htext] at hall
    exact leaked_eq_nil_iff.mp (no_leak_of_text (List.append_cancel_right hall) item hitem)
  · intro h chunks hchunks
    simp only [MouseParser.parseAll_eq_parse, hchunks]
    refine ⟨htext.trans ?_, hevents.trans ?_, hheld⟩
    · exact congrArg (· ++ s.last.bytes)
        (List.flatMap_congr fun item hitem => by simp [leaked, h item hitem])
    · rw [MouseStream.events, List.filterMap_eq_flatMap_toList]
      exact List.flatMap_congr fun item hitem => by simp [noticed, h item hitem]

/-- The button code of a left click. -/
def leftButton : Digits := ⟨[key '0'], by decide, by decide⟩

def noBytes : Segment := ⟨[], by decide⟩

/-- A press of Escape right before a click. -/
def escapeThenClick : MouseStream where
  items := [(⟨[esc], by decide⟩,
    ⟨leftButton, ⟨[key '5'], by decide, by decide⟩, ⟨[key '5'], by decide, by decide⟩, true⟩)]
  last := noBytes

theorem click_after_escape_leaks : ¬ escapeThenClick.Stripped := by
  intro h
  exact absurd (h [escapeThenClick.bytes] (by simp)).1 (by decide)

end Tepegoz
