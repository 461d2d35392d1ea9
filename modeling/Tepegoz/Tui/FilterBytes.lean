import Tepegoz.Tui.Input

namespace Tepegoz

/-- The bytes that a state of the filter holds back. -/
def FilterState.held : FilterState → List UInt8
  | .normal => []
  | .prefixActive => [prefixByte]
  | .prefixEsc => [prefixByte, esc]
  | .prefixCsi => [prefixByte, esc, csiOpen]
  | .bareCsi => [esc, csiOpen]
  | .bareCsiCollect buf => [esc, csiOpen] ++ buf

@[simp] theorem FilterState.held_normal : FilterState.normal.held = [] := rfl

namespace InputAction

/-- The byte sequences that a control action stands for. -/
def spellings : InputAction → List (List UInt8)
  | .forward _ => []
  | .detach => [[prefixByte, key 'd']]
  | .focusDirection .left => [[prefixByte, key 'h'], [prefixByte, esc, csiOpen, key 'D']]
  | .focusDirection .down => [[prefixByte, key 'j'], [prefixByte, esc, csiOpen, key 'B']]
  | .focusDirection .up => [[prefixByte, key 'k'], [prefixByte, esc, csiOpen, key 'A']]
  | .focusDirection .right => [[prefixByte, key 'l'], [prefixByte, esc, csiOpen, key 'C']]
  | .focusNext => [[tab]]
  | .focusPrev => [[esc, csiOpen, key 'Z']]
  | .help => [[prefixByte, key '?']]
  | .paneClose => [[prefixByte, key '&']]
  | .openHostPicker => [[prefixByte, key 't']]

def forwarded : InputAction → List UInt8
  | .forward data => data
  | _ => []

def isControl : InputAction → Bool
  | .forward _ => false
  | _ => true

theorem isControl_of_spelling {action : InputAction} {spelling : List UInt8}
    (h : spelling ∈ action.spellings) : action.isControl = true := by
  cases action <;> first | rfl | exact absurd h (by simp [spellings])

end InputAction

theorem spelling_of_controlOf {b : UInt8} {action : InputAction} (h : controlOf b = some action) :
    [prefixByte, b] ∈ action.spellings := by
  unfold controlOf at h
  repeat' split at h
  all_goals first
    | (obtain rfl := Option.some.inj h; simp [InputAction.spellings, *])
    | simp at h

theorem spelling_of_arrowOf {b : UInt8} {dir : FocusDir} (h : arrowOf b = some dir) :
    [prefixByte, esc, csiOpen, b] ∈ (InputAction.focusDirection dir).spellings := by
  unfold arrowOf at h
  repeat' split at h
  all_goals first
    | (obtain rfl := Option.some.inj h; simp [InputAction.spellings, *])
    | simp at h

@[simp] theorem forwarded_flush (data : List UInt8) :
    (flush data).flatMap (·.forwarded) = data := by
  unfold flush
  split <;> simp_all [InputAction.forwarded]

theorem not_control_of_flush {data : List UInt8} : ∀ action ∈ flush data, action.isControl = false := by
  unfold flush
  split <;> simp [InputAction.isControl]

namespace InputFilter

/-- What becomes of the bytes before a chunk (those collected in `out`, then those held back) and of
the chunk itself. A control action is decided by the bytes up to its last one. -/
inductive Outcome (state : FilterState) (out bytes : List UInt8) :
    FilterState × List InputAction → Prop
  | passed {state' : FilterState} {data : List UInt8} :
      out ++ state.held ++ bytes = data ++ state'.held → Outcome state out bytes (state', flush data)
  | fired {used rest data spelling : List UInt8} {action : InputAction} :
      spelling ∈ action.spellings → bytes = used ++ rest →
      out ++ state.held ++ used = data ++ spelling →
      (∀ more, process state out (used ++ more) = (.normal, flush data ++ [action])) →
      Outcome state out bytes (.normal, flush data ++ [action])

section Steps

variable {state state' : FilterState} {out out' : List UInt8}

/-- A step that moves its bytes to `out` or holds them back. -/
theorem Outcome.step {bytes : List UInt8} {r : FilterState × List InputAction} (moved : List UInt8)
    (h : Outcome state' out' bytes r) (hheld : out ++ state.held ++ moved = out' ++ state'.held)
    (hnext : ∀ more, process state out (moved ++ more) = process state' out' more) :
    Outcome state out (moved ++ bytes) r := by
  cases h with
  | passed heq => exact .passed (by rw [← List.append_assoc, hheld, heq])
  | @fired used rest data spelling action hs hb heq hmore =>
    have hall : out ++ state.held ++ (moved ++ used) = data ++ spelling := by
      rw [← List.append_assoc, hheld, heq]
    refine .fired hs (by rw [hb, List.append_assoc]) hall fun more => ?_
    rw [List.append_assoc, hnext, hmore]

theorem Outcome.control {b : UInt8} {rest : List UInt8} {action : InputAction}
    (hs : state.held ++ [b] ∈ action.spellings)
    (hnext : ∀ more, process state out (b :: more) = (.normal, flush out ++ [action])) :
    Outcome state out (b :: rest) (.normal, flush out ++ [action]) :=
  .fired hs (show b :: rest = [b] ++ rest from rfl) (List.append_assoc _ _ _) hnext

end Steps

/-- Nothing fires before a byte was read. -/
theorem used_ne_nil {state : FilterState} {out used data spelling : List UInt8} {action : InputAction}
    (hs : spelling ∈ action.spellings)
    (h : ∀ more, process state out (used ++ more) = (.normal, flush data ++ [action])) :
    used ≠ [] := by
  rintro rfl
  have hnil := h []
  rw [List.append_nil, process.eq_def] at hnil
  have hmem : action ∈ flush out := by simp [(Prod.mk.inj hnil).2]
  exact absurd (InputAction.isControl_of_spelling hs) (by simp [not_control_of_flush action hmem])

theorem Outcome.escape {out bytes : List UInt8} {c : UInt8} {r : FilterState × List InputAction}
    (hc : c ≠ csiOpen) (h : Outcome .normal (out ++ [esc]) (c :: bytes) r) :
    Outcome .normal out (esc :: c :: bytes) r := by
  have hnext (more : List UInt8) :
      process .normal out (esc :: c :: more) = process .normal (out ++ [esc]) (c :: more) := by
    rw [process.eq_def]
    simp [hc, esc, tab, prefixByte]
  cases h with
  | passed heq => exact .passed (by simpa [FilterState.held] using heq)
  | @fired used rest data spelling action hs hb heq hmore =>
    cases used with
    | nil => exact absurd rfl (used_ne_nil hs hmore)
    | cons c' used =>
      obtain ⟨rfl, hrest⟩ := List.cons_eq_cons.mp hb
      have hall : out ++ FilterState.normal.held ++ (esc :: c :: used) = data ++ spelling := by
        simpa [FilterState.held] using heq
      refine .fired hs (congrArg (esc :: c :: ·) hrest) hall fun more => ?_
      exact (hnext _).trans (hmore more)

theorem process_outcome (state : FilterState) (out bytes : List UInt8) :
    Outcome state out bytes (process state out bytes) := by
  fun_induction process state out bytes
  case case1 => exact .passed (by simp)
  case case2 =>
    exact .control (by simp [FilterState.held, InputAction.spellings]) fun _ => by
      rw [process.eq_def]; simp
  -- `ESC [` in one chunk: the only step of two bytes
  case case4 ih => exact .step [esc, csiOpen] ih (by simp [FilterState.held]) fun _ => rfl
  case case5 hc _ _ ih => exact ih.escape hc
  case case6 => exact .passed (by simp [FilterState.held])
  case case8 hc => exact .control (spelling_of_controlOf hc) fun _ => by simp [process, hc]
  case case13 hd => exact .control (spelling_of_arrowOf hd) fun _ => by simp [process, hd]
  case case15 => exact .control (by simp [FilterState.held, InputAction.spellings]) fun _ => rfl
  case case3 ih | case7 ih =>
    exact .step [_] ih (by simp [FilterState.held]) fun _ => by rw [process.eq_def]; simp [*]
  case case9 ih | case10 ih | case11 ih | case12 ih | case14 ih | case16 ih |
      case17 ih | case18 ih | case19 ih | case20 ih | case21 ih =>
    exact .step [_] ih (by simp [FilterState.held]) fun _ => by simp [process, *]

/-- The results of `process` for one chunk after the other. -/
def processAll : FilterState → List (List UInt8) → FilterState × List (List InputAction)
  | state, [] => (state, [])
  | state, chunk :: chunks =>
    let first := process state [] chunk
    let others := processAll first.1 chunks
    (others.1, first.2 :: others.2)

theorem process_forwards {state : FilterState} {chunk : List UInt8}
    (h : ∀ action ∈ (process state [] chunk).2, action.isControl = false) :
    state.held ++ chunk =
      (process state [] chunk).2.flatMap (·.forwarded) ++ (process state [] chunk).1.held := by
  generalize hr : process state [] chunk = r at h ⊢
  have houtcome := hr ▸ process_outcome state [] chunk
  cases houtcome with
  | passed heq => simpa using heq
  | fired hs =>
    have hcontrol := h _ (List.mem_append_right _ (List.mem_singleton_self _))
    exact absurd (InputAction.isControl_of_spelling hs) (by simp [hcontrol])

theorem flush_append_control {data : List UInt8} {action control : InputAction}
    {before after : List InputAction} (h : flush data ++ [action] = before ++ control :: after)
    (hc : control.isControl = true) : before = flush data ∧ control = action ∧ after = [] := by
  rcases List.append_eq_append_iff.mp h with ⟨mid, rfl, hmid⟩ | ⟨mid, hflush, hmid⟩
  · cases mid with
    | nil => simpa [eq_comm] using hmid
    | cons x mid => simp at hmid
  · cases mid with
    | nil => simpa [hflush, eq_comm] using hmid
    | cons x mid =>
      obtain ⟨rfl, -⟩ := List.cons_eq_cons.mp hmid
      have hmem : control ∈ flush data := by simp [hflush]
      rw [not_control_of_flush control hmem] at hc
      cases hc

theorem process_control {state : FilterState} {chunk : List UInt8} {control : InputAction}
    {before after : List InputAction} (h : (process state [] chunk).2 = before ++ control :: after)
    (hc : control.isControl = true) :
    after = [] ∧ (process state [] chunk).1 = .normal ∧ ∃ data spelling dropped,
      spelling ∈ control.spellings ∧ state.held ++ chunk = data ++ spelling ++ dropped ∧
      before = flush data := by
  generalize hr : process state [] chunk = r at h ⊢
  have houtcome := hr ▸ process_outcome state [] chunk
  cases houtcome with
  | @passed state' data =>
    have hmem : control ∈ flush data := (show flush data = _ from h) ▸ by simp
    rw [not_control_of_flush control hmem] at hc
    cases hc
  | @fired used rest data spelling action hs hb heq _ =>
    obtain ⟨rfl, rfl, rfl⟩ := flush_append_control h hc
    refine ⟨rfl, rfl, data, spelling, rest, hs, ?_, rfl⟩
    rw [hb, ← heq, List.nil_append, List.append_assoc]

end InputFilter

open InputFilter in
/-- As long as no control action fires, what goes in is what is forwarded and what is held back. A
control action ends its chunk, and before it goes exactly what stood before its bytes. -/
theorem filter_conserves (state : FilterState) (chunks : List (List UInt8)) :
    ((∀ actions ∈ (processAll state chunks).2, ∀ action ∈ actions, action.isControl = false) →
      state.held ++ chunks.flatten =
        (processAll state chunks).2.flatten.flatMap (·.forwarded) ++
          (processAll state chunks).1.held) ∧
    ∀ chunk before control after, (process state [] chunk).2 = before ++ control :: after →
      control.isControl = true →
      after = [] ∧ (process state [] chunk).1 = .normal ∧ ∃ data spelling dropped,
        spelling ∈ control.spellings ∧ state.held ++ chunk = data ++ spelling ++ dropped ∧
        before = flush data := by
  refine ⟨fun h => ?_, fun chunk before control after => process_control⟩
  induction chunks generalizing state with
  | nil => simp [processAll]
  | cons chunk chunks ih =>
    obtain ⟨hfirst, hothers⟩ := List.forall_mem_cons.mp h
    have hchunk := process_forwards hfirst
    have hchunks := ih (process state [] chunk).1 hothers
    simp only [processAll, List.flatten_cons, List.flatMap_append, List.append_assoc]
    rw [← hchunks, ← List.append_assoc, hchunk, List.append_assoc]

/-- `Ctrl-b` at the end of one read and an unknown key in the next; then a Tab inside a read. -/
theorem filter_conserves_split :
    let read := [[key 'l', prefixByte], [key 'x', esc, csiOpen, key '3']]
    FilterState.held .normal ++ read.flatten =
        (InputFilter.processAll .normal read).2.flatten.flatMap (·.forwarded) ++
          (InputFilter.processAll .normal read).1.held ∧
      (InputFilter.process .normal [] [key 'l', tab, key 's']).1 = .normal :=
  ⟨(filter_conserves .normal _).1 (by decide),
    ((filter_conserves .normal []).2 [key 'l', tab, key 's'] [.forward [key 'l']] .focusNext []
      (by decide) rfl).2.1⟩

end Tepegoz
