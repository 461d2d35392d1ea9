import Tepegoz.Tui.FilterBytes
import Tepegoz.Tui.PaneStack

namespace Tepegoz

namespace InputFilter

/-- A control action fires in a chunk. -/
def fires (state : FilterState) (chunk : List UInt8) : Bool :=
  (process state [] chunk).2.any (·.isControl)

/-- A chunk up to the end of the first control action in it. -/
def kept (state : FilterState) (chunk : List UInt8) : List UInt8 :=
  chunk.take <| ((List.range (chunk.length + 1)).find? fun n => fires state (chunk.take n)).getD
    chunk.length

def keptAll : FilterState → List (List UInt8) → List (List UInt8)
  | _, [] => []
  | state, chunk :: chunks => kept state chunk :: keptAll (process state [] chunk).1 chunks

theorem fires_passed {state state' : FilterState} {chunk data : List UInt8}
    (h : process state [] chunk = (state', flush data)) : fires state chunk = false := by
  simpa [fires, h] using not_control_of_flush

theorem fires_of_fired {state : FilterState} {chunk data spelling : List UInt8} {action : InputAction}
    (hs : spelling ∈ action.spellings)
    (h : process state [] chunk = (.normal, flush data ++ [action])) : fires state chunk = true := by
  simp [fires, h, InputAction.isControl_of_spelling hs]

/-- Once a control action has fired, nothing of the chunk matters any more. -/
theorem process_append_of_fires {state : FilterState} {chunk : List UInt8}
    (h : fires state chunk = true) (more : List UInt8) :
    process state [] (chunk ++ more) = process state [] chunk := by
  generalize hr : process state [] chunk = r
  have houtcome := hr ▸ process_outcome state [] chunk
  cases houtcome with
  | passed => simp [fires_passed hr] at h
  | @fired used rest data spelling action _ hb _ hmore => rw [hb, List.append_assoc, hmore]

theorem kept_of_fires {state : FilterState} {chunk : List UInt8} (h : fires state chunk = true) :
    kept state chunk <+: chunk ∧ fires state (kept state chunk) = true ∧
      ∀ part, part <+: kept state chunk → fires state part = true → part = kept state chunk := by
  have hfull : ((List.range (chunk.length + 1)).find? fun n => fires state (chunk.take n)).isSome := by
    refine List.find?_isSome.mpr ⟨chunk.length, List.mem_range.mpr (Nat.lt_succ_self _), ?_⟩
    rwa [List.take_length]
  obtain ⟨n, hn⟩ := Option.isSome_iff_exists.mp hfull
  have hkept : kept state chunk = chunk.take n := by rw [kept, hn, Option.getD_some]
  obtain ⟨hfires, -, hfirst⟩ := List.find?_range_eq_some.mp hn
  rw [hkept]
  refine ⟨List.take_prefix _ _, hfires, fun part hpart hp => ?_⟩
  have htake : part = chunk.take part.length :=
    List.prefix_iff_eq_take.mp (hpart.trans (List.take_prefix _ _))
  by_contra hne
  have hlt : part.length < n := by
    have hle := hpart.length_le
    have hlen : part.length ≠ (chunk.take n).length := fun heq => hne (hpart.eq_of_length heq)
    simp only [List.length_take] at hle hlen
    omega
  have hnot := hfirst part.length hlt
  rw [← htake, hp] at hnot
  cases hnot

theorem kept_of_not_fires {state : FilterState} {chunk : List UInt8}
    (h : fires state chunk = false) : kept state chunk = chunk := by
  have hnone : ((List.range (chunk.length + 1)).find? fun n => fires state (chunk.take n)) = none := by
    refine List.find?_eq_none.mpr fun n _ hn => ?_
    have happend := process_append_of_fires hn (chunk.drop n)
    rw [List.take_append_drop] at happend
    rw [fires, happend] at h
    exact absurd hn (by simp [fires, h])
  rw [kept, hnone, Option.getD_none, List.take_length]

/-- What the filter makes of a chunk: it forwards what is kept, up to a control action at the end or
up to what it holds back. -/
theorem process_kept (state : FilterState) (chunk : List UInt8) : ∃ data,
    (∃ state', process state [] chunk = (state', flush data) ∧
      state.held ++ kept state chunk = data ++ state'.held) ∨
    ∃ action spelling, process state [] chunk = (.normal, flush data ++ [action]) ∧
      spelling ∈ action.spellings ∧ state.held ++ kept state chunk = data ++ spelling := by
  by_cases hf : fires state chunk = true
  · obtain ⟨⟨dropped, hsplit⟩, hkept, hfirst⟩ := kept_of_fires hf
    have hsame := process_append_of_fires hkept dropped
    rw [hsplit] at hsame
    generalize hr : process state [] (kept state chunk) = r at hsame
    have houtcome := hr ▸ process_outcome state [] (kept state chunk)
    cases houtcome with
    | passed => simp [fires_passed hr] at hkept
    | @fired used rest data spelling action hs hb heq hmore =>
      have hfired : process state [] used = (.normal, flush data ++ [action]) := by
        simpa using hmore []
      have hused : used = kept state chunk := hfirst used ⟨rest, hb.symm⟩ (fires_of_fired hs hfired)
      exact ⟨data, .inr ⟨action, spelling, hsame, hs, by simpa [hused] using heq⟩⟩
  · rw [kept_of_not_fires (Bool.eq_false_iff.mpr hf)]
    generalize hr : process state [] chunk = r
    have houtcome := hr ▸ process_outcome state [] chunk
    cases houtcome with
    | @passed state' data heq => exact ⟨data, .inl ⟨state', rfl, by simpa using heq⟩⟩
    | fired hs => exact absurd (fires_of_fired hs hr) hf

end InputFilter

/-- What the pane gets of an action while the pty tile has the focus. -/
def InputAction.typed : InputAction → List UInt8
  | .forward data => data
  | .focusNext => [tab]
  | .focusPrev => Turn.shiftTab
  | _ => []

/-- Without a `Ctrl-b` only Tab and Shift-Tab are control actions, and they stand for themselves. -/
theorem InputAction.typed_of_spelling {action : InputAction} {spelling : List UInt8}
    (hs : spelling ∈ action.spellings) (hplain : prefixByte ∉ spelling) :
    (action = .focusNext ∨ action = .focusPrev) ∧ action.typed = spelling := by
  cases action with
  | focusNext => exact ⟨.inl rfl, (List.mem_singleton.mp hs).symm⟩
  | focusPrev => exact ⟨.inr rfl, (List.mem_singleton.mp hs).symm⟩
  | forward => cases hs
  | focusDirection dir =>
    refine absurd ?_ hplain
    cases dir <;> simp only [spellings, List.mem_cons, List.not_mem_nil, or_false] at hs <;>
      rcases hs with rfl | rfl <;> exact List.mem_cons_self
  | detach | help | paneClose | openHostPicker =>
    refine absurd ?_ hplain
    rw [List.mem_singleton.mp hs]
    exact List.mem_cons_self

/-- The keyboard goes to the pane `entry`. -/
structure App.OnPty (a : App) (entry : PaneEntry) : Prop where
  focused : a.view.layout.routesToPty a.view.focused = true
  shown : a.activeEntry = some entry
  noHelp : a.helpVisible = false
  noPicker : a.hostPicker = none

/-- The chunks of stdin are handled one after the other. -/
def App.handleChunks (text : TextOps) (a : App) :
    List (Moment × List UInt8) → Option (App × List AppAction)
  | [] => some (a, [])
  | (m, bytes) :: chunks => do
    let t ← a.handleEvent text m (.stdinChunk bytes)
    let rest ← t.app.handleChunks text chunks
    some (rest.1, t.actions ++ rest.2)

/-- The input that an action sends to a pane. -/
def AppAction.inputFor (pane : PaneId) (action : AppAction) : List UInt8 :=
  match action.command with
  | some (.sendInput id data) => if id = pane then data else []
  | _ => []

theorem typed_flush (data : List UInt8) : (flush data).flatMap (·.typed) = data := by
  unfold flush
  split <;> simp_all [InputAction.typed]

/-- A chunk without `Ctrl-b` gives only input for the pane: what is kept of it, but for what the
filter holds back. -/
theorem InputFilter.typed_kept {state : FilterState} {chunk : List UInt8}
    (hheld : prefixByte ∉ state.held) (hchunk : prefixByte ∉ chunk) :
    (∀ input ∈ (process state [] chunk).2,
      input.isControl = false ∨ input = .focusNext ∨ input = .focusPrev) ∧
    prefixByte ∉ (process state [] chunk).1.held ∧
    state.held ++ kept state chunk =
      (process state [] chunk).2.flatMap (·.typed) ++ (process state [] chunk).1.held := by
  have hplain : prefixByte ∉ state.held ++ kept state chunk := by
    rw [List.mem_append]
    exact fun h => h.elim hheld fun hk => hchunk (List.mem_of_mem_take hk)
  obtain ⟨data, ⟨state', hp, heq⟩ | ⟨action, spelling, hp, hs, heq⟩⟩ := process_kept state chunk
  · rw [hp]
    refine ⟨fun input hi => .inl (not_control_of_flush input hi), ?_, ?_⟩
    · exact fun h => hplain (heq ▸ List.mem_append_right _ h)
    · rw [typed_flush, heq]
  · have hspelling : prefixByte ∉ spelling := fun h => hplain (heq ▸ List.mem_append_right _ h)
    obtain ⟨haction, htyped⟩ := InputAction.typed_of_spelling hs hspelling
    rw [hp]
    refine ⟨fun input hi => ?_, by simp, ?_⟩
    · rcases List.mem_append.mp hi with hi | hi
      · exact .inl (not_control_of_flush input hi)
      · exact .inr (List.mem_singleton.mp hi ▸ haction)
    · simp [typed_flush, htyped, heq]

namespace Turn

variable {text : TextOps} {m : Moment} {t : Turn} {entry : PaneEntry}

theorem handleInput_onPty (h : t.app.OnPty entry) {input : InputAction}
    (hi : input.isControl = false ∨ input = .focusNext ∨ input = .focusPrev) :
    t.handleInput text m input = some (t.send (.sendInput entry.paneId input.typed)) := by
  have hsend (data : List UInt8) :
      t.sendInput data = some (t.send (.sendInput entry.paneId data)) := by
    simp [sendInput, h.shown]
  unfold handleInput
  rw [if_neg (by simp [h.noHelp]), if_neg (by simp [h.noPicker])]
  cases input with
  | forward data => simp [inputToTiles, handleForwardBytes, h.focused, hsend, InputAction.typed]
  | focusNext | focusPrev => simp [inputToTiles, handleTab, h.focused, hsend, InputAction.typed]
  | _ => simp [InputAction.isControl] at hi

theorem handleInputs_onPty {inputs : List InputAction} (h : t.app.OnPty entry)
    (hi : ∀ input ∈ inputs, input.isControl = false ∨ input = .focusNext ∨ input = .focusPrev) :
    t.handleInputs text m inputs = some
      ⟨t.app, t.actions ++ inputs.map fun input =>
        .sendEnvelope (envelope (.sendInput entry.paneId input.typed))⟩ := by
  induction inputs generalizing t with
  | nil => simp [handleInputs]
  | cons input inputs ih =>
    obtain ⟨hfirst, hothers⟩ := List.forall_mem_cons.mp hi
    have hne : input ≠ .detach := by
      rintro rfl
      simp [InputAction.isControl] at hfirst
    rw [handleInputs_cons hne, handleInput_onPty h hfirst, Option.bind_some,
      ih (t := t.send (.sendInput entry.paneId input.typed)) h hothers]
    simp [send, emit]

end Turn

theorem AppAction.inputFor_sendInput (pane : PaneId) (inputs : List InputAction) :
    (inputs.map fun input => AppAction.sendEnvelope (envelope (.sendInput pane input.typed))).flatMap
      (·.inputFor pane) = inputs.flatMap (·.typed) := by
  simp [List.flatMap_map, AppAction.inputFor, AppAction.command, envelope]

/-- With the focus on the pty tile, a pane shown and no overlay open, typing changes nothing but the
input filter and sends the active pane, in order, what the filter held back and each chunk up to the
first Tab or Shift-Tab in it, but for what the filter holds back in the end. -/
theorem pty_pass_through (text : TextOps) {a : App} {entry : PaneEntry}
    (chunks : List (Moment × List UInt8)) (h : a.OnPty entry)
    (hheld : prefixByte ∉ a.inputFilter.held) (hchunks : ∀ chunk ∈ chunks, prefixByte ∉ chunk.2) :
    ∃ filter actions, a.handleChunks text chunks = some ({ a with inputFilter := filter }, actions) ∧
      (∀ action ∈ actions, ∃ data,
        action = .sendEnvelope (envelope (.sendInput entry.paneId data))) ∧
      a.inputFilter.held ++
          (InputFilter.keptAll a.inputFilter (chunks.map (·.2))).flatten =
        actions.flatMap (·.inputFor entry.paneId) ++ filter.held := by
  induction chunks generalizing a with
  | nil => exact ⟨a.inputFilter, [], rfl, by simp, by simp [InputFilter.keptAll]⟩
  | cons chunk chunks ih =>
    obtain ⟨m, bytes⟩ := chunk
    obtain ⟨hbytes, hothers⟩ := List.forall_mem_cons.mp hchunks
    obtain ⟨hinputs, hheld', hkept⟩ := InputFilter.typed_kept hheld hbytes
    generalize hp : InputFilter.process a.inputFilter [] bytes = filtered at hinputs hheld' hkept
    have hpty : ({ a with inputFilter := filtered.1 } : App).OnPty entry :=
      ⟨h.focused, h.shown, h.noHelp, h.noPicker⟩
    have hevent : a.handleEvent text m (.stdinChunk bytes) =
        some ⟨{ a with inputFilter := filtered.1 }, filtered.2.map fun input =>
          .sendEnvelope (envelope (.sendInput entry.paneId input.typed))⟩ := by
      show Turn.handleStdin text m ⟨a, []⟩ bytes = _
      unfold Turn.handleStdin
      rw [hp]
      exact Turn.handleInputs_onPty hpty hinputs
    obtain ⟨filter, actions, hrun, hsends, hrest⟩ := ih hpty hheld' hothers
    refine ⟨filter, _, by simp [App.handleChunks, hevent, hrun]; rfl, ?_, ?_⟩
    · intro action haction
      rcases List.mem_append.mp haction with haction | haction
      · obtain ⟨input, -, rfl⟩ := List.mem_map.mp haction
        exact ⟨input.typed, rfl⟩
      · exact hsends action haction
    · simp only [List.map_cons, InputFilter.keptAll, hp, List.flatten_cons, List.flatMap_append,
        AppAction.inputFor_sendInput]
      rw [← List.append_assoc, hkept, List.append_assoc, hrest, List.append_assoc]

theorem sampleApp_onPty : sampleApp.OnPty ⟨7, 1, "zsh", newParser sampleApp.view.layout⟩ :=
  ⟨by decide, by decide, by decide, by decide⟩

/-- An arrow key that two reads split, then a paste in which only the part after a Tab is lost. -/
theorem pty_pass_through_pasted : ∃ filter actions,
    sampleApp.handleChunks .ascii [(.at 0, [key 'l', esc, csiOpen]), (.at 1, [key 'A', tab, key 'b'])] =
      some ({ sampleApp with inputFilter := filter }, actions) ∧
    actions.flatMap (·.inputFor 7) ++ filter.held = [key 'l', esc, csiOpen, key 'A', tab] := by
  obtain ⟨filter, actions, hrun, -, hsent⟩ := pty_pass_through .ascii
    [(.at 0, [key 'l', esc, csiOpen]), (.at 1, [key 'A', tab, key 'b'])] sampleApp_onPty
    (by decide) (by decide)
  exact ⟨filter, actions, hrun, hsent.symm.trans (by decide)⟩

/-- What is pasted after a Tab does not reach the pane. -/
theorem paste_cut_at_tab : ∃ entry, sampleApp.OnPty entry ∧ sampleApp.inputFilter = .normal ∧
    (sampleApp.handleChunks .ascii [(.at 0, [key 'a', tab, key 'b'])]).map (fun r =>
      r.2.flatMap (·.inputFor entry.paneId) ++ r.1.inputFilter.held) ≠
        some [key 'a', tab, key 'b'] :=
  ⟨_, sampleApp_onPty, by decide, by decide⟩

end Tepegoz
