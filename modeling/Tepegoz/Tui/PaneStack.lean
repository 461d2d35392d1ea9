import Tepegoz.Lib.Transition
import Tepegoz.Tui.Frames

namespace Tepegoz

open Transition

/-- There is a pane to show, or one has been asked for. -/
def App.PaneReady (a : App) : Prop :=
  a.activePane < a.paneStack.length ∨ a.paneStack = [] ∧ a.pendingOpens ≠ []

instance (a : App) : Decidable a.PaneReady := inferInstanceAs (Decidable (_ ∨ _ ∧ _))

def AppAction.detaches : AppAction → Bool
  | .detach _ => true
  | _ => false

def Turn.detaches (t : Turn) : Bool := t.actions.any (·.detaches)

/-- The key is meant for the pane that the pty tile shows. -/
def App.typesIntoPane (a : App) : InputAction → Bool
  | .forward _ | .focusNext | .focusPrev =>
    !a.helpVisible && a.hostPicker.isNone && a.view.layout.routesToPty a.view.focused
  | _ => false

section Conditions

variable (text : TextOps) (m : Moment)

/-- No key of the chunk is typed into a pane when there is none. -/
def Turn.InputsLand (t : Turn) : List InputAction → Prop
  | [] => True
  | .detach :: _ => True
  | input :: inputs => (t.app.typesIntoPane input = true → t.app.paneStack ≠ []) ∧
      ∀ next ∈ t.handleInput text m input, next.InputsLand inputs

instance (t : Turn) (inputs : List InputAction) : Decidable (t.InputsLand text m inputs) := by
  induction inputs generalizing t with
  | nil => exact .isTrue trivial
  | cons input inputs ih =>
    cases input <;> first | exact .isTrue trivial | exact inferInstanceAs (Decidable (_ ∧ _))

variable {text m} in
theorem Turn.inputsLand_cons {t : Turn} {input : InputAction} {inputs : List InputAction}
    (h : input ≠ .detach) : t.InputsLand text m (input :: inputs) ↔
      (t.app.typesIntoPane input = true → t.app.paneStack ≠ []) ∧
        ∀ next ∈ t.handleInput text m input, next.InputsLand text m inputs := by
  cases input <;> first | rfl | exact absurd rfl h

/-- While there is no pane, nothing is typed into it and the only request for one does not fail; the
layout of a new size can be computed. -/
def App.Serves (a : App) : AppEvent → Prop
  | .stdinChunk bytes =>
    let filtered := InputFilter.process a.inputFilter [] bytes
    Turn.InputsLand text m ⟨{ a with inputFilter := filtered.1 }, []⟩ filtered.2
  | .daemonEnvelope ⟨_, .error info⟩ =>
    Turn.isOpenFailure info = true → a.paneStack = [] → a.pendingOpens.length ≠ 1
  | .resize rows cols => LayoutFits rows cols
  | _ => True

instance (a : App) (event : AppEvent) : Decidable (a.Serves text m event) := by
  unfold App.Serves
  split <;> infer_instance

end Conditions

variable {text : TextOps} {m : Moment} {a b : App}

theorem KeepsPanes.paneReady (h : KeepsPanes a b) (ha : a.PaneReady) : b.PaneReady := by
  unfold App.PaneReady at *
  rw [h.stack, h.active]
  rcases ha with hlt | ⟨he, hp⟩
  · exact .inl hlt
  · refine .inr ⟨he, fun hb => hp ?_⟩
    have hpending := h.pending
    rw [hb] at hpending
    exact List.prefix_nil.mp hpending

theorem App.PaneReady.activeEntry (h : a.PaneReady) (hne : a.paneStack ≠ []) :
    ∃ entry, a.activeEntry = some entry := by
  rcases h with hlt | ⟨he, -⟩
  · exact ⟨_, List.getElem?_eq_getElem hlt⟩
  · exact absurd he hne

theorem App.recipient_pane {subId idx : Nat} (h : a.recipient subId = some (.pane idx)) :
    idx < a.paneStack.length := by
  unfold recipient at h
  split at h
  next i hi =>
    cases Option.some.inj h
    exact (List.findIdx?_eq_some_iff_getElem.mp hi).1
  next => repeat' split at h
          all_goals cases h

namespace Turn

variable {t : Turn}

theorem length_eraseIdx_ne_nil {i : Nat} (hi : i < t.app.paneStack.length)
    (hne : t.app.paneStack.eraseIdx i ≠ []) :
    0 < (t.app.paneStack.eraseIdx i).length ∧
      (t.app.paneStack.eraseIdx i).length + 1 = t.app.paneStack.length := by
  have hl := List.length_eraseIdx_of_lt hi
  have hpos := List.length_pos_of_ne_nil hne
  omega

theorem activeAfterClose_lt {active n : Nat} (hn : 0 < n) : activeAfterClose active n < n := by
  unfold activeAfterClose
  split <;> omega

theorem closeActivePane_ready (h : t.app.PaneReady) :
    ∃ t', t.closeActivePane m = some t' ∧ t'.app.PaneReady := by
  unfold closeActivePane
  split
  next => exact ⟨t, rfl, h⟩
  next hne =>
    obtain ⟨removed, hentry⟩ := h.activeEntry hne
    have hlt : t.app.activePane < t.app.paneStack.length := by
      rcases h with hlt | ⟨he, -⟩
      · exact hlt
      · exact absurd he hne
    simp only [hentry]
    split
    next hrest =>
      refine ⟨_, rfl, .inr ⟨hrest, ?_⟩⟩
      simp [pushPendingOpen]
    next hrest =>
      obtain ⟨hpos, hlen⟩ := length_eraseIdx_ne_nil hlt hrest
      exact ⟨_, rfl, .inl (activeAfterClose_lt hpos)⟩

theorem activeAfterExit_lt {active idx n : Nat} (hn : 0 < n) (hactive : active < n + 1)
    (hidx : idx < n + 1) : activeAfterExit active idx n < n := by
  unfold activeAfterExit
  split <;> omega

theorem handlePaneExit_ready {idx : Nat} {exitCode : Option Int} (h : t.app.PaneReady)
    (hidx : idx < t.app.paneStack.length) :
    ∃ t', t.handlePaneExit m idx exitCode = some t' ∧ (t'.detaches = true ∨ t'.app.PaneReady) := by
  unfold handlePaneExit
  simp only [List.getElem?_eq_getElem hidx]
  split
  next => exact ⟨_, rfl, .inl (by simp [detaches, emit, AppAction.detaches])⟩
  next hrest =>
    obtain ⟨hpos, hlen⟩ := length_eraseIdx_ne_nil hidx hrest
    have hlt : t.app.activePane < t.app.paneStack.length := by
      rcases h with hlt | ⟨he, -⟩
      · exact hlt
      · simp [he] at hidx
    have hnext : activeAfterExit t.app.activePane idx (t.app.paneStack.eraseIdx idx).length <
        (t.app.paneStack.eraseIdx idx).length := activeAfterExit_lt hpos (by omega) (by omega)
    exact ⟨_, rfl, .inr (.inl hnext)⟩

theorem feedPane_ready {idx : Nat} {bytes : List UInt8} (h : t.app.PaneReady)
    (hidx : idx < t.app.paneStack.length) :
    ∃ t', t.feedPane idx bytes = some t' ∧ t'.app.PaneReady := by
  unfold feedPane
  rw [if_pos hidx]
  refine ⟨_, rfl, ?_⟩
  have hlt : t.app.activePane < t.app.paneStack.length := by
    rcases h with hlt | ⟨he, -⟩
    · exact hlt
    · simp [he] at hidx
  left
  split <;> simpa using hlt

theorem handlePaneEvent_ready {idx : Nat} {event : Event} (h : t.app.PaneReady)
    (hidx : idx < t.app.paneStack.length) :
    ∃ t', t.handlePaneEvent m idx event = some t' ∧ (t'.detaches = true ∨ t'.app.PaneReady) := by
  have hfed : ∀ bytes, ∃ t', t.feedPane idx bytes = some t' ∧
      (t'.detaches = true ∨ t'.app.PaneReady) := fun bytes => by
    have hfed : ∃ t', t.feedPane idx bytes = some t' ∧ t'.app.PaneReady := feedPane_ready h hidx
    obtain ⟨t', ht', hr⟩ := hfed
    exact ⟨t', ht', .inr hr⟩
  unfold handlePaneEvent
  split
  next =>
    split
    next => exact ⟨t, rfl, .inr h⟩
    next => exact hfed _
  next => exact hfed _
  next => exact handlePaneExit_ready h hidx
  next => exact ⟨t, rfl, .inr h⟩

theorem handlePaneOpened_ready {info : PaneInfo} (h : t.app.PaneReady) :
    (t.handlePaneOpened info).app.PaneReady := by
  unfold handlePaneOpened
  split
  next => exact h
  next =>
    left
    simp only [app_draw, app_send, focusPty]
    split <;> simp

theorem handleError_ready {info : ErrorInfo} (h : t.app.PaneReady)
    (hkept : isOpenFailure info = true → t.app.paneStack = [] → t.app.pendingOpens.length ≠ 1) :
    (t.handleError m info).app.PaneReady := by
  unfold handleError
  split
  next pending others hf hp =>
    rcases h with hlt | ⟨he, -⟩
    · exact .inl hlt
    · refine .inr ⟨he, fun ho => ?_⟩
      have ho' : others = [] := ho
      exact hkept hf he (by rw [hp, ho']; rfl)
  next => exact (t.pushToast_quiet _ _).paneReady h

theorem sendInput_ready {data : List UInt8} (h : t.app.PaneReady) (hne : t.app.paneStack ≠ []) :
    ∃ t', t.sendInput data = some t' ∧ t'.app.PaneReady := by
  obtain ⟨entry, hentry⟩ := h.activeEntry hne
  exact ⟨t.send (.sendInput entry.paneId data), by simp [sendInput, hentry], h⟩

theorem handleForwardBytes_ready {bytes : List UInt8} (h : t.app.PaneReady)
    (hne : t.app.view.layout.routesToPty t.app.view.focused = true → t.app.paneStack ≠ []) :
    ∃ t', t.handleForwardBytes text m bytes = some t' ∧ t'.app.PaneReady := by
  unfold handleForwardBytes
  split
  next hp => exact sendInput_ready h (hne hp)
  next =>
    split
    next kind _ =>
      refine ⟨_, rfl, ?_⟩
      exact ((t.parseKeys_quiet bytes).trans (Turn.scopeKeys_quiet _ kind _)).paneReady h
    next => exact ⟨t, rfl, h⟩

theorem handleTab_ready {forward : Bool} (h : t.app.PaneReady)
    (hne : t.app.view.layout.routesToPty t.app.view.focused = true → t.app.paneStack ≠ []) :
    ∃ t', t.handleTab forward = some t' ∧ t'.app.PaneReady := by
  unfold handleTab
  split
  next hp => exact sendInput_ready h (hne hp)
  next => exact ⟨_, rfl, (t.handleFocusCycle_quiet forward).paneReady h⟩

theorem inputToTiles_ready {input : InputAction} (h : t.app.PaneReady)
    (hhelp : t.app.helpVisible = false) (hpicker : t.app.hostPicker.isNone = true)
    (hland : t.app.typesIntoPane input = true → t.app.paneStack ≠ []) :
    ∃ t', t.inputToTiles text m input = some t' ∧ t'.app.PaneReady := by
  simp only [App.typesIntoPane, hhelp, hpicker, Bool.not_false, Bool.true_and] at hland
  cases input with
  | forward bytes => exact handleForwardBytes_ready h hland
  | detach => exact ⟨_, rfl, h⟩
  | focusDirection dir => exact ⟨_, rfl, (t.handleFocusDirection_quiet dir).paneReady h⟩
  | focusNext => exact handleTab_ready h hland
  | focusPrev => exact handleTab_ready h hland
  | help => exact ⟨_, rfl, t.handleHelpToggle_quiet.paneReady h⟩
  | openHostPicker => exact ⟨_, rfl, t.openHostPicker_quiet.paneReady h⟩
  | paneClose =>
    show ∃ t', (if t.app.view.layout.routesToPty t.app.view.focused = true then t.closeActivePane m
      else some t) = some t' ∧ t'.app.PaneReady
    split
    next => exact closeActivePane_ready h
    next => exact ⟨t, rfl, h⟩

theorem handleInput_ready {input : InputAction} (h : t.app.PaneReady)
    (hland : t.app.typesIntoPane input = true → t.app.paneStack ≠ []) :
    ∃ t', t.handleInput text m input = some t' ∧ t'.app.PaneReady := by
  unfold handleInput
  split
  next => exact ⟨_, rfl, (t.inputToHelp_quiet input).paneReady h⟩
  next hhelp =>
    split
    next => exact ⟨_, rfl, (t.inputToPicker_panes input).paneReady h⟩
    next hpicker => exact inputToTiles_ready h (by simpa using hhelp) (by simpa using hpicker) hland

theorem handleInputs_ready {inputs : List InputAction} (h : t.app.PaneReady)
    (hland : t.InputsLand text m inputs) :
    ∃ t', t.handleInputs text m inputs = some t' ∧ t'.app.PaneReady := by
  induction inputs generalizing t with
  | nil => exact ⟨t, rfl, h⟩
  | cons input inputs ih =>
    by_cases hd : input = .detach
    · subst hd; exact ⟨_, rfl, h⟩
    · obtain ⟨hfirst, hrest⟩ := (inputsLand_cons hd).mp hland
      obtain ⟨t', ht', hr⟩ := handleInput_ready h hfirst
      obtain ⟨t'', ht'', hr'⟩ := ih hr (hrest t' ht')
      exact ⟨t'', by rw [handleInputs_cons hd, ht']; exact ht'', hr'⟩

theorem handleInput_without_pane {input : InputAction} (ht : t.app.typesIntoPane input = true)
    (he : t.app.paneStack = []) : t.handleInput text m input = none := by
  have hsend : ∀ data, t.sendInput data = none := fun data => by
    simp [sendInput, App.activeEntry, he]
  cases input <;> simp only [App.typesIntoPane, Bool.and_eq_true, Bool.not_eq_true',
    Option.isNone_iff_eq_none, Bool.false_eq_true] at ht
  all_goals
    obtain ⟨⟨hhelp, hpicker⟩, hpty⟩ := ht
    simp [handleInput, inputToTiles, handleForwardBytes, handleTab, hhelp, hpicker, hpty, hsend]

theorem inputsLand_of_handled {inputs : List InputAction} (h : t.app.PaneReady)
    (hs : t.handleInputs text m inputs ≠ none) : t.InputsLand text m inputs := by
  induction inputs generalizing t with
  | nil => trivial
  | cons input inputs ih =>
    by_cases hd : input = .detach
    · subst hd; trivial
    · rw [handleInputs_cons hd] at hs
      have hland : t.app.typesIntoPane input = true → t.app.paneStack ≠ [] := fun ht he => by
        simp [handleInput_without_pane ht he] at hs
      refine (inputsLand_cons hd).mpr ⟨hland, fun next hn => ?_⟩
      obtain ⟨t', ht', hready⟩ := handleInput_ready h hland
      cases Option.some.inj (ht'.symm.trans hn)
      refine ih hready ?_
      simpa [ht'] using hs

theorem dispatchPtyClick_ready {rect : Rect} {x y : Nat} (h : t.app.PaneReady) :
    ∃ t', t.dispatchPtyClick m rect x y = some t' ∧ t'.app.PaneReady := by
  unfold dispatchPtyClick
  split
  next => exact ⟨t, rfl, h⟩
  next =>
    split
    next => exact ⟨t, rfl, h⟩
    next =>
      split
      next =>
        split
        next hidx => exact ⟨_, rfl, .inl hidx.1⟩
        next => exact ⟨t, rfl, h⟩
      next => exact closeActivePane_ready h
      next => exact ⟨t, rfl, h⟩

theorem handleMouseClick_ready {x y : Nat} (h : t.app.PaneReady) :
    ∃ t', t.handleMouseClick text m x y = some t' ∧ t'.app.PaneReady := by
  unfold handleMouseClick
  split
  next => exact ⟨_, rfl, h⟩
  next =>
    split
    next => exact ⟨_, rfl, t.dismissHostPicker_quiet.paneReady h⟩
    next =>
      split
      next => exact ⟨t, rfl, h⟩
      next tile _ =>
        have hmoved := (t.moveFocusTo_quiet tile.id).paneReady h
        dsimp only
        split
        next => exact dispatchPtyClick_ready hmoved
        next => exact ⟨_, rfl, (Turn.dispatchScopeClick_quiet _ _ _ _ _).paneReady hmoved⟩
        next => exact ⟨_, rfl, hmoved⟩
        next => exact ⟨_, rfl, hmoved⟩

theorem handleEventFrame_ready {subscriptionId : Nat} {event : Event} (h : t.app.PaneReady) :
    ∃ t', t.handleEventFrame text m subscriptionId event = some t' ∧
      (t'.detaches = true ∨ t'.app.PaneReady) := by
  unfold handleEventFrame
  split
  next idx hidx => exact handlePaneEvent_ready h (App.recipient_pane hidx)
  next => exact ⟨_, rfl, .inr ((t.handleDockerEvent_panes event).paneReady h)⟩
  next => exact ⟨_, rfl, .inr ((t.handlePortsEvent_panes event).paneReady h)⟩
  next => exact ⟨_, rfl, .inr ((t.handleProcessesEvent_panes event).paneReady h)⟩
  next => exact ⟨_, rfl, .inr ((t.handleLogsEvent_quiet event).paneReady h)⟩
  next => exact ⟨_, rfl, .inr ((t.handleFleetEvent_quiet event).paneReady h)⟩
  next => exact ⟨t, rfl, .inr h⟩

theorem resizePanes_ready {layout : TileLayout} (h : t.app.PaneReady) :
    (t.resizePanes layout).app.PaneReady := by
  rw [resizePanes_app]
  simpa [App.PaneReady] using h

theorem handleResize_ready {rows cols : Nat} (h : t.app.PaneReady) (hfits : LayoutFits rows cols) :
    ∃ t', t.handleResize rows cols = some t' ∧ t'.app.PaneReady := by
  obtain ⟨layout, hl⟩ := Option.isSome_iff_exists.mp (TileLayout.defaultFor_fits.mpr hfits)
  unfold handleResize
  rw [hl]
  exact ⟨_, rfl, Turn.resizePanes_ready h⟩

end Turn

/-- An event that a ready app is served with is handled, and leaves the app ready unless it is the
exit of the last pane. -/
theorem App.handleEvent_ready {event : AppEvent} (h : a.PaneReady) (hok : a.Serves text m event) :
    ∃ t, a.handleEvent text m event = some t ∧ (t.detaches = true ∨ t.app.PaneReady) := by
  have hready : ∀ t : Turn, t.app.PaneReady → ∃ t', some t = some t' ∧
      (t'.detaches = true ∨ t'.app.PaneReady) := fun t ht => ⟨t, rfl, .inr ht⟩
  have hlift : ∀ {o : Option Turn}, (∃ t, o = some t ∧ t.app.PaneReady) → ∃ t, o = some t ∧
      (t.detaches = true ∨ t.app.PaneReady) := fun ⟨t, ht, hr⟩ => ⟨t, ht, .inr hr⟩
  cases event with
  | stdinChunk bytes => exact hlift (Turn.handleInputs_ready h hok)
  | resize rows cols => exact hlift (Turn.handleResize_ready h hok)
  | tick => exact hready _ ((Turn.sweepExpired_quiet ⟨a, []⟩).paneReady h)
  | pendingActionTimeout id => exact hready _ ((Turn.expirePendingAction_quiet ⟨a, []⟩ id).paneReady h)
  | mouseClick x y => exact hlift (Turn.handleMouseClick_ready h)
  | mouseHover x y => exact hready _ ((Turn.handleMouseHover_quiet ⟨a, []⟩ x y).paneReady h)
  | daemonEnvelope env =>
    obtain ⟨version, payload⟩ := env
    cases payload with
    | event subscriptionId event => exact Turn.handleEventFrame_ready h
    | paneOpened info => exact hready _ (Turn.handlePaneOpened_ready h)
    | error info => exact hready _ (Turn.handleError_ready h hok)
    | dockerActionResult result =>
      exact hready _ ((Turn.handleDockerActionResult_quiet ⟨a, []⟩ result).paneReady h)
    | fleetActionResult result =>
      exact hready _ ((Turn.handleFleetActionResult_quiet ⟨a, []⟩ result).paneReady h)
    | _ => exact hready _ h

/-- The condition is exact: another event panics or leaves the app without prospect of a pane. -/
theorem App.serves_iff {event : AppEvent} (h : a.PaneReady) : a.Serves text m event ↔
    ∃ t, a.handleEvent text m event = some t ∧ (t.detaches = true ∨ t.app.PaneReady) := by
  refine ⟨App.handleEvent_ready h, fun ⟨t, ht, hready⟩ => ?_⟩
  cases event with
  | stdinChunk bytes =>
    refine Turn.inputsLand_of_handled h fun hnone => ?_
    cases ht.symm.trans hnone
  | resize rows cols =>
    apply TileLayout.defaultFor_fits.mp
    by_contra hnone
    have hl : TileLayout.defaultFor (.new 0 0 cols rows) = none := by simpa using hnone
    simp [App.handleEvent, Turn.handleResize, hl] at ht
  | daemonEnvelope env =>
    obtain ⟨version, payload⟩ := env
    cases payload with
    | error info =>
      intro hf he hone
      obtain ⟨pending, hp⟩ := List.length_eq_one_iff.mp hone
      have hlost : t.detaches = false ∧ ¬ t.app.PaneReady := by
        simp only [App.handleEvent, Turn.handleDaemonEnvelope, Turn.handleError, hf, hp,
          Option.some.injEq] at ht
        subst ht
        refine ⟨rfl, fun hr => ?_⟩
        rcases hr with hlt | ⟨-, hne⟩
        · have hlt' : a.activePane < a.paneStack.length := hlt
          simp [he] at hlt'
        · exact hne rfl
      rcases hready with hd | hr
      · simp [hlost.1] at hd
      · exact hlost.2 hr
    | _ => trivial
  | _ => trivial

inductive TuiState
  | running (a : App)
  | detached
  | panicked

/-- The runtime feeds events to a fresh app until it detaches. -/
def tui (text : TextOps) : System TuiState (Moment × AppEvent) AppAction where
  init s := ∃ pane shell rows cols a, App.new pane shell rows cols = some a ∧ s = .running a
  step
    | .running a, (m, event) =>
      match a.handleEvent text m event with
      | some t => some (if t.detaches then .detached else .running t.app, t.actions)
      | none => some (.panicked, [])
    | _, _ => none

def TuiState.Sound : TuiState → Prop
  | .running a => a.PaneReady
  | .detached => True
  | .panicked => False

instance (s : TuiState) : Decidable s.Sound := by
  unfold TuiState.Sound
  split <;> infer_instance

def Served (text : TextOps) (_ : List AppAction) : TuiState → Moment × AppEvent → Prop
  | .running a, (m, event) => a.Serves text m event
  | _, _ => True

instance (tr : List AppAction) (s : TuiState) (l : Moment × AppEvent) :
    Decidable (Served text tr s l) := by
  unfold Served
  split <;> infer_instance

theorem App.new_ready {pane : PaneId} {shell : String} {rows cols : Nat}
    (h : App.new pane shell rows cols = some a) : a.PaneReady := by
  obtain ⟨layout, -, h⟩ := Option.bind_eq_some_iff.mp h
  cases Option.some.inj h
  exact .inl (by simp)

/-- The app does not panic and has an active pane or one on the way, in every run in which nothing is
typed into a missing pane, no open fails that is the only prospect of a pane, and no terminal is too
high for the layout. -/
theorem pane_always_ready {tr : List AppAction} {s : TuiState} (h : Run (tui text) (Served text) tr s) :
    s.Sound := by
  refine h.invariant (I := fun _ s => s.Sound) ?_ ?_
  · rintro s ⟨pane, shell, rows, cols, a, ha, rfl⟩
    exact App.new_ready ha
  · rintro tr s ⟨m, event⟩ s' out - hs hok hstep
    cases s with
    | running a =>
      obtain ⟨t, ht, hready⟩ := (App.serves_iff hs).mp hok
      simp only [tui, ht, Option.some.injEq, Prod.mk.injEq] at hstep
      obtain ⟨rfl, -⟩ := hstep
      split
      next => trivial
      next hd => exact hready.resolve_left hd
    | detached => simp [tui] at hstep
    | panicked => simp [tui] at hstep

/-- `Ctrl-b &`. -/
def closeKeys : AppEvent := .stdinChunk [prefixByte, key '&']

def sampleApp : App := (App.new 7 "/bin/zsh" 40 120).get (by decide)

theorem sampleApp_new : App.new 7 "/bin/zsh" 40 120 = some sampleApp := by simp [sampleApp]

theorem sampleApp_fresh : (tui .ascii).init (.running sampleApp) :=
  ⟨_, _, _, _, sampleApp, sampleApp_new, rfl⟩

/-- A run closes the last pane, gets a new one and types into it. -/
theorem pane_always_ready_reopened :
    ∃ tr s, Run (tui .ascii) (Served .ascii) tr s ∧ .sendEnvelope (envelope (.sendInput 8 [key 'a'])) ∈ tr ∧
      s.Sound := by
  obtain ⟨tr, s, hr, hsent⟩ := Run.of_replay (tui .ascii) (Served .ascii)
    (fun tr _ => .sendEnvelope (envelope (.sendInput 8 [key 'a'])) ∈ tr) sampleApp_fresh
    [(.at 0, closeKeys), (.at 1, .daemonEnvelope (envelope (.paneOpened ⟨8, 21, 120, "/bin/zsh", true⟩))),
      (.at 2, .stdinChunk [key 'a'])] (by decide)
  exact ⟨tr, s, hr, hsent, pane_always_ready hr⟩

/-- The first key after the last pane was closed panics. -/
theorem typing_without_pane : ∃ tr s, Run (tui .ascii) Free tr s ∧ ¬ s.Sound :=
  Run.of_replay (tui .ascii) Free (fun _ s => ¬ s.Sound) sampleApp_fresh
    [(.at 0, closeKeys), (.at 1, .stdinChunk [key 'a'])] (by decide)

end Tepegoz
