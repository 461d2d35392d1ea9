import Tepegoz.Tui.Frames

namespace Tepegoz

/-- The rows that an event brings for a panel. -/
def Event.rows : Event → HostPickerTargetTile → Option Rows
  | .containerList containers _, .docker => some (.containers containers)
  | .portList ports _, .ports => some (.ports ports)
  | .processList rows _, .processes => some (.processes rows)
  | _, _ => none

/-- Without news from its subscription a panel goes on showing its rows, or is cleared. -/
def Panel.Ages (p q : Panel) : Prop := q.subId = p.subId ∧ (q = p ∨ q.shown = none)

/-- A step in which no subscription delivers anything. -/
def PanelsAge (a b : App) : Prop := ∀ v, (a.panel v).Ages (b.panel v)

/-- With news that may contain rows a panel keeps its target and shows these rows. -/
def Panel.Takes (news : Option Rows) (p q : Panel) : Prop :=
  q.subId = p.subId ∧ q.target = p.target ∧
    match news with
    | some rows => q.shown = some rows
    | none => q.shown = p.shown ∨ q.shown = none

/-- The rows that an envelope delivers to a panel. -/
def App.listed (a : App) (env : Envelope) (v : HostPickerTargetTile) : Option Rows :=
  match env.payload with
  | .event id event => if a.recipient id = some (.panel v) then event.rows v else none
  | _ => none

theorem Panel.Ages.trans {p q r : Panel} (h : p.Ages q) (h' : q.Ages r) : p.Ages r := by
  obtain ⟨hid, hq⟩ := h
  obtain ⟨hid', rfl | hr⟩ := h'
  · exact ⟨hid, hq⟩
  · exact ⟨hid'.trans hid, .inr hr⟩

theorem PanelsAge.trans {a b c : App} (h : PanelsAge a b) (h' : PanelsAge b c) : PanelsAge a c :=
  fun v => (h v).trans (h' v)

theorem KeepsPanels.ages {a b : App} (h : KeepsPanels a b) : PanelsAge a b :=
  fun v => ⟨congrArg Panel.subId (h v), .inl (h v)⟩

theorem KeepsPanels.refl (a : App) : KeepsPanels a a := fun _ => rfl

theorem KeepsPanels.takes {a b : App} (h : KeepsPanels a b) (v : HostPickerTargetTile) :
    (a.panel v).Takes none (b.panel v) := by
  rw [h v]
  exact ⟨rfl, rfl, .inl rfl⟩

/-- Nothing but the three panels matters. -/
theorem KeepsPanels.of_fields {a b : App} (docker : b.docker = a.docker) (ports : b.ports = a.ports) :
    KeepsPanels a b := by
  intro v
  cases v <;> simp only [App.panel, docker, ports]

namespace Turn

variable {text : TextOps} {m : Moment} {t t' : Turn}

section Panes

theorem closeActivePane_panels (h : t.closeActivePane m = some t') : KeepsPanels t.app t'.app := by
  rcases closeActivePane_cases h with rfl | ⟨removed, -, ⟨-, rfl⟩ | ⟨-, rfl⟩⟩
  · exact .refl _
  · exact .of_fields rfl rfl
  · exact .of_fields rfl rfl

theorem dispatchPtyClick_panels {rect : Rect} {x y : Nat}
    (h : t.dispatchPtyClick m rect x y = some t') : KeepsPanels t.app t'.app := by
  rcases dispatchPtyClick_cases h with rfl | ⟨idx, -, rfl⟩ | h
  · exact .refl _
  · exact .of_fields rfl rfl
  · exact closeActivePane_panels h

theorem handleMouseClick_panels {x y : Nat} (h : t.handleMouseClick text m x y = some t') :
    KeepsPanels t.app t'.app := by
  rcases handleMouseClick_cases h with rfl | rfl | rfl | ⟨tile, h⟩
  · exact .of_fields rfl rfl
  · exact t.dismissHostPicker_quiet.panels
  · exact .refl _
  · have hmoved := (t.moveFocusTo_quiet tile.id).panels
    rcases h with rfl | h | ⟨kind, rfl⟩
    · exact hmoved
    · exact hmoved.trans (dispatchPtyClick_panels h)
    · exact hmoved.trans (Turn.dispatchScopeClick_quiet _ _ _ _ _).panels

theorem sendInput_panels {data : List UInt8} (h : t.sendInput data = some t') :
    KeepsPanels t.app t'.app := by
  obtain ⟨entry, -, rfl⟩ := Option.map_eq_some_iff.mp h
  exact .refl _

theorem handleForwardBytes_panels {bytes : List UInt8}
    (h : t.handleForwardBytes text m bytes = some t') : KeepsPanels t.app t'.app := by
  rcases handleForwardBytes_cases h with h | rfl | ⟨kind, -, rfl⟩
  · exact sendInput_panels h
  · exact .refl _
  · exact ((t.parseKeys_quiet bytes).trans (Turn.scopeKeys_quiet _ kind _)).panels

theorem handleTab_panels {forward : Bool} (h : t.handleTab forward = some t') :
    KeepsPanels t.app t'.app := by
  rcases handleTab_cases h with ⟨data, h⟩ | rfl
  · exact sendInput_panels h
  · exact (t.handleFocusCycle_quiet forward).panels

theorem inputToTiles_panels {input : InputAction} (h : t.inputToTiles text m input = some t') :
    KeepsPanels t.app t'.app := by
  cases input with
  | forward bytes => exact handleForwardBytes_panels h
  | detach => cases Option.some.inj h; exact .refl _
  | focusDirection dir => cases Option.some.inj h; exact (t.handleFocusDirection_quiet dir).panels
  | focusNext => exact handleTab_panels h
  | focusPrev => exact handleTab_panels h
  | help => cases Option.some.inj h; exact t.handleHelpToggle_quiet.panels
  | openHostPicker => cases Option.some.inj h; exact t.openHostPicker_quiet.panels
  | paneClose =>
    rcases inputToTiles_paneClose h with h | rfl
    · exact closeActivePane_panels h
    · exact .refl _

theorem handleError_panels (info : ErrorInfo) : KeepsPanels t.app (t.handleError m info).app := by
  unfold handleError
  split <;> exact .of_fields rfl rfl

theorem handlePaneOpened_panels (info : PaneInfo) :
    KeepsPanels t.app (t.handlePaneOpened info).app := by
  unfold handlePaneOpened
  split
  next => exact .refl _
  next =>
    simp only [app_draw, app_send, focusPty]
    split <;> exact .of_fields rfl rfl

theorem feedPane_panels {idx : Nat} {bytes : List UInt8} (h : t.feedPane idx bytes = some t') :
    KeepsPanels t.app t'.app := by
  rcases feedPane_cases h with rfl | rfl
  · exact .of_fields rfl rfl
  · exact .of_fields rfl rfl

theorem handlePaneExit_panels {idx : Nat} {exitCode : Option Int}
    (h : t.handlePaneExit m idx exitCode = some t') : KeepsPanels t.app t'.app := by
  obtain ⟨-, ⟨-, rfl⟩ | ⟨-, detail, rfl⟩⟩ := handlePaneExit_cases h
  · exact .of_fields rfl rfl
  · exact .of_fields rfl rfl

theorem handlePaneEvent_panels {idx : Nat} {event : Event}
    (h : t.handlePaneEvent m idx event = some t') : KeepsPanels t.app t'.app := by
  rcases handlePaneEvent_cases h with rfl | ⟨bytes, h⟩ | ⟨exitCode, h⟩
  · exact .refl _
  · exact feedPane_panels h
  · exact handlePaneExit_panels h

theorem handleResize_panels {rows cols : Nat} (h : t.handleResize rows cols = some t') :
    KeepsPanels t.app t'.app := by
  obtain ⟨layout, -, rfl⟩ := Option.map_eq_some_iff.mp h
  rw [app_draw, resizePanes_app]
  exact .of_fields rfl rfl

end Panes

section Retarget

/-- Only the one panel is touched, and that is cleared. -/
theorem retarget_ages (newTarget : ScopeTarget) (v : HostPickerTargetTile) :
    PanelsAge t.app (t.retarget newTarget v).app := by
  cases v with
  | docker =>
    show PanelsAge t.app (t.retargetDocker newTarget).app
    unfold retargetDocker
    split
    next => exact (KeepsPanels.refl _).ages
    next =>
      refine t.leaveLogs_quiet.panels.ages.trans fun v => ?_
      cases v
      exacts [⟨rfl, .inr rfl⟩, ⟨rfl, .inl rfl⟩, ⟨rfl, .inl rfl⟩]
  | ports =>
    show PanelsAge t.app (t.retargetPorts newTarget).app
    unfold retargetPorts
    split
    next => exact (KeepsPanels.refl _).ages
    next =>
      intro v
      cases v
      exacts [⟨rfl, .inl rfl⟩, ⟨rfl, .inr rfl⟩, ⟨rfl, .inl rfl⟩]
  | processes =>
    show PanelsAge t.app (t.retargetProcesses newTarget).app
    unfold retargetProcesses
    split
    next => exact (KeepsPanels.refl _).ages
    next =>
      intro v
      cases v
      exacts [⟨rfl, .inl rfl⟩, ⟨rfl, .inl rfl⟩, ⟨rfl, .inr rfl⟩]

theorem commitHostPicker_ages (picker : HostPickerModal) :
    PanelsAge t.app (t.commitHostPicker picker).app := by
  have hclosed : PanelsAge t.app (t.edit ({ · with hostPicker := none })).app :=
    (KeepsPanels.of_fields rfl rfl).ages
  unfold commitHostPicker
  dsimp only
  split
  next => exact hclosed
  next => exact hclosed.trans (Turn.retarget_ages _ _)
  next => exact hclosed.trans (Turn.retarget_ages _ _)
  next => exact (KeepsPanels.refl _).ages

theorem handleHostPickerKey_ages (k : ScopeKey) : PanelsAge t.app (t.handleHostPickerKey k).app := by
  have hmove : ∀ picker selected, PanelsAge t.app (t.movePicker picker selected).app :=
    fun picker selected => (t.movePicker_quiet picker selected).panels.ages
  have hstay : PanelsAge t.app t.app := (KeepsPanels.refl _).ages
  unfold handleHostPickerKey
  split
  next => exact hstay
  next picker _ =>
    dsimp only
    split
    next => exact hmove _ _
    next => split; exacts [hmove _ _, hstay]
    next => exact hmove _ _
    next => exact hmove _ _
    next => split; exacts [hmove _ _, hstay]
    next => split; exacts [hmove _ _, hstay]
    next => exact commitHostPicker_ages picker
    next => exact t.dismissHostPicker_quiet.panels.ages
    next => exact hstay

theorem hostPickerKeys_ages (ks : List ScopeKey) : PanelsAge t.app (t.hostPickerKeys ks).app := by
  induction ks generalizing t with
  | nil => exact (KeepsPanels.refl _).ages
  | cons k ks ih =>
    unfold hostPickerKeys
    dsimp only
    split
    next => exact handleHostPickerKey_ages k
    next => exact (handleHostPickerKey_ages k).trans ih

theorem inputToPicker_ages (input : InputAction) : PanelsAge t.app (t.inputToPicker input).app := by
  unfold inputToPicker
  split
  next => exact (t.dismissHostPicker_quiet.trans (Turn.handleHelpToggle_quiet _)).panels.ages
  next bytes => exact (t.parseKeys_quiet bytes).panels.ages.trans (hostPickerKeys_ages _)
  next => exact t.dismissHostPicker_quiet.panels.ages

theorem handleInput_ages {input : InputAction} (h : t.handleInput text m input = some t') :
    PanelsAge t.app t'.app := by
  rcases handleInput_cases h with rfl | rfl | h
  · exact (t.inputToHelp_quiet input).panels.ages
  · exact inputToPicker_ages input
  · exact (inputToTiles_panels h).ages

theorem handleInputs_ages {inputs : List InputAction} (h : t.handleInputs text m inputs = some t') :
    PanelsAge t.app t'.app :=
  handleInputs_rel (R := fun t t' => PanelsAge t.app t'.app) (fun _ => (KeepsPanels.refl _).ages)
    (fun _ _ _ => .trans) (fun _ => (KeepsPanels.refl _).ages) (fun _ _ _ => handleInput_ages) h

end Retarget

section News

theorem handleDockerEvent_takes (event : Event) (v : HostPickerTargetTile) :
    (t.app.panel v).Takes (if v = .docker then event.rows v else none)
      ((t.handleDockerEvent text event).app.panel v) := by
  cases event with
  | containerList =>
    cases v
    exacts [⟨rfl, rfl, rfl⟩, ⟨rfl, rfl, .inl rfl⟩, ⟨rfl, rfl, .inl rfl⟩]
  | dockerUnavailable =>
    cases v
    exacts [⟨rfl, rfl, .inr rfl⟩, ⟨rfl, rfl, .inl rfl⟩, ⟨rfl, rfl, .inl rfl⟩]
  | _ => cases v <;> exact ⟨rfl, rfl, .inl rfl⟩

theorem handlePortsEvent_takes (event : Event) (v : HostPickerTargetTile) :
    (t.app.panel v).Takes (if v = .ports then event.rows v else none)
      ((t.handlePortsEvent text event).app.panel v) := by
  cases event with
  | portList =>
    cases v
    exacts [⟨rfl, rfl, .inl rfl⟩, ⟨rfl, rfl, rfl⟩, ⟨rfl, rfl, .inl rfl⟩]
  | portsUnavailable =>
    cases v
    exacts [⟨rfl, rfl, .inl rfl⟩, ⟨rfl, rfl, .inr rfl⟩, ⟨rfl, rfl, .inl rfl⟩]
  | _ => cases v <;> exact ⟨rfl, rfl, .inl rfl⟩

theorem handleProcessesEvent_takes (event : Event) (v : HostPickerTargetTile) :
    (t.app.panel v).Takes (if v = .processes then event.rows v else none)
      ((t.handleProcessesEvent text event).app.panel v) := by
  cases event with
  | processList =>
    cases v
    exacts [⟨rfl, rfl, .inl rfl⟩, ⟨rfl, rfl, .inl rfl⟩, ⟨rfl, rfl, rfl⟩]
  | processesUnavailable =>
    cases v
    exacts [⟨rfl, rfl, .inl rfl⟩, ⟨rfl, rfl, .inl rfl⟩, ⟨rfl, rfl, .inr rfl⟩]
  | _ => cases v <;> exact ⟨rfl, rfl, .inl rfl⟩

/-- An event reaches at most the one panel whose subscription it is for. -/
theorem handleEventFrame_takes {id : Nat} {event : Event}
    (h : t.handleEventFrame text m id event = some t') (v : HostPickerTargetTile) :
    (t.app.panel v).Takes (if t.app.recipient id = some (.panel v) then event.rows v else none)
      (t'.app.panel v) := by
  unfold handleEventFrame at h
  split at h
  next hr => simpa [hr] using (handlePaneEvent_panels h).takes v
  next hr =>
    cases Option.some.inj h
    simpa [hr, eq_comm] using t.handleDockerEvent_takes event v
  next hr =>
    cases Option.some.inj h
    simpa [hr, eq_comm] using t.handlePortsEvent_takes event v
  next hr =>
    cases Option.some.inj h
    simpa [hr, eq_comm] using t.handleProcessesEvent_takes event v
  next hr =>
    cases Option.some.inj h
    simpa [hr] using (t.handleLogsEvent_quiet event).panels.takes v
  next hr =>
    cases Option.some.inj h
    simpa [hr] using (t.handleFleetEvent_quiet event).panels.takes v
  next hr =>
    cases Option.some.inj h
    simpa [hr] using (KeepsPanels.refl _).takes v

theorem handleDaemonEnvelope_takes {env : Envelope}
    (h : t.handleDaemonEnvelope text m env = some t') (v : HostPickerTargetTile) :
    (t.app.panel v).Takes (t.app.listed env v) (t'.app.panel v) := by
  obtain ⟨version, payload⟩ := env
  cases payload with
  | event id event => exact handleEventFrame_takes h v
  | paneOpened info => cases Option.some.inj h; exact (handlePaneOpened_panels info).takes v
  | error info => cases Option.some.inj h; exact (handleError_panels info).takes v
  | dockerActionResult result =>
    cases Option.some.inj h
    exact (t.handleDockerActionResult_quiet result).panels.takes v
  | fleetActionResult result =>
    cases Option.some.inj h
    exact (t.handleFleetActionResult_quiet result).panels.takes v
  | _ => cases Option.some.inj h; exact (KeepsPanels.refl _).takes v

end News

end Turn

theorem App.handleEvent_ages {text : TextOps} {m : Moment} {a : App} {event : AppEvent} {t : Turn}
    (hne : ∀ env, event ≠ .daemonEnvelope env) (h : a.handleEvent text m event = some t) :
    PanelsAge a t.app := by
  cases event with
  | stdinChunk bytes => exact Turn.handleInputs_ages h
  | daemonEnvelope env => exact absurd rfl (hne env)
  | resize rows cols => exact (Turn.handleResize_panels h).ages
  | tick => cases Option.some.inj h; exact (Turn.sweepExpired_quiet ⟨a, []⟩).panels.ages
  | pendingActionTimeout id =>
    cases Option.some.inj h
    exact (Turn.expirePendingAction_quiet ⟨a, []⟩ id).panels.ages
  | mouseClick x y => exact (Turn.handleMouseClick_panels h).ages
  | mouseHover x y =>
    cases Option.some.inj h
    exact (Turn.handleMouseHover_quiet ⟨a, []⟩ x y).panels.ages

end Tepegoz
