import Tepegoz.Tui.HandleEvent

namespace Tepegoz

/-- A step that leaves alone what the fleet tile knows of its hosts. -/
def KeepsFleet (a b : App) : Prop := b.fleet.state = a.fleet.state

theorem KeepsFleet.refl (a : App) : KeepsFleet a a := rfl

theorem KeepsFleet.trans {a b c : App} (h : KeepsFleet a b) (h' : KeepsFleet b c) :
    KeepsFleet a c := Eq.trans h' h

theorem KeepsFleet.foldl {β : Type} {f : Turn → β → Turn} (h : ∀ t x, KeepsFleet t.app (f t x).app)
    (t : Turn) (xs : List β) : KeepsFleet t.app (xs.foldl f t).app := by
  induction xs generalizing t with
  | nil => exact .refl _
  | cons x xs ih => exact (h t x).trans (ih (f t x))

namespace Turn

variable {text : TextOps} {m : Moment} (t : Turn)

section Tiles

theorem expirePendingAction_fleet (id : Nat) :
    KeepsFleet t.app (t.expirePendingAction m id).app := by
  unfold expirePendingAction
  split <;> rfl

theorem sweepExpired_fleet : KeepsFleet t.app (t.sweepExpired m).app :=
  KeepsFleet.foldl (fun t id => t.expirePendingAction_fleet id) (t.expireConfirm m) _

theorem moveFocusTo_fleet (next : TileId) : KeepsFleet t.app (t.moveFocusTo next).app := by
  unfold moveFocusTo
  split <;> rfl

theorem handleFocusDirection_fleet (dir : FocusDir) :
    KeepsFleet t.app (t.handleFocusDirection dir).app := by
  unfold handleFocusDirection
  split
  next next _ => exact t.moveFocusTo_fleet next
  next => rfl

theorem handleFocusCycle_fleet (forward : Bool) :
    KeepsFleet t.app (t.handleFocusCycle forward).app := by
  unfold handleFocusCycle
  split
  next next _ => exact t.moveFocusTo_fleet next
  next => rfl

theorem openHostPicker_fleet : KeepsFleet t.app t.openHostPicker.app := by
  unfold openHostPicker
  split <;> rfl

theorem dismissHostPicker_fleet : KeepsFleet t.app t.dismissHostPicker.app := by
  unfold dismissHostPicker
  split <;> rfl

theorem movePicker_fleet (picker : HostPickerModal) (selected : Nat) :
    KeepsFleet t.app (t.movePicker picker selected).app := by
  unfold movePicker
  split <;> rfl

theorem leaveLogs_fleet : KeepsFleet t.app t.leaveLogs.app := by
  unfold leaveLogs
  split <;> rfl

theorem retarget_fleet (newTarget : ScopeTarget) (tile : HostPickerTargetTile) :
    KeepsFleet t.app (t.retarget newTarget tile).app := by
  cases tile
  · unfold retarget retargetDocker
    dsimp only
    split
    next => rfl
    next => exact t.leaveLogs_fleet
  · unfold retarget retargetPorts
    dsimp only
    split <;> rfl
  · unfold retarget retargetProcesses
    dsimp only
    split <;> rfl

theorem commitHostPicker_fleet (picker : HostPickerModal) :
    KeepsFleet t.app (t.commitHostPicker picker).app := by
  unfold commitHostPicker
  dsimp only
  split
  · rfl
  · exact retarget_fleet (t.edit ({ · with hostPicker := none })) _ _
  · exact retarget_fleet (t.edit ({ · with hostPicker := none })) _ _
  · rfl

theorem handleHostPickerKey_fleet (k : ScopeKey) :
    KeepsFleet t.app (t.handleHostPickerKey k).app := by
  unfold handleHostPickerKey
  dsimp only
  split
  next => rfl
  next picker _ =>
    split
    · exact t.movePicker_fleet _ _
    · split
      · exact t.movePicker_fleet _ _
      · rfl
    · exact t.movePicker_fleet _ _
    · exact t.movePicker_fleet _ _
    · split
      · exact t.movePicker_fleet _ _
      · rfl
    · split
      · exact t.movePicker_fleet _ _
      · rfl
    · exact t.commitHostPicker_fleet _
    · exact t.dismissHostPicker_fleet
    · rfl

theorem hostPickerKeys_fleet (ks : List ScopeKey) :
    KeepsFleet t.app (t.hostPickerKeys ks).app := by
  induction ks generalizing t with
  | nil => rfl
  | cons k ks ih =>
    unfold hostPickerKeys
    dsimp only
    split
    next => exact t.handleHostPickerKey_fleet k
    next => exact (t.handleHostPickerKey_fleet k).trans (ih _)

theorem handleMouseHover_fleet (x y : Nat) : KeepsFleet t.app (t.handleMouseHover x y).app := by
  unfold handleMouseHover
  dsimp only
  split <;> rfl

theorem inputToHelp_fleet (input : InputAction) : KeepsFleet t.app (t.inputToHelp input).app := by
  unfold inputToHelp
  split <;> rfl

theorem inputToPicker_fleet (input : InputAction) :
    KeepsFleet t.app (t.inputToPicker input).app := by
  unfold inputToPicker
  split
  next => exact t.dismissHostPicker_fleet
  next bytes => exact hostPickerKeys_fleet (t.parseKeys bytes).1 _
  next => exact t.dismissHostPicker_fleet

end Tiles

section Lists

theorem issueSelectedDockerAction_fleet (kind : DockerActionKind) :
    KeepsFleet t.app (t.issueSelectedDockerAction text m kind).app := by
  unfold issueSelectedDockerAction
  split <;> rfl

theorem beginConfirm_fleet (kind : DockerActionKind) :
    KeepsFleet t.app (t.beginConfirm text m kind).app := by
  unfold beginConfirm
  split <;> rfl

theorem tryEnterLogsView_fleet : KeepsFleet t.app (t.tryEnterLogsView text).app := by
  unfold tryEnterLogsView
  split <;> rfl

theorem handleLogsKey_fleet (logs : LogsView) (k : ScopeKey) :
    KeepsFleet t.app (t.handleLogsKey logs k).app := by
  unfold handleLogsKey
  split
  case h_1 => exact t.leaveLogs_fleet
  case h_8 =>
    split
    · exact t.leaveLogs_fleet
    · rfl
  all_goals rfl

theorem confirmKey_fleet (pending : PendingConfirm) (k : ScopeKey) :
    KeepsFleet t.app (t.confirmKey m pending k).app := by
  unfold confirmKey
  dsimp only
  split
  next => rfl
  next => split <;> rfl

theorem dockerCommand_fleet (k : ScopeKey) :
    KeepsFleet t.app (t.dockerCommand text m k).app := by
  unfold dockerCommand
  repeat' split
  · exact t.issueSelectedDockerAction_fleet _
  · exact t.issueSelectedDockerAction_fleet _
  · exact t.beginConfirm_fleet _
  · exact t.beginConfirm_fleet _
  · exact t.tryEnterLogsView_fleet
  · rfl

theorem handleScopeKey_fleet (k : ScopeKey) :
    KeepsFleet t.app (t.handleScopeKey text m k).app := by
  unfold handleScopeKey
  split
  next => exact t.handleLogsKey_fleet _ k
  next => exact t.confirmKey_fleet _ k
  next =>
    split
    next => rfl
    next =>
      split
      next => rfl
      next => exact t.dockerCommand_fleet k

theorem handlePortsKey_fleet (k : ScopeKey) :
    KeepsFleet t.app (t.handlePortsKey text k).app := by
  unfold handlePortsKey
  split
  all_goals
    split
    next => rfl
    next =>
      first | unfold handlePortsListKey | unfold handleProcessesListKey
      split <;> rfl

theorem dispatchOpenRemotePane_fleet :
    KeepsFleet t.app (t.dispatchOpenRemotePane text m).app := by
  unfold dispatchOpenRemotePane
  split <;> rfl

theorem dispatchFleetReconnect_fleet :
    KeepsFleet t.app (t.dispatchFleetReconnect text m).app := by
  unfold dispatchFleetReconnect
  split <;> rfl

/-- A key moves the cursor or edits the filter of the fleet list. -/
theorem handleFleetKey_fleet (k : ScopeKey) :
    KeepsFleet t.app (t.handleFleetKey text m k).app := by
  unfold handleFleetKey
  split
  next f h =>
    obtain ⟨c, -, rfl⟩ := Option.map_eq_some_iff.mp h
    rfl
  next =>
    repeat' split
    · rfl
    · exact t.dispatchFleetReconnect_fleet
    · exact t.dispatchOpenRemotePane_fleet
    · rfl

theorem scopeKey_fleet (kind : ScopeKind) (k : ScopeKey) :
    KeepsFleet t.app (t.scopeKey text m kind k).app := by
  cases kind
  · exact t.handleScopeKey_fleet k
  · exact t.handlePortsKey_fleet k
  · exact t.handleFleetKey_fleet k

end Lists

section Partial

variable {t} {u : Turn}

theorem closeActivePane_fleet (h : t.closeActivePane m = some u) : KeepsFleet t.app u.app := by
  rcases closeActivePane_cases h with rfl | ⟨removed, -, ⟨-, rfl⟩ | ⟨-, rfl⟩⟩
  · rfl
  · rfl
  · rfl

theorem dispatchPtyClick_fleet {rect : Rect} {x y : Nat}
    (h : t.dispatchPtyClick m rect x y = some u) : KeepsFleet t.app u.app := by
  rcases dispatchPtyClick_cases h with rfl | ⟨idx, -, rfl⟩ | h
  · rfl
  · rfl
  · exact closeActivePane_fleet h

theorem scopeSetSelection_fleet (a : App) (kind : ScopeKind) (idx : Nat) :
    KeepsFleet a (a.scopeSetSelection kind idx) := by
  cases kind
  · rfl
  · unfold App.scopeSetSelection
    dsimp only
    split <;> rfl
  · rfl

theorem clickRow_fleet (tileId : TileId) (kind : ScopeKind) (rowIdx : Nat) :
    KeepsFleet t.app (t.clickRow text m tileId kind rowIdx).app := by
  have hselected := scopeSetSelection_fleet t.app kind rowIdx
  unfold clickRow
  dsimp only
  repeat' split
  · exact hselected.trans (dispatchOpenRemotePane_fleet _)
  · exact hselected.trans (dispatchOpenRemotePane_fleet _)
  · exact hselected
  · exact hselected

theorem dispatchScopeClick_fleet (tileId : TileId) (kind : ScopeKind) (rect : Rect) (y : Nat) :
    KeepsFleet t.app (t.dispatchScopeClick text m tileId kind rect y).app := by
  unfold dispatchScopeClick
  repeat' split
  · rfl
  · exact t.openHostPicker_fleet
  · exact clickRow_fleet _ _ _
  · rfl
  · rfl

theorem handleMouseClick_fleet {x y : Nat} (h : t.handleMouseClick text m x y = some u) :
    KeepsFleet t.app u.app := by
  rcases handleMouseClick_cases h with rfl | rfl | rfl | ⟨tile, h⟩
  · rfl
  · exact t.dismissHostPicker_fleet
  · rfl
  · have hmoved := t.moveFocusTo_fleet tile.id
    rcases h with rfl | h | ⟨kind, rfl⟩
    · exact hmoved
    · exact hmoved.trans (dispatchPtyClick_fleet h)
    · exact hmoved.trans (dispatchScopeClick_fleet _ _ _ _)

theorem sendInput_fleet {data : List UInt8} (h : t.sendInput data = some u) :
    KeepsFleet t.app u.app := by
  obtain ⟨entry, -, rfl⟩ := Option.map_eq_some_iff.mp h
  rfl

theorem handleForwardBytes_fleet {bytes : List UInt8}
    (h : t.handleForwardBytes text m bytes = some u) : KeepsFleet t.app u.app := by
  rcases handleForwardBytes_cases h with h | rfl | ⟨kind, -, rfl⟩
  · exact sendInput_fleet h
  · rfl
  · exact KeepsFleet.foldl (fun t k => t.scopeKey_fleet kind k) (t.parseKeys bytes).1 _

theorem handleTab_fleet {forward : Bool} (h : t.handleTab forward = some u) :
    KeepsFleet t.app u.app := by
  rcases handleTab_cases h with ⟨data, h⟩ | rfl
  · exact sendInput_fleet h
  · exact t.handleFocusCycle_fleet forward

theorem inputToTiles_fleet {input : InputAction} (h : t.inputToTiles text m input = some u) :
    KeepsFleet t.app u.app := by
  cases input with
  | forward bytes => exact handleForwardBytes_fleet h
  | detach => cases h; rfl
  | focusDirection dir => cases h; exact t.handleFocusDirection_fleet dir
  | focusNext => exact handleTab_fleet h
  | focusPrev => exact handleTab_fleet h
  | help => cases h; rfl
  | openHostPicker => cases h; exact t.openHostPicker_fleet
  | paneClose =>
    rcases inputToTiles_paneClose h with h | rfl
    · exact closeActivePane_fleet h
    · rfl

theorem handleInput_fleet {input : InputAction} (h : t.handleInput text m input = some u) :
    KeepsFleet t.app u.app := by
  rcases handleInput_cases h with rfl | rfl | h
  · exact t.inputToHelp_fleet input
  · exact t.inputToPicker_fleet input
  · exact inputToTiles_fleet h

theorem handleInputs_fleet {inputs : List InputAction}
    (h : t.handleInputs text m inputs = some u) : KeepsFleet t.app u.app :=
  handleInputs_rel (R := fun t u => KeepsFleet t.app u.app) (fun _ => rfl) (fun _ _ _ => .trans)
    (fun _ => rfl) (fun _ _ _ => handleInput_fleet) h

theorem handleDockerEvent_fleet (event : Event) :
    KeepsFleet t.app (t.handleDockerEvent text event).app := by
  unfold handleDockerEvent
  split <;> rfl

theorem handlePortsEvent_fleet (event : Event) :
    KeepsFleet t.app (t.handlePortsEvent text event).app := by
  unfold handlePortsEvent
  split <;> rfl

theorem handleProcessesEvent_fleet (event : Event) :
    KeepsFleet t.app (t.handleProcessesEvent text event).app := by
  unfold handleProcessesEvent
  split <;> rfl

theorem handleLogsEvent_fleet (event : Event) :
    KeepsFleet t.app (t.handleLogsEvent text event).app := by
  unfold handleLogsEvent
  split <;> rfl

theorem handleDockerActionResult_fleet (result : DockerActionResult) :
    KeepsFleet t.app (t.handleDockerActionResult m result).app := by
  unfold handleDockerActionResult
  dsimp only
  split <;> rfl

theorem handleFleetActionResult_fleet (result : FleetActionResult) :
    KeepsFleet t.app (t.handleFleetActionResult m result).app := by
  unfold handleFleetActionResult
  dsimp only
  split <;> rfl

theorem feedPane_fleet {idx : Nat} {bytes : List UInt8} (h : t.feedPane idx bytes = some u) :
    KeepsFleet t.app u.app := by
  rcases feedPane_cases h with rfl | rfl
  · rfl
  · rfl

theorem handlePaneExit_fleet {idx : Nat} {exitCode : Option Int}
    (h : t.handlePaneExit m idx exitCode = some u) : KeepsFleet t.app u.app := by
  obtain ⟨-, ⟨-, rfl⟩ | ⟨-, detail, rfl⟩⟩ := handlePaneExit_cases h
  · rfl
  · rfl

theorem handlePaneEvent_fleet {idx : Nat} {event : Event}
    (h : t.handlePaneEvent m idx event = some u) : KeepsFleet t.app u.app := by
  rcases handlePaneEvent_cases h with rfl | ⟨bytes, h⟩ | ⟨exitCode, h⟩
  · rfl
  · exact feedPane_fleet h
  · exact handlePaneExit_fleet h

theorem handlePaneOpened_fleet (info : PaneInfo) :
    KeepsFleet t.app (t.handlePaneOpened info).app := by
  unfold handlePaneOpened
  split
  next => rfl
  next =>
    dsimp only
    unfold focusPty
    dsimp only [app_draw, app_send]
    split <;> rfl

theorem handleError_fleet (info : ErrorInfo) : KeepsFleet t.app (t.handleError m info).app := by
  unfold handleError
  split <;> rfl

theorem handleResize_fleet {rows cols : Nat} (h : t.handleResize rows cols = some u) :
    KeepsFleet t.app u.app := by
  obtain ⟨layout, -, rfl⟩ := Option.map_eq_some_iff.mp h
  simp only [KeepsFleet, app_draw, resizePanes_app]
  rfl

end Partial

end Turn

/-- An event that the daemon sent for a subscription. -/
def AppEvent.isFor (id : Nat) : AppEvent → Bool
  | .daemonEnvelope ⟨_, .event id' _⟩ => id' = id
  | _ => false

theorem App.recipient_fleet {a : App} {id : Nat} (h : a.recipient id = some .fleet) :
    id = a.fleet.subId := by
  unfold recipient at h
  repeat' split at h
  all_goals first | assumption | cases h

/-- Whatever else happens, the fleet tile knows its hosts from its own subscription alone. -/
theorem App.handleEvent_fleet {text : TextOps} {m : Moment} {a : App} {event : AppEvent} {t : Turn}
    (h : a.handleEvent text m event = some t) (hother : event.isFor a.fleet.subId = false) :
    KeepsFleet a t.app := by
  cases event with
  | stdinChunk bytes => exact Turn.handleInputs_fleet h
  | daemonEnvelope env =>
    obtain ⟨version, payload⟩ := env
    simp only [handleEvent, Turn.handleDaemonEnvelope] at h
    split at h
    next id event =>
      simp only [Turn.handleEventFrame] at h
      split at h
      next => exact Turn.handlePaneEvent_fleet h
      next => cases h; exact Turn.handleDockerEvent_fleet event
      next => cases h; exact Turn.handlePortsEvent_fleet event
      next => cases h; exact Turn.handleProcessesEvent_fleet event
      next => cases h; exact Turn.handleLogsEvent_fleet event
      next hfleet =>
        have hid := App.recipient_fleet hfleet
        simp [AppEvent.isFor, hid] at hother
      next => cases h; rfl
    next info => cases h; exact Turn.handlePaneOpened_fleet info
    next info => cases h; exact Turn.handleError_fleet info
    next result => cases h; exact Turn.handleDockerActionResult_fleet result
    next result => cases h; exact Turn.handleFleetActionResult_fleet result
    next => cases h; rfl
  | resize rows cols => exact Turn.handleResize_fleet h
  | tick => cases h; exact Turn.sweepExpired_fleet _
  | pendingActionTimeout id => cases h; exact Turn.expirePendingAction_fleet _ id
  | mouseClick x y => exact Turn.handleMouseClick_fleet h
  | mouseHover x y => cases h; exact Turn.handleMouseHover_fleet _ x y

end Tepegoz
