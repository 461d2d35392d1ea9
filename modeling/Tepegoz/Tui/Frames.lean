import Tepegoz.Tui.HandleEvent

namespace Tepegoz

/-- What a retargetable panel shows once its subscription has delivered a list. -/
inductive Rows
  | containers (rows : List DockerContainer)
  | ports (rows : List ProbePort)
  | processes (rows : List ProbeProcess)
  deriving DecidableEq

/-- The part of a scope that its subscription determines. -/
structure Panel where
  subId : Nat
  target : ScopeTarget
  shown : Option Rows
  deriving DecidableEq

def ScopeState.shown {Row : Type} (toRows : List Row → Rows) : ScopeState Row → Option Rows
  | .available rows _ => some (toRows rows)
  | _ => none

def App.panel (a : App) : HostPickerTargetTile → Panel
  | .docker => ⟨a.docker.subId, a.docker.target, a.docker.state.shown .containers⟩
  | .ports => ⟨a.ports.portsSubId, a.ports.portsTarget, a.ports.ports.state.shown .ports⟩
  | .processes =>
    ⟨a.ports.processesSubId, a.ports.processesTarget, a.ports.processes.state.shown .processes⟩

/-- A step that leaves the panes alone; it may ask for new ones. -/
structure KeepsPanes (a b : App) : Prop where
  stack : b.paneStack = a.paneStack
  active : b.activePane = a.activePane
  pending : a.pendingOpens <+: b.pendingOpens

def KeepsPanels (a b : App) : Prop := ∀ v, b.panel v = a.panel v

/-- A step that touches neither the panes nor what the panels show. -/
structure Quiet (a b : App) : Prop extends KeepsPanes a b where
  panels : KeepsPanels a b

theorem KeepsPanes.trans {a b c : App} (h : KeepsPanes a b) (h' : KeepsPanes b c) :
    KeepsPanes a c :=
  ⟨h'.stack.trans h.stack, h'.active.trans h.active, h.pending.trans h'.pending⟩

theorem KeepsPanels.trans {a b c : App} (h : KeepsPanels a b) (h' : KeepsPanels b c) :
    KeepsPanels a c := fun v => (h' v).trans (h v)

theorem Quiet.refl (a : App) : Quiet a a := ⟨⟨rfl, rfl, List.prefix_rfl⟩, fun _ => rfl⟩

theorem Quiet.trans {a b c : App} (h : Quiet a b) (h' : Quiet b c) : Quiet a c :=
  ⟨h.toKeepsPanes.trans h'.toKeepsPanes, h.panels.trans h'.panels⟩

/-- The panes are untouched when their three fields are, and so for the panels. -/
theorem Quiet.of_fields {a b : App} (panes : b.paneStack = a.paneStack ∧
    b.activePane = a.activePane ∧ b.pendingOpens = a.pendingOpens)
    (docker : b.panel .docker = a.panel .docker) (ports : b.panel .ports = a.panel .ports)
    (processes : b.panel .processes = a.panel .processes) : Quiet a b where
  stack := panes.1
  active := panes.2.1
  pending := panes.2.2 ▸ List.prefix_rfl
  panels v := by cases v <;> assumption

theorem Quiet.foldl {β : Type} {f : Turn → β → Turn} (h : ∀ t x, Quiet t.app (f t x).app)
    (t : Turn) (xs : List β) : Quiet t.app (xs.foldl f t).app := by
  induction xs generalizing t with
  | nil => exact .refl _
  | cons x xs ih => exact (h t x).trans (ih (f t x))

namespace DockerScope

theorem listKey_keeps {text : TextOps} {d d' : DockerScope} {k : ScopeKey}
    (h : d.listKey text k = some d') :
    d'.state = d.state ∧ d'.target = d.target ∧ d'.subId = d.subId := by
  obtain ⟨c, -, rfl⟩ := Option.map_eq_some_iff.mp h
  exact ⟨rfl, rfl, rfl⟩

end DockerScope

namespace Turn

variable {text : TextOps} {m : Moment} (t : Turn)

section Tiles

theorem pushToast_quiet (kind : ToastKind) (message : String) :
    Quiet t.app (t.pushToast m kind message).app :=
  .of_fields ⟨rfl, rfl, rfl⟩ rfl rfl rfl

theorem expirePendingAction_quiet (id : Nat) : Quiet t.app (t.expirePendingAction m id).app := by
  unfold expirePendingAction
  split
  next => exact .of_fields ⟨rfl, rfl, rfl⟩ rfl rfl rfl
  next => exact .refl _

theorem expireConfirm_quiet : Quiet t.app (t.expireConfirm m).app :=
  .of_fields ⟨rfl, rfl, rfl⟩ rfl rfl rfl

theorem expireToasts_quiet : Quiet t.app (t.expireToasts m).app :=
  .of_fields ⟨rfl, rfl, rfl⟩ rfl rfl rfl

theorem sweepExpired_quiet : Quiet t.app (t.sweepExpired m).app :=
  (t.expireConfirm_quiet.trans (Quiet.foldl (fun t id => t.expirePendingAction_quiet id) _ _)).trans
    (Turn.expireToasts_quiet _)

theorem moveFocusTo_quiet (next : TileId) : Quiet t.app (t.moveFocusTo next).app := by
  unfold moveFocusTo
  split
  next => exact .refl _
  next => exact .of_fields ⟨rfl, rfl, rfl⟩ rfl rfl rfl

theorem handleFocusDirection_quiet (dir : FocusDir) :
    Quiet t.app (t.handleFocusDirection dir).app := by
  unfold handleFocusDirection
  split
  next next _ => exact t.moveFocusTo_quiet next
  next => exact .refl _

theorem handleFocusCycle_quiet (forward : Bool) : Quiet t.app (t.handleFocusCycle forward).app := by
  unfold handleFocusCycle
  split
  next next _ => exact t.moveFocusTo_quiet next
  next => exact .refl _

theorem handleHelpToggle_quiet : Quiet t.app t.handleHelpToggle.app :=
  .of_fields ⟨rfl, rfl, rfl⟩ rfl rfl rfl

theorem openHostPicker_quiet : Quiet t.app t.openHostPicker.app := by
  unfold openHostPicker
  split
  next => exact .of_fields ⟨rfl, rfl, rfl⟩ rfl rfl rfl
  next => exact .refl _

theorem dismissHostPicker_quiet : Quiet t.app t.dismissHostPicker.app := by
  unfold dismissHostPicker
  split
  next => exact .of_fields ⟨rfl, rfl, rfl⟩ rfl rfl rfl
  next => exact .refl _

theorem movePicker_quiet (picker : HostPickerModal) (selected : Nat) :
    Quiet t.app (t.movePicker picker selected).app := by
  unfold movePicker
  split
  next => exact .refl _
  next => exact .of_fields ⟨rfl, rfl, rfl⟩ rfl rfl rfl

theorem handleMouseHover_quiet (x y : Nat) : Quiet t.app (t.handleMouseHover x y).app := by
  unfold handleMouseHover
  dsimp only
  split
  next => exact .refl _
  next => exact .of_fields ⟨rfl, rfl, rfl⟩ rfl rfl rfl

theorem inputToHelp_quiet (input : InputAction) : Quiet t.app (t.inputToHelp input).app := by
  unfold inputToHelp
  split
  next => exact t.handleHelpToggle_quiet
  next => exact .of_fields ⟨rfl, rfl, rfl⟩ rfl rfl rfl

end Tiles

section Lists

theorem leaveLogs_quiet : Quiet t.app t.leaveLogs.app := by
  unfold leaveLogs
  split
  next => exact .of_fields ⟨rfl, rfl, rfl⟩ rfl rfl rfl
  next => exact .refl _

theorem registerAction_quiet (description : String) :
    Quiet t.app (t.registerAction m description).app :=
  .of_fields ⟨rfl, rfl, rfl⟩ rfl rfl rfl

theorem dispatchDockerAction_quiet (containerId displayName : String) (kind : DockerActionKind) :
    Quiet t.app (t.dispatchDockerAction m containerId displayName kind).app :=
  .of_fields ⟨rfl, rfl, rfl⟩ rfl rfl rfl

theorem issueSelectedDockerAction_quiet (kind : DockerActionKind) :
    Quiet t.app (t.issueSelectedDockerAction text m kind).app := by
  unfold issueSelectedDockerAction
  split
  next => exact t.dispatchDockerAction_quiet _ _ _
  next => exact .refl _

theorem beginConfirm_quiet (kind : DockerActionKind) :
    Quiet t.app (t.beginConfirm text m kind).app := by
  unfold beginConfirm
  split
  next => exact .of_fields ⟨rfl, rfl, rfl⟩ rfl rfl rfl
  next => exact .refl _

theorem tryEnterLogsView_quiet : Quiet t.app (t.tryEnterLogsView text).app := by
  unfold tryEnterLogsView
  split
  next => exact .of_fields ⟨rfl, rfl, rfl⟩ rfl rfl rfl
  next => exact .refl _

theorem setLogs_quiet (logs : LogsView) : Quiet t.app (t.setLogs logs).app :=
  .of_fields ⟨rfl, rfl, rfl⟩ rfl rfl rfl

theorem handleLogsKey_quiet (logs : LogsView) (k : ScopeKey) :
    Quiet t.app (t.handleLogsKey logs k).app := by
  unfold handleLogsKey
  repeat' split
  · exact t.leaveLogs_quiet
  · exact t.setLogs_quiet _
  · exact t.setLogs_quiet _
  · exact t.setLogs_quiet _
  · exact t.setLogs_quiet _
  · exact t.setLogs_quiet _
  · exact t.setLogs_quiet _
  · exact t.leaveLogs_quiet
  · exact .refl _
  · exact .refl _

theorem confirmKey_quiet (pending : PendingConfirm) (k : ScopeKey) :
    Quiet t.app (t.confirmKey m pending k).app := by
  unfold confirmKey
  dsimp only
  split
  next => exact .of_fields ⟨rfl, rfl, rfl⟩ rfl rfl rfl
  next =>
    split
    next => exact .refl _
    next => exact .of_fields ⟨rfl, rfl, rfl⟩ rfl rfl rfl

theorem dockerCommand_quiet (k : ScopeKey) : Quiet t.app (t.dockerCommand text m k).app := by
  unfold dockerCommand
  repeat' split
  · exact t.issueSelectedDockerAction_quiet _
  · exact t.issueSelectedDockerAction_quiet _
  · exact t.beginConfirm_quiet _
  · exact t.beginConfirm_quiet _
  · exact t.tryEnterLogsView_quiet
  · exact .refl _

theorem handleScopeKey_quiet (k : ScopeKey) : Quiet t.app (t.handleScopeKey text m k).app := by
  unfold handleScopeKey
  split
  next => exact t.handleLogsKey_quiet _ k
  next => exact t.confirmKey_quiet _ k
  next =>
    split
    next d h =>
      obtain ⟨hstate, htarget, hid⟩ := DockerScope.listKey_keeps h
      exact .of_fields ⟨rfl, rfl, rfl⟩ (by simp [App.panel, hstate, htarget, hid]) rfl rfl
    next =>
      split
      next => exact .refl _
      next => exact t.dockerCommand_quiet k

theorem togglePortsView_quiet : Quiet t.app t.togglePortsView.app :=
  .of_fields ⟨rfl, rfl, rfl⟩ rfl rfl rfl

theorem handlePortsListKey_quiet (k : ScopeKey) :
    Quiet t.app (t.handlePortsListKey text k).app := by
  unfold handlePortsListKey
  split
  next v h =>
    obtain ⟨c, -, rfl⟩ := Option.map_eq_some_iff.mp h
    exact .of_fields ⟨rfl, rfl, rfl⟩ rfl rfl rfl
  next => exact .refl _

theorem handleProcessesListKey_quiet (k : ScopeKey) :
    Quiet t.app (t.handleProcessesListKey text k).app := by
  unfold handleProcessesListKey
  split
  next v h =>
    obtain ⟨c, -, rfl⟩ := Option.map_eq_some_iff.mp h
    exact .of_fields ⟨rfl, rfl, rfl⟩ rfl rfl rfl
  next => exact .refl _

theorem handlePortsKey_quiet (k : ScopeKey) : Quiet t.app (t.handlePortsKey text k).app := by
  unfold handlePortsKey
  repeat' split
  · exact t.togglePortsView_quiet
  · exact t.handlePortsListKey_quiet k
  · exact t.togglePortsView_quiet
  · exact t.handleProcessesListKey_quiet k

theorem pushPendingOpen_quiet (hostAlias : Option String) :
    Quiet t.app (t.pushPendingOpen hostAlias).app :=
  ⟨⟨rfl, rfl, List.prefix_append _ _⟩, fun v => by cases v <;> rfl⟩

theorem dispatchOpenRemotePane_quiet : Quiet t.app (t.dispatchOpenRemotePane text m).app := by
  unfold dispatchOpenRemotePane
  split
  next => exact (t.pushPendingOpen_quiet _).trans (Turn.pushToast_quiet _ _ _)
  next => exact .refl _

theorem dispatchFleetReconnect_quiet : Quiet t.app (t.dispatchFleetReconnect text m).app := by
  unfold dispatchFleetReconnect
  split
  next => exact t.registerAction_quiet _
  next => exact .refl _

theorem handleFleetKey_quiet (k : ScopeKey) : Quiet t.app (t.handleFleetKey text m k).app := by
  unfold handleFleetKey
  repeat' split
  · exact .of_fields ⟨rfl, rfl, rfl⟩ rfl rfl rfl
  · exact .refl _
  · exact t.dispatchFleetReconnect_quiet
  · exact t.dispatchOpenRemotePane_quiet
  · exact .refl _

theorem scopeKey_quiet (kind : ScopeKind) (k : ScopeKey) :
    Quiet t.app (t.scopeKey text m kind k).app := by
  cases kind with
  | docker => exact t.handleScopeKey_quiet k
  | ports => exact t.handlePortsKey_quiet k
  | fleet => exact t.handleFleetKey_quiet k

theorem clickRow_quiet (tileId : TileId) (kind : ScopeKind) (rowIdx : Nat) :
    Quiet t.app (t.clickRow text m tileId kind rowIdx).app := by
  have hselect : ∀ a : App, Quiet a (a.scopeSetSelection kind rowIdx) := by
    intro a
    unfold App.scopeSetSelection
    split
    next => exact .of_fields ⟨rfl, rfl, rfl⟩ rfl rfl rfl
    next => split <;> exact .of_fields ⟨rfl, rfl, rfl⟩ rfl rfl rfl
    next => exact .of_fields ⟨rfl, rfl, rfl⟩ rfl rfl rfl
  have hclick : ∀ a : App, Quiet a { a with lastClick := some (tileId, rowIdx, m.now) } :=
    fun a => .of_fields ⟨rfl, rfl, rfl⟩ rfl rfl rfl
  unfold clickRow
  dsimp only
  have hclicked := (hselect t.app).trans (hclick _)
  split
  next =>
    refine Quiet.trans ?_ (Turn.dispatchOpenRemotePane_quiet _)
    split <;> exact hclicked
  next => split <;> exact hclicked

theorem dispatchScopeClick_quiet (tileId : TileId) (kind : ScopeKind) (rect : Rect) (y : Nat) :
    Quiet t.app (t.dispatchScopeClick text m tileId kind rect y).app := by
  unfold dispatchScopeClick
  repeat' split
  · exact .refl _
  · exact t.openHostPicker_quiet
  · exact t.clickRow_quiet _ _ _
  · exact .refl _
  · exact .refl _

end Lists

section Answers

theorem handleFleetEvent_quiet (event : Event) :
    Quiet t.app (t.handleFleetEvent text m event).app := by
  unfold handleFleetEvent
  split
  next => exact .of_fields ⟨rfl, rfl, rfl⟩ rfl rfl rfl
  next hostAlias state reason =>
    split
    next hosts states source _ =>
      have hshown : Quiet t.app (t.setFleet { t.app.fleet with
          state := .available hosts (states.insert hostAlias state) source }).draw.app :=
        .of_fields ⟨rfl, rfl, rfl⟩ rfl rfl rfl
      repeat' split
      · exact hshown
      · exact hshown.trans (Turn.pushToast_quiet _ _ _)
      · exact hshown
      · exact hshown
    next => exact .refl _
  next => exact .of_fields ⟨rfl, rfl, rfl⟩ rfl rfl rfl
  next => exact .refl _

theorem handleLogsEvent_quiet (event : Event) : Quiet t.app (t.handleLogsEvent text event).app := by
  unfold handleLogsEvent
  split
  next => exact t.setLogs_quiet _
  next => exact t.setLogs_quiet _
  next => exact .refl _

theorem handleDockerActionResult_quiet (result : DockerActionResult) :
    Quiet t.app (t.handleDockerActionResult m result).app := by
  unfold handleDockerActionResult
  dsimp only
  split <;> exact .of_fields ⟨rfl, rfl, rfl⟩ rfl rfl rfl

theorem handleFleetActionResult_quiet (result : FleetActionResult) :
    Quiet t.app (t.handleFleetActionResult m result).app := by
  unfold handleFleetActionResult
  dsimp only
  split <;> exact .of_fields ⟨rfl, rfl, rfl⟩ rfl rfl rfl

theorem parseKeys_quiet (bytes : List UInt8) : Quiet t.app (t.parseKeys bytes).1.app :=
  .of_fields ⟨rfl, rfl, rfl⟩ rfl rfl rfl

theorem scopeKeys_quiet (kind : ScopeKind) (ks : List ScopeKey) :
    Quiet t.app (ks.foldl (fun t k => t.scopeKey text m kind k) t).app :=
  Quiet.foldl (fun t k => t.scopeKey_quiet kind k) t ks

end Answers

section Panes

theorem retarget_panes (newTarget : ScopeTarget) (v : HostPickerTargetTile) :
    KeepsPanes t.app (t.retarget newTarget v).app := by
  cases v with
  | docker =>
    show KeepsPanes t.app (t.retargetDocker newTarget).app
    unfold retargetDocker
    split
    next => exact ⟨rfl, rfl, List.prefix_rfl⟩
    next => exact t.leaveLogs_quiet.toKeepsPanes.trans ⟨rfl, rfl, List.prefix_rfl⟩
  | ports =>
    show KeepsPanes t.app (t.retargetPorts newTarget).app
    unfold retargetPorts
    split <;> exact ⟨rfl, rfl, List.prefix_rfl⟩
  | processes =>
    show KeepsPanes t.app (t.retargetProcesses newTarget).app
    unfold retargetProcesses
    split <;> exact ⟨rfl, rfl, List.prefix_rfl⟩

theorem commitHostPicker_panes (picker : HostPickerModal) :
    KeepsPanes t.app (t.commitHostPicker picker).app := by
  have hclosed : KeepsPanes t.app (t.edit ({ · with hostPicker := none })).app :=
    ⟨rfl, rfl, List.prefix_rfl⟩
  unfold commitHostPicker
  dsimp only
  split
  next => exact hclosed
  next => exact hclosed.trans (Turn.retarget_panes _ _ _)
  next => exact hclosed.trans (Turn.retarget_panes _ _ _)
  next => exact (Quiet.refl _).toKeepsPanes

theorem handleHostPickerKey_panes (k : ScopeKey) :
    KeepsPanes t.app (t.handleHostPickerKey k).app := by
  unfold handleHostPickerKey
  split
  next => exact (Quiet.refl _).toKeepsPanes
  next picker _ =>
    dsimp only
    split
    next => exact (t.movePicker_quiet _ _).toKeepsPanes
    next =>
      split
      next => exact (t.movePicker_quiet _ _).toKeepsPanes
      next => exact (Quiet.refl _).toKeepsPanes
    next => exact (t.movePicker_quiet _ _).toKeepsPanes
    next => exact (t.movePicker_quiet _ _).toKeepsPanes
    next =>
      split
      next => exact (t.movePicker_quiet _ _).toKeepsPanes
      next => exact (Quiet.refl _).toKeepsPanes
    next =>
      split
      next => exact (t.movePicker_quiet _ _).toKeepsPanes
      next => exact (Quiet.refl _).toKeepsPanes
    next => exact t.commitHostPicker_panes picker
    next => exact t.dismissHostPicker_quiet.toKeepsPanes
    next => exact (Quiet.refl _).toKeepsPanes

theorem hostPickerKeys_panes (ks : List ScopeKey) :
    KeepsPanes t.app (t.hostPickerKeys ks).app := by
  induction ks generalizing t with
  | nil => exact (Quiet.refl _).toKeepsPanes
  | cons k ks ih =>
    unfold hostPickerKeys
    dsimp only
    split
    next => exact t.handleHostPickerKey_panes k
    next => exact (t.handleHostPickerKey_panes k).trans (ih _)

theorem inputToPicker_panes (input : InputAction) :
    KeepsPanes t.app (t.inputToPicker input).app := by
  unfold inputToPicker
  split
  next => exact (t.dismissHostPicker_quiet.trans (Turn.handleHelpToggle_quiet _)).toKeepsPanes
  next bytes => exact (t.parseKeys_quiet bytes).toKeepsPanes.trans (Turn.hostPickerKeys_panes _ _)
  next => exact t.dismissHostPicker_quiet.toKeepsPanes

theorem handleDockerEvent_panes (event : Event) :
    KeepsPanes t.app (t.handleDockerEvent text event).app := by
  unfold handleDockerEvent
  split <;> exact ⟨rfl, rfl, List.prefix_rfl⟩

theorem handlePortsEvent_panes (event : Event) :
    KeepsPanes t.app (t.handlePortsEvent text event).app := by
  unfold handlePortsEvent
  split <;> exact ⟨rfl, rfl, List.prefix_rfl⟩

theorem handleProcessesEvent_panes (event : Event) :
    KeepsPanes t.app (t.handleProcessesEvent text event).app := by
  unfold handleProcessesEvent
  split <;> exact ⟨rfl, rfl, List.prefix_rfl⟩

end Panes

end Turn

end Tepegoz
