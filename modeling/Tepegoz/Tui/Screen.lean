import Tepegoz.Tui.Moves
import Tepegoz.Tui.PaneStack

namespace Tepegoz

open Transition

namespace ListCursor

/-- The selection is that of one of `n` rows, or 0 when there are none. -/
def InRange (n : Nat) (c : ListCursor) : Prop := c.selection ≤ n - 1

theorem clamp_le (n selection : Nat) : clamp n selection ≤ n - 1 := by
  unfold clamp
  split
  next => exact Nat.zero_le _
  next => split <;> omega

theorem reanchor_le {Row Key : Type} [DecidableEq Key] (keyOf : Row → Key) (visible : List Row)
    (oldKey : Option Key) (selection : Nat) :
    reanchor keyOf visible oldKey selection ≤ visible.length - 1 := by
  unfold reanchor
  split
  next idx hidx =>
    obtain ⟨key, -, hfound⟩ := Option.bind_eq_some_iff.mp hidx
    have hlt := (List.findIdx?_eq_some_iff_getElem.mp hfound).1
    omega
  next => exact clamp_le _ _

theorem navKey_inRange {n : Nat} {c c' : ListCursor} {k : ScopeKey} (h : c.navKey n k = some c')
    (hc : c.InRange n) : c'.InRange n := by
  unfold InRange at *
  unfold navKey at h
  split at h
  case h_2 =>
    cases Option.some.inj h
    dsimp only
    split <;> omega
  case h_8 =>
    split at h
    · cases Option.some.inj h
      exact hc
    · cases h
  case h_9 => cases h
  all_goals
    cases Option.some.inj h
    dsimp only
    omega

theorem navKey_filter {n : Nat} {c c' : ListCursor} {k : ScopeKey} (h : c.navKey n k = some c') :
    c'.filter = c.filter := by
  unfold navKey at h
  repeat' split at h
  all_goals
    cases h
    try rfl

/-- A key for a list whose edits are adjusted leaves the selection in range. -/
theorem listKey_inRange (adjust : ListCursor → ListCursor) (count : String → Nat)
    (hadjust : ∀ c, (adjust c).filter = c.filter ∧ (adjust c).selection ≤ count c.filter - 1)
    {c c' : ListCursor} {k : ScopeKey} (h : c.listKey adjust (count c.filter) k = some c')
    (hc : c.InRange (count c.filter)) : c'.InRange (count c'.filter) := by
  have hedited : ∀ c : ListCursor, (adjust c).InRange (count (adjust c).filter) := fun c => by
    unfold InRange
    rw [(hadjust c).1]
    exact (hadjust c).2
  unfold listKey at h
  split at h
  next =>
    unfold filterKey at h
    split at h
    next => cases Option.some.inj h; exact hedited _
    next => cases Option.some.inj h; exact hc
    next =>
      split at h
      next => cases h
      next => cases Option.some.inj h; exact hedited _
    next =>
      split at h
      next => cases Option.some.inj h; exact hedited _
      next => cases h
    next => cases h
  next =>
    rw [navKey_filter h]
    exact navKey_inRange h hc

end ListCursor

section Lists

variable (text : TextOps)

def DockerScope.InRange (d : DockerScope) : Prop := d.toListCursor.InRange (d.visibleCount text)

def PortsView.InRange (v : PortsView) : Prop := v.toListCursor.InRange (v.visibleCount text)

def ProcessesView.InRange (v : ProcessesView) : Prop := v.toListCursor.InRange (v.visibleCount text)

def FleetScope.InRange (f : FleetScope) : Prop := f.toListCursor.InRange (f.visibleCount text)

/-- The selections of the four lists. -/
structure App.InRange (a : App) : Prop where
  docker : a.docker.InRange text
  ports : a.ports.ports.InRange text
  processes : a.ports.processes.InRange text
  fleet : a.fleet.InRange text

end Lists

section Keys

variable {text : TextOps} {k : ScopeKey}

theorem DockerScope.listKey_inRange {d d' : DockerScope} (h : d.listKey text k = some d')
    (hd : d.InRange text) : d'.InRange text := by
  obtain ⟨c, hc, rfl⟩ := Option.map_eq_some_iff.mp h
  refine ListCursor.listKey_inRange _
    (fun filter => ({ d with filter := filter } : DockerScope).visibleCount text) ?_ hc hd
  exact fun _ => ⟨rfl, ListCursor.clamp_le _ _⟩

theorem PortsView.listKey_inRange {v v' : PortsView} (h : v.listKey text k = some v')
    (hv : v.InRange text) : v'.InRange text := by
  obtain ⟨c, hc, rfl⟩ := Option.map_eq_some_iff.mp h
  refine ListCursor.listKey_inRange _
    (fun filter => ({ v with filter := filter } : PortsView).visibleCount text) ?_ hc hv
  exact fun _ => ⟨rfl, ListCursor.reanchor_le _ _ _ _⟩

theorem ProcessesView.listKey_inRange {v v' : ProcessesView} (h : v.listKey text k = some v')
    (hv : v.InRange text) : v'.InRange text := by
  obtain ⟨c, hc, rfl⟩ := Option.map_eq_some_iff.mp h
  refine ListCursor.listKey_inRange _
    (fun filter => ({ v with filter := filter } : ProcessesView).visibleCount text) ?_ hc hv
  exact fun _ => ⟨rfl, ListCursor.reanchor_le _ _ _ _⟩

theorem FleetScope.listKey_inRange {f f' : FleetScope} (h : f.listKey text k = some f')
    (hf : f.InRange text) : f'.InRange text := by
  obtain ⟨c, hc, rfl⟩ := Option.map_eq_some_iff.mp h
  refine ListCursor.listKey_inRange _
    (fun filter => ({ f with filter := filter } : FleetScope).visibleCount text) ?_ hc hf
  exact fun _ => ⟨rfl, ListCursor.reanchor_le _ _ _ _⟩

end Keys

def Parser.dims (p : Parser) : Nat × Nat := (p.rows, p.cols)

/-- The size that a command asks for a pane. -/
def AppAction.dims : AppAction → Option (Nat × Nat)
  | .sendEnvelope ⟨_, .openPane spec⟩ => some (spec.rows, spec.cols)
  | .sendEnvelope ⟨_, .resizePane _ rows cols⟩ => some (rows, cols)
  | _ => none

/-- What the tiles show, without the text of the panes. -/
structure Screen where
  layout : TileLayout
  terminalSize : Nat × Nat
  panes : List (Nat × Nat)
  docker : ScopeState DockerContainer × ListCursor
  ports : PortsView
  processes : ProcessesView
  fleet : List HostEntry × ListCursor

def App.screen (a : App) : Screen where
  layout := a.view.layout
  terminalSize := a.terminalSize
  panes := a.paneStack.map (·.parser.dims)
  docker := (a.docker.state, a.docker.toListCursor)
  ports := a.ports.ports
  processes := a.ports.processes
  fleet := (a.fleet.state.hosts, a.fleet.toListCursor)

theorem App.InRange.of_screen {text : TextOps} {a b : App} (h : b.screen = a.screen)
    (ha : a.InRange text) : b.InRange text := by
  have hdocker : (b.docker.state, b.docker.toListCursor) = (a.docker.state, a.docker.toListCursor) :=
    congrArg Screen.docker h
  have hports : b.ports.ports = a.ports.ports := congrArg Screen.ports h
  have hprocesses : b.ports.processes = a.ports.processes := congrArg Screen.processes h
  have hfleet : (b.fleet.state.hosts, b.fleet.toListCursor) =
      (a.fleet.state.hosts, a.fleet.toListCursor) := congrArg Screen.fleet h
  obtain ⟨hstate, hcursor⟩ := Prod.mk.inj hdocker
  obtain ⟨hhosts, hfcursor⟩ := Prod.mk.inj hfleet
  refine ⟨?_, hports ▸ ha.ports, hprocesses ▸ ha.processes, ?_⟩
  · have hd := ha.docker
    unfold DockerScope.InRange DockerScope.visibleCount DockerScope.visible DockerScope.matchesFilter at *
    rw [hstate, hcursor]
    exact hd
  · have hf := ha.fleet
    unfold FleetScope.InRange FleetScope.visibleCount FleetScope.visible FleetScope.matchesFilter at *
    rw [hhosts, hfcursor]
    exact hf

/-- A handler's work that leaves the layout alone, sizes panes by it and keeps selections in range. -/
structure Steady (text : TextOps) (t u : Turn) : Prop where
  layout : u.app.view.layout = t.app.view.layout
  size : u.app.terminalSize = t.app.terminalSize
  panes : ∀ p ∈ u.app.paneStack, p.parser.dims = ptyContentDims t.app.view.layout ∨
    ∃ q ∈ t.app.paneStack, p.parser.dims = q.parser.dims
  requests : ∀ action ∈ u.actions, ∀ dims ∈ action.dims,
    action ∈ t.actions ∨ dims = ptyContentDims t.app.view.layout
  inRange : t.app.InRange text → u.app.InRange text

namespace Steady

variable {text : TextOps} {t u v : Turn}

theorem refl (t : Turn) : Steady text t t :=
  ⟨rfl, rfl, fun p hp => .inr ⟨p, hp, rfl⟩, fun _ ha _ _ => .inl ha, id⟩

theorem trans (h : Steady text t u) (h' : Steady text u v) : Steady text t v where
  layout := h'.layout.trans h.layout
  size := h'.size.trans h.size
  panes p hp := by
    rcases h'.panes p hp with hdims | ⟨q, hq, hdims⟩
    · exact .inl (hdims.trans (by rw [h.layout]))
    · rcases h.panes q hq with hdims' | ⟨r, hr, hdims'⟩
      · exact .inl (hdims.trans hdims')
      · exact .inr ⟨r, hr, hdims.trans hdims'⟩
  requests action ha dims hd := by
    rcases h'.requests action ha dims hd with hmem | hdims
    · exact h.requests action hmem dims hd
    · exact .inr (hdims.trans (by rw [h.layout]))
  inRange := h'.inRange ∘ h.inRange

/-- An edit behind the screen. -/
theorem edit {f : App → App} (h : Steady text t u) (hf : (f u.app).screen = u.app.screen) :
    Steady text t (u.edit f) := by
  refine h.trans ⟨congrArg Screen.layout hf, congrArg Screen.terminalSize hf, fun p hp => ?_,
    fun _ ha _ _ => .inl ha, .of_screen hf⟩
  have hpanes : (f u.app).paneStack.map (·.parser.dims) = u.app.paneStack.map (·.parser.dims) :=
    congrArg Screen.panes hf
  have hmem : p.parser.dims ∈ u.app.paneStack.map (·.parser.dims) := by
    rw [← hpanes]
    exact List.mem_map_of_mem hp
  obtain ⟨q, hq, hdims⟩ := List.mem_map.mp hmem
  exact .inr ⟨q, hq, hdims.symm⟩

/-- An edit of the lists. -/
theorem relist {f : App → App} (h : Steady text t u)
    (hf : (f u.app).view = u.app.view ∧ (f u.app).terminalSize = u.app.terminalSize ∧
      (f u.app).paneStack = u.app.paneStack)
    (hr : u.app.InRange text → (f u.app).InRange text) : Steady text t (u.edit f) := by
  obtain ⟨hview, hsize, hstack⟩ := hf
  refine h.trans ⟨?_, hsize, fun p hp => .inr ⟨p, hstack ▸ hp, rfl⟩, fun _ ha _ _ => .inl ha, hr⟩
  rw [Turn.app_edit, hview]

/-- An action that asks for no size, or for that of the tile. -/
theorem emit {action : AppAction} (h : Steady text t u)
    (ha : ∀ dims ∈ action.dims, dims = ptyContentDims u.app.view.layout) :
    Steady text t (u.emit action) := by
  refine h.trans ⟨rfl, rfl, fun p hp => .inr ⟨p, hp, rfl⟩, fun act hact dims hdims => ?_, id⟩
  rcases List.mem_append.mp hact with hact | hact
  · exact .inl hact
  · rw [List.mem_singleton.mp hact] at hdims
    exact .inr (ha dims hdims)

theorem draw (h : Steady text t u) : Steady text t u.draw := h.emit nofun

theorem foldl {β : Type} {f : Turn → β → Turn} (h : ∀ t x, Steady text t (f t x))
    (t : Turn) (xs : List β) : Steady text t (xs.foldl f t) := by
  induction xs generalizing t with
  | nil => exact .refl _
  | cons x xs ih => exact (h t x).trans (ih _)

end Steady

namespace Turn

variable {text : TextOps} {m : Moment} {t u : Turn}

section Tiles

theorem pushToast_steady (kind : ToastKind) (message : String) :
    Steady text t (t.pushToast m kind message) :=
  .draw (.emit (.edit (.refl t) rfl) nofun)

theorem expirePendingAction_steady (id : Nat) : Steady text t (t.expirePendingAction m id) := by
  unfold expirePendingAction
  split
  next => exact .trans (.edit (.refl t) rfl) (pushToast_steady _ _)
  next => exact .refl t

theorem sweepExpired_steady : Steady text t (t.sweepExpired m) := by
  have hconfirm : Steady text t (t.expireConfirm m) := by
    unfold expireConfirm setDocker
    exact .edit (.refl t) rfl
  unfold sweepExpired expireToasts
  exact .edit (hconfirm.trans (.foldl (fun _ id => expirePendingAction_steady id) _ _)) rfl

theorem moveFocusTo_steady (next : TileId) : Steady text t (t.moveFocusTo next) := by
  unfold moveFocusTo
  split
  next => exact .refl t
  next => exact .draw (.emit (.edit (.edit (.refl t) rfl) rfl) nofun)

theorem handleFocusDirection_steady (dir : FocusDir) : Steady text t (t.handleFocusDirection dir) := by
  unfold handleFocusDirection
  split
  next next _ => exact moveFocusTo_steady next
  next => exact .refl t

theorem handleFocusCycle_steady (forward : Bool) : Steady text t (t.handleFocusCycle forward) := by
  unfold handleFocusCycle
  split
  next next _ => exact moveFocusTo_steady next
  next => exact .refl t

theorem handleHelpToggle_steady : Steady text t t.handleHelpToggle := .draw (.edit (.refl t) rfl)

theorem openHostPicker_steady : Steady text t t.openHostPicker := by
  unfold openHostPicker
  split
  next => exact .draw (.edit (.refl t) rfl)
  next => exact .refl t

theorem dismissHostPicker_steady : Steady text t t.dismissHostPicker := by
  unfold dismissHostPicker
  split
  next => exact .draw (.edit (.refl t) rfl)
  next => exact .refl t

theorem movePicker_steady (picker : HostPickerModal) (selected : Nat) :
    Steady text t (t.movePicker picker selected) := by
  unfold movePicker
  split
  next => exact .refl t
  next => exact .draw (.edit (.refl t) rfl)

theorem handleMouseHover_steady (x y : Nat) : Steady text t (t.handleMouseHover x y) := by
  unfold handleMouseHover
  dsimp only
  split
  next => exact .refl t
  next => exact .draw (.edit (.refl t) rfl)

theorem inputToHelp_steady (input : InputAction) : Steady text t (t.inputToHelp input) := by
  unfold inputToHelp
  split
  next => exact handleHelpToggle_steady
  next => exact .draw (.edit (.refl t) rfl)

theorem parseKeys_steady (bytes : List UInt8) : Steady text t (t.parseKeys bytes).1 := by
  have hscreen : ∀ state, ({ t.app with scopeKeyParser := state } : App).screen = t.app.screen :=
    fun _ => rfl
  exact .edit (f := ({ · with scopeKeyParser := _ })) (.refl t) (hscreen _)

end Tiles

section Lists

theorem setDocker_steady {d : DockerScope} (h : Steady text t u)
    (hd : u.app.docker.InRange text → d.InRange text) : Steady text t (u.setDocker d) :=
  .relist h ⟨rfl, rfl, rfl⟩ fun hr => ⟨hd hr.docker, hr.ports, hr.processes, hr.fleet⟩

theorem setPorts_steady {p : PortsScope} (h : Steady text t u)
    (hports : u.app.ports.ports.InRange text → p.ports.InRange text)
    (hprocesses : u.app.ports.processes.InRange text → p.processes.InRange text) :
    Steady text t (u.setPorts p) :=
  .relist h ⟨rfl, rfl, rfl⟩ fun hr => ⟨hr.docker, hports hr.ports, hprocesses hr.processes, hr.fleet⟩

theorem setFleet_steady {f : FleetScope} (h : Steady text t u)
    (hf : u.app.fleet.InRange text → f.InRange text) : Steady text t (u.setFleet f) :=
  .relist h ⟨rfl, rfl, rfl⟩ fun hr => ⟨hr.docker, hr.ports, hr.processes, hf hr.fleet⟩

theorem leaveLogs_steady : Steady text t t.leaveLogs := by
  unfold leaveLogs
  split
  next => exact setDocker_steady (.emit (.refl t) nofun) id
  next => exact .refl t

theorem retargetDocker_steady (newTarget : ScopeTarget) :
    Steady text t (t.retargetDocker newTarget) := by
  unfold retargetDocker
  split
  next => exact .draw (.refl t)
  next =>
    have hleft : Steady text t t.leaveLogs := leaveLogs_steady
    exact .draw (.emit (setDocker_steady (.emit hleft nofun) fun _ => Nat.zero_le _) nofun)

theorem retargetPorts_steady (newTarget : ScopeTarget) :
    Steady text t (t.retargetPorts newTarget) := by
  unfold retargetPorts
  split
  next => exact .draw (.refl t)
  next =>
    exact .draw (.emit (setPorts_steady (.emit (.refl t) nofun) (fun _ => Nat.zero_le _) id) nofun)

theorem retargetProcesses_steady (newTarget : ScopeTarget) :
    Steady text t (t.retargetProcesses newTarget) := by
  unfold retargetProcesses
  split
  next => exact .draw (.refl t)
  next =>
    exact .draw (.emit (setPorts_steady (.emit (.refl t) nofun) id fun _ => Nat.zero_le _) nofun)

theorem commitHostPicker_steady (picker : HostPickerModal) :
    Steady text t (t.commitHostPicker picker) := by
  have hclosed : Steady text t (t.edit ({ · with hostPicker := none })) := .edit (.refl t) rfl
  have hretarget : ∀ newTarget v, Steady text t
      ((t.edit ({ · with hostPicker := none })).retarget newTarget v) := by
    intro newTarget v
    cases v with
    | docker => exact hclosed.trans (retargetDocker_steady newTarget)
    | ports => exact hclosed.trans (retargetPorts_steady newTarget)
    | processes => exact hclosed.trans (retargetProcesses_steady newTarget)
  unfold commitHostPicker
  dsimp only
  split
  next => exact hclosed.draw
  next => exact hretarget _ _
  next => exact hretarget _ _
  next => exact .refl t

theorem handleHostPickerKey_steady (k : ScopeKey) : Steady text t (t.handleHostPickerKey k) := by
  unfold handleHostPickerKey
  split
  next => exact .refl t
  next picker _ =>
    dsimp only
    split
    next => exact movePicker_steady _ _
    next => split; exacts [movePicker_steady _ _, .refl t]
    next => exact movePicker_steady _ _
    next => exact movePicker_steady _ _
    next => split; exacts [movePicker_steady _ _, .refl t]
    next => split; exacts [movePicker_steady _ _, .refl t]
    next => exact commitHostPicker_steady picker
    next => exact dismissHostPicker_steady
    next => exact .refl t

theorem hostPickerKeys_steady (ks : List ScopeKey) : Steady text t (t.hostPickerKeys ks) := by
  induction ks generalizing t with
  | nil => exact .refl t
  | cons k ks ih =>
    unfold hostPickerKeys
    dsimp only
    split
    next => exact handleHostPickerKey_steady k
    next => exact (handleHostPickerKey_steady k).trans ih

theorem inputToPicker_steady (input : InputAction) : Steady text t (t.inputToPicker input) := by
  unfold inputToPicker
  split
  next => exact dismissHostPicker_steady.trans handleHelpToggle_steady
  next bytes => exact (parseKeys_steady bytes).trans (hostPickerKeys_steady _)
  next => exact dismissHostPicker_steady

theorem registerAction_steady (description : String) :
    Steady text t (t.registerAction m description) := by
  unfold registerAction allocSubId
  exact .edit (.edit (.refl t) rfl) rfl

theorem dispatchDockerAction_steady (containerId displayName : String) (kind : DockerActionKind) :
    Steady text t (t.dispatchDockerAction m containerId displayName kind) :=
  .draw (.emit (registerAction_steady _) nofun)

theorem issueSelectedDockerAction_steady (kind : DockerActionKind) :
    Steady text t (t.issueSelectedDockerAction text m kind) := by
  unfold issueSelectedDockerAction
  split
  next => exact dispatchDockerAction_steady _ _ _
  next => exact .refl t

theorem beginConfirm_steady (kind : DockerActionKind) :
    Steady text t (t.beginConfirm text m kind) := by
  unfold beginConfirm
  split
  next => exact .draw (setDocker_steady (.refl t) id)
  next => exact .refl t

theorem tryEnterLogsView_steady : Steady text t (t.tryEnterLogsView text) := by
  unfold tryEnterLogsView
  split
  next =>
    have halloc : Steady text t t.allocSubId := .edit (.refl t) rfl
    exact .draw (.emit (setDocker_steady halloc id) nofun)
  next => exact .refl t

theorem setLogs_steady (logs : LogsView) : Steady text t (t.setLogs logs) :=
  .draw (setDocker_steady (.refl t) id)

theorem handleLogsKey_steady (logs : LogsView) (k : ScopeKey) :
    Steady text t (t.handleLogsKey logs k) := by
  unfold handleLogsKey
  split
  case h_1 => exact leaveLogs_steady.draw
  case h_8 =>
    split
    next => exact leaveLogs_steady.draw
    next => exact .refl t
  case h_9 => exact .refl t
  all_goals exact setLogs_steady _

theorem confirmKey_steady (pending : PendingConfirm) (k : ScopeKey) :
    Steady text t (t.confirmKey m pending k) := by
  have hcleared : Steady text t (t.setDocker { t.app.docker with pendingConfirm := none }) :=
    setDocker_steady (.refl t) id
  unfold confirmKey
  dsimp only
  split
  next => exact hcleared.trans (dispatchDockerAction_steady _ _ _)
  next =>
    split
    next => exact .refl t
    next => exact hcleared.draw

theorem dockerCommand_steady (k : ScopeKey) : Steady text t (t.dockerCommand text m k) := by
  unfold dockerCommand
  repeat' split
  · exact issueSelectedDockerAction_steady _
  · exact issueSelectedDockerAction_steady _
  · exact beginConfirm_steady _
  · exact beginConfirm_steady _
  · exact tryEnterLogsView_steady
  · exact .refl t

theorem handleScopeKey_steady (k : ScopeKey) : Steady text t (t.handleScopeKey text m k) := by
  unfold handleScopeKey
  split
  next => exact handleLogsKey_steady _ k
  next => exact confirmKey_steady _ k
  next =>
    split
    next d hd => exact .draw (setDocker_steady (.refl t) (DockerScope.listKey_inRange hd))
    next =>
      split
      next => exact .refl t
      next => exact dockerCommand_steady k

theorem handlePortsListKey_steady (k : ScopeKey) : Steady text t (t.handlePortsListKey text k) := by
  unfold handlePortsListKey
  split
  next v hv => exact .draw (setPorts_steady (.refl t) (PortsView.listKey_inRange hv) id)
  next => exact .refl t

theorem handleProcessesListKey_steady (k : ScopeKey) :
    Steady text t (t.handleProcessesListKey text k) := by
  unfold handleProcessesListKey
  split
  next v hv => exact .draw (setPorts_steady (.refl t) id (ProcessesView.listKey_inRange hv))
  next => exact .refl t

theorem togglePortsView_steady : Steady text t t.togglePortsView :=
  .draw (setPorts_steady (.refl t) id id)

theorem handlePortsKey_steady (k : ScopeKey) : Steady text t (t.handlePortsKey text k) := by
  unfold handlePortsKey
  split
  next => split; exacts [togglePortsView_steady, handlePortsListKey_steady k]
  next => split; exacts [togglePortsView_steady, handleProcessesListKey_steady k]

theorem pushPendingOpen_steady (hostAlias : Option String) :
    Steady text t (t.pushPendingOpen hostAlias) := by
  unfold pushPendingOpen allocSubId
  exact .edit (.edit (.refl t) rfl) rfl

theorem dispatchOpenRemotePane_steady : Steady text t (t.dispatchOpenRemotePane text m) := by
  unfold dispatchOpenRemotePane
  split
  next host _ =>
    have hopened : Steady text t ((t.pushPendingOpen (some host.hostAlias)).send
        (.openPane (openPaneSpec t.app.view.layout none (.remote host.hostAlias)))) := by
      refine .emit (pushPendingOpen_steady _) fun dims hdims => ?_
      cases hdims
      rfl
    exact hopened.trans (pushToast_steady _ _)
  next => exact .refl t

theorem dispatchFleetReconnect_steady : Steady text t (t.dispatchFleetReconnect text m) := by
  unfold dispatchFleetReconnect
  split
  next => exact .draw (.emit (registerAction_steady _) nofun)
  next => exact .refl t

theorem handleFleetKey_steady (k : ScopeKey) : Steady text t (t.handleFleetKey text m k) := by
  unfold handleFleetKey
  split
  next f hf => exact .draw (setFleet_steady (.refl t) (FleetScope.listKey_inRange hf))
  next =>
    split
    next => exact .refl t
    next =>
      split
      next => exact dispatchFleetReconnect_steady
      next => split; exacts [dispatchOpenRemotePane_steady, .refl t]

theorem scopeKey_steady (kind : ScopeKind) (k : ScopeKey) :
    Steady text t (t.scopeKey text m kind k) := by
  cases kind with
  | docker => exact handleScopeKey_steady k
  | ports => exact handlePortsKey_steady k
  | fleet => exact handleFleetKey_steady k

end Lists

section Input

theorem dropPane_steady (idx : Nat) : Steady text t (t.dropPane idx) :=
  ⟨rfl, rfl, fun p hp => .inr ⟨p, List.mem_of_mem_eraseIdx hp, rfl⟩, fun _ ha _ _ => .inl ha,
    fun hr => ⟨hr.docker, hr.ports, hr.processes, hr.fleet⟩⟩

theorem closeActivePane_steady (h : t.closeActivePane m = some u) : Steady text t u := by
  rcases closeActivePane_cases h with rfl | ⟨removed, -, hclose⟩
  · exact .refl t
  have hclosed : Steady text t (t.dropActive removed) :=
    .emit (.emit (dropPane_steady t.app.activePane) nofun) nofun
  rcases hclose with ⟨-, rfl⟩ | ⟨-, rfl⟩
  · refine .edit (.emit (hclosed.trans (pushPendingOpen_steady none)) fun dims hdims => ?_) rfl
    cases hdims
    rfl
  · exact .draw (.edit hclosed rfl)

theorem dispatchPtyClick_steady {rect : Rect} {x y : Nat}
    (h : t.dispatchPtyClick m rect x y = some u) : Steady text t u := by
  rcases dispatchPtyClick_cases h with rfl | ⟨idx, -, rfl⟩ | h
  · exact .refl t
  · exact .draw (.edit (.refl t) rfl)
  · exact closeActivePane_steady h

theorem scopeSetSelection_steady {kind : ScopeKind} {rowIdx : Nat}
    (hrow : rowIdx < t.app.scopeVisibleCount text kind) :
    Steady text t (t.edit fun a => a.scopeSetSelection kind rowIdx) := by
  cases kind with
  | docker =>
    have hlt : rowIdx < t.app.docker.visibleCount text := hrow
    refine .relist (.refl t) ⟨rfl, rfl, rfl⟩ fun hr => ⟨?_, hr.ports, hr.processes, hr.fleet⟩
    show rowIdx ≤ t.app.docker.visibleCount text - 1
    omega
  | ports =>
    unfold App.scopeVisibleCount at hrow
    refine .relist (.refl t) ?_ fun hr => ?_
    all_goals
      unfold App.scopeSetSelection
      dsimp only at hrow ⊢
      split at hrow
    · exact ⟨rfl, rfl, rfl⟩
    · exact ⟨rfl, rfl, rfl⟩
    · refine ⟨hr.docker, ?_, hr.processes, hr.fleet⟩
      show rowIdx ≤ t.app.ports.ports.visibleCount text - 1
      omega
    · refine ⟨hr.docker, hr.ports, ?_, hr.fleet⟩
      show rowIdx ≤ t.app.ports.processes.visibleCount text - 1
      omega
  | fleet =>
    have hlt : rowIdx < t.app.fleet.visibleCount text := hrow
    refine .relist (.refl t) ⟨rfl, rfl, rfl⟩ fun hr => ⟨hr.docker, hr.ports, hr.processes, ?_⟩
    show rowIdx ≤ t.app.fleet.visibleCount text - 1
    omega

theorem clickRow_steady {tileId : TileId} {kind : ScopeKind} {rowIdx : Nat}
    (hrow : rowIdx < t.app.scopeVisibleCount text kind) :
    Steady text t (t.clickRow text m tileId kind rowIdx) := by
  have hselected := scopeSetSelection_steady hrow
  unfold clickRow
  dsimp only
  split
  next =>
    refine .trans ?_ dispatchOpenRemotePane_steady
    split
    next => exact .edit hselected rfl
    next => exact .edit hselected.draw rfl
  next =>
    split
    next => exact .edit hselected rfl
    next => exact .edit hselected.draw rfl

theorem dispatchScopeClick_steady (tileId : TileId) (kind : ScopeKind) (rect : Rect) (y : Nat) :
    Steady text t (t.dispatchScopeClick text m tileId kind rect y) := by
  unfold dispatchScopeClick
  split
  next => exact .refl t
  next =>
    split
    next => exact openHostPicker_steady
    next =>
      split
      next =>
        split
        next hrow => exact clickRow_steady hrow
        next => exact .refl t
      next => exact .refl t

theorem handleMouseClick_steady {x y : Nat} (h : t.handleMouseClick text m x y = some u) :
    Steady text t u := by
  rcases handleMouseClick_cases h with rfl | rfl | rfl | ⟨tile, h⟩
  · exact .draw (.edit (.refl t) rfl)
  · exact dismissHostPicker_steady
  · exact .refl t
  · have hmoved : Steady text t (t.moveFocusTo tile.id) := moveFocusTo_steady _
    rcases h with rfl | h | ⟨kind, rfl⟩
    · exact hmoved
    · exact hmoved.trans (dispatchPtyClick_steady h)
    · exact hmoved.trans (dispatchScopeClick_steady _ _ _ _)

theorem sendInput_steady {data : List UInt8} (h : t.sendInput data = some u) : Steady text t u := by
  obtain ⟨entry, -, rfl⟩ := Option.map_eq_some_iff.mp h
  exact .emit (.refl t) nofun

theorem handleForwardBytes_steady {bytes : List UInt8}
    (h : t.handleForwardBytes text m bytes = some u) : Steady text t u := by
  rcases handleForwardBytes_cases h with h | rfl | ⟨kind, -, rfl⟩
  · exact sendInput_steady h
  · exact .refl t
  · exact (parseKeys_steady bytes).trans (.foldl (fun _ k => scopeKey_steady kind k) _ _)

theorem handleTab_steady {forward : Bool} (h : t.handleTab forward = some u) : Steady text t u := by
  rcases handleTab_cases h with ⟨data, h⟩ | rfl
  · exact sendInput_steady h
  · exact handleFocusCycle_steady forward

theorem inputToTiles_steady {input : InputAction} (h : t.inputToTiles text m input = some u) :
    Steady text t u := by
  cases input with
  | forward bytes => exact handleForwardBytes_steady h
  | detach => cases Option.some.inj h; exact .emit (.refl t) nofun
  | focusDirection dir => cases Option.some.inj h; exact handleFocusDirection_steady dir
  | focusNext => exact handleTab_steady h
  | focusPrev => exact handleTab_steady h
  | help => cases Option.some.inj h; exact handleHelpToggle_steady
  | openHostPicker => cases Option.some.inj h; exact openHostPicker_steady
  | paneClose =>
    rcases inputToTiles_paneClose h with h | rfl
    · exact closeActivePane_steady h
    · exact .refl t

theorem handleInput_steady {input : InputAction} (h : t.handleInput text m input = some u) :
    Steady text t u := by
  rcases handleInput_cases h with rfl | rfl | h
  · exact inputToHelp_steady input
  · exact inputToPicker_steady input
  · exact inputToTiles_steady h

theorem handleInputs_steady {inputs : List InputAction} (h : t.handleInputs text m inputs = some u) :
    Steady text t u :=
  handleInputs_rel (fun t => .refl t) (fun _ _ _ => .trans) (fun t => .emit (.refl t) nofun)
    (fun _ _ _ => handleInput_steady) h

end Input

section Answers

theorem handleDockerEvent_steady (event : Event) :
    Steady text t (t.handleDockerEvent text event) := by
  unfold handleDockerEvent
  split
  next => exact .draw (setDocker_steady (.refl t) fun _ => ListCursor.clamp_le _ _)
  next => exact .draw (setDocker_steady (.refl t) fun _ => Nat.zero_le _)
  next => exact .refl t

theorem handlePortsEvent_steady (event : Event) :
    Steady text t (t.handlePortsEvent text event) := by
  unfold handlePortsEvent
  split
  next => exact .draw (setPorts_steady (.refl t) (fun _ => ListCursor.reanchor_le _ _ _ _) id)
  next => exact .draw (setPorts_steady (.refl t) (fun _ => Nat.zero_le _) id)
  next => exact .refl t

theorem handleProcessesEvent_steady (event : Event) :
    Steady text t (t.handleProcessesEvent text event) := by
  unfold handleProcessesEvent
  split
  next => exact .draw (setPorts_steady (.refl t) id fun _ => ListCursor.reanchor_le _ _ _ _)
  next => exact .draw (setPorts_steady (.refl t) id fun _ => Nat.zero_le _)
  next => exact .refl t

theorem handleFleetEvent_steady (event : Event) :
    Steady text t (t.handleFleetEvent text m event) := by
  unfold handleFleetEvent
  split
  next => exact .draw (setFleet_steady (.refl t) fun _ => ListCursor.reanchor_le _ _ _ _)
  next =>
    split
    next hosts _ _ hstate =>
      have hshown : ∀ states source hosts, t.app.fleet.state.hosts = hosts → Steady text t
          ((t.setFleet { t.app.fleet with state := .available hosts states source }).draw) := by
        rintro states source hosts rfl
        exact .draw (setFleet_steady (.refl t) id)
      have hhosts : t.app.fleet.state.hosts = hosts := by rw [hstate]; rfl
      split
      next =>
        split
        next => exact hshown _ _ _ hhosts
        next =>
          split
          next => exact (hshown _ _ _ hhosts).trans (pushToast_steady _ _)
          next => exact hshown _ _ _ hhosts
      next => exact hshown _ _ _ hhosts
    next => exact .refl t
  next => exact .draw (.edit (.refl t) rfl)
  next => exact .refl t

theorem handleLogsEvent_steady (event : Event) : Steady text t (t.handleLogsEvent text event) := by
  unfold handleLogsEvent
  split
  next => exact setLogs_steady _
  next => exact setLogs_steady _
  next => exact .refl t

theorem handleDockerActionResult_steady (result : DockerActionResult) :
    Steady text t (t.handleDockerActionResult m result) := by
  unfold handleDockerActionResult
  dsimp only
  split <;> exact .trans (.edit (.refl t) rfl) (pushToast_steady _ _)

theorem handleFleetActionResult_steady (result : FleetActionResult) :
    Steady text t (t.handleFleetActionResult m result) := by
  unfold handleFleetActionResult
  dsimp only
  split <;> exact .trans (.edit (.refl t) rfl) (pushToast_steady _ _)

theorem feedPane_steady {idx : Nat} {bytes : List UInt8} (h : t.feedPane idx bytes = some u) :
    Steady text t u := by
  have hfed : Steady text t (t.fedPane idx bytes) := by
    refine .edit (.refl t) ?_
    have hscreen : App.screen { t.app with
        paneStack := t.app.paneStack.modify idx (·.process bytes) } = { t.app.screen with
          panes := (t.app.paneStack.modify idx (·.process bytes)).map (·.parser.dims) } := rfl
    rw [hscreen, map_fedPane (fun _ => rfl)]
    rfl
  rcases feedPane_cases h with rfl | rfl
  · exact hfed.draw
  · exact hfed

theorem handlePaneExit_steady {idx : Nat} {exitCode : Option Int}
    (h : t.handlePaneExit m idx exitCode = some u) : Steady text t u := by
  obtain ⟨-, ⟨-, rfl⟩ | ⟨-, detail, rfl⟩⟩ := handlePaneExit_cases h
  · exact .emit (dropPane_steady idx) nofun
  · exact .draw (.trans (.edit (dropPane_steady idx) rfl) (pushToast_steady _ _))

theorem handlePaneEvent_steady {idx : Nat} {event : Event}
    (h : t.handlePaneEvent m idx event = some u) : Steady text t u := by
  rcases handlePaneEvent_cases h with rfl | ⟨bytes, h⟩ | ⟨exitCode, h⟩
  · exact .refl t
  · exact feedPane_steady h
  · exact handlePaneExit_steady h

theorem focusPty_steady : Steady text t t.focusPty := by
  unfold focusPty
  split
  next => exact .emit (.edit (.refl t) rfl) nofun
  next => exact .refl t

theorem handlePaneOpened_steady (info : PaneInfo) :
    Steady text t (t.handlePaneOpened info) := by
  unfold handlePaneOpened
  split
  next => exact .refl t
  next pending others _ =>
    dsimp only
    refine .draw (.emit (.emit (.trans ?_ focusPty_steady) nofun) fun dims hdims => ?_)
    · refine ⟨rfl, rfl, fun p hp => ?_, fun _ ha _ _ => .inl ha,
        fun hr => ⟨hr.docker, hr.ports, hr.processes, hr.fleet⟩⟩
      rcases List.mem_append.mp hp with hp | hp
      · exact .inr ⟨p, hp, rfl⟩
      · rw [List.mem_singleton.mp hp]
        exact .inl rfl
    · cases hdims
      unfold focusPty
      split <;> rfl

theorem handleError_steady (info : ErrorInfo) : Steady text t (t.handleError m info) := by
  unfold handleError
  split
  next => exact .trans (.edit (.refl t) rfl) (pushToast_steady _ _)
  next => exact pushToast_steady _ _

theorem handleEventFrame_steady {id : Nat} {event : Event}
    (h : t.handleEventFrame text m id event = some u) : Steady text t u := by
  unfold handleEventFrame at h
  split at h
  next => exact handlePaneEvent_steady h
  all_goals
    cases Option.some.inj h
    first
    | exact .refl t
    | exact handleDockerEvent_steady event
    | exact handlePortsEvent_steady event
    | exact handleProcessesEvent_steady event
    | exact handleLogsEvent_steady event
    | exact handleFleetEvent_steady event

theorem handleDaemonEnvelope_steady {env : Envelope}
    (h : t.handleDaemonEnvelope text m env = some u) : Steady text t u := by
  unfold handleDaemonEnvelope at h
  split at h
  next => exact handleEventFrame_steady h
  next => cases Option.some.inj h; exact handlePaneOpened_steady _
  next => cases Option.some.inj h; exact handleError_steady _
  next => cases Option.some.inj h; exact handleDockerActionResult_steady _
  next => cases Option.some.inj h; exact handleFleetActionResult_steady _
  next => cases Option.some.inj h; exact .refl t

end Answers

end Turn

/-- The sizes asked for and given to panes are those of the pty tile. -/
structure Sized (t : Turn) : Prop where
  requests : ∀ action ∈ t.actions, ∀ dims ∈ action.dims, dims = ptyContentDims t.app.view.layout
  panes : ∀ p ∈ t.app.paneStack, p.parser.dims = ptyContentDims t.app.view.layout

theorem Steady.sized {text : TextOps} {a : App} {t : Turn} (h : Steady text ⟨a, []⟩ t)
    (ha : ∀ p ∈ a.paneStack, p.parser.dims = ptyContentDims a.view.layout) : Sized t where
  requests action hact dims hdims := by
    rcases h.requests action hact dims hdims with hmem | hdims'
    · cases hmem
    · rw [h.layout]
      exact hdims'
  panes p hp := by
    rw [h.layout]
    rcases h.panes p hp with hdims | ⟨q, hq, hdims⟩
    · exact hdims
    · exact hdims.trans (ha q hq)

/-- What holds of the screen at any time. -/
structure App.OnScreen (text : TextOps) (a : App) : Prop where
  layout : TileLayout.defaultFor (.new 0 0 a.terminalSize.2 a.terminalSize.1) = some a.view.layout
  panes : ∀ p ∈ a.paneStack, p.parser.dims = ptyContentDims a.view.layout
  inRange : a.InRange text

theorem Steady.onScreen {text : TextOps} {a : App} {t : Turn} (h : Steady text ⟨a, []⟩ t)
    (ha : a.OnScreen text) : t.app.OnScreen text ∧ Sized t := by
  have hsized : Sized t := h.sized ha.panes
  refine ⟨⟨?_, hsized.panes, h.inRange ha.inRange⟩, hsized⟩
  rw [h.size, h.layout]
  exact ha.layout

theorem Turn.handleResize_onScreen {text : TextOps} {t u : Turn} {rows cols : Nat}
    (h : t.handleResize rows cols = some u) (ht : t.app.OnScreen text) (hnone : t.actions = []) :
    u.app.OnScreen text ∧ Sized u := by
  obtain ⟨layout, hlayout, rfl⟩ := Option.map_eq_some_iff.mp h
  have hresized : ∀ v : Turn, v.app.view.layout = layout → v.app.terminalSize = (rows, cols) →
      v.actions = [] → v.app.InRange text →
      (v.resizePanes layout).draw.app.OnScreen text ∧ Sized (v.resizePanes layout).draw := by
    intro v hview hsize hactions hrange
    have happ : (v.resizePanes layout).draw.app =
        { v.app with
          paneStack := v.app.paneStack.map
            (.setSize (ptyContentDims layout).1 (ptyContentDims layout).2) } := resizePanes_app
    have hpanes : ∀ p ∈ (v.resizePanes layout).draw.app.paneStack,
        p.parser.dims = ptyContentDims (v.resizePanes layout).draw.app.view.layout := by
      rw [happ, hview]
      intro p hp
      obtain ⟨q, -, rfl⟩ := List.mem_map.mp hp
      rfl
    have hsent : ∀ (panes : List PaneEntry) (w : Turn),
        (∀ action ∈ w.actions, ∀ dims ∈ action.dims, dims = ptyContentDims layout) →
        ∀ action ∈ (panes.foldl (fun w p => w.send (.resizePane p.paneId (ptyContentDims layout).1
          (ptyContentDims layout).2)) w).actions, ∀ dims ∈ action.dims, dims = ptyContentDims layout := by
      intro panes
      induction panes with
      | nil => exact fun _ hw => hw
      | cons p panes ih =>
        refine fun w hw => ih _ fun action ha dims hdims => ?_
        rcases List.mem_append.mp ha with ha | ha
        · exact hw action ha dims hdims
        · rw [List.mem_singleton.mp ha] at hdims
          cases hdims
          rfl
    refine ⟨⟨?_, hpanes, ?_⟩, fun action ha dims hdims => ?_, hpanes⟩
    · rw [happ, hview, hsize]
      exact hlayout
    · rw [happ]
      exact ⟨hrange.docker, hrange.ports, hrange.processes, hrange.fleet⟩
    · rw [happ, hview]
      rcases List.mem_append.mp ha with ha | ha
      · refine hsent _ _ (fun action ha => ?_) action ha dims hdims
        have hempty : action ∈ v.actions := ha
        rw [hactions] at hempty
        cases hempty
      · rw [List.mem_singleton.mp ha] at hdims
        cases hdims
  exact hresized _ rfl rfl hnone
    ⟨ht.inRange.docker, ht.inRange.ports, ht.inRange.processes, ht.inRange.fleet⟩

theorem App.handleEvent_onScreen {text : TextOps} {m : Moment} {a : App} {event : AppEvent} {t : Turn}
    (h : a.handleEvent text m event = some t) (ha : a.OnScreen text) :
    t.app.OnScreen text ∧ Sized t := by
  cases event with
  | stdinChunk bytes =>
    refine Steady.onScreen (.trans ?_ (Turn.handleInputs_steady h)) ha
    exact .edit (f := ({ · with inputFilter := _ })) (.refl _) rfl
  | daemonEnvelope env => exact (Turn.handleDaemonEnvelope_steady h).onScreen ha
  | resize rows cols => exact Turn.handleResize_onScreen h ha rfl
  | tick =>
    cases Option.some.inj h
    exact Steady.onScreen (.draw Turn.sweepExpired_steady) ha
  | pendingActionTimeout id =>
    cases Option.some.inj h
    exact (Turn.expirePendingAction_steady id).onScreen ha
  | mouseClick x y => exact (Turn.handleMouseClick_steady h).onScreen ha
  | mouseHover x y =>
    cases Option.some.inj h
    exact (Turn.handleMouseHover_steady x y).onScreen ha

theorem App.new_onScreen {text : TextOps} {a : App} {pane : PaneId} {shell : String} {rows cols : Nat}
    (h : App.new pane shell rows cols = some a) : a.OnScreen text := by
  obtain ⟨layout, hlayout, h⟩ := Option.bind_eq_some_iff.mp h
  cases Option.some.inj h
  refine ⟨hlayout, fun p hp => ?_, Nat.zero_le _, Nat.zero_le _, Nat.zero_le _, Nat.zero_le _⟩
  cases List.mem_singleton.mp hp
  rfl

theorem onScreen_of_run {text : TextOps} {tr : List AppAction} {a : App}
    (h : Run (console text) Free tr a) : a.OnScreen text := by
  refine h.invariant (I := fun _ a => a.OnScreen text) ?_ ?_
  · rintro a ⟨pane, shell, rows, cols, ha⟩
    exact App.new_onScreen ha
  · intro tr a l a' out _ ha _ hstep
    obtain ⟨t, ht, heq⟩ := Option.map_eq_some_iff.mp hstep
    cases heq
    exact (App.handleEvent_onScreen ht ha).1

end Tepegoz
