import Mathlib.Logic.Relation
import Tepegoz.Tui.Moves
import Tepegoz.HandleCommand

namespace Tepegoz

open Transition Relation

/-- What the app asked the daemon for and what it was told of the hosts, without what it shows. -/
structure Ledger where
  panes : List (PaneId × Nat)
  pendingOpens : List PendingOpen
  dockerSub : Nat
  dockerTarget : ScopeTarget
  logs : Option (Nat × String)
  portsSub : Nat
  portsTarget : ScopeTarget
  processesSub : Nat
  processesTarget : ScopeTarget
  fleetSub : Nat
  nextSubId : Nat
  pendingActions : IdMap PendingAction
  toasts : List Toast
  fleet : FleetScopeState
  hostCapabilities : HostMap (List String)
  picker : Option (HostPickerTargetTile × String)

def DockerView.logsOf : DockerView → Option (Nat × String)
  | .logs view => some (view.subId, view.containerId)
  | .list => none

def App.ledger (a : App) : Ledger where
  panes := a.paneStack.map (·.ids)
  pendingOpens := a.pendingOpens
  dockerSub := a.docker.subId
  dockerTarget := a.docker.target
  logs := a.docker.view.logsOf
  portsSub := a.ports.portsSubId
  portsTarget := a.ports.portsTarget
  processesSub := a.ports.processesSubId
  processesTarget := a.ports.processesTarget
  fleetSub := a.fleet.subId
  nextSubId := a.nextSubId
  pendingActions := a.pendingActions
  toasts := a.toasts
  fleet := a.fleet.state
  hostCapabilities := a.hostCapabilities
  picker := a.hostPicker.map fun p => (p.targetTile, p.requiredCapability)

/-- The host can be picked: it is connected and its agent has the capability, as far as the app knows. -/
def Ledger.Usable (l : Ledger) (capability : String) : ScopeTarget → Prop
  | .localTarget => True
  | .remote hostAlias => ∃ hosts states source capabilities, l.fleet = .available hosts states source ∧
      hostAlias ∈ hosts.map (·.hostAlias) ∧ states.lookup hostAlias = some .connected ∧
        l.hostCapabilities.lookup hostAlias = some capabilities ∧ capability ∈ capabilities

/-- The id of an action that the client asks for. -/
def Payload.request : Payload → Option Nat
  | .dockerAction req => some req.requestId
  | .fleetAction req => some req.requestId
  | _ => none

/-- Commands that neither use an id nor ask for a pane. -/
def Payload.plain : Payload → Bool
  | .openPane _ => false
  | payload => !payload.managesId && payload.request.isNone

def AppAction.plain : AppAction → Bool
  | .sendEnvelope env => env.payload.plain
  | _ => true

/-- The event of a subscription that came. -/
def AppEvent.frame : AppEvent → Option (Nat × Event)
  | .daemonEnvelope ⟨_, .event id event⟩ => some (id, event)
  | _ => none

/-- The action whose answer came. -/
def AppEvent.answered : AppEvent → Option Nat
  | .daemonEnvelope ⟨_, .dockerActionResult result⟩ => some result.requestId
  | .daemonEnvelope ⟨_, .fleetActionResult result⟩ => some result.requestId
  | _ => none

/-- The event ends the wait for a pending action. -/
def AppEvent.timesOut (now id : Nat) (pending : PendingAction) : AppEvent → Prop
  | .pendingActionTimeout id' => id' = id
  | .tick => pending.deadline ≤ now
  | _ => False

theorem Ledger.usable_congr {a b : App} {capability : String} {target : ScopeTarget}
    (hfleet : a.fleet = b.fleet) (hcaps : a.hostCapabilities = b.hostCapabilities) :
    a.ledger.Usable capability target ↔ b.ledger.Usable capability target := by
  cases target with
  | localTarget => exact Iff.rfl
  | remote hostAlias => simp only [Ledger.Usable, App.ledger, hfleet, hcaps]

theorem App.recipient_entry {a : App} {id idx : Nat} (h : a.recipient id = some (.pane idx)) :
    ∃ entry, a.paneStack[idx]? = some entry ∧ entry.subId = id := by
  unfold recipient at h
  split at h
  next hidx =>
    cases Option.some.inj h
    obtain ⟨hlt, hsub, -⟩ := List.findIdx?_eq_some_iff_getElem.mp hidx
    exact ⟨_, List.getElem?_eq_getElem hlt, of_decide_eq_true hsub⟩
  next =>
    repeat' split at h
    all_goals cases h

namespace LogsView

variable (text : TextOps) (v : LogsView)

theorem setPending_containerId (stream : LogStream) (bytes : List UInt8) :
    (v.setPending stream bytes).containerId = v.containerId := by
  cases stream <;> rfl

theorem ingest_containerId (stream : LogStream) (data : List UInt8) :
    (v.ingest text stream data).containerId = v.containerId := by
  have hlines : ∀ (lines : List (List UInt8)) (v : LogsView),
      (lines.foldl (fun v line => v.pushLine ⟨stream, text.fromUtf8Lossy line⟩) v).containerId =
        v.containerId := by
    intro lines
    induction lines with
    | nil => exact fun _ => rfl
    | cons line lines ih => exact fun v => ih _
  exact (hlines _ _).trans (v.setPending_containerId stream _)

theorem flushPending_containerId (stream : LogStream) :
    (v.flushPending text stream).containerId = v.containerId := by
  have hflushed := v.setPending_containerId stream []
  unfold flushPending
  dsimp only
  split
  next => exact hflushed
  next => exact hflushed

theorem endStream_containerId (reason : String) :
    (v.endStream text reason).containerId = v.containerId :=
  (flushPending_containerId text _ .stderr).trans (flushPending_containerId text v .stdout)

end LogsView

namespace Turn

/-- A pane was opened: the oldest request is answered, and the pane is attached. -/
def addPane (t : Turn) (info : PaneInfo) (pending : PendingOpen) (others : List PendingOpen) : Turn :=
  (t.edit fun a => { a with
    pendingOpens := others
    paneStack := a.paneStack ++ [⟨info.id, pending.subId, paneLabelFromShell info.shell,
      newParser t.app.view.layout⟩]
    activePane := a.paneStack.length }).focusPty.send (.attachPane info.id pending.subId)

/-- One piece of a handler's work. -/
inductive Work (m : Moment) (event : AppEvent) (t : Turn) : Turn → Prop
  | emit {action : AppAction} : action.plain = true → Work m event t (t.emit action)
  | edit {f : App → App} : (f t.app).ledger = t.app.ledger → Work m event t (t.edit f)
  | toast (kind : ToastKind) (message : String) : Work m event t (t.pushToast m kind message)
  | toastsExpired : Work m event t (t.expireToasts m)
  | answered {id : Nat} : event.answered = some id → Work m event t
      (t.edit fun a => { a with pendingActions := a.pendingActions.erase id })
  | timedOut {id : Nat} {pending : PendingAction} : t.app.pendingActions.lookup id = some pending →
      event.timesOut m.now id pending → Work m event t
        (t.edit fun a => { a with pendingActions := a.pendingActions.erase id })
  | dockerAction (containerId description : String) (kind : DockerActionKind) : Work m event t
      ((t.registerAction m description).send (.dockerAction
        ⟨t.app.nextSubId, containerId, kind, t.app.docker.target⟩))
  | fleetAction (hostAlias description : String) (kind : FleetActionKind) : Work m event t
      ((t.registerAction m description).send (.fleetAction ⟨t.app.nextSubId, hostAlias, kind⟩))
  | logsLeft {logs : LogsView} : t.app.docker.view = .logs logs → Work m event t
      ((t.send (.unsubscribe logs.subId)).setDocker { t.app.docker with view := .list })
  | logsEntered (containerId name : String) : t.app.docker.view = .list → Work m event t
      ((t.allocSubId.setDocker { t.app.docker with
        view := .logs (.new containerId name t.app.nextSubId) }).send (.subscribe
          (.dockerLogs t.app.nextSubId containerId true 0 t.app.docker.target)))
  | retargetedDocker {newTarget : ScopeTarget} {capability : String} :
      t.app.docker.view = .list → t.app.ledger.picker = some (.docker, capability) →
      t.app.ledger.Usable capability newTarget → Work m event t
        (((t.send (.unsubscribe t.app.docker.subId)).setDocker { t.app.docker with
          state := .connecting, selection := 0, pendingConfirm := none, target := newTarget }).send
            (.subscribe (.docker t.app.docker.subId newTarget)))
  | retargetedPorts {newTarget : ScopeTarget} {capability : String} :
      t.app.ledger.picker = some (.ports, capability) →
      t.app.ledger.Usable capability newTarget → Work m event t
        (((t.send (.unsubscribe t.app.ports.portsSubId)).setPorts { t.app.ports with
          ports := { t.app.ports.ports with state := .connecting, selection := 0 }
          portsTarget := newTarget }).send (.subscribe (.ports t.app.ports.portsSubId newTarget)))
  | retargetedProcesses {newTarget : ScopeTarget} {capability : String} :
      t.app.ledger.picker = some (.processes, capability) →
      t.app.ledger.Usable capability newTarget → Work m event t
        (((t.send (.unsubscribe t.app.ports.processesSubId)).setPorts { t.app.ports with
          processes := { t.app.ports.processes with state := .connecting, selection := 0 }
          processesTarget := newTarget }).send
            (.subscribe (.processes t.app.ports.processesSubId newTarget)))
  | paneClosed {removed : PaneEntry} : t.app.activeEntry = some removed →
      Work m event t (t.dropActive removed)
  | paneExited {idx : Nat} {entry : PaneEntry} {exitCode : Option Int} :
      t.app.paneStack[idx]? = some entry → event.frame = some (entry.subId, .paneExit exitCode) →
      Work m event t (t.dropPane idx)
  | openAsked (hostAlias : Option String) (spec : OpenPaneSpec) :
      Work m event t ((t.pushPendingOpen hostAlias).send (.openPane spec))
  | paneOpened (info : PaneInfo) {pending : PendingOpen} {others : List PendingOpen} :
      t.app.pendingOpens = pending :: others → Work m event t (t.addPane info pending others)
  | openFailed {pending : PendingOpen} {others : List PendingOpen} :
      t.app.pendingOpens = pending :: others →
      Work m event t (t.edit ({ · with pendingOpens := others }))
  | hostsListed {f : FleetScope} {hosts : List HostEntry} {source : String} :
      event.frame = some (t.app.fleet.subId, .hostList hosts source) → f.subId = t.app.fleet.subId →
      f.state = .available hosts (seededStates t.app.fleet hosts) source →
      Work m event t (t.setFleet f)
  | hostChanged {f : FleetScope} {hosts : List HostEntry} {states : HostMap HostState}
      {source hostAlias : String} {state : HostState} {reason : Option String} :
      event.frame = some (t.app.fleet.subId, .hostStateChanged hostAlias state reason) →
      t.app.fleet.state = .available hosts states source → f.subId = t.app.fleet.subId →
      f.state = .available hosts (states.insert hostAlias state) source →
      Work m event t (t.setFleet f)
  | capable {hostAlias : String} {capabilities : List String} :
      event.frame = some (t.app.fleet.subId, .agentCapabilities hostAlias capabilities) →
      Work m event t (t.edit fun a => { a with
        hostCapabilities := a.hostCapabilities.insert hostAlias capabilities })
  | pickerOpened {kind : ScopeKind} {targetTile : HostPickerTargetTile} {capability : String}
      {target : ScopeTarget} (selected : Nat) :
      t.app.pickerTarget kind = some (targetTile, capability, target) →
      Work m event t (t.edit ({ · with hostPicker := some ⟨targetTile, capability, selected⟩ }))
  | pickerClosed : Work m event t (t.edit ({ · with hostPicker := none }))

/-- All of a handler's work. -/
abbrev Script (m : Moment) (event : AppEvent) : Turn → Turn → Prop := ReflTransGen (Work m event)

section Script

variable {text : TextOps} {m : Moment} {event : AppEvent} {t u v : Turn}

theorem Script.emit {action : AppAction} (h : Script m event t u) (ha : action.plain = true) :
    Script m event t (u.emit action) := h.tail (.emit ha)

theorem Script.draw (h : Script m event t u) : Script m event t u.draw := h.emit rfl

theorem Script.edit {f : App → App} (h : Script m event t u) (hf : (f u.app).ledger = u.app.ledger) :
    Script m event t (u.edit f) := h.tail (.edit hf)

theorem Script.foldl {β : Type} {f : Turn → β → Turn} (h : ∀ t x, Script m event t (f t x)) (t : Turn)
    (xs : List β) : Script m event t (xs.foldl f t) := by
  induction xs generalizing t with
  | nil => exact .refl
  | cons x xs ih => exact (h t x).trans (ih _)

section Tiles

theorem pushToast_script (kind : ToastKind) (message : String) :
    Script m event t (t.pushToast m kind message) := .single (.toast kind message)

theorem expirePendingAction_script {id : Nat}
    (hdue : ∀ pending, t.app.pendingActions.lookup id = some pending → event.timesOut m.now id pending) :
    Script m event t (t.expirePendingAction m id) := by
  unfold expirePendingAction
  split
  next pending hpending =>
    exact ReflTransGen.tail (.single (.timedOut hpending (hdue pending hpending))) (.toast _ _)
  next => exact .refl

theorem expireConfirm_script : Script m event t (t.expireConfirm m) := by
  unfold expireConfirm setDocker
  exact .edit .refl rfl

theorem moveFocusTo_script (next : TileId) : Script m event t (t.moveFocusTo next) := by
  unfold moveFocusTo
  split
  next => exact .refl
  next => exact .draw (.emit (.edit (.edit .refl rfl) rfl) rfl)

theorem handleFocusDirection_script (dir : FocusDir) :
    Script m event t (t.handleFocusDirection dir) := by
  unfold handleFocusDirection
  split
  next next _ => exact moveFocusTo_script next
  next => exact .refl

theorem handleFocusCycle_script (forward : Bool) : Script m event t (t.handleFocusCycle forward) := by
  unfold handleFocusCycle
  split
  next next _ => exact moveFocusTo_script next
  next => exact .refl

theorem handleHelpToggle_script : Script m event t t.handleHelpToggle := .draw (.edit .refl rfl)

theorem openHostPicker_script : Script m event t t.openHostPicker := by
  unfold openHostPicker
  split
  next hpicked =>
    obtain ⟨kind, -, hkind⟩ := Option.bind_eq_some_iff.mp hpicked
    exact .draw (.single (.pickerOpened _ hkind))
  next => exact .refl

theorem dismissHostPicker_script : Script m event t t.dismissHostPicker := by
  unfold dismissHostPicker
  split
  next => exact .draw (.single .pickerClosed)
  next => exact .refl

theorem movePicker_script {picker : HostPickerModal} (hp : t.app.hostPicker = some picker)
    (selected : Nat) : Script m event t (t.movePicker picker selected) := by
  unfold movePicker
  split
  next => exact .refl
  next =>
    refine .draw (.edit .refl ?_)
    simp [App.ledger, hp]

theorem handleMouseHover_script (x y : Nat) : Script m event t (t.handleMouseHover x y) := by
  unfold handleMouseHover
  dsimp only
  split
  next => exact .refl
  next => exact .draw (.edit .refl rfl)

theorem inputToHelp_script (input : InputAction) : Script m event t (t.inputToHelp input) := by
  unfold inputToHelp
  split
  next => exact handleHelpToggle_script
  next => exact .draw (.edit .refl rfl)

theorem leaveLogs_script : Script m event t t.leaveLogs := by
  unfold leaveLogs
  split
  next hview => exact .single (.logsLeft hview)
  next => exact .refl

theorem leaveLogs_list : t.leaveLogs.app.docker.view = .list := by
  unfold leaveLogs
  split
  next => rfl
  next hview => exact hview

/-- Leaving the transcript says nothing about the hosts. -/
theorem leaveLogs_hosts : t.leaveLogs.app.fleet = t.app.fleet ∧
    t.leaveLogs.app.hostCapabilities = t.app.hostCapabilities ∧
      t.leaveLogs.app.hostPicker = t.app.hostPicker := by
  unfold leaveLogs
  split <;> exact ⟨rfl, rfl, rfl⟩

variable {newTarget : ScopeTarget} {capability : String}

theorem retargetDocker_script (hp : t.app.ledger.picker = some (.docker, capability))
    (husable : t.app.ledger.Usable capability newTarget) :
    Script m event t (t.retargetDocker newTarget) := by
  unfold retargetDocker
  split
  next => exact .draw .refl
  next =>
    obtain ⟨hfleet, hcaps, hpicker⟩ := leaveLogs_hosts (t := t)
    have hpicker' : t.leaveLogs.app.ledger.picker = some (.docker, capability) := by
      rw [← hp]
      simp only [App.ledger, hpicker]
    have husable' : t.leaveLogs.app.ledger.Usable capability newTarget :=
      (Ledger.usable_congr hfleet hcaps).mpr husable
    exact .draw (leaveLogs_script.tail (.retargetedDocker leaveLogs_list hpicker' husable'))

theorem retarget_script {picker : HostPickerModal} (hp : t.app.hostPicker = some picker)
    (husable : t.app.ledger.Usable picker.requiredCapability newTarget) :
    Script m event t (t.retarget newTarget picker.targetTile) := by
  obtain ⟨targetTile, capability, selected⟩ := picker
  have hledger : t.app.ledger.picker = some (targetTile, capability) := by simp [App.ledger, hp]
  cases targetTile with
  | docker => exact retargetDocker_script hledger husable
  | ports =>
    unfold retarget retargetPorts
    dsimp only
    split
    next => exact .draw .refl
    next => exact .draw (.single (.retargetedPorts hledger husable))
  | processes =>
    unfold retarget retargetProcesses
    dsimp only
    split
    next => exact .draw .refl
    next => exact .draw (.single (.retargetedProcesses hledger husable))

/-- The picker might as well be closed after the tile was retargeted. -/
theorem retarget_closed (t : Turn) (newTarget : ScopeTarget) (tile : HostPickerTargetTile) :
    (t.edit ({ · with hostPicker := none })).retarget newTarget tile =
      (t.retarget newTarget tile).edit ({ · with hostPicker := none }) := by
  cases tile with
  | docker =>
    by_cases htarget : t.app.docker.target = newTarget
    · simp only [retarget, retargetDocker, app_edit, htarget, if_true]
      rfl
    · simp only [retarget, retargetDocker, leaveLogs, app_edit, htarget, if_false]
      cases t.app.docker.view <;> rfl
  | ports =>
    by_cases htarget : t.app.ports.portsTarget = newTarget
    · simp only [retarget, retargetPorts, app_edit, htarget, if_true]
      rfl
    · simp only [retarget, retargetPorts, app_edit, htarget, if_false]
      rfl
  | processes =>
    by_cases htarget : t.app.ports.processesTarget = newTarget
    · simp only [retarget, retargetProcesses, app_edit, htarget, if_true]
      rfl
    · simp only [retarget, retargetProcesses, app_edit, htarget, if_false]
      rfl

theorem hostPickerRows_usable {a : App} {capability hostAlias : String} {state : HostState}
    {hasCapability : Bool} {i : Nat}
    (h : (a.hostPickerRows capability)[i]? = some (.remote hostAlias state hasCapability true)) :
    a.ledger.Usable capability (.remote hostAlias) := by
  have hm := List.mem_of_getElem? h
  unfold App.hostPickerRows at hm
  split at hm
  next hosts states source hfleet =>
    rcases List.mem_cons.mp hm with heq | hm
    · cases heq
    · obtain ⟨host, hhost, hrow⟩ := List.mem_map.mp hm
      obtain ⟨rfl, -, -, husable⟩ := HostPickerRow.remote.inj hrow
      obtain ⟨hstate, hcap⟩ := of_decide_eq_true husable
      obtain ⟨capabilities, hcaps, hcap⟩ := Option.any_eq_true _ _ |>.mp hcap
      refine ⟨hosts, states, source, capabilities, hfleet, List.mem_map_of_mem hhost, ?_, hcaps,
        by simpa using hcap⟩
      cases hlookup : states.lookup host.hostAlias with
      | none => simp [hlookup] at hstate
      | some state =>
        rw [hlookup] at hstate
        exact congrArg some hstate
  next => cases List.mem_singleton.mp hm

theorem commitHostPicker_script {picker : HostPickerModal} (hp : t.app.hostPicker = some picker) :
    Script m event t (t.commitHostPicker picker) := by
  have hlocal : t.app.ledger.Usable picker.requiredCapability .localTarget := trivial
  unfold commitHostPicker
  dsimp only
  split
  next => exact .draw (.single .pickerClosed)
  next =>
    rw [retarget_closed]
    exact (retarget_script hp hlocal).tail .pickerClosed
  next hrow =>
    rw [retarget_closed]
    exact (retarget_script hp (hostPickerRows_usable hrow)).tail .pickerClosed
  next => exact .refl

theorem handleHostPickerKey_script (k : ScopeKey) :
    Script m event t (t.handleHostPickerKey k) := by
  unfold handleHostPickerKey
  split
  next => exact .refl
  next picker hp =>
    dsimp only
    split
    next => exact movePicker_script hp _
    next => split; exacts [movePicker_script hp _, .refl]
    next => exact movePicker_script hp _
    next => exact movePicker_script hp _
    next => split; exacts [movePicker_script hp _, .refl]
    next => split; exacts [movePicker_script hp _, .refl]
    next => exact commitHostPicker_script hp
    next => exact dismissHostPicker_script
    next => exact .refl

theorem hostPickerKeys_script (ks : List ScopeKey) : Script m event t (t.hostPickerKeys ks) := by
  induction ks generalizing t with
  | nil => exact .refl
  | cons k ks ih =>
    unfold hostPickerKeys
    dsimp only
    split
    next => exact handleHostPickerKey_script k
    next => exact (handleHostPickerKey_script k).trans ih

theorem parseKeys_script (bytes : List UInt8) : Script m event t (t.parseKeys bytes).1 := by
  have hledger : ∀ state, ({ t.app with scopeKeyParser := state } : App).ledger = t.app.ledger :=
    fun _ => rfl
  exact .edit (f := ({ · with scopeKeyParser := _ })) .refl (hledger _)

theorem inputToPicker_script (input : InputAction) : Script m event t (t.inputToPicker input) := by
  unfold inputToPicker
  split
  next => exact dismissHostPicker_script.trans handleHelpToggle_script
  next bytes => exact (parseKeys_script bytes).trans (hostPickerKeys_script _)
  next => exact dismissHostPicker_script

end Tiles

section Lists

theorem dispatchDockerAction_script (containerId displayName : String) (kind : DockerActionKind) :
    Script m event t (t.dispatchDockerAction m containerId displayName kind) :=
  .draw (.single (.dockerAction _ _ _))

theorem issueSelectedDockerAction_script (kind : DockerActionKind) :
    Script m event t (t.issueSelectedDockerAction text m kind) := by
  unfold issueSelectedDockerAction
  split
  next => exact dispatchDockerAction_script _ _ _
  next => exact .refl

theorem beginConfirm_script (kind : DockerActionKind) :
    Script m event t (t.beginConfirm text m kind) := by
  unfold beginConfirm
  split
  next => exact .draw (.edit .refl rfl)
  next => exact .refl

theorem tryEnterLogsView_script (hview : t.app.docker.view = .list) :
    Script m event t (t.tryEnterLogsView text) := by
  unfold tryEnterLogsView
  split
  next => exact .draw (.single (.logsEntered _ _ hview))
  next => exact .refl

/-- Scrolling, output and the end of the stream keep the subscription. -/
theorem setLogs_script {logs logs' : LogsView} (hview : t.app.docker.view = .logs logs)
    (hid : logs'.subId = logs.subId) (hcontainer : logs'.containerId = logs.containerId) :
    Script m event t (t.setLogs logs') := by
  refine .draw (.edit .refl ?_)
  have hlogs : t.app.ledger.logs = some (logs.subId, logs.containerId) := by
    show t.app.docker.view.logsOf = _
    rw [hview]
    rfl
  show ({ t.app.ledger with logs := some (logs'.subId, logs'.containerId) } : Ledger) = t.app.ledger
  rw [hid, hcontainer, ← hlogs]

theorem handleLogsKey_script {logs : LogsView} (hview : t.app.docker.view = .logs logs)
    (k : ScopeKey) : Script m event t (t.handleLogsKey logs k) := by
  unfold handleLogsKey
  repeat' split
  · exact leaveLogs_script.draw
  · exact setLogs_script hview rfl rfl
  · exact setLogs_script hview rfl rfl
  · exact setLogs_script hview rfl rfl
  · exact setLogs_script hview rfl rfl
  · exact setLogs_script hview rfl rfl
  · exact setLogs_script hview rfl rfl
  · exact leaveLogs_script.draw
  · exact .refl
  · exact .refl

theorem confirmKey_script (pending : PendingConfirm) (k : ScopeKey) :
    Script m event t (t.confirmKey m pending k) := by
  have hcleared : Script m event t (t.setDocker { t.app.docker with pendingConfirm := none }) :=
    .edit .refl rfl
  unfold confirmKey
  dsimp only
  split
  next => exact hcleared.trans (dispatchDockerAction_script _ _ _)
  next =>
    split
    next => exact .refl
    next => exact hcleared.draw

theorem dockerCommand_script (hview : t.app.docker.view = .list) (k : ScopeKey) :
    Script m event t (t.dockerCommand text m k) := by
  unfold dockerCommand
  repeat' split
  · exact issueSelectedDockerAction_script _
  · exact issueSelectedDockerAction_script _
  · exact beginConfirm_script _
  · exact beginConfirm_script _
  · exact tryEnterLogsView_script hview
  · exact .refl

theorem handleScopeKey_script (k : ScopeKey) : Script m event t (t.handleScopeKey text m k) := by
  unfold handleScopeKey
  split
  next hview => exact handleLogsKey_script hview k
  next => exact confirmKey_script _ k
  next hview _ =>
    split
    next d hd =>
      obtain ⟨c, -, rfl⟩ := Option.map_eq_some_iff.mp hd
      exact .draw (.edit .refl rfl)
    next =>
      split
      next => exact .refl
      next => exact dockerCommand_script hview k

theorem togglePortsView_script : Script m event t t.togglePortsView := .draw (.edit .refl rfl)

theorem handlePortsListKey_script (k : ScopeKey) :
    Script m event t (t.handlePortsListKey text k) := by
  unfold handlePortsListKey
  split
  next => exact .draw (.edit .refl rfl)
  next => exact .refl

theorem handleProcessesListKey_script (k : ScopeKey) :
    Script m event t (t.handleProcessesListKey text k) := by
  unfold handleProcessesListKey
  split
  next => exact .draw (.edit .refl rfl)
  next => exact .refl

theorem handlePortsKey_script (k : ScopeKey) : Script m event t (t.handlePortsKey text k) := by
  unfold handlePortsKey
  repeat' split
  · exact togglePortsView_script
  · exact handlePortsListKey_script k
  · exact togglePortsView_script
  · exact handleProcessesListKey_script k

theorem dispatchOpenRemotePane_script : Script m event t (t.dispatchOpenRemotePane text m) := by
  unfold dispatchOpenRemotePane
  split
  next => exact ReflTransGen.tail (.single (.openAsked _ _)) (.toast _ _)
  next => exact .refl

theorem dispatchFleetReconnect_script : Script m event t (t.dispatchFleetReconnect text m) := by
  unfold dispatchFleetReconnect
  split
  next => exact .draw (.single (.fleetAction _ _ _))
  next => exact .refl

theorem handleFleetKey_script (k : ScopeKey) : Script m event t (t.handleFleetKey text m k) := by
  unfold handleFleetKey
  repeat' split
  · next f hf =>
    obtain ⟨c, -, rfl⟩ := Option.map_eq_some_iff.mp hf
    exact .draw (.edit .refl rfl)
  · exact .refl
  · exact dispatchFleetReconnect_script
  · exact dispatchOpenRemotePane_script
  · exact .refl

theorem scopeKey_script (kind : ScopeKind) (k : ScopeKey) :
    Script m event t (t.scopeKey text m kind k) := by
  cases kind with
  | docker => exact handleScopeKey_script k
  | ports => exact handlePortsKey_script k
  | fleet => exact handleFleetKey_script k

end Lists

section Mouse

theorem closeActivePane_script (h : t.closeActivePane m = some u) : Script m event t u := by
  rcases closeActivePane_cases h with rfl | ⟨removed, hentry, hclose⟩
  · exact .refl
  have hdropped : Script m event t (t.dropActive removed) := .single (.paneClosed hentry)
  rcases hclose with ⟨-, rfl⟩ | ⟨-, rfl⟩
  · exact .edit (hdropped.tail (.openAsked _ _)) rfl
  · exact .draw (.edit hdropped rfl)

theorem dispatchPtyClick_script {rect : Rect} {x y : Nat}
    (h : t.dispatchPtyClick m rect x y = some u) : Script m event t u := by
  rcases dispatchPtyClick_cases h with rfl | ⟨idx, -, rfl⟩ | h
  · exact .refl
  · exact .draw (.edit .refl rfl)
  · exact closeActivePane_script h

theorem clickRow_script (tileId : TileId) (kind : ScopeKind) (rowIdx : Nat) :
    Script m event t (t.clickRow text m tileId kind rowIdx) := by
  have hselected : Script m event t (t.edit fun a => a.scopeSetSelection kind rowIdx) := by
    refine .edit .refl ?_
    unfold App.scopeSetSelection
    split
    next => rfl
    next => split <;> rfl
    next => rfl
  have hclicked : ∀ u : Turn, Script m event t u →
      Script m event t (u.edit ({ · with lastClick := some (tileId, rowIdx, m.now) })) :=
    fun u hu => .edit hu rfl
  unfold clickRow
  dsimp only
  split
  next =>
    refine ReflTransGen.trans (hclicked _ ?_) dispatchOpenRemotePane_script
    split
    exacts [hselected, hselected.draw]
  next =>
    refine hclicked _ ?_
    split
    exacts [hselected, hselected.draw]

theorem dispatchScopeClick_script (tileId : TileId) (kind : ScopeKind) (rect : Rect) (y : Nat) :
    Script m event t (t.dispatchScopeClick text m tileId kind rect y) := by
  unfold dispatchScopeClick
  repeat' split
  · exact .refl
  · exact openHostPicker_script
  · exact clickRow_script _ _ _
  · exact .refl
  · exact .refl

theorem handleMouseClick_script {x y : Nat} (h : t.handleMouseClick text m x y = some u) :
    Script m event t u := by
  rcases handleMouseClick_cases h with rfl | rfl | rfl | ⟨tile, h⟩
  · exact .draw (.edit .refl rfl)
  · exact dismissHostPicker_script
  · exact .refl
  · have hmoved : Script m event t (t.moveFocusTo tile.id) := moveFocusTo_script tile.id
    rcases h with rfl | h | ⟨kind, rfl⟩
    · exact hmoved
    · exact hmoved.trans (dispatchPtyClick_script h)
    · exact hmoved.trans (dispatchScopeClick_script _ _ _ _)

end Mouse

section Input

theorem sendInput_script {data : List UInt8} (h : t.sendInput data = some u) : Script m event t u := by
  obtain ⟨entry, -, rfl⟩ := Option.map_eq_some_iff.mp h
  exact .emit .refl rfl

theorem handleForwardBytes_script {bytes : List UInt8}
    (h : t.handleForwardBytes text m bytes = some u) : Script m event t u := by
  rcases handleForwardBytes_cases h with h | rfl | ⟨kind, -, rfl⟩
  · exact sendInput_script h
  · exact .refl
  · exact (parseKeys_script bytes).trans (Script.foldl (fun _ k => scopeKey_script kind k) _ _)

theorem handleTab_script {forward : Bool} (h : t.handleTab forward = some u) : Script m event t u := by
  rcases handleTab_cases h with ⟨data, h⟩ | rfl
  · exact sendInput_script h
  · exact handleFocusCycle_script forward

theorem inputToTiles_script {input : InputAction} (h : t.inputToTiles text m input = some u) :
    Script m event t u := by
  cases input with
  | forward bytes => exact handleForwardBytes_script h
  | detach => cases Option.some.inj h; exact .emit .refl rfl
  | focusDirection dir => cases Option.some.inj h; exact handleFocusDirection_script dir
  | focusNext => exact handleTab_script h
  | focusPrev => exact handleTab_script h
  | help => cases Option.some.inj h; exact handleHelpToggle_script
  | openHostPicker => cases Option.some.inj h; exact openHostPicker_script
  | paneClose =>
    rcases inputToTiles_paneClose h with h | rfl
    · exact closeActivePane_script h
    · exact .refl

theorem handleInput_script {input : InputAction} (h : t.handleInput text m input = some u) :
    Script m event t u := by
  rcases handleInput_cases h with rfl | rfl | h
  · exact inputToHelp_script input
  · exact inputToPicker_script input
  · exact inputToTiles_script h

theorem handleInputs_script {inputs : List InputAction}
    (h : t.handleInputs text m inputs = some u) : Script m event t u :=
  handleInputs_rel (fun _ => .refl) (fun _ _ _ => .trans) (fun _ => .emit .refl rfl)
    (fun _ _ _ => handleInput_script) h

end Input

section Answers

theorem expiredActions_due {a : App} {id : Nat} {pending : PendingAction}
    (hm : id ∈ expiredActions m a) (hl : a.pendingActions.lookup id = some pending) :
    pending.deadline ≤ m.now := by
  obtain ⟨entry, hentry, rfl⟩ := List.mem_map.mp ((m.iteration_perm _).mem_iff.mp hm)
  obtain ⟨hentry, hdue⟩ := List.mem_filter.mp hentry
  rw [AList.mem_lookup_iff.mpr hentry] at hl
  cases hl
  exact of_decide_eq_true hdue

theorem expireAll_script {ids : List Nat} (hdue : ∀ id ∈ ids, ∀ pending,
      t.app.pendingActions.lookup id = some pending → pending.deadline ≤ m.now) :
    Script m .tick t (ids.foldl (fun t id => t.expirePendingAction m id) t) := by
  induction ids generalizing t with
  | nil => exact .refl
  | cons id ids ih =>
    have hfirst : Script m .tick t (t.expirePendingAction m id) :=
      expirePendingAction_script (hdue id List.mem_cons_self)
    refine hfirst.trans (ih fun id' hm pending hl => hdue id' (List.mem_cons_of_mem _ hm) pending ?_)
    unfold expirePendingAction at hl
    split at hl
    next => exact (World.lookup_of_erase hl).1
    next => exact hl

theorem sweepExpired_script : Script m .tick t (t.sweepExpired m) := by
  unfold sweepExpired
  refine ReflTransGen.tail (expireConfirm_script.trans (expireAll_script ?_)) .toastsExpired
  exact fun id hm pending hl => expiredActions_due hm hl

theorem handleDockerEvent_script {ev : Event} : Script m event t (t.handleDockerEvent text ev) := by
  unfold handleDockerEvent
  split
  next => exact .draw (.edit .refl rfl)
  next => exact .draw (.edit .refl rfl)
  next => exact .refl

theorem handlePortsEvent_script {ev : Event} : Script m event t (t.handlePortsEvent text ev) := by
  unfold handlePortsEvent
  split
  next => exact .draw (.edit .refl rfl)
  next => exact .draw (.edit .refl rfl)
  next => exact .refl

theorem handleProcessesEvent_script {ev : Event} :
    Script m event t (t.handleProcessesEvent text ev) := by
  unfold handleProcessesEvent
  split
  next => exact .draw (.edit .refl rfl)
  next => exact .draw (.edit .refl rfl)
  next => exact .refl

theorem handleFleetEvent_script {ev : Event} (hframe : event.frame = some (t.app.fleet.subId, ev)) :
    Script m event t (t.handleFleetEvent text m ev) := by
  unfold handleFleetEvent
  split
  next hosts source => exact .draw (.single (.hostsListed hframe rfl rfl))
  next hostAlias state reason =>
    split
    next hosts states source hfleet =>
      have hshown : Script m event t (t.setFleet { t.app.fleet with
          state := .available hosts (states.insert hostAlias state) source }).draw :=
        .draw (.single (.hostChanged hframe hfleet rfl rfl))
      repeat' split
      · exact hshown
      · exact hshown.trans (pushToast_script _ _)
      · exact hshown
      · exact hshown
    next => exact .refl
  next => exact .draw (.single (.capable hframe))
  next => exact .refl

theorem handleLogsEvent_script {ev : Event} : Script m event t (t.handleLogsEvent text ev) := by
  unfold handleLogsEvent
  split
  next hview =>
    exact setLogs_script hview (LogsView.ingest_subId _ _ _ _) (LogsView.ingest_containerId _ _ _ _)
  next hview =>
    exact setLogs_script hview (LogsView.endStream_subId _ _ _) (LogsView.endStream_containerId _ _ _)
  next => exact .refl

theorem handleDockerActionResult_script {result : DockerActionResult}
    (h : event.answered = some result.requestId) :
    Script m event t (t.handleDockerActionResult m result) := by
  unfold handleDockerActionResult
  dsimp only
  split
  next => exact ReflTransGen.tail (.single (.answered h)) (.toast _ _)
  next => exact ReflTransGen.tail (.single (.answered h)) (.toast _ _)

theorem handleFleetActionResult_script {result : FleetActionResult}
    (h : event.answered = some result.requestId) :
    Script m event t (t.handleFleetActionResult m result) := by
  unfold handleFleetActionResult
  dsimp only
  split
  next => exact ReflTransGen.tail (.single (.answered h)) (.toast _ _)
  next => exact ReflTransGen.tail (.single (.answered h)) (.toast _ _)

theorem feedPane_script {idx : Nat} {bytes : List UInt8} (h : t.feedPane idx bytes = some u) :
    Script m event t u := by
  have hfed : Script m event t (t.fedPane idx bytes) := by
    refine .edit .refl ?_
    have hids : (t.app.paneStack.modify idx (·.process bytes)).map (·.ids) =
        t.app.paneStack.map (·.ids) := map_fedPane (fun _ => rfl) _ idx
    simp only [App.ledger, hids]
  rcases feedPane_cases h with rfl | rfl
  · exact hfed.draw
  · exact hfed

theorem handlePaneExit_script {idx : Nat} {entry : PaneEntry} {exitCode : Option Int}
    (hentry : t.app.paneStack[idx]? = some entry)
    (hframe : event.frame = some (entry.subId, .paneExit exitCode))
    (h : t.handlePaneExit m idx exitCode = some u) : Script m event t u := by
  have hdropped : Script m event t (t.dropPane idx) := .single (.paneExited hentry hframe)
  obtain ⟨-, ⟨-, rfl⟩ | ⟨-, detail, rfl⟩⟩ := handlePaneExit_cases h
  · exact hdropped.emit rfl
  · exact .draw (ReflTransGen.tail (Script.edit hdropped rfl) (.toast _ _))

theorem handlePaneEvent_script {idx : Nat} {entry : PaneEntry} {ev : Event}
    (hentry : t.app.paneStack[idx]? = some entry) (hframe : event.frame = some (entry.subId, ev))
    (h : t.handlePaneEvent m idx ev = some u) : Script m event t u := by
  unfold handlePaneEvent at h
  split at h
  next =>
    split at h
    next => cases Option.some.inj h; exact .refl
    next => exact feedPane_script h
  next => exact feedPane_script h
  next => exact handlePaneExit_script hentry hframe h
  next => cases Option.some.inj h; exact .refl

theorem handlePaneOpened_script (info : PaneInfo) : Script m event t (t.handlePaneOpened info) := by
  unfold handlePaneOpened
  split
  next => exact .refl
  next hp => exact .draw (.emit (.single (.paneOpened info hp)) rfl)

theorem handleError_script (info : ErrorInfo) : Script m event t (t.handleError m info) := by
  unfold handleError
  split
  next hp => exact ReflTransGen.tail (.single (.openFailed hp)) (.toast _ _)
  next => exact pushToast_script _ _

theorem handleEventFrame_script {id : Nat} {ev : Event} (hframe : event.frame = some (id, ev))
    (h : t.handleEventFrame text m id ev = some u) : Script m event t u := by
  unfold handleEventFrame at h
  split at h
  next idx hrecipient =>
    obtain ⟨entry, hentry, hid⟩ := App.recipient_entry hrecipient
    exact handlePaneEvent_script hentry (hid ▸ hframe) h
  next => cases Option.some.inj h; exact handleDockerEvent_script
  next => cases Option.some.inj h; exact handlePortsEvent_script
  next => cases Option.some.inj h; exact handleProcessesEvent_script
  next => cases Option.some.inj h; exact handleLogsEvent_script
  next hrecipient =>
    cases Option.some.inj h
    have hid : id = t.app.fleet.subId := by
      unfold App.recipient at hrecipient
      repeat' split at hrecipient
      all_goals first | assumption | cases hrecipient
    exact handleFleetEvent_script (hid ▸ hframe)
  next => cases Option.some.inj h; exact .refl

theorem handleDaemonEnvelope_script {env : Envelope}
    (h : t.handleDaemonEnvelope text m env = some u) : Script m (.daemonEnvelope env) t u := by
  obtain ⟨version, payload⟩ := env
  cases payload with
  | event id ev => exact handleEventFrame_script rfl h
  | paneOpened info => cases Option.some.inj h; exact handlePaneOpened_script info
  | error info => cases Option.some.inj h; exact handleError_script info
  | dockerActionResult result => cases Option.some.inj h; exact handleDockerActionResult_script rfl
  | fleetActionResult result => cases Option.some.inj h; exact handleFleetActionResult_script rfl
  | _ => cases Option.some.inj h; exact .refl

theorem resizePanes_script (layout : TileLayout) : Script m event t (t.resizePanes layout) := by
  have hids : ∀ (rows cols : Nat) (panes : List PaneEntry),
      (panes.map (PaneEntry.setSize rows cols)).map (·.ids) = panes.map (·.ids) := by
    intro rows cols panes
    rw [List.map_map]
    rfl
  unfold resizePanes
  refine ReflTransGen.trans (Script.edit .refl ?_) (Script.foldl (fun _ p => .emit .refl rfl) _ _)
  simp only [App.ledger, hids]

theorem handleResize_script {rows cols : Nat} (h : t.handleResize rows cols = some u) :
    Script m event t u := by
  obtain ⟨layout, -, rfl⟩ := Option.map_eq_some_iff.mp h
  exact .draw (ReflTransGen.trans (Script.edit .refl rfl) (resizePanes_script layout))

end Answers

end Script

end Turn

/-- Every event is handled by pieces of work that it allows. -/
theorem App.handleEvent_script {text : TextOps} {m : Moment} {a : App} {event : AppEvent} {t : Turn}
    (h : a.handleEvent text m event = some t) : Turn.Script m event ⟨a, []⟩ t := by
  cases event with
  | stdinChunk bytes =>
    exact ReflTransGen.trans (Turn.Script.edit .refl rfl) (Turn.handleInputs_script h)
  | daemonEnvelope env => exact Turn.handleDaemonEnvelope_script h
  | resize rows cols => exact Turn.handleResize_script h
  | tick => cases Option.some.inj h; exact Turn.sweepExpired_script.draw
  | pendingActionTimeout id =>
    cases Option.some.inj h
    exact Turn.expirePendingAction_script fun _ _ => rfl
  | mouseClick x y => exact Turn.handleMouseClick_script h
  | mouseHover x y => cases Option.some.inj h; exact Turn.handleMouseHover_script x y

end Tepegoz
