import Tepegoz.Tui.App

namespace Tepegoz

namespace Turn

variable (text : TextOps) (m : Moment)

def pushToast (t : Turn) (kind : ToastKind) (message : String) : Turn :=
  let kept := if maxToasts ≤ t.app.toasts.length then t.app.toasts.tail else t.app.toasts
  let toast : Toast := ⟨kind, message, m.now + kind.duration⟩
  ((t.edit ({ · with toasts := kept ++ [toast] })).emit (.showToast kind message)).draw

def expirePendingAction (t : Turn) (id : Nat) : Turn :=
  match t.app.pendingActions.lookup id with
  | some pa =>
    (t.edit fun a => { a with pendingActions := a.pendingActions.erase id }).pushToast m .error
      (pa.description ++ " timed out — check engine")
  | none => t

/-- The ids of the actions whose deadline has passed, in the order of the hash map. -/
def expiredActions (a : App) : List Nat :=
  m.iteration ((a.pendingActions.entries.filter fun entry => entry.2.deadline ≤ m.now).map (·.1))

def expireConfirm (t : Turn) : Turn :=
  t.setDocker { t.app.docker with
    pendingConfirm := t.app.docker.pendingConfirm.filter fun pc => m.now < pc.deadline }

def expireToasts (t : Turn) : Turn :=
  t.edit fun a => { a with toasts := a.toasts.filter fun toast => m.now < toast.expiresAt }

def sweepExpired (t : Turn) : Turn :=
  let confirmed := t.expireConfirm m
  ((expiredActions m confirmed.app).foldl (fun t id => t.expirePendingAction m id)
    confirmed).expireToasts m

def moveFocusTo (t : Turn) (next : TileId) : Turn :=
  if next = t.app.view.focused then t
  else
    let confirm := if t.app.view.focused = .docker then none else t.app.docker.pendingConfirm
    let t := t.setDocker { t.app.docker with pendingConfirm := confirm }
    ((t.edit fun a => { a with view := { a.view with focused := next } }).emit (.focusTile next)).draw

def handleFocusDirection (t : Turn) (dir : FocusDir) : Turn :=
  match t.app.view.layout.nextFocus t.app.view.focused dir with
  | some next => t.moveFocusTo next
  | none => t

def handleFocusCycle (t : Turn) (forward : Bool) : Turn :=
  match t.app.view.layout.cycleFocus t.app.view.focused forward with
  | some next => t.moveFocusTo next
  | none => t

def handleHelpToggle (t : Turn) : Turn :=
  (t.edit fun a => { a with helpVisible := !a.helpVisible }).draw

def openHostPicker (t : Turn) : Turn :=
  match (t.app.view.layout.routesToScope t.app.view.focused).bind t.app.pickerTarget with
  | some (targetTile, requiredCapability, currentTarget) =>
    let selected := ((t.app.hostPickerRows requiredCapability).findIdx?
      (·.isTarget currentTarget)).getD 0
    (t.edit ({ · with hostPicker := some ⟨targetTile, requiredCapability, selected⟩ })).draw
  | none => t

def dismissHostPicker (t : Turn) : Turn :=
  match t.app.hostPicker with
  | some _ => (t.edit ({ · with hostPicker := none })).draw
  | none => t

def leaveLogs (t : Turn) : Turn :=
  match t.app.docker.view with
  | .logs logs => (t.send (.unsubscribe logs.subId)).setDocker { t.app.docker with view := .list }
  | .list => t

def retargetDocker (t : Turn) (newTarget : ScopeTarget) : Turn :=
  if t.app.docker.target = newTarget then t.draw
  else
    let t := t.leaveLogs
    let t := t.send (.unsubscribe t.app.docker.subId)
    let t := t.setDocker { t.app.docker with
      state := .connecting, selection := 0, pendingConfirm := none, target := newTarget }
    (t.send (.subscribe (.docker t.app.docker.subId newTarget))).draw

def retargetPorts (t : Turn) (newTarget : ScopeTarget) : Turn :=
  if t.app.ports.portsTarget = newTarget then t.draw
  else
    let t := t.send (.unsubscribe t.app.ports.portsSubId)
    let t := t.setPorts { t.app.ports with
      ports := { t.app.ports.ports with state := .connecting, selection := 0 }
      portsTarget := newTarget }
    (t.send (.subscribe (.ports t.app.ports.portsSubId newTarget))).draw

def retargetProcesses (t : Turn) (newTarget : ScopeTarget) : Turn :=
  if t.app.ports.processesTarget = newTarget then t.draw
  else
    let t := t.send (.unsubscribe t.app.ports.processesSubId)
    let t := t.setPorts { t.app.ports with
      processes := { t.app.ports.processes with state := .connecting, selection := 0 }
      processesTarget := newTarget }
    (t.send (.subscribe (.processes t.app.ports.processesSubId newTarget))).draw

def retarget (t : Turn) (newTarget : ScopeTarget) : HostPickerTargetTile → Turn
  | .docker => t.retargetDocker newTarget
  | .ports => t.retargetPorts newTarget
  | .processes => t.retargetProcesses newTarget

/-- A row that cannot be used leaves the picker open. -/
def commitHostPicker (t : Turn) (picker : HostPickerModal) : Turn :=
  let closed := t.edit ({ · with hostPicker := none })
  match (t.app.hostPickerRows picker.requiredCapability)[picker.selected]? with
  | none => closed.draw
  | some .localHost => closed.retarget .localTarget picker.targetTile
  | some (.remote hostAlias _ _ true) => closed.retarget (.remote hostAlias) picker.targetTile
  | some (.remote _ _ _ false) => t

def movePicker (t : Turn) (picker : HostPickerModal) (selected : Nat) : Turn :=
  if selected = picker.selected then t
  else (t.edit ({ · with hostPicker := some { picker with selected := selected } })).draw

def handleHostPickerKey (t : Turn) (k : ScopeKey) : Turn :=
  match t.app.hostPicker with
  | none => t
  | some picker =>
    let rowsLen := (t.app.hostPickerRows picker.requiredCapability).length
    match k.ofLetter with
    | .up => t.movePicker picker (picker.selected - 1)
    | .down =>
      if picker.selected + 1 < rowsLen then t.movePicker picker (picker.selected + 1) else t
    | .home | .top => t.movePicker picker 0
    | .endKey | .bottom => if 0 < rowsLen then t.movePicker picker (rowsLen - 1) else t
    | .enter => t.commitHostPicker picker
    | .escape => t.dismissHostPicker
    | _ => t

/-- The keys of a chunk go to the picker until it closes. -/
def hostPickerKeys (t : Turn) : List ScopeKey → Turn
  | [] => t
  | k :: ks =>
    let next := t.handleHostPickerKey k
    if next.app.hostPicker.isNone then next else next.hostPickerKeys ks

def registerAction (t : Turn) (description : String) : Turn :=
  (t.edit fun a => { a with
    pendingActions := a.pendingActions.insert a.nextSubId
      ⟨m.now + pendingActionTimeout, description⟩ }).allocSubId

def dispatchDockerAction (t : Turn) (containerId displayName : String) (kind : DockerActionKind) :
    Turn :=
  let request : DockerActionRequest := ⟨t.app.nextSubId, containerId, kind, t.app.docker.target⟩
  ((t.registerAction m (actionVerb kind ++ " " ++ displayName)).send (.dockerAction request)).draw

def issueSelectedDockerAction (t : Turn) (kind : DockerActionKind) : Turn :=
  match t.app.docker.selectedContainer text with
  | some c => t.dispatchDockerAction m c.id (displayNameFor c) kind
  | none => t

def beginConfirm (t : Turn) (kind : DockerActionKind) : Turn :=
  match t.app.docker.selectedContainer text with
  | some c =>
    (t.setDocker { t.app.docker with
      pendingConfirm := some ⟨kind, c.id, displayNameFor c, m.now + pendingConfirmTimeout⟩ }).draw
  | none => t

def tryEnterLogsView (t : Turn) : Turn :=
  match t.app.docker.selectedContainer text with
  | some c =>
    let subId := t.app.nextSubId
    let t := t.allocSubId.setDocker { t.app.docker with
      view := .logs (.new c.id (displayNameFor c) subId) }
    (t.send (.subscribe (.dockerLogs subId c.id true 0 t.app.docker.target))).draw
  | none => t

def setLogs (t : Turn) (logs : LogsView) : Turn :=
  (t.setDocker { t.app.docker with view := .logs logs }).draw

def handleLogsKey (t : Turn) (logs : LogsView) (k : ScopeKey) : Turn :=
  match k.ofLetter with
  | .escape => t.leaveLogs.draw
  | .up => t.setLogs (logs.scrollUp 1)
  | .down => t.setLogs (logs.scrollDown 1)
  | .pgUp => t.setLogs (logs.scrollUp logsPageLines)
  | .pgDn => t.setLogs (logs.scrollDown logsPageLines)
  | .bottom | .endKey => t.setLogs logs.jumpToTail
  | .char b => if b = key 'q' then t.leaveLogs.draw else t
  | _ => t

/-- A key while the prompt of a destructive action is shown. -/
def confirmKey (t : Turn) (pending : PendingConfirm) (k : ScopeKey) : Turn :=
  let cleared := t.setDocker { t.app.docker with pendingConfirm := none }
  if k = .char (key 'y') ∨ k = .char (key 'Y') then
    cleared.dispatchDockerAction m pending.containerId pending.containerName pending.kind
  else if k = .char (key 'K') ∨ k = .char (key 'X') then t
  else cleared.draw

def dockerCommand (t : Turn) (k : ScopeKey) : Turn :=
  if k = .char (key 'r') then t.issueSelectedDockerAction text m .restart
  else if k = .char (key 's') then t.issueSelectedDockerAction text m .stop
  else if k = .char (key 'K') then t.beginConfirm text m .kill
  else if k = .char (key 'X') then t.beginConfirm text m .remove
  else if k = .char (key 'l') then t.tryEnterLogsView text
  else t

def handleScopeKey (t : Turn) (k : ScopeKey) : Turn :=
  match t.app.docker.view, t.app.docker.pendingConfirm with
  | .logs logs, _ => t.handleLogsKey logs k
  | .list, some pending => t.confirmKey m pending k
  | .list, none =>
    match t.app.docker.listKey text k with
    | some d => (t.setDocker d).draw
    | none => if t.app.docker.filterActive then t else t.dockerCommand text m k

def handlePortsListKey (t : Turn) (k : ScopeKey) : Turn :=
  match t.app.ports.ports.listKey text k with
  | some v => (t.setPorts { t.app.ports with ports := v }).draw
  | none => t

def handleProcessesListKey (t : Turn) (k : ScopeKey) : Turn :=
  match t.app.ports.processes.listKey text k with
  | some v => (t.setPorts { t.app.ports with processes := v }).draw
  | none => t

def togglePortsView (t : Turn) : Turn :=
  let other := match t.app.ports.active with
    | .ports => .processes
    | .processes => .ports
  (t.setPorts { t.app.ports with active := other }).draw

def handlePortsKey (t : Turn) (k : ScopeKey) : Turn :=
  match t.app.ports.active with
  | .ports =>
    if k = .char (key 'p') ∧ t.app.ports.ports.filterActive = false then t.togglePortsView
    else t.handlePortsListKey text k
  | .processes =>
    if k = .char (key 'p') ∧ t.app.ports.processes.filterActive = false then t.togglePortsView
    else t.handleProcessesListKey text k

def openPaneSpec (layout : TileLayout) (cwd : Option String) (target : PaneTarget) : OpenPaneSpec :=
  let dims := ptyContentDims layout
  ⟨none, cwd, [], dims.1, dims.2, target⟩

def pushPendingOpen (t : Turn) (hostAlias : Option String) : Turn :=
  (t.edit fun a => { a with
    pendingOpens := a.pendingOpens ++ [⟨a.nextSubId, hostAlias⟩] }).allocSubId

def dispatchOpenRemotePane (t : Turn) : Turn :=
  match t.app.fleet.selectedHost text with
  | some host =>
    let spec := openPaneSpec t.app.view.layout none (.remote host.hostAlias)
    ((t.pushPendingOpen (some host.hostAlias)).send (.openPane spec)).pushToast m .info
      ("opening ssh:" ++ host.hostAlias ++ "…")
  | none => t

def dispatchFleetReconnect (t : Turn) : Turn :=
  match t.app.fleet.selectedHost text with
  | some host =>
    let request : FleetActionRequest := ⟨t.app.nextSubId, host.hostAlias, .reconnect⟩
    ((t.registerAction m ("reconnect " ++ host.hostAlias)).send (.fleetAction request)).draw
  | none => t

def handleFleetKey (t : Turn) (k : ScopeKey) : Turn :=
  match t.app.fleet.listKey text k with
  | some f => (t.setFleet f).draw
  | none =>
    if t.app.fleet.filterActive then t
    else if k = .char (key 'r') then t.dispatchFleetReconnect text m
    else if k = .enter then t.dispatchOpenRemotePane text m
    else t

def scopeKey (t : Turn) (kind : ScopeKind) (k : ScopeKey) : Turn :=
  match kind with
  | .docker => t.handleScopeKey text m k
  | .ports => t.handlePortsKey text k
  | .fleet => t.handleFleetKey text m k

def handleDockerEvent (t : Turn) : Event → Turn
  | .containerList containers engineSource =>
    (t.setDocker ({ t.app.docker with
      state := .available containers engineSource }.clampSelection text)).draw
  | .dockerUnavailable reason =>
    (t.setDocker { t.app.docker with state := .unavailable reason, selection := 0 }).draw
  | _ => t

def handlePortsEvent (t : Turn) : Event → Turn
  | .portList ports source =>
    let v := t.app.ports.ports
    (t.setPorts { t.app.ports with
      ports := { v with state := .available ports source }.reanchorSelection text
        (v.selectedKey text) }).draw
  | .portsUnavailable reason =>
    (t.setPorts { t.app.ports with
      ports := { t.app.ports.ports with state := .unavailable reason, selection := 0 } }).draw
  | _ => t

def handleProcessesEvent (t : Turn) : Event → Turn
  | .processList rows source =>
    let v := t.app.ports.processes
    (t.setPorts { t.app.ports with
      processes := { v with state := .available rows source }.reanchorSelection text
        (v.selectedKey text) }).draw
  | .processesUnavailable reason =>
    (t.setPorts { t.app.ports with
      processes := { t.app.ports.processes with state := .unavailable reason, selection := 0 } }).draw
  | _ => t

/-- The states of a fresh host list: those known before, else `Disconnected`. -/
def seededStates (f : FleetScope) (hosts : List HostEntry) : HostMap HostState :=
  let known := match f.state with
    | .available _ states _ => states
    | .connecting => ∅
  hosts.foldl (fun states h =>
    states.insert h.hostAlias ((known.lookup h.hostAlias).getD .disconnected)) ∅

def terminalText (hostAlias reason : String) : HostState → Option String
  | .authFailed => some (hostAlias ++ ": auth failed — " ++ reason)
  | .hostKeyMismatch => some (hostAlias ++ ": host key rejected — " ++ reason)
  | .agentNotDeployed => some (hostAlias ++ ": agent not deployed — " ++ reason)
  | .agentVersionMismatch => some (hostAlias ++ ": agent version mismatch — " ++ reason)
  | _ => none

def handleFleetEvent (t : Turn) : Event → Turn
  | .hostList hosts source =>
    let f := t.app.fleet
    (t.setFleet ({ f with state := .available hosts (seededStates f hosts) source }.reanchorSelection
      text (f.selectedKey text))).draw
  | .hostStateChanged hostAlias state reason =>
    match t.app.fleet.state with
    | .available hosts states source =>
      let shown := (t.setFleet { t.app.fleet with
        state := .available hosts (states.insert hostAlias state) source }).draw
      match reason with
      | some reason =>
        if state.isTerminal = false ∨ states.lookup hostAlias = some state then shown
        else match terminalText hostAlias reason state with
          | some message => shown.pushToast m .error message
          | none => shown
      | none => shown
    | .connecting => t
  | .agentCapabilities hostAlias capabilities =>
    (t.edit fun a => { a with
      hostCapabilities := a.hostCapabilities.insert hostAlias capabilities }).draw
  | _ => t

def handleLogsEvent (t : Turn) (event : Event) : Turn :=
  match t.app.docker.view, event with
  | .logs logs, .containerLog stream data => t.setLogs (logs.ingest text stream data)
  | .logs logs, .dockerStreamEnded reason => t.setLogs (logs.endStream text reason)
  | _, _ => t

def handleDockerActionResult (t : Turn) (result : DockerActionResult) : Turn :=
  let description := match t.app.pendingActions.lookup result.requestId with
    | some pending => pending.description
    | none => actionVerb result.kind ++ " " ++ result.containerId
  let t := t.edit fun a => { a with pendingActions := a.pendingActions.erase result.requestId }
  match result.outcome with
  | .success => t.pushToast m .success (description ++ " — succeeded")
  | .failure reason => t.pushToast m .error (description ++ " failed: " ++ reason)

def handleFleetActionResult (t : Turn) (result : FleetActionResult) : Turn :=
  let description := match t.app.pendingActions.lookup result.requestId with
    | some pending => pending.description
    | none => fleetActionVerb result.kind ++ " " ++ result.hostAlias
  let t := t.edit fun a => { a with pendingActions := a.pendingActions.erase result.requestId }
  match result.outcome with
  | .success => t.pushToast m .info (description ++ " — dispatched")
  | .failure reason => t.pushToast m .error (description ++ " failed: " ++ reason)

end Turn

end Tepegoz
