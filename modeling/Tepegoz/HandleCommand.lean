import Tepegoz.World

namespace Tepegoz

/-- The subscription kinds that a forwarder task serves, with the events it sends. -/
def Subscription.mayEmit : Subscription → Event → Bool
  | .docker _ _, .containerList _ _ | .docker _ _, .dockerUnavailable _ => true
  | .dockerLogs _ _ _ _ _, .containerLog _ _ | .dockerLogs _ _ _ _ _, .dockerStreamEnded _ => true
  | .dockerStats _ _ _, .containerStats | .dockerStats _ _ _, .dockerStreamEnded _ => true
  | .ports _ _, .portList _ _ | .ports _ _, .portsUnavailable _ => true
  | .processes _ _, .processList _ _ | .processes _ _, .processesUnavailable _ => true
  | _, _ => false

/-- What `handle_command` leaves behind when it returns or awaits for the first time: the session,
the envelopes it sent, and the local subscription and the local action that it spawned a task for. -/
structure Handled where
  session : Session
  replies : List Envelope
  spawned : Option Subscription
  acting : Option DockerActionRequest

namespace Session

def startCall (s : Session) (call : RouteCall) : Handled :=
  ⟨{ s with phase := .routing call .lookup }, [], none, none⟩

def handleSubscribe (s : Session) (task : TaskId) (sub : Subscription) : Handled :=
  match sub with
  | .status id => ⟨{ s with statusSub := some id }, [eventFrame id .status], none, none⟩
  | .docker id target =>
    match target with
    | .localTarget =>
      ⟨{ s with dockerSubs := s.dockerSubs.insert id ⟨task, sub⟩ }, [], some sub, none⟩
    | .remote hostAlias => s.startCall (routeRemoteSubscribe sub hostAlias .docker "docker")
  | .dockerLogs id _ _ _ target =>
    match target with
    | .localTarget =>
      ⟨{ s with dockerSubs := s.dockerSubs.insert id ⟨task, sub⟩ }, [], some sub, none⟩
    | .remote hostAlias => s.startCall (routeRemoteSubscribe sub hostAlias .dockerLogs "docker")
  | .dockerStats id _ target =>
    match target with
    | .localTarget =>
      ⟨{ s with dockerSubs := s.dockerSubs.insert id ⟨task, sub⟩ }, [], some sub, none⟩
    | .remote hostAlias => s.startCall (routeRemoteSubscribe sub hostAlias .dockerStats "docker")
  | .ports id target =>
    match target with
    | .localTarget =>
      ⟨{ s with portsSubs := s.portsSubs.insert id ⟨task, sub⟩ }, [], some sub, none⟩
    | .remote hostAlias => s.startCall (routeRemoteSubscribe sub hostAlias .ports "ports")
  | .processes id target =>
    match target with
    | .localTarget =>
      ⟨{ s with processesSubs := s.processesSubs.insert id ⟨task, sub⟩ }, [], some sub, none⟩
    | .remote hostAlias => s.startCall (routeRemoteSubscribe sub hostAlias .processes "processes")
  | .fleet id => ⟨{ s with fleetSubs := s.fleetSubs.insert id task }, [], none, none⟩

/-- The part of `Unsubscribe` before the lock of the agent pool. -/
def handleUnsubscribe (s : Session) (id : Nat) : Session :=
  { s with
    phase := match s.clientAgentSubs.lookup id with
      | some handle => .unsubscribing id handle
      | none => s.phase
    statusSub := if s.statusSub = some id then none else s.statusSub
    paneSubs := s.paneSubs.erase id
    dockerSubs := s.dockerSubs.erase id
    portsSubs := s.portsSubs.erase id
    processesSubs := s.processesSubs.erase id
    fleetSubs := s.fleetSubs.erase id
    clientAgentSubs := s.clientAgentSubs.erase id }

def fleetActionRefused (req : FleetActionRequest) : Envelope :=
  envelope (.fleetActionResult ⟨req.requestId, req.hostAlias, req.kind,
    .failure "no active Fleet subscription — subscribe before dispatching FleetAction"⟩)

def openPaneReply (spec : OpenPaneSpec) : Except String PaneInfo → Envelope
  | .ok info => envelope (.paneOpened info)
  | .error e =>
    match spec.target with
    | .localTarget => envelope (.error ⟨.internal, "open pane: " ++ e⟩)
    | .remote hostAlias =>
      envelope (.error ⟨.internal, "open remote pane (" ++ hostAlias ++ "): " ++ e⟩)

def handleCommand (s : Session) (task : TaskId) (panes : PaneAnswers) (payload : Payload) :
    Handled :=
  match payload with
  | .ping => ⟨s, [envelope .pong], none, none⟩
  | .subscribe sub => s.handleSubscribe task sub
  | .fleetAction req =>
    if s.fleetSubs.entries.isEmpty then ⟨s, [fleetActionRefused req], none, none⟩
    else ⟨s, [], none, none⟩
  | .dockerAction req =>
    match req.target with
    | .localTarget => ⟨s, [], none, some req⟩
    | .remote hostAlias => s.startCall (routeRemoteDockerAction hostAlias req)
  | .unsubscribe id => ⟨s.handleUnsubscribe id, [], none, none⟩
  | .openPane spec => ⟨s, [openPaneReply spec panes.opened], none, none⟩
  | .listPanes => ⟨s, [envelope (.paneList panes.listed)], none, none⟩
  | .attachPane paneId subscriptionId =>
    if panes.known then
      ⟨{ s with paneSubs := s.paneSubs.insert subscriptionId paneId }, [], none, none⟩
    else
      ⟨{ s with paneSubs := s.paneSubs.erase subscriptionId },
        [envelope (.error ⟨.unknownPane, "no pane " ++ toString paneId⟩)], none, none⟩
  | _ => ⟨s, [], none, none⟩

/-- The loop of `session` was left: every forwarder is aborted and the routed subscriptions are
still to be released. -/
def close (s : Session) : Session :=
  { Session.absent with
    phase := match s.clientAgentSubs.entries.map (fun entry => (entry.1, entry.2)) with
      | [] => .gone
      | todo => .closing todo }

end Session

/-- The maps of a session that hold forwarder tasks. -/
inductive TaskMap
  | docker
  | ports
  | processes
  deriving DecidableEq

def Session.tasks (s : Session) : TaskMap → IdMap LocalTask
  | .docker => s.dockerSubs
  | .ports => s.portsSubs
  | .processes => s.processesSubs

def Session.addTask (s : Session) (map : TaskMap) (id : Nat) (task : LocalTask) : Session :=
  match map with
  | .docker => { s with dockerSubs := s.dockerSubs.insert id task }
  | .ports => { s with portsSubs := s.portsSubs.insert id task }
  | .processes => { s with processesSubs := s.processesSubs.insert id task }

def Subscription.taskMap : Subscription → Option TaskMap
  | .docker _ _ | .dockerLogs _ _ _ _ _ | .dockerStats _ _ _ => some .docker
  | .ports _ _ => some .ports
  | .processes _ _ => some .processes
  | .status _ | .fleet _ => none

def Subscription.target : Subscription → Option ScopeTarget
  | .docker _ target | .dockerLogs _ _ _ _ target | .dockerStats _ _ target | .ports _ target
  | .processes _ target => some target
  | .status _ | .fleet _ => none

/-- Commands that start or end the use of a subscription id. -/
def Payload.managesId : Payload → Bool
  | .subscribe _ | .unsubscribe _ | .attachPane _ _ => true
  | _ => false

/-- What a command can do to its session. -/
inductive CommandEffect (s : Session) (task : TaskId) : Payload → Session → Prop
  | spawned (sub) (map) : sub.taskMap = some map → sub.target = some .localTarget →
      CommandEffect s task (.subscribe sub) (s.addTask map sub.id ⟨task, sub⟩)
  | routed {sub hostAlias scope capability} : sub.target = some (.remote hostAlias) →
      CommandEffect s task (.subscribe sub)
        { s with phase := .routing (routeRemoteSubscribe sub hostAlias scope capability) .lookup }
  | status {id} : CommandEffect s task (.subscribe (.status id)) { s with statusSub := some id }
  | fleet {id} : CommandEffect s task (.subscribe (.fleet id))
      { s with fleetSubs := s.fleetSubs.insert id task }
  | action {req hostAlias} : req.target = .remote hostAlias → CommandEffect s task (.dockerAction req)
      { s with phase := .routing (routeRemoteDockerAction hostAlias req) .lookup }
  | unsubscribed {id} : CommandEffect s task (.unsubscribe id) (s.handleUnsubscribe id)
  | attached {paneId id} : CommandEffect s task (.attachPane paneId id)
      { s with paneSubs := s.paneSubs.insert id paneId }
  | unknownPane {paneId id} : CommandEffect s task (.attachPane paneId id)
      { s with paneSubs := s.paneSubs.erase id }
  | unchanged {payload} : payload.managesId = false → CommandEffect s task payload s

theorem Session.commandEffect (s : Session) (task : TaskId) (panes : PaneAnswers)
    (payload : Payload) :
    CommandEffect s task payload (s.handleCommand task panes payload).session := by
  unfold handleCommand
  split
  next => exact .unchanged rfl
  next sub =>
    cases sub with
    | status id => exact .status
    | fleet id => exact .fleet
    | docker id target =>
      cases target
      exacts [.spawned (.docker id _) .docker rfl rfl, .routed rfl]
    | dockerLogs id containerId follow tailLines target =>
      cases target
      exacts [.spawned (.dockerLogs id containerId follow tailLines _) .docker rfl rfl, .routed rfl]
    | dockerStats id containerId target =>
      cases target
      exacts [.spawned (.dockerStats id containerId _) .docker rfl rfl, .routed rfl]
    | ports id target =>
      cases target
      exacts [.spawned (.ports id _) .ports rfl rfl, .routed rfl]
    | processes id target =>
      cases target
      exacts [.spawned (.processes id _) .processes rfl rfl, .routed rfl]
  next => split <;> exact .unchanged rfl
  next => split; exacts [.unchanged rfl, .action ‹_›]
  next => exact .unsubscribed
  next => exact .unchanged rfl
  next => exact .unchanged rfl
  next => split; exacts [.attached, .unknownPane]
  next hping hsub _ _ hunsub _ _ hattach =>
    refine .unchanged ?_
    cases payload <;> first | rfl | simp_all

end Tepegoz
