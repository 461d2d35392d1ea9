import Tepegoz.HandleCommand
import Tepegoz.Lib.Transition

namespace Tepegoz

open Transition

namespace World

def replies (c : ClientId) (source : Source) (envs : List Envelope) : List Obs :=
  envs.map (.toClient c · source)

/-- `route_remote_subscribe` and `route_remote_docker_action`, from one await to the next. -/
def routeStep (w : World) (c : ClientId) (call : RouteCall) :
    CallStage → Option (World × List Obs)
  | .lookup =>
    if w.poolLock = none then
      match w.pool call.hostAlias with
      | none => some (w.setPhase c .ready, [.toClient c call.notConnected .session])
      | some k =>
        let conn := w.conns k
        if conn.capabilities.contains call.requiredCapability then
          let daemonId := conn.nextSubId
          some ((w.setConn k { conn with nextSubId := daemonId + 1 }).setPhase c
            (.routing call (.allocated k daemonId)), [.allocated c k daemonId])
        else some (w.setPhase c .ready, [.toClient c call.lacksCapability .session])
    else none
  | .allocated k daemonId =>
    let entry := call.entry c
    some ((w.setRouting k ((w.conns k).routing.insert daemonId entry)).setPhase c
      (.routing call (.inserted k daemonId)), [.inserted k daemonId entry])
  | .inserted k daemonId =>
    if (w.conns k).driver then
      let s := w.sessions c
      let handles := match call.kind with
        | .subscription => s.clientAgentSubs.insert call.clientId ⟨call.hostAlias, daemonId, k⟩
        | .oneShot => s.clientAgentSubs
      some (w.setSession c { s with phase := .ready, clientAgentSubs := handles },
        [.toAgent c k (call.forwarded daemonId)])
    else some (w.setPhase c (.routing call (.rollback k daemonId)), [])
  | .rollback k daemonId =>
    some ((w.setRouting k ((w.conns k).routing.erase daemonId)).setPhase c .ready,
      [.toClient c call.writerClosed (.failedCall k daemonId)])

/-- Under the lock of the pool: drop the routing entry that the handle names on the connection now
pooled for its alias, and tell that connection's agent. -/
def release (w : World) (c : ClientId) (id : Nat) (handle : AgentSubHandle) : World × List Obs :=
  match w.pool handle.hostAlias with
  | none => (w, [])
  | some k =>
    let conn := w.conns k
    let removed := match conn.routing.lookup handle.daemonId with
      | some entry => [.released c id k handle.daemonId entry]
      | none => []
    let told := if conn.driver then [.toAgent c k (.unsubscribe handle.daemonId)] else []
    (w.setRouting k (conn.routing.erase handle.daemonId), removed ++ told)

def teardownStep (w : World) (c : ClientId) : Option (World × List Obs) :=
  match (w.sessions c).phase with
  | .closing todo =>
    if w.poolLock = none then
      some ({ w with poolLock := some (.session c) }.setPhase c (.draining todo), [])
    else none
  | .draining [] => some ({ w with poolLock := none }.setPhase c .gone, [])
  | .draining ((id, handle) :: todo) =>
    let released := w.release c id handle
    some (released.1.setPhase c (.draining todo), released.2)
  | _ => none

/-- `drain_routing_on_disconnect`. -/
def drain (w : World) (k : ConnId) : World × List Obs :=
  let conn := w.conns k
  (w.setRouting k ∅, conn.routing.entries.map fun entry =>
    .toClient entry.2.client (disconnectNotice conn.hostAlias entry.2) (.drain k entry.1))

/-- `route_agent_envelope`. -/
def routeAgentEnvelope (w : World) (k : ConnId) (env : Envelope) : World × List Obs :=
  let routing := (w.conns k).routing
  match env.payload with
  | .event daemonId event =>
    match routing.lookup daemonId with
    | some routed => (w, [.toClient routed.client
        ⟨env.version, .event routed.clientId event⟩ (.agent k daemonId)])
    | none => (w, [])
  | .dockerActionResult result =>
    match routing.lookup result.requestId with
    | some routed =>
      (w.setRouting k (routing.erase result.requestId),
        if routed.kind = .oneShot then [.toClient routed.client
          ⟨env.version, .dockerActionResult { result with requestId := routed.clientId }⟩
          (.agent k result.requestId)] else [])
    | none => (w, [])
  | _ => (w, [])

/-- `run_docker_action`, once the engine has answered. -/
def runDockerAction (req : DockerActionRequest) (outcome : DockerActionOutcome) : Envelope :=
  envelope (.dockerActionResult ⟨req.requestId, req.containerId, req.kind, outcome, req.target⟩)

/-- The fleet subscription that a supervisor belongs to is still the one it was spawned for. -/
def taskLive (w : World) (j : SupId) : Bool :=
  let sup := w.supervisors j
  (w.sessions sup.client).fleetSubs.lookup sup.fleetId = some sup.task

def capabilitiesEvent (w : World) (j : SupId) (capabilities : List String) : Obs :=
  let sup := w.supervisors j
  .toClient sup.client (eventFrame sup.fleetId (.agentCapabilities sup.hostAlias capabilities))
    (.supervisor j)

/-- `host_supervisor` around a connected session, with `deploy_and_register_agent` at its start and
`remove_and_shutdown_agent` at its end. -/
def supervisorStep (w : World) (j : SupId) (event : SupEvent) : Option (World × List Obs) :=
  let hostAlias := (w.supervisors j).hostAlias
  match event, (w.supervisors j).phase with
  | .connected, .disconnected => some (w.setSupPhase j .connected, [])
  | .deployFailed, .connected =>
    some (w.setSupPhase j (.serving none), [w.capabilitiesEvent j []])
  | .handshaken capabilities, .connected =>
    let k := w.connCount
    some (({ w with connCount := k + 1 }.setConn k (.spawned hostAlias capabilities)).setSupPhase j
      (.registering k), [])
  | .register, .registering k =>
    if w.poolLock = none then
      match w.pool hostAlias with
      | none => some ((w.setPool hostAlias (some k)).setSupPhase j (.serving (some k)),
          [.pooled j k, w.capabilitiesEvent j (w.conns k).capabilities])
      | some prev => some (({ w with poolLock := some (.supervisor j) }.setPool hostAlias
          none).setSupPhase j (.replacing k prev), [.displaced j prev])
    else none
  | .replaced, .replacing k prev =>
    let drained := w.drain prev
    some (({ drained.1 with poolLock := none }.setPool hostAlias (some k)).setSupPhase j
      (.serving (some k)),
      drained.2 ++ [.pooled j k, w.capabilitiesEvent j (w.conns k).capabilities])
  | .sessionEnded, .serving conn => some (w.setSupPhase j (.ended conn), [])
  | .remove, .ended _ =>
    if w.poolLock = none then
      match w.pool hostAlias with
      | none => some (w.setSupPhase j .disconnected, [w.capabilitiesEvent j []])
      | some k => some ((w.setPool hostAlias none).setSupPhase j (.draining k), [.unpooled j k])
    else none
  | .drained, .draining k =>
    let drained := w.drain k
    some (drained.1.setSupPhase j .disconnected, drained.2 ++ [w.capabilitiesEvent j []])
  | .returned, .disconnected => some (w.setSupPhase j .stopped, [])
  | .aborted, phase =>
    if w.taskLive j = true ∨ phase = .unborn ∨ phase = .stopped then none
    else match phase with
      | .replacing _ _ => some ({ w with poolLock := none }.setSupPhase j .stopped, [])
      | _ => some (w.setSupPhase j .stopped, [])
  | _, _ => none

def step (w : World) : Act → Option (World × List Obs)
  | .connect c =>
    if (w.sessions c).phase = .absent then some (w.setSession c .fresh, []) else none
  | .command c payload panes =>
    if (w.sessions c).phase = .ready then
      let handled := (w.sessions c).handleCommand w.taskCount panes payload
      some (((w.addTask c handled.spawned).addAction c handled.acting).setSession c handled.session,
        .commanded c payload :: replies c .session handled.replies)
    else none
  | .route c =>
    match (w.sessions c).phase with
    | .routing call stage => w.routeStep c call stage
    | _ => none
  | .unsubscribe c =>
    match (w.sessions c).phase with
    | .unsubscribing id handle =>
      if w.poolLock = none then
        let released := w.release c id handle
        some (released.1.setPhase c .ready, released.2)
      else none
    | _ => none
  | .disconnect c =>
    if (w.sessions c).phase = .ready then some (w.setSession c (w.sessions c).close, []) else none
  | .teardown c => w.teardownStep c
  | .spawn j c fleetId hostAlias =>
    match (w.supervisors j).phase, (w.sessions c).fleetSubs.lookup fleetId with
    | .unborn, some task =>
      some (w.setSupervisor j ⟨c, fleetId, task, hostAlias, .disconnected⟩, [])
    | _, _ => none
  | .supervisor j event => w.supervisorStep j event
  | .agentFrame k env => if (w.conns k).parser then some (w.routeAgentEnvelope k env) else none
  | .parserEnd k =>
    if (w.conns k).parser then
      some ((w.setConn k { w.conns k with parser := false }).drain k)
    else none
  | .driverEnd k =>
    if (w.conns k).driver then some (w.setConn k { w.conns k with driver := false }, []) else none
  | .emit task event =>
    match w.tasks task with
    | some (c, sub) =>
      if sub.mayEmit event then some (w, [.toClient c (eventFrame sub.id event) (.task task)])
      else none
    | none => none
  | .finish task =>
    match w.tasks task with
    | some _ => some ({ w with tasks := Function.update w.tasks task none }, [])
    | none => none
  | .acted c req outcome =>
    if (c, req) ∈ w.actions then
      some ({ w with actions := w.actions.erase (c, req) },
        [.toClient c (runDockerAction req outcome) .action])
    else none

end World

def daemon : System World Act Obs := ⟨(· = .initial), World.step⟩

/-- Client `c` subscribes to the fleet and its supervisor `j` connects `h` and registers an agent. -/
def registerBy (c : ClientId) (j : SupId) : List Act :=
  [.connect c, .command c (.subscribe (.fleet 1)) .none, .spawn j c 1 "h",
    .supervisor j .connected, .supervisor j (.handshaken ["docker"]), .supervisor j .register]

/-- Client `c` subscribes to the containers of `h`, through a connected agent. -/
def routeBy (c : ClientId) (id : Nat) : List Act :=
  [.command c (.subscribe (.docker id (.remote "h"))) .none, .route c, .route c, .route c]

end Tepegoz
