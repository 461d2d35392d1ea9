import Mathlib.Logic.Function.Basic
import Tepegoz.AgentConnection

namespace Tepegoz

abbrev SupId := Nat

abbrev TaskId := Nat

/-- `conn` records the connection on which the id was issued; the code keeps no such field. -/
structure AgentSubHandle where
  hostAlias : String
  daemonId : Nat
  conn : ConnId
  deriving DecidableEq

/-- The awaits of a routed request. -/
inductive CallStage
  | lookup
  | allocated (conn : ConnId) (daemonId : Nat)
  | inserted (conn : ConnId) (daemonId : Nat)
  | rollback (conn : ConnId) (daemonId : Nat)
  deriving DecidableEq

inductive SessionPhase
  | absent
  | ready
  | routing (call : RouteCall) (stage : CallStage)
  | unsubscribing (id : Nat) (handle : AgentSubHandle)
  | closing (todo : List (Nat × AgentSubHandle))
  | draining (todo : List (Nat × AgentSubHandle))
  | gone
  deriving DecidableEq

structure LocalTask where
  task : TaskId
  sub : Subscription
  deriving DecidableEq

structure Session where
  phase : SessionPhase
  statusSub : Option Nat
  paneSubs : IdMap PaneId
  dockerSubs : IdMap LocalTask
  portsSubs : IdMap LocalTask
  processesSubs : IdMap LocalTask
  fleetSubs : IdMap TaskId
  clientAgentSubs : IdMap AgentSubHandle

/-- A connected session of `host_supervisor` runs from `connected` to `ended`; outside it the
supervisor is `disconnected`. -/
inductive SupPhase
  | unborn
  | disconnected
  | connected
  | registering (conn : ConnId)
  | replacing (conn prev : ConnId)
  | serving (conn : Option ConnId)
  | ended (conn : Option ConnId)
  | draining (prev : ConnId)
  | stopped
  deriving DecidableEq

structure Supervisor where
  client : ClientId
  fleetId : Nat
  task : TaskId
  hostAlias : String
  phase : SupPhase

/-- Who holds the lock of `agent_conns` across an await. -/
inductive PoolHolder
  | session (c : ClientId)
  | supervisor (j : SupId)
  deriving DecidableEq

/-- The daemon: its shared agent pool, the client sessions, the host supervisors of their Fleet
subscriptions, the tasks that forward local subscriptions and the ones that run local actions. -/
structure World where
  conns : ConnId → AgentConnection
  connCount : Nat
  pool : String → Option ConnId
  poolLock : Option PoolHolder
  sessions : ClientId → Session
  supervisors : SupId → Supervisor
  tasks : TaskId → Option (ClientId × Subscription)
  taskCount : Nat
  actions : List (ClientId × DockerActionRequest)

/-- Where an envelope to a client comes from. -/
inductive Source
  | session
  | task (task : TaskId)
  | action
  | supervisor (j : SupId)
  | agent (conn : ConnId) (daemonId : Nat)
  | drain (conn : ConnId) (daemonId : Nat)
  | failedCall (conn : ConnId) (daemonId : Nat)
  deriving DecidableEq

inductive Obs
  | commanded (c : ClientId) (payload : Payload)
  | toClient (c : ClientId) (env : Envelope) (source : Source)
  | toAgent (c : ClientId) (conn : ConnId) (payload : Payload)
  | allocated (c : ClientId) (conn : ConnId) (daemonId : Nat)
  | inserted (conn : ConnId) (daemonId : Nat) (entry : RoutedSub)
  | released (c : ClientId) (id : Nat) (conn : ConnId) (daemonId : Nat) (entry : RoutedSub)
  | pooled (j : SupId) (conn : ConnId)
  | displaced (j : SupId) (conn : ConnId)
  | unpooled (j : SupId) (conn : ConnId)
  deriving DecidableEq

/-- What the pane managers answer to the command that is being handled. -/
structure PaneAnswers where
  opened : Except String PaneInfo
  listed : List PaneInfo
  known : Bool

def PaneAnswers.none : PaneAnswers := ⟨.error "no pane", [], false⟩

/-- The events of one host supervisor's life that matter to the pool. -/
inductive SupEvent
  | connected
  | deployFailed
  | handshaken (capabilities : List String)
  | register
  | replaced
  | sessionEnded
  | remove
  | drained
  | returned
  | aborted
  deriving DecidableEq

inductive Act
  | connect (c : ClientId)
  | command (c : ClientId) (payload : Payload) (panes : PaneAnswers)
  | route (c : ClientId)
  | unsubscribe (c : ClientId)
  | disconnect (c : ClientId)
  | teardown (c : ClientId)
  | spawn (j : SupId) (c : ClientId) (fleetId : Nat) (hostAlias : String)
  | supervisor (j : SupId) (event : SupEvent)
  | agentFrame (conn : ConnId) (env : Envelope)
  | parserEnd (conn : ConnId)
  | driverEnd (conn : ConnId)
  | emit (task : TaskId) (event : Event)
  | finish (task : TaskId)
  | acted (c : ClientId) (req : DockerActionRequest) (outcome : DockerActionOutcome)

def Session.absent : Session := ⟨.absent, none, ∅, ∅, ∅, ∅, ∅, ∅⟩

def Session.fresh : Session := { Session.absent with phase := .ready }

def Supervisor.unborn : Supervisor := ⟨0, 0, 0, "", .unborn⟩

namespace World

def initial : World where
  conns := fun _ => .unborn
  connCount := 0
  pool := fun _ => none
  poolLock := none
  sessions := fun _ => .absent
  supervisors := fun _ => .unborn
  tasks := fun _ => none
  taskCount := 0
  actions := []

def setConn (w : World) (k : ConnId) (conn : AgentConnection) : World :=
  { w with conns := Function.update w.conns k conn }

def setSession (w : World) (c : ClientId) (s : Session) : World :=
  { w with sessions := Function.update w.sessions c s }

def setPhase (w : World) (c : ClientId) (phase : SessionPhase) : World :=
  w.setSession c { w.sessions c with phase := phase }

def setSupervisor (w : World) (j : SupId) (sup : Supervisor) : World :=
  { w with supervisors := Function.update w.supervisors j sup }

def setSupPhase (w : World) (j : SupId) (phase : SupPhase) : World :=
  w.setSupervisor j { w.supervisors j with phase := phase }

def setPool (w : World) (hostAlias : String) (conn : Option ConnId) : World :=
  { w with pool := Function.update w.pool hostAlias conn }

/-- Spawn a forwarder task for a local subscription. -/
def addTask (w : World) (c : ClientId) (sub : Option Subscription) : World :=
  { w with
    tasks := Function.update w.tasks w.taskCount (sub.map (c, ·))
    taskCount := w.taskCount + 1 }

/-- Spawn a task that runs a local action. -/
def addAction (w : World) (c : ClientId) (req : Option DockerActionRequest) : World :=
  { w with actions := req.toList.map (c, ·) ++ w.actions }

def setRouting (w : World) (k : ConnId) (routing : IdMap RoutedSub) : World :=
  w.setConn k { w.conns k with routing := routing }

section Components

variable (w : World)

@[simp] theorem conns_setConn (k : ConnId) (conn : AgentConnection) :
    (w.setConn k conn).conns = Function.update w.conns k conn := rfl

@[simp] theorem sessions_setConn (k : ConnId) (conn : AgentConnection) :
    (w.setConn k conn).sessions = w.sessions := rfl

@[simp] theorem pool_setConn (k : ConnId) (conn : AgentConnection) :
    (w.setConn k conn).pool = w.pool := rfl

@[simp] theorem supervisors_setConn (k : ConnId) (conn : AgentConnection) :
    (w.setConn k conn).supervisors = w.supervisors := rfl

@[simp] theorem connCount_setConn (k : ConnId) (conn : AgentConnection) :
    (w.setConn k conn).connCount = w.connCount := rfl

@[simp] theorem conns_setSession (c : ClientId) (s : Session) :
    (w.setSession c s).conns = w.conns := rfl

@[simp] theorem sessions_setSession (c : ClientId) (s : Session) :
    (w.setSession c s).sessions = Function.update w.sessions c s := rfl

@[simp] theorem pool_setSession (c : ClientId) (s : Session) :
    (w.setSession c s).pool = w.pool := rfl

@[simp] theorem supervisors_setSession (c : ClientId) (s : Session) :
    (w.setSession c s).supervisors = w.supervisors := rfl

@[simp] theorem connCount_setSession (c : ClientId) (s : Session) :
    (w.setSession c s).connCount = w.connCount := rfl

@[simp] theorem actions_setSession (c : ClientId) (s : Session) :
    (w.setSession c s).actions = w.actions := rfl

@[simp] theorem actions_addTask (c : ClientId) (sub : Option Subscription) :
    (w.addTask c sub).actions = w.actions := rfl

@[simp] theorem actions_addAction (c : ClientId) (req : Option DockerActionRequest) :
    (w.addAction c req).actions = req.toList.map (c, ·) ++ w.actions := rfl

@[simp] theorem conns_setSupervisor (j : SupId) (sup : Supervisor) :
    (w.setSupervisor j sup).conns = w.conns := rfl

@[simp] theorem sessions_setSupervisor (j : SupId) (sup : Supervisor) :
    (w.setSupervisor j sup).sessions = w.sessions := rfl

@[simp] theorem pool_setSupervisor (j : SupId) (sup : Supervisor) :
    (w.setSupervisor j sup).pool = w.pool := rfl

@[simp] theorem supervisors_setSupervisor (j : SupId) (sup : Supervisor) :
    (w.setSupervisor j sup).supervisors = Function.update w.supervisors j sup := rfl

@[simp] theorem connCount_setSupervisor (j : SupId) (sup : Supervisor) :
    (w.setSupervisor j sup).connCount = w.connCount := rfl

@[simp] theorem conns_setPool (hostAlias : String) (conn : Option ConnId) :
    (w.setPool hostAlias conn).conns = w.conns := rfl

@[simp] theorem sessions_setPool (hostAlias : String) (conn : Option ConnId) :
    (w.setPool hostAlias conn).sessions = w.sessions := rfl

@[simp] theorem pool_setPool (hostAlias : String) (conn : Option ConnId) :
    (w.setPool hostAlias conn).pool = Function.update w.pool hostAlias conn := rfl

@[simp] theorem supervisors_setPool (hostAlias : String) (conn : Option ConnId) :
    (w.setPool hostAlias conn).supervisors = w.supervisors := rfl

@[simp] theorem connCount_setPool (hostAlias : String) (conn : Option ConnId) :
    (w.setPool hostAlias conn).connCount = w.connCount := rfl

variable {w}

theorem sessions_setPhase_same (c : ClientId) (phase : SessionPhase) :
    (w.setPhase c phase).sessions c = { w.sessions c with phase := phase } := by
  simp [setPhase]

theorem sessions_setPhase_other {c c' : ClientId} (h : c' ≠ c) (phase : SessionPhase) :
    (w.setPhase c phase).sessions c' = w.sessions c' := by
  simp [setPhase, h]

@[simp] theorem conns_setPhase (c : ClientId) (phase : SessionPhase) :
    (w.setPhase c phase).conns = w.conns := rfl

@[simp] theorem sessions_setRouting (k : ConnId) (routing : IdMap RoutedSub) :
    (w.setRouting k routing).sessions = w.sessions := rfl

theorem conns_setRouting_same (k : ConnId) (routing : IdMap RoutedSub) :
    (w.setRouting k routing).conns k = { w.conns k with routing := routing } := by
  simp [setRouting]

theorem conns_setRouting_other {k k' : ConnId} (h : k' ≠ k) (routing : IdMap RoutedSub) :
    (w.setRouting k routing).conns k' = w.conns k' := by
  simp [setRouting, h]

@[simp] theorem nextSubId_setRouting (k k' : ConnId) (routing : IdMap RoutedSub) :
    ((w.setRouting k routing).conns k').nextSubId = (w.conns k').nextSubId := by
  by_cases h : k' = k
  · subst h; simp [setRouting]
  · simp [setRouting, h]

@[simp] theorem parser_setRouting (k k' : ConnId) (routing : IdMap RoutedSub) :
    ((w.setRouting k routing).conns k').parser = (w.conns k').parser := by
  by_cases h : k' = k
  · subst h; simp [setRouting]
  · simp [setRouting, h]

@[simp] theorem hostAlias_setRouting (k k' : ConnId) (routing : IdMap RoutedSub) :
    ((w.setRouting k routing).conns k').hostAlias = (w.conns k').hostAlias := by
  by_cases h : k' = k
  · subst h; simp [setRouting]
  · simp [setRouting, h]

theorem supervisors_setSupPhase_same (j : SupId) (phase : SupPhase) :
    (w.setSupPhase j phase).supervisors j = { w.supervisors j with phase := phase } := by
  simp [setSupPhase]

theorem supervisors_setSupPhase_other {j j' : SupId} (h : j' ≠ j) (phase : SupPhase) :
    (w.setSupPhase j phase).supervisors j' = w.supervisors j' := by
  simp [setSupPhase, h]

@[simp] theorem capabilities_setRouting (k k' : ConnId) (routing : IdMap RoutedSub) :
    ((w.setRouting k routing).conns k').capabilities = (w.conns k').capabilities := by
  by_cases h : k' = k
  · subst h; simp [setRouting]
  · simp [setRouting, h]

@[simp] theorem hostAlias_setSupPhase (j j' : SupId) (phase : SupPhase) :
    ((w.setSupPhase j phase).supervisors j').hostAlias = (w.supervisors j').hostAlias := by
  by_cases h : j' = j
  · subst h; simp [setSupPhase]
  · simp [setSupPhase, h]

theorem lookup_of_erase {β : Type} {m : IdMap β} {d d' : Nat} {b : β}
    (h : (m.erase d).lookup d' = some b) : m.lookup d' = some b ∧ d' ≠ d := by
  by_cases hd : d' = d
  · subst hd; simp [AList.lookup_erase] at h
  · rw [AList.lookup_erase_ne hd] at h
    exact ⟨h, hd⟩

/-- Erasing an entry leaves no entry that was not there. -/
theorem lookup_of_eraseRouting {k k' : ConnId} {d d' : Nat} {e : RoutedSub}
    (h : ((w.setRouting k ((w.conns k).routing.erase d)).conns k').routing.lookup d' = some e) :
    (w.conns k').routing.lookup d' = some e := by
  by_cases hk : k' = k
  · subst hk
    rw [conns_setRouting_same] at h
    exact (lookup_of_erase h).1
  · rwa [conns_setRouting_other hk] at h

end Components

end World

end Tepegoz
