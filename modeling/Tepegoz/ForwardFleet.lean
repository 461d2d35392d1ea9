import Tepegoz.AgentConnection
import Tepegoz.HostSupervisor

namespace Tepegoz

open Transition

/-- What becomes of the discovery task. -/
inductive Discovery
  | found (hosts : List HostEntry) (source : String) (autoconnect : List String)
  | failed (error : String)
  | panicked

/-- Where the coordinator of a Fleet subscription is. -/
inductive Coordinator
  | discovering
  | dispatching
  | pending
  | returned
  deriving DecidableEq

/-- A supervisor with the actions that wait in its channel. -/
structure FleetHost where
  supervisor : HostSupervisor
  actions : List HostAction

/-- `forward_fleet` with the supervisors it spawned. -/
structure ForwardFleet where
  subscriptionId : Nat
  coordinator : Coordinator
  hosts : List FleetHost

inductive FleetAct
  | discovered (result : Discovery)
  | dispatch (req : FleetActionRequest)
  | park
  | supervisor (i : Nat) (input : HostInput)

def HostAction.of : FleetActionKind → HostAction
  | .reconnect => .reconnect
  | .disconnect => .disconnect

def hostListEnvelope (subscriptionId : Nat) (hosts : List HostEntry) (source : String) : Envelope :=
  eventFrame subscriptionId (.hostList hosts source)

def fleetActionResultEnvelope (req : FleetActionRequest) (outcome : FleetActionOutcome) : Envelope :=
  envelope (.fleetActionResult ⟨req.requestId, req.hostAlias, req.kind, outcome⟩)

def HostObs.envelope : HostObs → Option Envelope
  | .sent env => some env
  | _ => none

namespace FleetHost

def hostAlias (host : FleetHost) : String := host.supervisor.entry.hostAlias

/-- `orphaned` says that the sender of the host's channel is gone. -/
def step (host : FleetHost) (orphaned : Bool) (input : HostInput) :
    Option (FleetHost × List HostObs) :=
  let stepped := host.supervisor.step input
  match input, host.actions with
  | .action action, next :: rest =>
    if action = next then stepped.map fun r => (⟨r.1, rest⟩, r.2) else none
  | .action _, [] => none
  | .closed, [] => if orphaned then stepped.map fun r => (⟨r.1, []⟩, r.2) else none
  | .closed, _ :: _ => none
  | _, actions => stepped.map fun r => (⟨r.1, actions⟩, r.2)

end FleetHost

namespace ForwardFleet

def new (subscriptionId : Nat) : ForwardFleet := ⟨subscriptionId, .discovering, []⟩

variable (s : ForwardFleet)

/-- The host that `host_senders` has for an alias: the last one that was inserted. -/
def senderOf (hostAlias : String) : Option Nat :=
  ((List.range s.hosts.length).filter fun i =>
    (s.hosts[i]?).any fun host => host.hostAlias = hostAlias).getLast?

def dispatch (req : FleetActionRequest) : ForwardFleet × List Envelope :=
  match s.senderOf req.hostAlias with
  | some i =>
    match s.hosts[i]? with
    | some host =>
      if host.supervisor.phase = .returned then
        (s, [fleetActionResultEnvelope req (.failure ("supervisor task has exited — subscription " ++
          "may have been torn down mid-action"))])
      else
        ({ s with hosts := s.hosts.set i { host with actions := host.actions ++ [.of req.kind] } },
          [fleetActionResultEnvelope req .success])
    | none => (s, [])
  | none =>
    (s, [fleetActionResultEnvelope req (.failure ("unknown alias '" ++ req.hostAlias ++
      "' — check `tepegoz doctor --ssh-hosts`"))])

/-- After a failed discovery an empty list is all that is ever sent. -/
def discovered : Discovery → ForwardFleet × List Envelope
  | .found hosts source autoconnect =>
    ({ s with
      coordinator := .dispatching
      hosts := hosts.map fun host =>
        ⟨.new s.subscriptionId host (autoconnect.contains host.hostAlias), []⟩ },
      [hostListEnvelope s.subscriptionId hosts source])
  | .failed error =>
    ({ s with coordinator := .pending },
      [hostListEnvelope s.subscriptionId [] ("discovery error: " ++ error)])
  | .panicked => ({ s with coordinator := .returned }, [])

def step : FleetAct → Option (ForwardFleet × List Envelope)
  | .discovered result => if s.coordinator = .discovering then some (s.discovered result) else none
  | .dispatch req => if s.coordinator = .dispatching then some (s.dispatch req) else none
  | .park =>
    if s.coordinator = .dispatching ∧ ∀ host ∈ s.hosts, host.supervisor.phase = .returned then
      some ({ s with coordinator := .pending }, [])
    else none
  | .supervisor i input =>
    match s.hosts[i]? with
    | some host =>
      (host.step (s.senderOf host.hostAlias ≠ some i) input).map fun r =>
        ({ s with hosts := s.hosts.set i r.1 }, r.2.filterMap (·.envelope))
    | none => none

end ForwardFleet

def forwardFleet (subscriptionId : Nat) : System ForwardFleet FleetAct Envelope :=
  ⟨(· = .new subscriptionId), ForwardFleet.step⟩

/-! What the supervisors send. -/

namespace HostSupervisor

variable {s : HostSupervisor}

/-- A state of the host, a terminal one with its reason, or the capabilities of its agent. -/
inductive Says (s : HostSupervisor) : Envelope → Prop
  | state {state reason} : (state.isTerminal = true → reason.isSome = true) →
      Says s (eventFrame s.subscriptionId (.hostStateChanged s.entry.hostAlias state reason))
  | capabilities {capabilities} :
      Says s (eventFrame s.subscriptionId (.agentCapabilities s.entry.hostAlias capabilities))

/-- A stretch of the code keeps to its host and to what it may say of it. -/
structure Speaking (s : HostSupervisor) (r : HostSupervisor × List HostObs) : Prop where
  subscription : r.1.subscriptionId = s.subscriptionId
  entry : r.1.entry = s.entry
  sends : ∀ env, .sent env ∈ r.2 → s.Says env

theorem Says.of_emitState {state : HostState} {reason : Option String} {env : Envelope}
    (h : .sent env = s.emitState state reason)
    (hreason : state.isTerminal = true → reason.isSome = true) : s.Says env := by
  cases h
  exact .state hreason

theorem Says.of_emitAgentCapabilities {capabilities : List String} {env : Envelope}
    (h : .sent env = s.emitAgentCapabilities capabilities) : s.Says env := by
  cases h
  exact .capabilities

theorem Speaking.silent {s' : HostSupervisor} {out : List HostObs}
    (hsub : s'.subscriptionId = s.subscriptionId) (hentry : s'.entry = s.entry)
    (hout : ∀ env, .sent env ∉ out) : s.Speaking (s', out) :=
  ⟨hsub, hentry, fun env henv => absurd henv (hout env)⟩

/-- The supervisor sends one more thing at the start of a stretch. -/
theorem Speaking.cons {s' : HostSupervisor} {o : HostObs} {out : List HostObs}
    (ho : ∀ env, .sent env = o → s.Says env) (h : s.Speaking (s', out)) :
    s.Speaking (s', o :: out) := by
  refine ⟨h.subscription, h.entry, ?_⟩
  intro env henv
  rcases List.mem_cons.mp henv with heq | hmem
  · exact ho env heq
  · exact h.sends env hmem

/-- The stretch was entered with other counters, under the same host. -/
theorem Speaking.congr {s' : HostSupervisor} {r : HostSupervisor × List HostObs}
    (h : s'.Speaking r) (hsub : s'.subscriptionId = s.subscriptionId)
    (hentry : s'.entry = s.entry) : s.Speaking r := by
  refine ⟨h.subscription.trans hsub, h.entry.trans hentry, ?_⟩
  intro env henv
  cases h.sends env henv with
  | state hreason => rw [hsub, hentry]; exact .state hreason
  | capabilities => rw [hsub, hentry]; exact .capabilities

theorem loopTop_speaking (s : HostSupervisor) : s.Speaking s.loopTop := by
  unfold loopTop
  split
  · refine .cons (fun env h => .of_emitState h (by simp [HostState.isTerminal])) ?_
    exact .silent rfl rfl (by simp)
  · exact .silent rfl rfl (by simp)

theorem waitBackoff_speaking (s : HostSupervisor) : s.Speaking s.waitBackoff :=
  .silent rfl rfl (by simp)

theorem announceDisconnected_speaking {next : HostSupervisor × List HostObs}
    (h : s.Speaking next) : s.Speaking (s.announceDisconnected next) :=
  .cons (fun env h => .of_emitState h (by simp [HostState.isTerminal])) h

theorem start_speaking (s : HostSupervisor) : s.Speaking s.start := by
  unfold start
  split
  · refine .cons (fun env h => .of_emitState h (by simp)) ?_
    exact .silent rfl rfl (by simp)
  · exact announceDisconnected_speaking s.loopTop_speaking

theorem handle_speaking {action : HostAction} {r : HostSupervisor × List HostObs}
    (h : s.handle action = some r) : s.Speaking r := by
  unfold handle at h
  dsimp only at h
  split at h
  all_goals cases h
  · refine .cons (fun env h => .of_emitState h (by simp)) ?_
    exact .silent rfl rfl (by simp)
  · exact .silent rfl rfl (by simp)
  · exact (loopTop_speaking _).congr rfl rfl
  · exact s.loopTop_speaking
  · exact (loopTop_speaking _).congr rfl rfl
  · exact announceDisconnected_speaking ((loopTop_speaking _).congr rfl rfl)
  · exact .silent rfl rfl (by simp)
  · exact .silent rfl rfl (by simp)
  · exact announceDisconnected_speaking ((loopTop_speaking _).congr rfl rfl)
  · exact .silent rfl rfl (by simp)
  · exact (loopTop_speaking _).congr rfl rfl
  · exact (loopTop_speaking _).congr rfl rfl

theorem close_speaking {r : HostSupervisor × List HostObs} (h : s.close = some r) :
    s.Speaking r := by
  unfold close at h
  split at h
  all_goals cases h
  all_goals exact .silent rfl rfl (by simp)

theorem connectDone_speaking (started : Nat) (outcome : Option (Except SshError Unit)) :
    s.Speaking (s.connectDone started outcome) := by
  unfold connectDone
  split
  · exact announceDisconnected_speaking s.waitBackoff_speaking
  · refine .cons (fun env h => .of_emitState h (by simp [HostState.isTerminal])) ?_
    exact .silent rfl rfl (by simp)
  · refine .cons (fun env h => .of_emitState h (by simp)) ?_
    exact .silent rfl rfl (by simp)
  · refine .cons (fun env h => .of_emitState h (by simp)) ?_
    exact .silent rfl rfl (by simp)
  · exact announceDisconnected_speaking s.waitBackoff_speaking

theorem heartbeat_speaking (started deadline missCounter : Nat) (currentState : HostState)
    (sendOk : Bool) :
    s.Speaking (s.heartbeat started deadline missCounter currentState sendOk) := by
  unfold heartbeat
  dsimp only
  repeat' split
  · refine .cons (fun env h => .of_emitState h (by simp [HostState.isTerminal])) ?_
    exact .silent rfl rfl (by simp)
  · exact .silent rfl rfl (by simp)
  · exact .silent rfl rfl (by simp)
  · refine .cons (fun env h => .of_emitState h (by simp [HostState.isTerminal])) ?_
    exact .silent rfl rfl (by simp)
  · exact .silent rfl rfl (by simp)

theorem afterSession_speaking (started : Nat) (ended : ConnectedOutcome) :
    s.Speaking (s.afterSession started ended) := by
  cases ended with
  | heartbeatFailed =>
    exact announceDisconnected_speaking ((waitBackoff_speaking _).congr rfl rfl)
  | reconnectRequested =>
    exact announceDisconnected_speaking ((loopTop_speaking _).congr rfl rfl)
  | disconnectRequested =>
    exact announceDisconnected_speaking ((loopTop_speaking _).congr rfl rfl)
  | shutdown => exact .silent rfl rfl (by simp)

theorem step_speaking {input : HostInput} {r : HostSupervisor × List HostObs}
    (h : s.step input = some r) : s.Speaking r := by
  cases stretch_of_step h with
  | elapse millis => exact .silent rfl rfl (by simp)
  | start => exact s.start_speaking
  | action hr => exact .cons (fun env h => by cases h) (handle_speaking hr)
  | closed hr => exact close_speaking hr
  | connectDone outcome => exact connectDone_speaking _ outcome
  | deployed capabilities =>
    refine .cons (fun env h => .of_emitAgentCapabilities h) ?_
    exact .silent rfl rfl (by simp)
  | heartbeat sendOk =>
    exact .cons (fun env h => by cases h) (heartbeat_speaking _ _ _ _ sendOk)
  | agentRemoved =>
    refine .cons (fun env h => .of_emitAgentCapabilities h) ?_
    exact .cons (fun env h => by cases h) (afterSession_speaking _ _)
  | slept hphase hdue hr =>
    subst hr
    exact .cons (fun env h => by cases h) ((loopTop_speaking _).congr rfl rfl)

end HostSupervisor

/-- The channel only decides whether the supervisor can take the input. -/
theorem FleetHost.supervisor_of_step {host host' : FleetHost} {orphaned : Bool} {input : HostInput}
    {obs : List HostObs} (h : host.step orphaned input = some (host', obs)) :
    host.supervisor.step input = some (host'.supervisor, obs) ∧
      (orphaned = false → input ≠ .closed) := by
  unfold step at h
  dsimp only at h
  split at h
  next =>
    split at h
    next =>
      obtain ⟨r, hr, heq⟩ := Option.map_eq_some_iff.mp h
      cases heq
      exact ⟨hr, by simp⟩
    next => cases h
  next => cases h
  next =>
    split at h
    next horphaned =>
      obtain ⟨r, hr, heq⟩ := Option.map_eq_some_iff.mp h
      cases heq
      exact ⟨hr, by simp [horphaned]⟩
    next => cases h
  next => cases h
  next hclosed _ =>
    obtain ⟨r, hr, heq⟩ := Option.map_eq_some_iff.mp h
    cases heq
    refine ⟨hr, ?_⟩
    rintro - rfl
    cases hactions : host.actions <;> simp_all

theorem FleetHost.step_speaking {host host' : FleetHost} {orphaned : Bool} {input : HostInput}
    {obs : List HostObs} (h : host.step orphaned input = some (host', obs)) :
    host.supervisor.Speaking (host'.supervisor, obs) :=
  HostSupervisor.step_speaking (supervisor_of_step h).1

/-- What a Fleet subscription is sent after its list of hosts. -/
inductive FleetNews (id : Nat) : Envelope → Prop
  | state {hostAlias state reason} : (state.isTerminal = true → reason.isSome = true) →
      FleetNews id (eventFrame id (.hostStateChanged hostAlias state reason))
  | capabilities {hostAlias capabilities} :
      FleetNews id (eventFrame id (.agentCapabilities hostAlias capabilities))
  | result {result} : FleetNews id (envelope (.fleetActionResult result))

namespace ForwardFleet

/-- One list of hosts, and then news of them. -/
def ListFirst (id : Nat) (tr : List Envelope) : Prop :=
  ∃ hosts source news, tr = hostListEnvelope id hosts source :: news ∧ ∀ env ∈ news, FleetNews id env

theorem ListFirst.append {id : Nat} {tr out : List Envelope} (h : ListFirst id tr)
    (hout : ∀ env ∈ out, FleetNews id env) : ListFirst id (tr ++ out) := by
  obtain ⟨hosts, source, news, rfl, hnews⟩ := h
  refine ⟨hosts, source, news ++ out, rfl, ?_⟩
  intro env henv
  rcases List.mem_append.mp henv with henv | henv
  · exact hnews env henv
  · exact hout env henv

/-- Nothing is sent before the list, and no supervisor is there to send anything. -/
structure Announced (tr : List Envelope) (s : ForwardFleet) : Prop where
  subscription : ∀ host ∈ s.hosts, host.supervisor.subscriptionId = s.subscriptionId
  listed : if s.coordinator = .discovering ∨ s.coordinator = .returned then
    tr = [] ∧ s.hosts = [] else ListFirst s.subscriptionId tr

variable {s s' : ForwardFleet} {tr out : List Envelope}

theorem dispatch_news (req : FleetActionRequest) : (s.dispatch req).1.coordinator = s.coordinator ∧
    (s.dispatch req).1.subscriptionId = s.subscriptionId ∧
    (∀ env ∈ (s.dispatch req).2, FleetNews s.subscriptionId env) ∧
    ∀ host ∈ (s.dispatch req).1.hosts, ∃ host' ∈ s.hosts, host.supervisor = host'.supervisor := by
  have hone : ∀ outcome, ∀ env ∈ [fleetActionResultEnvelope req outcome],
      FleetNews s.subscriptionId env := by
    intro outcome env henv
    rw [List.mem_singleton.mp henv]
    exact .result
  unfold dispatch
  split
  next i _ =>
    split
    next host hi =>
      split
      next => exact ⟨rfl, rfl, hone _, fun host h => ⟨host, h, rfl⟩⟩
      next =>
        refine ⟨rfl, rfl, hone _, ?_⟩
        intro host' hmem
        rcases List.mem_or_eq_of_mem_set hmem with hmem | rfl
        · exact ⟨host', hmem, rfl⟩
        · exact ⟨host, List.mem_of_getElem? hi, rfl⟩
    next => exact ⟨rfl, rfl, by simp, fun host h => ⟨host, h, rfl⟩⟩
  next => exact ⟨rfl, rfl, hone _, fun host h => ⟨host, h, rfl⟩⟩

theorem announced_step {act : FleetAct} (h : s.Announced tr) (hs : s.step act = some (s', out)) :
    s'.subscriptionId = s.subscriptionId ∧ s'.Announced (tr ++ out) := by
  obtain ⟨hsub, hlisted⟩ := h
  cases act with
  | discovered result =>
    obtain ⟨hd, heq⟩ := Option.ite_none_right_eq_some.mp hs
    rw [if_pos (.inl hd)] at hlisted
    obtain ⟨rfl, hnone⟩ := hlisted
    cases result with
    | found hosts source autoconnect =>
      cases heq
      refine ⟨rfl, ?_, ?_⟩
      · intro host hhost
        obtain ⟨entry, -, rfl⟩ := List.mem_map.mp hhost
        rfl
      · exact ⟨hosts, source, [], rfl, by simp⟩
    | failed error =>
      cases heq
      exact ⟨rfl, hsub, [], _, [], rfl, by simp⟩
    | panicked =>
      cases heq
      exact ⟨rfl, hsub, rfl, hnone⟩
  | dispatch req =>
    obtain ⟨hd, heq⟩ := Option.ite_none_right_eq_some.mp hs
    have hdispatch := s.dispatch_news req
    rw [Option.some.inj heq] at hdispatch
    obtain ⟨hcoord, hid, hnews, hhosts⟩ := hdispatch
    refine ⟨hid, ?_, ?_⟩
    · intro host hhost
      obtain ⟨host', hmem, heq⟩ := hhosts host hhost
      rw [heq, hid, hsub host' hmem]
    · rw [show s'.coordinator = .dispatching from hcoord.trans hd, if_neg (by decide), hid]
      rw [hd, if_neg (by decide)] at hlisted
      exact hlisted.append hnews
  | park =>
    obtain ⟨⟨hd, -⟩, heq⟩ := Option.ite_none_right_eq_some.mp hs
    cases heq
    rw [hd, if_neg (by decide)] at hlisted
    rw [List.append_nil]
    exact ⟨rfl, hsub, hlisted⟩
  | supervisor i input =>
    simp only [step] at hs
    split at hs
    next host hi =>
      obtain ⟨r, hr, heq⟩ := Option.map_eq_some_iff.mp hs
      cases heq
      have hmem := List.mem_of_getElem? hi
      have hspeaking := FleetHost.step_speaking hr
      have hid : r.1.supervisor.subscriptionId = s.subscriptionId :=
        hspeaking.subscription.trans (hsub host hmem)
      refine ⟨rfl, ?_, ?_⟩
      · intro host' hhost
        rcases List.mem_or_eq_of_mem_set hhost with hhost | rfl
        · exact hsub host' hhost
        · exact hid
      · split at hlisted
        next =>
          rw [hlisted.2] at hmem
          cases hmem
        next hlater =>
          show if s.coordinator = .discovering ∨ s.coordinator = .returned then _ else _
          rw [if_neg hlater]
          refine hlisted.append ?_
          intro env henv
          obtain ⟨o, ho, hsent⟩ := List.mem_filterMap.mp henv
          cases o with
          | sent env' =>
            cases hsent
            rw [← hsub host hmem]
            cases hspeaking.sends env ho with
            | state hreason => exact .state hreason
            | capabilities => exact .capabilities
          | attempt | handled | heartbeat | sessionEnded | sessionHeld | backingOff | slept =>
            cases hsent
    next => cases hs

end ForwardFleet

/-- The list of hosts is sent once, and before what the supervisors say. -/
theorem forwardFleet_announced {subscriptionId : Nat} {tr : List Envelope} {s : ForwardFleet}
    (h : Run (forwardFleet subscriptionId) Free tr s) : s.Announced tr := by
  refine h.invariant (I := fun tr s => s.Announced tr) ?_ fun _ _ _ _ _ _ ha _ hs =>
    (ForwardFleet.announced_step ha hs).2
  rintro s rfl
  exact ⟨by simp [ForwardFleet.new], rfl, rfl⟩

end Tepegoz
