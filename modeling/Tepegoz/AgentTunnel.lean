import Tepegoz.ActionAnswers
import Tepegoz.IdTranslation
import Tepegoz.VersionGate

namespace Tepegoz

open Transition

structure AgentInfo where
  version : Nat
  os : String
  arch : String
  capabilities : List String
  deriving DecidableEq

/-- What `handshake_agent` finds wrong with a response. -/
inductive HandshakeError
  | requestIdMismatch (sent got : Nat)
  | agentVersionMismatch (embedded reported : Nat)
  | agentError (info : ErrorInfo)
  | unexpected (payload : Payload)
  deriving DecidableEq

def handshakeRequestId : Nat := 1

def handshakeRequest (expectedVersion : Nat) : Envelope :=
  ⟨expectedVersion, .agentHandshake handshakeRequestId⟩

def handshakeAgent (expectedVersion : Nat) (response : Envelope) : Except HandshakeError AgentInfo :=
  match response.payload with
  | .agentHandshakeResponse echoed version os arch capabilities =>
    if echoed ≠ handshakeRequestId then .error (.requestIdMismatch handshakeRequestId echoed)
    else if version ≠ expectedVersion then .error (.agentVersionMismatch expectedVersion version)
    else .ok ⟨version, os, arch, capabilities⟩
  | .error info => .error (.agentError info)
  | payload => .error (.unexpected payload)

/-- The daemon, the agent at the far end of each connection, and the frames on their way between them,
oldest first. -/
structure Tunnel where
  world : World
  agents : ConnId → AgentServe
  inbound : ConnId → List Envelope
  outbound : ConnId → List Envelope

/-- `daemon` is a step of the daemon that no agent takes part in, `hangUp` the end of an agent's stdin. -/
inductive TunnelAct
  | daemon (a : Act)
  | handshake (j : SupId) (docker : Bool)
  | read (k : ConnId) (docker : Bool)
  | beside (k : ConnId) (act : AgentAct)
  | hangUp (k : ConnId)
  | deliver (k : ConnId)

/-- `took` tells that an agent read a request for an action and spawned a task for it, `ran` that such
a task carried the action out. -/
inductive TunnelObs
  | daemon (o : Obs)
  | took (k : ConnId) (req : DockerActionRequest)
  | ran (k : ConnId) (req : DockerActionRequest)
  deriving DecidableEq

def Act.ofAgent : Act → Bool
  | .agentFrame _ _ | .supervisor _ (.handshaken _) => true
  | _ => false

/-- What the daemon writes to the agent of connection `k`. -/
def Obs.sentTo (k : ConnId) : Obs → Option Envelope
  | .toAgent _ k' payload => if k' = k then some (envelope payload) else none
  | _ => none

def PeerObs.answer : PeerObs Envelope → Option Envelope
  | .seen env => some env
  | .executed _ => none

def PeerObs.took (k : ConnId) : PeerObs Envelope → Option TunnelObs
  | .executed ⟨_, .dockerAction req⟩ => some (.took k req)
  | _ => none

def AgentAct.ran (k : ConnId) : AgentAct → List TunnelObs
  | .acted req _ => [.ran k req]
  | .emit _ _ => []

/-- Stands for the agents of connections that were not made yet. -/
def AgentServe.unborn : AgentServe := ⟨false, ∅, []⟩

namespace Tunnel

def initial : Tunnel := ⟨.initial, fun _ => .unborn, fun _ => [], fun _ => []⟩

def daemonDid (s : Tunnel) (r : World × List Obs) : Tunnel :=
  { s with world := r.1, inbound := fun k => s.inbound k ++ r.2.filterMap (·.sentTo k) }

def agentDid (s : Tunnel) (k : ConnId) (r : AgentServe × List (PeerObs Envelope)) : Tunnel :=
  { s with
    agents := Function.update s.agents k r.1
    outbound := Function.update s.outbound k (s.outbound k ++ r.2.filterMap (·.answer)) }

/-- `deploy_and_register_agent`, from the start of the agent to its handshake. -/
def greet (build : ConnId → AgentBuild) (s : Tunnel) (docker : Bool) :
    Option (AgentInfo × Tunnel) := do
  let k := s.world.connCount
  let started ← AgentServe.fresh.step (build k) (.received (handshakeRequest protocolVersion) docker)
  match started.2.filterMap (·.answer) with
  | [] => none
  | response :: rest =>
    match handshakeAgent protocolVersion response with
    | .error _ => none
    | .ok info => some (info, { s with
        agents := Function.update s.agents k started.1
        outbound := Function.update s.outbound k rest })

def step (build : ConnId → AgentBuild) (s : Tunnel) : TunnelAct → Option (Tunnel × List TunnelObs)
  | .daemon a =>
    if a.ofAgent then none
    else (s.world.step a).map fun r => (s.daemonDid r, r.2.map .daemon)
  | .handshake j docker =>
    (s.greet build docker).bind fun greeted =>
      (s.world.step (.supervisor j (.handshaken greeted.1.capabilities))).map fun r =>
        (greeted.2.daemonDid r, r.2.map .daemon)
  | .read k docker =>
    match s.inbound k with
    | [] => none
    | env :: rest => ((s.agents k).step (build k) (.received env docker)).map fun r =>
      ({ s.agentDid k r with inbound := Function.update s.inbound k rest }, r.2.filterMap (·.took k))
  | .beside k act =>
    ((s.agents k).step (build k) (.beside act)).map fun r => (s.agentDid k r, act.ran k)
  | .hangUp k => ((s.agents k).step (build k) .closed).map fun r => (s.agentDid k r, [])
  | .deliver k =>
    match s.outbound k with
    | [] => none
    | env :: rest => (s.world.step (.agentFrame k env)).map fun r =>
      ({ s.daemonDid r with outbound := Function.update s.outbound k rest }, r.2.map .daemon)

end Tunnel

def tunnel (build : ConnId → AgentBuild) : System Tunnel TunnelAct TunnelObs :=
  ⟨(· = .initial), Tunnel.step build⟩

def TunnelObs.ofDaemon : TunnelObs → Option Obs
  | .daemon o => some o
  | .took _ _ | .ran _ _ => none

def daemonTrace (tr : List TunnelObs) : List Obs := tr.filterMap (·.ofDaemon)

@[simp] theorem daemonTrace_append (tr out : List TunnelObs) :
    daemonTrace (tr ++ out) = daemonTrace tr ++ daemonTrace out := List.filterMap_append

@[simp] theorem daemonTrace_daemon (out : List Obs) : daemonTrace (out.map .daemon) = out := by
  simp [daemonTrace, List.filterMap_map, TunnelObs.ofDaemon]

@[simp] theorem daemonTrace_took {out : List (PeerObs Envelope)} {k : ConnId} :
    daemonTrace (out.filterMap (·.took k)) = [] := by
  refine List.filterMap_eq_nil_iff.mpr fun o ho => ?_
  obtain ⟨o', -, htook⟩ := List.mem_filterMap.mp ho
  unfold PeerObs.took at htook
  split at htook
  next => cases htook; rfl
  next => cases htook

@[simp] theorem daemonTrace_ran (act : AgentAct) (k : ConnId) : daemonTrace (act.ran k) = [] := by
  cases act <;> rfl

/-- The daemon sent the payload to the agent of connection `k`. -/
def Asked (tr : List Obs) (k : ConnId) (payload : Payload) : Prop :=
  ∃ c, .toAgent c k payload ∈ tr

/-- What an agent runs was asked for, and runs under the id that it was asked with. -/
structure AgentServe.Serving (asked : Payload → Prop) (s : AgentServe) : Prop where
  subs : ∀ d sub, s.agentSubs.lookup d = some sub → sub.id = d ∧ asked (.subscribe sub)
  actions : ∀ req ∈ s.actions, asked (.dockerAction req)

/-- A frame of an agent is of this version, and what it bears was asked for. -/
def Envelope.Answers (asked : Payload → Prop) (env : Envelope) : Prop :=
  env.version = protocolVersion ∧ match env.payload with
    | .event d event => ∃ sub, sub.id = d ∧ sub.mayEmit event = true ∧ asked (.subscribe sub)
    | .dockerActionResult result => asked (.dockerAction result.request)
    | _ => True

/-- The agents keep to what they were asked, and tell of themselves what they probed. -/
def AgentsAnswer (tr : List Obs) (_ : World) : Act → Prop
  | .agentFrame k env => env.Answers (Asked tr k)
  | .supervisor _ (.handshaken capabilities) => ∃ docker, capabilities = probeCapabilities docker
  | _ => True

namespace AgentServe

variable {build : AgentBuild} {asked asked' : Payload → Prop} {s s' : AgentServe}

theorem Serving.mono (h : s.Serving asked) (hle : ∀ payload, asked payload → asked' payload) :
    s.Serving asked' where
  subs d sub hl := (h.subs d sub hl).imp_right (hle _)
  actions req hm := hle _ (h.actions req hm)

theorem Serving.idle {reading : Bool} : (⟨reading, ∅, []⟩ : AgentServe).Serving asked where
  subs d sub hl := by cases hl
  actions req hm := by cases hm

theorem Serving.close (h : s.Serving asked) : s.close.Serving asked where
  subs d sub hl := by cases hl
  actions := h.actions

theorem Serving.insert {sub : Subscription} (h : s.Serving asked) (hasked : asked (.subscribe sub)) :
    ({ s with agentSubs := s.agentSubs.insert sub.id sub } : AgentServe).Serving asked where
  subs d sub' hl := by
    by_cases hd : d = sub.id
    · subst hd
      rw [AList.lookup_insert] at hl
      obtain rfl := Option.some.inj hl
      exact ⟨rfl, hasked⟩
    · rw [AList.lookup_insert_ne hd] at hl
      exact h.subs d sub' hl
  actions := h.actions

theorem Serving.erase (h : s.Serving asked) (id : Nat) :
    ({ s with agentSubs := s.agentSubs.erase id } : AgentServe).Serving asked where
  subs d sub hl := h.subs d sub (World.lookup_of_erase hl).1
  actions := h.actions

theorem Serving.handled {docker : Bool} {payload : Payload} (h : s.Serving asked)
    (hasked : asked payload) : (s.handleEnvelope build docker payload).1.Serving asked := by
  cases payload with
  | subscribe sub =>
    cases sub with
    | status | fleet => exact h
    | docker | dockerLogs | dockerStats | ports | processes => exact h.insert hasked
  | unsubscribe id => exact h.erase id
  | dockerAction req =>
    refine ⟨h.subs, fun req' hm => ?_⟩
    rcases List.mem_cons.mp hm with rfl | hm
    · exact hasked
    · exact h.actions req' hm
  | _ => exact h

/-- What an agent answers at once names no subscription and no action. -/
theorem handled_answers {docker : Bool} {payload : Payload} {env : Envelope}
    (hm : env ∈ (s.handleEnvelope build docker payload).2) : env.Answers asked := by
  have hone : ∀ {payload'}, payload'.subject = none → env ∈ [envelope payload'] → env.Answers asked := by
    intro payload' hnone hm
    obtain rfl := List.mem_singleton.mp hm
    refine ⟨rfl, ?_⟩
    cases payload' <;> trivial
  cases payload with
  | subscribe sub =>
    cases sub with
    | status | fleet => exact hone rfl hm
    | docker | dockerLogs | dockerStats | ports | processes => cases hm
  | unsubscribe | dockerAction => cases hm
  | _ => exact hone rfl hm

/-- An agent that reads only what it is asked serves, and sends, nothing else. -/
theorem Serving.step {act : PeerAct Bool AgentAct} {out : List (PeerObs Envelope)}
    (h : s.Serving asked) (hs : s.step build act = some (s', out))
    (hread : ∀ env docker, act = .received env docker → asked env.payload) :
    s'.Serving asked ∧ ∀ env ∈ out.filterMap (·.answer), env.Answers asked := by
  unfold AgentServe.step at hs
  split at hs
  next env docker =>
    split at hs
    next =>
      split at hs
      next =>
        cases hs
        refine ⟨h.close, fun env' hm => ?_⟩
        obtain rfl := List.mem_singleton.mp hm
        exact ⟨rfl, trivial⟩
      next =>
        cases hs
        refine ⟨h.handled (hread env docker rfl), fun env' hm => ?_⟩
        obtain ⟨o, ho, hanswer⟩ := List.mem_filterMap.mp hm
        rcases List.mem_cons.mp ho with rfl | ho
        · cases hanswer
        · obtain ⟨env'', hm'', rfl⟩ := List.mem_map.mp ho
          obtain rfl := Option.some.inj hanswer
          exact handled_answers hm''
    next => cases hs
  next =>
    split at hs
    next =>
      cases hs
      exact ⟨h.close, fun env' hm => by cases hm⟩
    next => cases hs
  next sub event =>
    split at hs
    next hsub =>
      cases hs
      refine ⟨h, fun env' hm => ?_⟩
      obtain rfl := List.mem_singleton.mp hm
      exact ⟨rfl, sub, rfl, hsub.2, (h.subs _ _ hsub.1).2⟩
    next => cases hs
  next req outcome =>
    split at hs
    next hreq =>
      cases hs
      refine ⟨⟨h.subs, fun req' hm => h.actions req' (List.mem_of_mem_erase hm)⟩, fun env' hm => ?_⟩
      obtain rfl := List.mem_singleton.mp hm
      exact ⟨rfl, h.actions req hreq⟩
    next => cases hs

end AgentServe

/-- Everything on its way, and everything the agents run, was asked for. -/
structure Tunnel.Faithful (tr : List Obs) (s : Tunnel) : Prop where
  inbound : ∀ k, ∀ env ∈ s.inbound k, env.version = protocolVersion ∧ Asked tr k env.payload
  serving : ∀ k, (s.agents k).Serving (Asked tr k)
  outbound : ∀ k, ∀ env ∈ s.outbound k, env.Answers (Asked tr k)

theorem Envelope.Answers.mono {asked asked' : Payload → Prop} {env : Envelope} (h : env.Answers asked)
    (hle : ∀ payload, asked payload → asked' payload) : env.Answers asked' := by
  obtain ⟨version, payload⟩ := env
  refine ⟨h.1, ?_⟩
  have hbears := h.2
  cases payload with
  | event d event =>
    obtain ⟨sub, hid, hemit, hasked⟩ := hbears
    exact ⟨sub, hid, hemit, hle _ hasked⟩
  | dockerActionResult result => exact hle _ hbears
  | _ => trivial

section Step

variable {build : ConnId → AgentBuild} {tr : List Obs} {s : Tunnel}

theorem Asked.old {out : List Obs} {k : ConnId} {payload : Payload} (h : Asked tr k payload) :
    Asked (tr ++ out) k payload := by
  obtain ⟨c, hm⟩ := h
  exact ⟨c, List.mem_append_left _ hm⟩

theorem Asked.of_sent {out : List Obs} {k : ConnId} {env : Envelope}
    (h : env ∈ out.filterMap (·.sentTo k)) : env.version = protocolVersion ∧ Asked out k env.payload := by
  obtain ⟨o, ho, hsent⟩ := List.mem_filterMap.mp h
  unfold Obs.sentTo at hsent
  split at hsent
  next c k' payload =>
    obtain ⟨rfl, heq⟩ := Option.ite_none_right_eq_some.mp hsent
    obtain rfl := Option.some.inj heq
    exact ⟨rfl, c, ho⟩
  next => cases hsent

namespace Tunnel

theorem faithful_initial : Faithful [] .initial where
  inbound k env hm := by cases hm
  serving k := .idle
  outbound k env hm := by cases hm

theorem Faithful.daemonDid (h : s.Faithful tr) (r : World × List Obs) :
    (s.daemonDid r).Faithful (tr ++ r.2) where
  inbound k env hm := by
    rcases List.mem_append.mp hm with hm | hm
    · exact (h.inbound k env hm).imp_right Asked.old
    · obtain ⟨hv, c, hc⟩ := Asked.of_sent hm
      exact ⟨hv, c, List.mem_append_right _ hc⟩
  serving k := (h.serving k).mono fun _ => Asked.old
  outbound k env hm := (h.outbound k env hm).mono fun _ => Asked.old

theorem Faithful.agentDid {k : ConnId} {r : AgentServe × List (PeerObs Envelope)} (h : s.Faithful tr)
    (hserving : r.1.Serving (Asked tr k))
    (hanswers : ∀ env ∈ r.2.filterMap (·.answer), env.Answers (Asked tr k)) :
    (s.agentDid k r).Faithful tr where
  inbound := h.inbound
  serving := (Function.forall_update_iff s.agents fun k agent => agent.Serving (Asked tr k)).mpr
    ⟨hserving, fun k' _ => h.serving k'⟩
  outbound := by
    refine (Function.forall_update_iff s.outbound
      fun k envs => ∀ env ∈ envs, env.Answers (Asked tr k)).mpr ⟨fun env hm => ?_, fun k' _ => h.outbound k'⟩
    rcases List.mem_append.mp hm with hm | hm
    · exact h.outbound k env hm
    · exact hanswers env hm

theorem Faithful.readRest {k : ConnId} {env : Envelope} {rest : List Envelope} (h : s.Faithful tr)
    (hin : s.inbound k = env :: rest) :
    ({ s with inbound := Function.update s.inbound k rest } : Tunnel).Faithful tr where
  inbound := (Function.forall_update_iff s.inbound fun k envs =>
    ∀ env ∈ envs, env.version = protocolVersion ∧ Asked tr k env.payload).mpr
    ⟨fun env' hm => h.inbound k env' (hin ▸ List.mem_cons_of_mem _ hm), fun k' _ => h.inbound k'⟩
  serving := h.serving
  outbound := h.outbound

theorem Faithful.deliverRest {k : ConnId} {env : Envelope} {rest : List Envelope} (h : s.Faithful tr)
    (hout : s.outbound k = env :: rest) :
    ({ s with outbound := Function.update s.outbound k rest } : Tunnel).Faithful tr where
  inbound := h.inbound
  serving := h.serving
  outbound := (Function.forall_update_iff s.outbound
    fun k envs => ∀ env ∈ envs, env.Answers (Asked tr k)).mpr
    ⟨fun env' hm => h.outbound k env' (hout ▸ List.mem_cons_of_mem _ hm), fun k' _ => h.outbound k'⟩

/-- The agent of a new connection has answered the handshake, and nothing else. -/
theorem greet_eq {docker : Bool} :
    s.greet build docker = some (⟨protocolVersion, (build s.world.connCount).os,
      (build s.world.connCount).arch, probeCapabilities docker⟩, { s with
        agents := Function.update s.agents s.world.connCount .fresh
        outbound := Function.update s.outbound s.world.connCount [] }) := rfl

theorem Faithful.greeted (h : s.Faithful tr) (k : ConnId) :
    ({ s with
        agents := Function.update s.agents k .fresh
        outbound := Function.update s.outbound k [] } : Tunnel).Faithful tr where
  inbound := h.inbound
  serving := (Function.forall_update_iff s.agents fun k agent => agent.Serving (Asked tr k)).mpr
    ⟨.idle, fun k' _ => h.serving k'⟩
  outbound := (Function.forall_update_iff s.outbound
    fun k envs => ∀ env ∈ envs, env.Answers (Asked tr k)).mpr
    ⟨fun _ hm => absurd hm List.not_mem_nil, fun k' _ => h.outbound k'⟩

/-- What a step of the tunnel does: the daemon takes one of its own, which the far ends bear out, or an
agent moves and the daemon sees nothing of it. -/
theorem Faithful.step {act : TunnelAct} {s' : Tunnel} {out : List TunnelObs} (h : s.Faithful tr)
    (hs : s.step build act = some (s', out)) : s'.Faithful (tr ++ daemonTrace out) ∧
      (s'.world = s.world ∧ daemonTrace out = [] ∨
        ∃ a, AgentsAnswer tr s.world a ∧ s.world.step a = some (s'.world, daemonTrace out)) := by
  cases act with
  | daemon a =>
    simp only [Tunnel.step] at hs
    split at hs
    next => cases hs
    next hother =>
      obtain ⟨r, hr, heq⟩ := Option.map_eq_some_iff.mp hs
      cases heq
      rw [daemonTrace_daemon]
      refine ⟨h.daemonDid r, .inr ⟨a, ?_, hr⟩⟩
      cases a with
      | agentFrame => exact absurd rfl hother
      | supervisor j event => cases event <;> trivial
      | _ => trivial
  | handshake j docker =>
    simp only [Tunnel.step, greet_eq, Option.bind_some] at hs
    obtain ⟨r, hr, heq⟩ := Option.map_eq_some_iff.mp hs
    cases heq
    rw [daemonTrace_daemon]
    exact ⟨(h.greeted _).daemonDid r, .inr ⟨.supervisor j (.handshaken _), ⟨docker, rfl⟩, hr⟩⟩
  | read k docker =>
    simp only [Tunnel.step] at hs
    split at hs
    next => cases hs
    next env rest hin =>
      obtain ⟨r, hr, heq⟩ := Option.map_eq_some_iff.mp hs
      cases heq
      obtain ⟨hserving, hanswers⟩ := (h.serving k).step hr fun env' docker' heq => by
        cases heq
        exact (h.inbound k env (hin ▸ List.mem_cons_self)).2
      rw [daemonTrace_took, List.append_nil]
      exact ⟨(h.agentDid hserving hanswers).readRest hin, .inl ⟨rfl, rfl⟩⟩
  | beside k act =>
    obtain ⟨r, hr, heq⟩ := Option.map_eq_some_iff.mp hs
    cases heq
    obtain ⟨hserving, hanswers⟩ := (h.serving k).step hr fun env docker heq => by cases heq
    rw [daemonTrace_ran, List.append_nil]
    exact ⟨h.agentDid hserving hanswers, .inl ⟨rfl, rfl⟩⟩
  | hangUp k =>
    obtain ⟨r, hr, heq⟩ := Option.map_eq_some_iff.mp hs
    cases heq
    obtain ⟨hserving, hanswers⟩ := (h.serving k).step hr fun env docker heq => by cases heq
    refine ⟨?_, .inl ⟨rfl, rfl⟩⟩
    rw [show daemonTrace [] = [] from rfl, List.append_nil]
    exact h.agentDid hserving hanswers
  | deliver k =>
    simp only [Tunnel.step] at hs
    split at hs
    next => cases hs
    next env rest hout =>
      obtain ⟨r, hr, heq⟩ := Option.map_eq_some_iff.mp hs
      cases heq
      rw [daemonTrace_daemon]
      exact ⟨(h.daemonDid r).deliverRest hout,
        .inr ⟨.agentFrame k env, h.outbound k env (hout ▸ List.mem_cons_self), hr⟩⟩

end Tunnel

end Step

/-- What a run of the tunnel is to the daemon: one in which the agents answer what they were asked. -/
theorem faithful_of_run {build : ConnId → AgentBuild} {tr : List TunnelObs} {s : Tunnel}
    (h : Run (tunnel build) Free tr s) :
    s.Faithful (daemonTrace tr) ∧ Run daemon AgentsAnswer (daemonTrace tr) s.world := by
  have hfaithful : ∀ tr s, Run (tunnel build) Free tr s → s.Faithful (daemonTrace tr) := by
    intro tr s h
    refine h.invariant (I := fun tr s => s.Faithful (daemonTrace tr)) ?_ ?_
    · rintro _ rfl
      exact Tunnel.faithful_initial
    · intro tr s l s' out _ ih _ hs
      rw [daemonTrace_append]
      exact (ih.step hs).1
  refine ⟨hfaithful tr s h, h.simulated Tunnel.world (·.ofDaemon) ?_ ?_⟩
  · rintro _ rfl
    rfl
  · intro tr s l s' out hr _ hs
    exact ((hfaithful tr s hr).step hs).2

theorem Subscription.mayEmit_forwarded (sub : Subscription) (d : Nat) (event : Event) :
    (sub.forwarded d).mayEmit event = sub.mayEmit event := by
  cases sub <;> cases event <;> rfl

theorem Payload.routed_subscribe {payload : Payload} {call : RouteCall} {sub : Subscription}
    (h : payload.routed = some call) (hcall : call.request = .subscribe sub) :
    payload = .subscribe sub ∧ sub.target = some (.remote call.hostAlias) := by
  unfold routed at h
  split at h
  next sub' =>
    split at h
    next hostAlias scope capability htarget _ =>
      cases Option.some.inj h
      cases hcall
      exact ⟨rfl, htarget⟩
    next => cases h
  next =>
    split at h
    next =>
      cases Option.some.inj h
      cases hcall
    next => cases h
  next => cases h

section Origin

variable {ok : List Obs → World → Act → Prop} {tr : List Obs} {w : World} {c : ClientId} {k : ConnId}
  {d : Nat} {payload : Payload}

/-- A request at an agent is a client's own, made for the alias of the connection. -/
theorem request_issued (h : Run daemon ok tr w) (hm : .toAgent c k payload ∈ tr)
    (hopens : payload.opens = some d) : ∃ call : RouteCall, payload = call.forwarded d ∧
      .inserted k d (call.entry c) ∈ tr ∧ Issued tr c call ∧ (w.conns k).hostAlias = call.hostAlias := by
  refine h.invariant (I := fun tr w => .toAgent c k payload ∈ tr → ∃ call : RouteCall,
    payload = call.forwarded d ∧ .inserted k d (call.entry c) ∈ tr ∧ Issued tr c call ∧
      (w.conns k).hostAlias = call.hostAlias) (fun _ _ hm => by cases hm) ?_ hm
  intro tr w a w' out hr ih _ hs hm
  have hl := idLedger_of_run hr
  have hstep := World.routingStep_of_step hs
  rcases List.mem_append.mp hm with hm | hm
  · obtain ⟨call, heq, hins, hissued, halias⟩ := ih hm
    refine ⟨call, heq, List.mem_append_left _ hins, hissued.old, ?_⟩
    rw [hstep.hostAlias_kept (hl.born _ _ _ (hl.inserted _ _ _ hins))]
    exact halias
  · obtain ⟨call, hp, heq, -⟩ := hstep.sent_cases hm hopens
    obtain ⟨hissued, halias⟩ := (callsIssued_of_run hr).call c call _ hp
    refine ⟨call, heq, List.mem_append_left _ (hl.stage c call _ hp), hissued.old, ?_⟩
    rw [hstep.hostAlias_kept (hl.stage_born hp rfl)]
    exact halias k rfl

/-- The entry of a request at an agent is that of the client that made it. -/
theorem asked_by_entry {e : RoutedSub} (h : Run daemon ok tr w) (hasked : Asked tr k payload)
    (hopens : payload.opens = some d) (he : (w.conns k).routing.lookup d = some e) :
    ∃ call : RouteCall, payload = call.forwarded d ∧ call.entry e.client = e ∧
      Issued tr e.client call ∧ (w.conns k).hostAlias = call.hostAlias := by
  obtain ⟨c, hm⟩ := hasked
  obtain ⟨call, hpayload, hins, hissued, halias⟩ := request_issued h hm hopens
  have hl := idLedger_of_run h
  obtain rfl : call.entry c = e := hl.unique _ _ _ _ hins (hl.entry _ _ _ he)
  exact ⟨call, hpayload, rfl, hissued, halias⟩

/-- The client got an event of the kind that its own subscription is for, or the outcome of its own
action, which says `Local` for the host. -/
inductive OwnAnswer (tr : List Obs) (c : ClientId) (hostAlias : String) : Envelope → Prop
  | event {sub : Subscription} {event : Event} : .commanded c (.subscribe sub) ∈ tr →
      sub.target = some (.remote hostAlias) → sub.mayEmit event = true →
      OwnAnswer tr c hostAlias (eventFrame sub.id event)
  | result {req : DockerActionRequest} {outcome : DockerActionOutcome} :
      .commanded c (.dockerAction req) ∈ tr → req.target = .remote hostAlias →
      OwnAnswer tr c hostAlias (World.runDockerAction { req with target := .localTarget } outcome)

theorem OwnAnswer.old {out : List Obs} {hostAlias : String} {env : Envelope}
    (h : OwnAnswer tr c hostAlias env) : OwnAnswer (tr ++ out) c hostAlias env := by
  cases h with
  | event hm htarget hemit => exact .event (List.mem_append_left _ hm) htarget hemit
  | result hm htarget => exact .result (List.mem_append_left _ hm) htarget

theorem Sends.ownAnswer {a : Act} {env : Envelope} (h : Run daemon ok tr w)
    (hs : Sends w a c env (.agent k d)) (hok : AgentsAnswer tr w a) :
    OwnAnswer tr c (w.conns k).hostAlias env := by
  cases hs with
  | @relayed _ _ version event entry _ he =>
    obtain ⟨hversion, sub, hid, hemit, hasked⟩ := hok
    obtain rfl : version = protocolVersion := hversion
    obtain ⟨call, hpayload, hentry, ⟨payload, hm, hrouted⟩, halias⟩ :=
      asked_by_entry h hasked (congrArg some hid) he
    unfold RouteCall.forwarded at hpayload
    split at hpayload
    next sub' hcall =>
      obtain ⟨rfl, htarget⟩ := Payload.routed_subscribe hrouted hcall
      obtain rfl : sub = sub'.forwarded d := Payload.subscribe.inj hpayload
      rw [Subscription.mayEmit_forwarded] at hemit
      have hid' : entry.clientId = sub'.id := by
        rw [← hentry]
        simp [RouteCall.entry, RouteCall.clientId, hcall]
      rw [hid', halias]
      exact .event hm htarget hemit
    next => cases hpayload
  | @answered _ version result entry _ he hkind =>
    obtain ⟨hversion, hasked⟩ := hok
    obtain rfl : version = protocolVersion := hversion
    obtain ⟨call, hpayload, hentry, ⟨payload, hm, hrouted⟩, halias⟩ :=
      asked_by_entry h hasked rfl he
    unfold RouteCall.forwarded at hpayload
    split at hpayload
    next => cases hpayload
    next req hcall =>
      obtain ⟨rfl, -, haction⟩ := Payload.routed_action (c := entry.client) hrouted hcall
      have hid' : entry.clientId = req.requestId := by
        rw [← hentry]
        simp [RouteCall.entry, RouteCall.clientId, hcall]
      have htarget : req.target = .remote call.hostAlias := by
        unfold RoutedSub.action at haction
        split at haction
        next => exact (congrArg DockerActionRequest.target (Option.some.inj haction)).symm
        next => cases haction
      obtain ⟨requestId, containerId, kind, outcome, target⟩ := result
      cases Payload.dockerAction.inj hpayload
      rw [hid', halias]
      exact .result hm htarget

end Origin

/-- With agents that run `serve` at the far ends, whatever is still on its way, an envelope from an
agent answers what its client asked of the host: it is an event of a kind that the client's subscription
is for, under the id of that subscription, or the outcome of the client's action. -/
theorem agents_answer_clients {build : ConnId → AgentBuild} {tr : List TunnelObs} {s : Tunnel}
    (h : Run (tunnel build) Free tr s) {pre post : List Obs} {c : ClientId} {env : Envelope}
    {k : ConnId} {d : Nat} (htr : daemonTrace tr = pre ++ .toClient c env (.agent k d) :: post) :
    OwnAnswer pre c (s.world.conns k).hostAlias env := by
  refine ((faithful_of_run h).2.observed_lasting (P := fun w pre o => ∀ c env k d,
    o = .toClient c env (.agent k d) → (∃ e, .inserted k d e ∈ pre) ∧
      OwnAnswer pre c (w.conns k).hostAlias env) ?_ ?_ pre _ post htr c env k d rfl).2
  · rintro tr w a w' out hr hs pre _ post rfl hP c env k d rfl
    obtain ⟨⟨e, hins⟩, hown⟩ := hP c env k d rfl
    have hl := idLedger_of_run hr
    refine ⟨⟨e, hins⟩, ?_⟩
    rw [(World.routingStep_of_step hs).hostAlias_kept
      (hl.born _ _ _ (hl.inserted _ _ _ (List.mem_append_left _ hins)))]
    exact hown
  · rintro tr w a w' out hr hok hs pre _ post rfl c env k d rfl
    have hl := idLedger_of_run hr
    have hsends := World.sends_of_step hs (List.mem_append_right _ List.mem_cons_self)
    obtain ⟨e, hins, -⟩ := hsends.entry hl rfl
    refine ⟨⟨e, List.mem_append_left _ hins⟩, ?_⟩
    rw [(World.routingStep_of_step hs).hostAlias_kept (hl.born _ _ _ (hl.inserted _ _ _ hins))]
    exact (hsends.ownAnswer hr hok).old

/-- Client 0 gets an agent on `h` and has it kill a container. -/
def killAtAgent : List TunnelAct :=
  [.daemon (.connect 0), .daemon (.command 0 (.subscribe (.fleet 1)) .none), .daemon (.spawn 0 0 1 "h"),
    .daemon (.supervisor 0 .connected), .handshake 0 true, .daemon (.supervisor 0 .register),
    .daemon (killBy 0 "h"), .daemon (.route 0), .daemon (.route 0), .daemon (.route 0), .read 0 true,
    .beside 0 (.acted ⟨1, "db", .kill, .localTarget⟩ .success), .deliver 0]

theorem agents_answer_clients_killed : ∃ tr s, Run (tunnel fun _ => ⟨"linux", "x86_64"⟩) Free tr s ∧
    ∃ pre post env, daemonTrace tr = pre ++ .toClient 0 env (.agent 0 1) :: post ∧
      OwnAnswer pre 0 (s.world.conns 0).hostAlias env := by
  obtain ⟨tr, s, hr, hm⟩ := Run.of_replay (tunnel fun _ => ⟨"linux", "x86_64"⟩) Free
    (fun tr _ => Obs.toClient 0 (World.runDockerAction ⟨9, "db", .kill, .localTarget⟩ .success)
      (.agent 0 1) ∈ daemonTrace tr) rfl killAtAgent (by decide)
  obtain ⟨pre, post, htr⟩ := List.append_of_mem hm
  exact ⟨tr, s, hr, pre, post, _, htr, agents_answer_clients hr htr⟩

end Tepegoz
