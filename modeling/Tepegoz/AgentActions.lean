import Tepegoz.AgentTunnel

namespace Tepegoz

open Transition

/-- The agent-side id that the daemon opens at the agent of connection `k`. -/
def Obs.opened (k : ConnId) : Obs → Option Nat
  | .toAgent _ k' payload => if k' = k then payload.opens else none
  | _ => none

def Payload.action : Payload → Option DockerActionRequest
  | .dockerAction req => some req
  | _ => none

/-- The action that the daemon sends to the agent of connection `k`. -/
def Obs.actionTo (k : ConnId) (o : Obs) : Option DockerActionRequest :=
  (o.sentTo k).bind (·.payload.action)

def TunnelObs.tookBy (k : ConnId) : TunnelObs → Option DockerActionRequest
  | .took k' req => if k' = k then some req else none
  | .daemon _ | .ran _ _ => none

/-- The client's action got a routing entry. -/
def Obs.inserts (w : World) (c : ClientId) (req : DockerActionRequest) : Obs → Bool
  | .inserted k _ e => e.client = c ∧ e.action (w.conns k).hostAlias = some req
  | _ => false

/-- The agent takes up the client's action. -/
def TunnelObs.takesFor (tr : List Obs) (w : World) (c : ClientId) (req : DockerActionRequest) :
    TunnelObs → Bool
  | .took k r => tr.any fun o => match o with
    | .inserted k' d e => k' = k ∧ d = r.requestId ∧ e.client = c ∧
        e.action (w.conns k).hostAlias = some req
    | _ => false
  | .daemon _ | .ran _ _ => false

/-- The stage of a call that has an id but was not sent yet. -/
def CallStage.unsent : CallStage → Option (ConnId × Nat)
  | .allocated k d | .inserted k d => some (k, d)
  | _ => none

/-- Every id was opened at most once, and those that calls are still to send were not. -/
structure OpenedOnce (tr : List Obs) (w : World) : Prop where
  nodup : ∀ k, (tr.filterMap (·.opened k)).Nodup
  unsent : ∀ c call stage k d, (w.sessions c).phase = .routing call stage →
    stage.unsent = some (k, d) → d ∉ tr.filterMap (·.opened k)

section Opened

variable {ok : List Obs → World → Act → Prop} {tr out : List Obs} {w w' : World} {a : Act} {k : ConnId}
  {d : Nat}

theorem Obs.opened_eq_some {o : Obs} (h : o.opened k = some d) :
    ∃ c payload, o = .toAgent c k payload ∧ payload.opens = some d := by
  unfold opened at h
  split at h
  next c k' payload =>
    obtain ⟨rfl, hopens⟩ := Option.ite_none_right_eq_some.mp h
    exact ⟨c, payload, rfl, hopens⟩
  next => cases h

/-- A step opens one id at most, that of a call which is done then. -/
theorem RoutingStep.opened_cases (h : RoutingStep w a w' out) (k : ConnId) :
    out.filterMap (·.opened k) = [] ∨
      ∃ c call d, (w.sessions c).phase = .routing call (.inserted k d) ∧
        (w'.sessions c).phase = .ready ∧ out.filterMap (·.opened k) = [d] := by
  cases hout : out.filterMap (·.opened k) with
  | nil => exact .inl rfl
  | cons d ds =>
    obtain ⟨o, ho, hd⟩ := List.mem_filterMap.mp (hout ▸ List.mem_cons_self)
    obtain ⟨c, payload, rfl, hopens⟩ := Obs.opened_eq_some hd
    obtain ⟨call, hp, -, hready, rfl⟩ := h.sent_cases ho hopens
    refine .inr ⟨c, call, d, hp, hready, ?_⟩
    rw [← hout, List.filterMap_cons_some hd]
    rfl

/-- An id that was opened had been allocated. -/
theorem allocated_of_opened (h : Run daemon ok tr w) (hm : d ∈ tr.filterMap (·.opened k)) :
    ∃ c, .allocated c k d ∈ tr := by
  obtain ⟨o, ho, hd⟩ := List.mem_filterMap.mp hm
  obtain ⟨c, payload, rfl, hopens⟩ := Obs.opened_eq_some hd
  obtain ⟨call, -, hins⟩ := request_recorded h ho hopens
  exact ⟨_, (idLedger_of_run h).inserted _ _ _ hins⟩

theorem CallStage.unsent_allocated {c : ClientId} {call : RouteCall} {stage : CallStage}
    (h : IdLedger tr w) (hp : (w.sessions c).phase = .routing call stage)
    (hunsent : stage.unsent = some (k, d)) : .allocated c k d ∈ tr := by
  have hrecorded := h.stage c call stage hp
  cases stage with
  | lookup | rollback => cases hunsent
  | allocated k' d' =>
    cases hunsent
    exact hrecorded.1
  | inserted k' d' =>
    cases hunsent
    exact h.inserted _ _ _ hrecorded

theorem OpenedOnce.step (h : OpenedOnce tr w) (hr : Run daemon ok tr w) (hs : RoutingStep w a w' out) :
    OpenedOnce (tr ++ out) w' := by
  have hl := idLedger_of_run hr
  constructor
  · intro k
    rw [List.filterMap_append]
    rcases hs.opened_cases k with hnone | ⟨c, call, d, hp, -, hone⟩
    · rw [hnone, List.append_nil]
      exact h.nodup k
    · rw [hone]
      refine List.nodup_append.mpr ⟨h.nodup k, List.nodup_singleton d, ?_⟩
      rintro d' hd' _ hd rfl
      obtain rfl := List.mem_singleton.mp hd
      exact h.unsent c call _ k d' hp rfl hd'
  · intro c call stage k d hp hunsent hm
    rw [List.filterMap_append] at hm
    rcases hs.call_cases hp with ⟨rfl, -⟩ | ⟨stage', hp', hnext⟩
    · cases hunsent
    · -- an id that is new was not allocated before, hence not opened
      have hold : stage'.unsent = some (k, d) ∨ d = (w.conns k).nextSubId := by
        cases hnext with
        | same => exact .inl hunsent
        | allocated _ =>
          cases hunsent
          exact .inr rfl
        | inserted => exact .inl hunsent
        | sendFailed _ => cases hunsent
      rcases List.mem_append.mp hm with hm | hm
      · rcases hold with hold | rfl
        · exact h.unsent c call stage' k d hp' hold hm
        · obtain ⟨c', halloc⟩ := allocated_of_opened hr hm
          exact Nat.lt_irrefl _ (hl.fresh _ _ _ halloc)
      · rcases hs.opened_cases k with hnone | ⟨c', call', d', hp'', hready, hone⟩
        · rw [hnone] at hm
          cases hm
        · rw [hone] at hm
          obtain rfl := List.mem_singleton.mp hm
          have halloc := CallStage.unsent_allocated hl hp'' rfl
          rcases hold with hold | rfl
          · obtain rfl := hl.owner _ _ _ _ halloc (CallStage.unsent_allocated hl hp' hold)
            rw [hready] at hp
            cases hp
          · exact Nat.lt_irrefl _ (hl.fresh _ _ _ halloc)

theorem openedOnce_of_run (h : Run daemon ok tr w) : OpenedOnce tr w := by
  refine h.invariant ?_ ?_
  · rintro _ rfl
    exact ⟨fun k => List.nodup_nil, fun c call stage k d hp => by cases hp⟩
  · intro tr w a w' out hr ih _ hs
    exact ih.step hr (World.routingStep_of_step hs)

end Opened

section Fifo

variable {build : ConnId → AgentBuild} {tr : List TunnelObs} {s s' : Tunnel} {k : ConnId}

theorem filterMap_tookBy_daemon {out : List Obs} :
    (out.map TunnelObs.daemon).filterMap (·.tookBy k) = [] := by
  simp [TunnelObs.tookBy, List.filterMap_map]

theorem filterMap_actionTo {out : List Obs} :
    (out.filterMap (·.sentTo k)).filterMap (·.payload.action) = out.filterMap (·.actionTo k) :=
  List.filterMap_filterMap

/-- An agent that reads a frame of this version takes up the action in it, if there is one. -/
theorem AgentServe.took_of_received {b : AgentBuild} {a a' : AgentServe} {env : Envelope} {docker : Bool}
    {out : List (PeerObs Envelope)} (h : a.step b (.received env docker) = some (a', out))
    (hversion : env.version = protocolVersion) (k' : ConnId) :
    (out.filterMap (·.took k)).filterMap (·.tookBy k') =
      if k = k' then env.payload.action.toList else [] := by
  obtain ⟨version, payload⟩ := env
  obtain rfl : version = protocolVersion := hversion
  have hseen : ∀ envs : List Envelope,
      (envs.map PeerObs.seen).filterMap (·.took k) = [] := by
    intro envs
    simp [PeerObs.took, List.filterMap_map]
  simp only [step, ne_eq, not_true_eq_false, if_false, Option.ite_none_right_eq_some,
    Option.some.injEq, Prod.mk.injEq] at h
  obtain ⟨-, -, rfl⟩ := h
  rw [List.filterMap_cons, hseen]
  cases payload with
  | dockerAction req =>
    by_cases hk : k = k'
    · simp [PeerObs.took, Payload.action, TunnelObs.tookBy, hk]
    · simp [PeerObs.took, TunnelObs.tookBy, hk]
  | _ => simp [PeerObs.took, Payload.action]

/-- What the agent took up and what it is still to read is what it was sent, in order. -/
def Tunnel.InOrder (tr : List TunnelObs) (s : Tunnel) : Prop :=
  ∀ k, tr.filterMap (·.tookBy k) ++ (s.inbound k).filterMap (·.payload.action) =
    (daemonTrace tr).filterMap (·.actionTo k)

theorem Tunnel.InOrder.daemonDid {out : List TunnelObs} (h : s.InOrder tr) (r : World × List Obs)
    (htook : ∀ k, out.filterMap (·.tookBy k) = []) (hout : daemonTrace out = r.2) :
    (s.daemonDid r).InOrder (tr ++ out) := by
  intro k
  have hk := h k
  rw [daemonTrace_append, hout, List.filterMap_append, List.filterMap_append, htook, List.append_nil,
    ← hk, List.append_assoc]
  simp only [Tunnel.daemonDid, List.filterMap_append, filterMap_actionTo]

theorem Tunnel.InOrder.step {act : TunnelAct} {out : List TunnelObs} (h : s.InOrder tr)
    (hf : s.Faithful (daemonTrace tr)) (hs : s.step build act = some (s', out)) :
    s'.InOrder (tr ++ out) := by
  cases act with
  | daemon a =>
    simp only [Tunnel.step] at hs
    split at hs
    next => cases hs
    next =>
      obtain ⟨r, -, heq⟩ := Option.map_eq_some_iff.mp hs
      cases heq
      exact h.daemonDid r (fun k => filterMap_tookBy_daemon) (daemonTrace_daemon _)
  | handshake j docker =>
    simp only [Tunnel.step, greet_eq, Option.bind_some] at hs
    obtain ⟨r, -, heq⟩ := Option.map_eq_some_iff.mp hs
    cases heq
    exact Tunnel.InOrder.daemonDid (s := { s with agents := _, outbound := _ }) h r
      (fun k => filterMap_tookBy_daemon) (daemonTrace_daemon _)
  | read k docker =>
    simp only [Tunnel.step] at hs
    split at hs
    next => cases hs
    next env rest hin =>
      obtain ⟨r, hr, heq⟩ := Option.map_eq_some_iff.mp hs
      cases heq
      have htook := AgentServe.took_of_received (k := k) hr
        (hf.inbound k env (hin ▸ List.mem_cons_self)).1
      intro k'
      rw [daemonTrace_append, daemonTrace_took, List.append_nil, List.filterMap_append, htook, ← h k',
        List.append_assoc]
      by_cases hk : k = k'
      · subst hk
        simp only [Function.update_self, hin, if_true, List.filterMap_cons]
        cases env.payload.action <;> rfl
      · simp only [Function.update_of_ne (Ne.symm hk), if_neg hk, List.nil_append]
  | beside k act =>
    obtain ⟨r, -, heq⟩ := Option.map_eq_some_iff.mp hs
    cases heq
    intro k'
    have hnone : (act.ran k).filterMap (·.tookBy k') = [] := by cases act <;> rfl
    rw [daemonTrace_append, daemonTrace_ran, List.append_nil, List.filterMap_append, hnone, List.append_nil]
    exact h k'
  | hangUp k =>
    obtain ⟨r, -, heq⟩ := Option.map_eq_some_iff.mp hs
    cases heq
    rw [List.append_nil]
    exact h
  | deliver k =>
    simp only [Tunnel.step] at hs
    split at hs
    next => cases hs
    next env rest hout =>
      obtain ⟨r, -, heq⟩ := Option.map_eq_some_iff.mp hs
      cases heq
      exact h.daemonDid r (fun k => filterMap_tookBy_daemon) (daemonTrace_daemon _)

theorem inOrder_of_run (h : Run (tunnel build) Free tr s) : s.InOrder tr := by
  refine h.invariant ?_ ?_
  · rintro _ rfl
    exact fun k => rfl
  · intro tr s l s' out hr ih _ hs
    exact ih.step (faithful_of_run hr).1 hs

end Fifo

section Spawned

variable {build : ConnId → AgentBuild} {tr : List TunnelObs} {s s' : Tunnel} {k : ConnId}
  {b : AgentBuild} {a a' : AgentServe} {out : List (PeerObs Envelope)}

/-- What an agent ran, and the tasks that are still to run, it took up. -/
def Tunnel.Spawned (tr : List TunnelObs) (s : Tunnel) : Prop :=
  ∀ k req, tr.count (.ran k req) + (s.agents k).actions.count req ≤ tr.count (.took k req)

/-- Reading a frame spawns a task for the action in it at most. -/
theorem AgentServe.actions_received {env : Envelope} {docker : Bool}
    (h : a.step b (.received env docker) = some (a', out)) (k : ConnId) (req : DockerActionRequest) :
    a'.actions.count req ≤ a.actions.count req + (out.filterMap (·.took k)).count (.took k req) := by
  simp only [step, Option.ite_none_right_eq_some] at h
  obtain ⟨-, h⟩ := h
  split at h
  next =>
    cases Option.some.inj h
    exact Nat.le_add_right _ _
  next =>
    cases Option.some.inj h
    obtain ⟨version, payload⟩ := env
    cases payload with
    | dockerAction req' =>
      simp only [handleEnvelope, List.map_nil, List.filterMap_cons, PeerObs.took, List.filterMap_nil]
      by_cases hreq : req' = req
      · subst hreq
        simp
      · simp [hreq]
    | subscribe sub => cases sub <;> exact Nat.le_add_right _ _
    | _ => exact Nat.le_add_right _ _

/-- A task that runs is done then. -/
theorem AgentServe.actions_beside {act : AgentAct} (h : a.step b (.beside act) = some (a', out))
    (k : ConnId) (req : DockerActionRequest) :
    (act.ran k).count (.ran k req) + a'.actions.count req ≤ a.actions.count req := by
  cases act with
  | emit sub event =>
    simp only [step, Option.ite_none_right_eq_some] at h
    cases Option.some.inj h.2
    simp [AgentAct.ran]
  | acted req' outcome =>
    simp only [step, Option.ite_none_right_eq_some] at h
    obtain ⟨hm, h⟩ := h
    cases Option.some.inj h
    by_cases hreq : req' = req
    · subst hreq
      have hpos := List.count_pos_iff.mpr hm
      simp only [AgentAct.ran, List.count_singleton_self, List.count_erase_self]
      omega
    · have hne : (TunnelObs.ran k req' == .ran k req) = false := by simpa using hreq
      have hless := (List.erase_sublist (a := req') (l := a.actions)).count_le req
      simpa [AgentAct.ran, List.count_singleton, hne] using hless

theorem AgentServe.actions_closed (h : a.step b .closed = some (a', out)) : a'.actions = a.actions := by
  simp only [step, Option.ite_none_right_eq_some] at h
  cases Option.some.inj h.2
  rfl

/-- The agent of connection `k` moves: only its own counts can change. -/
theorem Tunnel.Spawned.agentDid {out : List TunnelObs} {r : AgentServe × List (PeerObs Envelope)}
    (h : s.Spawned tr) (hagent : ∀ req, out.count (.ran k req) + r.1.actions.count req ≤
      (s.agents k).actions.count req + out.count (.took k req))
    (hother : ∀ k' req, k' ≠ k → .ran k' req ∉ out) : (s.agentDid k r).Spawned (tr ++ out) := by
  intro k' req
  have hk' := h k' req
  rw [List.count_append, List.count_append]
  by_cases hk : k' = k
  · subst hk
    have hstep := hagent req
    simp only [Tunnel.agentDid, Function.update_self]
    omega
  · have hnone := List.count_eq_zero.mpr (hother k' req hk)
    simp only [Tunnel.agentDid, Function.update_of_ne hk]
    omega

theorem Tunnel.Spawned.daemonDid (h : s.Spawned tr) (r : World × List Obs) :
    (s.daemonDid r).Spawned (tr ++ r.2.map .daemon) := by
  intro k req
  have hran : (r.2.map TunnelObs.daemon).count (.ran k req) = 0 := List.count_eq_zero.mpr (by simp)
  have hk := h k req
  rw [List.count_append, List.count_append, hran]
  simp only [Tunnel.daemonDid]
  omega

theorem Tunnel.Spawned.step {act : TunnelAct} {out : List TunnelObs} (h : s.Spawned tr)
    (hs : s.step build act = some (s', out)) : s'.Spawned (tr ++ out) := by
  cases act with
  | daemon a =>
    simp only [Tunnel.step] at hs
    split at hs
    next => cases hs
    next =>
      obtain ⟨r, -, heq⟩ := Option.map_eq_some_iff.mp hs
      cases heq
      exact h.daemonDid r
  | handshake j docker =>
    simp only [Tunnel.step, greet_eq, Option.bind_some] at hs
    obtain ⟨r, -, heq⟩ := Option.map_eq_some_iff.mp hs
    cases heq
    refine Tunnel.Spawned.daemonDid (s := { s with agents := _, outbound := _ }) (fun k req => ?_) r
    have hk := h k req
    by_cases hnew : k = s.world.connCount
    · subst hnew
      simp only [Function.update_self, AgentServe.fresh, List.count_nil]
      omega
    · simpa only [Function.update_of_ne hnew] using hk
  | read k docker =>
    simp only [Tunnel.step] at hs
    split at hs
    next => cases hs
    next env rest hin =>
      obtain ⟨r, hr, heq⟩ := Option.map_eq_some_iff.mp hs
      cases heq
      have hnone : ∀ k' req, TunnelObs.ran k' req ∉ r.2.filterMap (·.took k) := by
        intro k' req hm
        obtain ⟨o, -, ho⟩ := List.mem_filterMap.mp hm
        unfold PeerObs.took at ho
        split at ho <;> cases ho
      refine h.agentDid (fun req => ?_) fun k' req _ => hnone k' req
      rw [List.count_eq_zero.mpr (hnone k req), Nat.zero_add]
      exact AgentServe.actions_received hr k req
  | beside k act =>
    obtain ⟨r, hr, heq⟩ := Option.map_eq_some_iff.mp hs
    cases heq
    refine h.agentDid (fun req => ?_) fun k' req hk hm => ?_
    · have hstep := AgentServe.actions_beside hr k req
      omega
    · cases act with
      | emit => cases hm
      | acted =>
        cases List.mem_singleton.mp hm
        exact hk rfl
  | hangUp k =>
    obtain ⟨r, hr, heq⟩ := Option.map_eq_some_iff.mp hs
    cases heq
    refine h.agentDid (fun req => ?_) fun _ _ _ => List.not_mem_nil
    rw [AgentServe.actions_closed hr]
    simp
  | deliver k =>
    simp only [Tunnel.step] at hs
    split at hs
    next => cases hs
    next env rest hout =>
      obtain ⟨r, -, heq⟩ := Option.map_eq_some_iff.mp hs
      cases heq
      exact h.daemonDid r

theorem spawned_of_run (h : Run (tunnel build) Free tr s) : s.Spawned tr := by
  refine h.invariant ?_ ?_
  · rintro _ rfl
    exact fun k req => Nat.le_refl 0
  · intro tr s l s' out _ ih _ hs
    exact ih.step hs

theorem runs_le_takes (h : Run (tunnel build) Free tr s) (k : ConnId) (req : DockerActionRequest) :
    tr.count (.ran k req) ≤ tr.count (.took k req) :=
  Nat.le_trans (Nat.le_add_right _ _) (spawned_of_run h k req)

end Spawned

/-- An agent takes up the actions that the daemon sends to it in the order in which they were sent, with
none left out before another, and runs only what it took up, in whatever order; and the daemon never
sends two requests under one agent-side id. -/
theorem agents_take_in_order {build : ConnId → AgentBuild} {tr : List TunnelObs} {s : Tunnel}
    (h : Run (tunnel build) Free tr s) (k : ConnId) :
    tr.filterMap (·.tookBy k) <+: (daemonTrace tr).filterMap (·.actionTo k) ∧
      (∀ req, tr.count (.ran k req) ≤ tr.count (.took k req)) ∧
        ((daemonTrace tr).filterMap (·.opened k)).Nodup :=
  ⟨⟨_, inOrder_of_run h k⟩, runs_le_takes h k, (openedOnce_of_run (faithful_of_run h).2).nodup k⟩

/-- Client 0 has an agent on `h` kill two containers; the one asked for later is killed first. -/
def killTwoAtAgent : List TunnelAct :=
  [.daemon (.connect 0), .daemon (.command 0 (.subscribe (.fleet 1)) .none), .daemon (.spawn 0 0 1 "h"),
    .daemon (.supervisor 0 .connected), .handshake 0 true, .daemon (.supervisor 0 .register),
    .daemon (killBy 0 "h"), .daemon (.route 0), .daemon (.route 0), .daemon (.route 0),
    .daemon (.command 0 (.dockerAction ⟨8, "web", .kill, .remote "h"⟩) .none), .daemon (.route 0),
    .daemon (.route 0), .daemon (.route 0), .read 0 true, .read 0 true,
    .beside 0 (.acted ⟨2, "web", .kill, .localTarget⟩ .success),
    .beside 0 (.acted ⟨1, "db", .kill, .localTarget⟩ .success)]

theorem agents_take_in_order_two : ∃ tr s, Run (tunnel fun _ => ⟨"linux", "x86_64"⟩) Free tr s ∧
    tr.filterMap (·.tookBy 0) =
        [⟨1, "db", .kill, .localTarget⟩, ⟨2, "web", .kill, .localTarget⟩] ∧
      tr.filterMap (·.tookBy 0) <+: (daemonTrace tr).filterMap (·.actionTo 0) ∧
        tr.count (.ran 0 ⟨2, "web", .kill, .localTarget⟩) ≤
            tr.count (.took 0 ⟨2, "web", .kill, .localTarget⟩) ∧
          ((daemonTrace tr).filterMap (·.opened 0)).Nodup := by
  obtain ⟨tr, s, hr, htook⟩ := Run.of_replay (tunnel fun _ => ⟨"linux", "x86_64"⟩) Free
    (fun tr _ => tr.filterMap (·.tookBy 0) =
      [⟨1, "db", .kill, .localTarget⟩, ⟨2, "web", .kill, .localTarget⟩]) rfl killTwoAtAgent (by decide)
  obtain ⟨htaken, hruns, hnodup⟩ := agents_take_in_order hr 0
  exact ⟨tr, s, hr, htook, htaken, hruns _, hnodup⟩

section Counts

variable {ok : List Obs → World → Act → Prop} {tr out : List Obs} {w w' : World} {a : Act} {c : ClientId}
  {req : DockerActionRequest}

/-- A list that keeps some of the items of one without duplicates has none. -/
theorem nodup_filterMap_of_le {α β : Type} {f g : α → Option β} {l : List α}
    (hle : ∀ x y, f x = some y → g x = some y) (h : (l.filterMap g).Nodup) : (l.filterMap f).Nodup := by
  rw [List.Nodup, List.pairwise_filterMap] at h ⊢
  exact h.imp fun hne y hy y' hy' => hne y (hle _ _ hy) y' (hle _ _ hy')

variable (c req) in
/-- Entries made for an action, and the call that is still to make one, do not outnumber the requests. -/
theorem inserts_le_issues (h : Run daemon ok tr w) :
    tr.countP (Obs.inserts w c req) + ((w.sessions c).asks req).toNat ≤ tr.countP (Obs.issues c req) := by
  refine h.invariant (I := fun tr w => tr.countP (Obs.inserts w c req) +
    ((w.sessions c).asks req).toNat ≤ tr.countP (Obs.issues c req)) ?_ ?_
  · rintro _ rfl
    exact Nat.le_refl 0
  · intro tr w a w' out hr ih _ hs
    have hl := idLedger_of_run hr
    have hstep := World.routingStep_of_step hs
    have hasks := hstep.asks_step c req hl (callsIssued_of_run hr)
    have hold : tr.countP (Obs.inserts w' c req) ≤ tr.countP (Obs.inserts w c req) := by
      refine List.countP_mono_left fun o ho hins => ?_
      cases o with
      | inserted k d e =>
        have hkept := hstep.hostAlias_kept (hl.born _ _ _ (hl.inserted _ _ _ ho))
        obtain ⟨hc, haction⟩ := of_decide_eq_true hins
        exact decide_eq_true ⟨hc, hkept ▸ haction⟩
      | _ => cases hins
    -- what is inserted now is there now
    have hnew : out.countP (Obs.inserts w' c req) ≤ out.countP (Obs.waits w' c req) := by
      refine List.countP_mono_left fun o ho hins => ?_
      cases o with
      | inserted k d e =>
        obtain ⟨hc, haction⟩ := of_decide_eq_true hins
        obtain ⟨-, -, -, -, -, -, hlookup, -⟩ := hstep.inserted_call ho
        exact decide_eq_true ⟨hc, hlookup, haction⟩
      | _ => cases hins
    simp only [List.countP_append]
    omega

/-- The agent-side id of the entry that is inserted. -/
def Obs.insertedAt : Obs → ConnId × Nat
  | .inserted k d _ => (k, d)
  | _ => (0, 0)

def TunnelObs.tookAt : TunnelObs → ConnId × Nat
  | .took k req => (k, req.requestId)
  | .daemon _ | .ran _ _ => (0, 0)

end Counts

section Once

variable {build : ConnId → AgentBuild} {tr : List TunnelObs} {s : Tunnel}

/-- An agent never takes up two actions under one id. -/
theorem took_nodup (h : Run (tunnel build) Free tr s) (k : ConnId) :
    (tr.filterMap fun o => (o.tookBy k).map (·.requestId)).Nodup := by
  have hopened := (openedOnce_of_run (faithful_of_run h).2).nodup k
  have hsent : ((daemonTrace tr).filterMap fun o => (o.actionTo k).map (·.requestId)).Nodup := by
    refine nodup_filterMap_of_le (fun o d ho => ?_) hopened
    obtain ⟨r, hr, rfl⟩ := Option.map_eq_some_iff.mp ho
    obtain ⟨env, hsent, haction⟩ := Option.bind_eq_some_iff.mp hr
    unfold Obs.sentTo at hsent
    split at hsent
    next c k' payload =>
      obtain ⟨rfl, heq⟩ := Option.ite_none_right_eq_some.mp hsent
      cases heq
      cases payload <;> cases haction
      simp [Obs.opened, Payload.opens]
    next => cases hsent
  rw [← List.map_filterMap] at hsent ⊢
  exact hsent.sublist ((List.IsPrefix.sublist ⟨_, inOrder_of_run h k⟩).map _)

theorem tookAt_nodup (h : Run (tunnel build) Free tr s) (c : ClientId) (req : DockerActionRequest) :
    ((tr.filter (·.takesFor (daemonTrace tr) s.world c req)).map (·.tookAt)).Nodup := by
  rw [List.Nodup, List.pairwise_map, List.pairwise_filter, List.pairwise_iff_forall_sublist]
  intro o o' hsub htakes htakes' heq
  cases o with
  | daemon | ran => cases htakes
  | took k r =>
    cases o' with
    | daemon | ran => cases htakes'
    | took k' r' =>
      obtain ⟨rfl, hid⟩ := Prod.mk.inj heq
      have hne := List.pairwise_filterMap.mp (took_nodup h k)
      exact List.pairwise_iff_forall_sublist.mp hne hsub _ (by simp [TunnelObs.tookBy]) _
        (by simp [TunnelObs.tookBy]) hid

/-- A client's actions are taken up at most as often as entries were made for them. -/
theorem takes_le_inserts (h : Run (tunnel build) Free tr s) (c : ClientId) (req : DockerActionRequest) :
    tr.countP (·.takesFor (daemonTrace tr) s.world c req) ≤
      (daemonTrace tr).countP (Obs.inserts s.world c req) := by
  have hsub : (tr.filter (·.takesFor (daemonTrace tr) s.world c req)).map (·.tookAt) ⊆
      ((daemonTrace tr).filter (Obs.inserts s.world c req)).map (·.insertedAt) := by
    intro key hm
    obtain ⟨o, ho, rfl⟩ := List.mem_map.mp hm
    obtain ⟨-, htakes⟩ := List.mem_filter.mp ho
    cases o with
    | daemon | ran => cases htakes
    | took k r =>
      obtain ⟨o', ho', hmatch⟩ := List.any_eq_true.mp htakes
      cases o' with
      | inserted k' d e =>
        obtain ⟨rfl, rfl, hc, haction⟩ := of_decide_eq_true hmatch
        exact List.mem_map.mpr ⟨_, List.mem_filter.mpr ⟨ho', decide_eq_true ⟨hc, haction⟩⟩, rfl⟩
      | _ => cases hmatch
  have hlength := (List.subperm_of_subset (tookAt_nodup h c req) hsub).length_le
  rwa [List.length_map, List.length_map, ← List.countP_eq_length_filter,
    ← List.countP_eq_length_filter] at hlength

/-- What an agent takes up is the action of a client. -/
theorem took_issued (h : Run (tunnel build) Free tr s) {k : ConnId} {r : DockerActionRequest}
    (hm : .took k r ∈ tr) : ∃ c req, .commanded c (.dockerAction req) ∈ daemonTrace tr ∧
      r = { req with requestId := r.requestId, target := .localTarget } ∧
        (TunnelObs.took k r).takesFor (daemonTrace tr) s.world c req = true := by
  have htook : r ∈ tr.filterMap (·.tookBy k) :=
    List.mem_filterMap.mpr ⟨_, hm, by simp [TunnelObs.tookBy]⟩
  have hearlier : tr.filterMap (·.tookBy k) <+: (daemonTrace tr).filterMap (·.actionTo k) :=
    ⟨_, inOrder_of_run h k⟩
  obtain ⟨o, ho, haction⟩ := List.mem_filterMap.mp (hearlier.subset htook)
  obtain ⟨env, hsent, haction⟩ := Option.bind_eq_some_iff.mp haction
  have hm' : env ∈ (daemonTrace tr).filterMap (·.sentTo k) := List.mem_filterMap.mpr ⟨o, ho, hsent⟩
  obtain ⟨c, hasked⟩ := (Asked.of_sent hm').2
  have hpayload : env.payload = .dockerAction r := by
    cases hp : env.payload <;> rw [hp] at haction <;> cases haction
    rfl
  rw [hpayload] at hasked
  obtain ⟨call, hcall, hins, ⟨payload, hm', hrouted⟩, halias⟩ :=
    request_issued (faithful_of_run h).2 hasked rfl
  unfold RouteCall.forwarded at hcall
  split at hcall
  next => cases hcall
  next req hreq =>
    obtain ⟨rfl, -, hentry⟩ := Payload.routed_action (c := c) hrouted hreq
    refine ⟨c, req, hm', Payload.dockerAction.inj hcall, ?_⟩
    exact List.any_eq_true.mpr ⟨_, hins, decide_eq_true ⟨rfl, rfl, rfl, halias ▸ hentry⟩⟩

end Once

/-- Whatever an agent takes up is the action of a client for its host, no client's action is taken up
more often than the client asked for it, and none runs more often than it was taken up. -/
theorem actions_run_once {build : ConnId → AgentBuild} {tr : List TunnelObs} {s : Tunnel}
    (h : Run (tunnel build) Free tr s) :
    (∀ k r, .took k r ∈ tr → ∃ c req, .commanded c (.dockerAction req) ∈ daemonTrace tr ∧
      r = { req with requestId := r.requestId, target := .localTarget } ∧
        (TunnelObs.took k r).takesFor (daemonTrace tr) s.world c req = true) ∧
      (∀ c req, tr.countP (·.takesFor (daemonTrace tr) s.world c req) ≤
        (daemonTrace tr).countP (Obs.issues c req)) ∧
        ∀ k r, tr.count (.ran k r) ≤ tr.count (.took k r) := by
  refine ⟨fun k r hm => took_issued h hm, fun c req => ?_, fun k r => runs_le_takes h k r⟩
  have hinserts := inserts_le_issues c req (faithful_of_run h).2
  have htakes := takes_le_inserts h c req
  omega

theorem actions_run_once_killed : ∃ tr s, Run (tunnel fun _ => ⟨"linux", "x86_64"⟩) Free tr s ∧
    .ran 0 ⟨1, "db", .kill, .localTarget⟩ ∈ tr ∧
      1 ≤ (daemonTrace tr).countP (Obs.issues 0 ⟨9, "db", .kill, .remote "h"⟩) := by
  obtain ⟨tr, s, hr, hm, hone⟩ := Run.of_replay (tunnel fun _ => ⟨"linux", "x86_64"⟩) Free
    (fun tr s => TunnelObs.ran 0 ⟨1, "db", .kill, .localTarget⟩ ∈ tr ∧
      tr.countP (·.takesFor (daemonTrace tr) s.world 0 ⟨9, "db", .kill, .remote "h"⟩) = 1) rfl
    killAtAgent (by decide)
  exact ⟨tr, s, hr, hm, hone ▸ (actions_run_once hr).2.1 0 ⟨9, "db", .kill, .remote "h"⟩⟩

section Capabilities

variable {tr out : List Obs} {w w' : World} {a : Act} {c : ClientId} {env : Envelope}

/-- Every agent that was registered can list ports and processes. -/
def Capable (w : World) : Prop :=
  ∀ k, k < w.connCount → "ports" ∈ (w.conns k).capabilities ∧ "processes" ∈ (w.conns k).capabilities

/-- A connection is made at the handshake of its agent, with what the agent told. -/
theorem World.born_cases (h : w.step a = some (w', out)) : w'.connCount = w.connCount ∨
    ∃ j capabilities, a = .supervisor j (.handshaken capabilities) ∧ w'.connCount = w.connCount + 1 ∧
      (w'.conns w.connCount).capabilities = capabilities := by
  cases poolStep_of_step h with
  | quiet _ _ hn | moved _ _ hn | displaced _ _ _ hn | replaced _ _ hn | nothingPooled _ _ _ hn
  | aborted _ _ _ hn => exact .inl hn
  | spawned | pooled | unpooled => exact .inl rfl
  | @born j event _ _ hp _ hn =>
    cases event with
    | handshaken capabilities =>
      simp only [step, supervisorStep, hp, Option.some.injEq, Prod.mk.injEq] at h
      obtain ⟨rfl, -⟩ := h
      exact .inr ⟨j, capabilities, rfl, rfl, by simp [setSupPhase, AgentConnection.spawned]⟩
    | deployFailed =>
      simp only [step, supervisorStep, hp, Option.some.injEq, Prod.mk.injEq] at h
      obtain ⟨rfl, -⟩ := h
      exact .inl rfl
    | aborted =>
      simp only [step, supervisorStep, hp, reduceCtorEq, or_false, Option.ite_none_left_eq_some,
        Option.some.injEq, Prod.mk.injEq] at h
      obtain ⟨-, rfl, -⟩ := h
      exact .inl rfl
    | _ => simp [step, supervisorStep, hp] at h

theorem capable_of_run (h : Run daemon AgentsAnswer tr w) : Capable w := by
  refine h.invariant (I := fun _ w => Capable w) ?_ ?_
  · rintro _ rfl k hk
    exact absurd hk (Nat.not_lt_zero k)
  · intro tr w a w' out _ ih hok hs k hk
    by_cases hold : k < w.connCount
    · rw [((World.routingStep_of_step hs).identity_kept hold).2]
      exact ih k hold
    · rcases World.born_cases hs with hn | ⟨j, capabilities, rfl, hn, hcap⟩
      · omega
      · obtain rfl : k = w.connCount := by omega
        obtain ⟨docker, rfl⟩ := hok
        rw [hcap]
        simp [probeCapabilities]

/-- A call that the session itself refuses finds no agent for its alias, or one that lacks what it takes. -/
theorem World.refused_cases {call : RouteCall} (h : w.step (.route c) = some (w', out))
    (hp : (w.sessions c).phase = .routing call .lookup) (ho : .toClient c env .session ∈ out) :
    env = call.notConnected ∨ env = call.lacksCapability ∧
      ∃ k, w.pool call.hostAlias = some k ∧ call.requiredCapability ∉ (w.conns k).capabilities := by
  simp only [step, hp, routeStep, Option.ite_none_right_eq_some] at h
  obtain ⟨-, h⟩ := h
  split at h
  next =>
    cases Option.some.inj h
    cases List.mem_singleton.mp ho
    exact .inl rfl
  next k hk =>
    split at h
    next =>
      cases Option.some.inj h
      cases List.mem_singleton.mp ho
    next hlacks =>
      cases Option.some.inj h
      cases List.mem_singleton.mp ho
      exact .inr ⟨rfl, k, hk, by simpa using hlacks⟩

/-- The event that a panel shows when it has no data. -/
def Envelope.panelDown (env : Envelope) : Option (Nat × String) :=
  match env.payload with
  | .event i (.portsUnavailable reason) | .event i (.processesUnavailable reason) => some (i, reason)
  | _ => none

theorem Payload.routed_panel {payload : Payload} {call : RouteCall} {reason : String} {down : Nat × String}
    (h : payload.routed = some call) (hdown : (call.failure reason).panelDown = some down) :
    ∃ sub, payload = .subscribe sub ∧ sub.target = some (.remote call.hostAlias) ∧
      down = (sub.id, reason) ∧
        (call.requiredCapability = "ports" ∨ call.requiredCapability = "processes") := by
  unfold routed at h
  split at h
  next sub =>
    split at h
    next hostAlias scope capability htarget hscope =>
      cases Option.some.inj h
      refine ⟨sub, rfl, htarget, ?_⟩
      cases sub <;> cases hscope <;> cases hdown
      · exact ⟨rfl, .inl rfl⟩
      · exact ⟨rfl, .inr rfl⟩
    next => cases h
  next =>
    split at h
    next =>
      cases Option.some.inj h
      cases hdown
    next => cases h
  next => cases h

theorem Session.replies_panel {s : Session} {task : TaskId} {panes : PaneAnswers} {payload : Payload}
    (h : env ∈ (s.handleCommand task panes payload).replies) : env.panelDown = none := by
  cases hdown : env.panelDown with
  | none => rfl
  | some down =>
    have hevent : ∃ i event, env.payload = .event i event ∧ event ≠ .status := by
      unfold Envelope.panelDown at hdown
      split at hdown
      next hp => exact ⟨_, _, hp, by simp⟩
      next hp => exact ⟨_, _, hp, by simp⟩
      next => cases hdown
    obtain ⟨i, event, hp, hstatus⟩ := hevent
    obtain rfl := (replies_own h).2 _ _ hp
    obtain rfl := List.mem_singleton.mp h
    cases hp
    exact absurd rfl hstatus

/-- What the routing of a subscription can find wrong with its host, and how it tells. -/
inductive Unreachable (hostAlias : String) : Source → String → Prop
  | offline : Unreachable hostAlias .session ("agent not connected: " ++ hostAlias)
  | writerClosed {k : ConnId} {d : Nat} :
      Unreachable hostAlias (.failedCall k d) ("agent writer closed: " ++ hostAlias)

def Source.ofRouting : Source → Bool
  | .session | .failedCall _ _ => true
  | _ => false

/-- When the daemon itself refuses a remote panel of ports or processes, it cannot reach the agent. -/
def RefusedUnreachable (tr : List Obs) (o : Obs) : Prop :=
  ∀ c env source down, o = .toClient c env source → source.ofRouting = true →
    env.panelDown = some down → ∃ sub hostAlias reason, .commanded c (.subscribe sub) ∈ tr ∧
      sub.target = some (.remote hostAlias) ∧ down = (sub.id, reason) ∧
        Unreachable hostAlias source reason

theorem refusedUnreachable_of_run (h : Run daemon AgentsAnswer tr w) :
    ∀ pre o post, tr = pre ++ o :: post → RefusedUnreachable pre o := by
  refine h.observed_after ?_
  rintro tr w a w' out hr - hs pre _ post rfl c env source down rfl hsource hdown
  have ho : Obs.toClient c env source ∈ pre ++ Obs.toClient c env source :: post :=
    List.mem_append_right _ List.mem_cons_self
  cases World.sends_of_step hs ho with
  | replied _ henv =>
    rw [Session.replies_panel henv] at hdown
    cases hdown
  | @refused c call env hp henv =>
    obtain ⟨⟨payload, hm, hrouted⟩, -⟩ := (callsIssued_of_run hr).call c call _ hp
    rcases World.refused_cases hs hp ho with rfl | ⟨rfl, k, hk, hlacks⟩
    · obtain ⟨sub, rfl, htarget, rfl, -⟩ := Payload.routed_panel hrouted hdown
      exact ⟨sub, call.hostAlias, _, List.mem_append_left _ hm, htarget, rfl, .offline⟩
    · obtain ⟨hports, hprocesses⟩ := capable_of_run hr k ((poolBorn_of_run hr).pool _ _ hk)
      obtain ⟨-, -, -, -, hcap⟩ := Payload.routed_panel hrouted hdown
      rcases hcap with hcap | hcap <;> rw [hcap] at hlacks
      · exact absurd hports hlacks
      · exact absurd hprocesses hlacks
  | @failed c call k d hp =>
    obtain ⟨⟨payload, hm, hrouted⟩, -⟩ := (callsIssued_of_run hr).call c call _ hp
    obtain ⟨sub, rfl, htarget, rfl, -⟩ := Payload.routed_panel hrouted hdown
    exact ⟨sub, call.hostAlias, _, List.mem_append_left _ hm, htarget, rfl, .writerClosed⟩
  | drained | relayed | answered | announced | emitted | acted => cases hsource

end Capabilities

/-- The routing of a remote panel of ports or processes refuses it only because no agent of the host is
connected or its writer is gone; that an agent lacks the capability never happens. -/
theorem panels_refused_unreachable {build : ConnId → AgentBuild} {tr : List TunnelObs} {s : Tunnel}
    (h : Run (tunnel build) Free tr s) {c : ClientId} {env : Envelope} {source : Source}
    {down : Nat × String} (hm : .toClient c env source ∈ daemonTrace tr)
    (hsource : source.ofRouting = true) (hdown : env.panelDown = some down) :
    ∃ sub hostAlias reason, .commanded c (.subscribe sub) ∈ daemonTrace tr ∧
      sub.target = some (.remote hostAlias) ∧ down = (sub.id, reason) ∧
        Unreachable hostAlias source reason := by
  obtain ⟨pre, post, htr⟩ := List.append_of_mem hm
  obtain ⟨sub, hostAlias, reason, hcommanded, hfound⟩ :=
    refusedUnreachable_of_run (faithful_of_run h).2 pre _ post htr c env source down rfl hsource hdown
  exact ⟨sub, hostAlias, reason, htr ▸ List.mem_append_left _ hcommanded, hfound⟩

/-- The writer of a registered agent ends before the client subscribes. -/
theorem panels_refused_unreachable_writer :
    ∃ tr s, Run (tunnel fun _ => ⟨"linux", "x86_64"⟩) Free tr s ∧
      ∃ sub hostAlias reason, .commanded 0 (.subscribe sub) ∈ daemonTrace tr ∧
        sub.target = some (.remote hostAlias) ∧
          ((4, "agent writer closed: h") : Nat × String) = (sub.id, reason) ∧
            Unreachable hostAlias (.failedCall 0 1) reason := by
  obtain ⟨tr, s, hr, hm⟩ := Run.of_replay (tunnel fun _ => ⟨"linux", "x86_64"⟩) Free
    (fun tr _ => Obs.toClient 0 (eventFrame 4 (.portsUnavailable "agent writer closed: h"))
      (.failedCall 0 1) ∈ daemonTrace tr) rfl
    [.daemon (.connect 0), .daemon (.command 0 (.subscribe (.fleet 1)) .none),
      .daemon (.spawn 0 0 1 "h"), .daemon (.supervisor 0 .connected), .handshake 0 true,
      .daemon (.supervisor 0 .register), .daemon (.driverEnd 0),
      .daemon (.command 0 (.subscribe (.ports 4 (.remote "h"))) .none), .daemon (.route 0),
      .daemon (.route 0), .daemon (.route 0), .daemon (.route 0)] (by decide)
  exact ⟨tr, s, hr, panels_refused_unreachable hr hm rfl rfl⟩

end Tepegoz
