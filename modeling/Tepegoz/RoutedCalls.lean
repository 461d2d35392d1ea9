import Tepegoz.RoutedRequests

namespace Tepegoz

open Transition

/-- The scope of a subscription that an agent can serve, and the capability that it takes. -/
def Subscription.routedScope : Subscription → Option (RoutedScope × String)
  | .docker _ _ => some (.docker, "docker")
  | .dockerLogs _ _ _ _ _ => some (.dockerLogs, "docker")
  | .dockerStats _ _ _ => some (.dockerStats, "docker")
  | .ports _ _ => some (.ports, "ports")
  | .processes _ _ => some (.processes, "processes")
  | .status _ | .fleet _ => none

/-- The call that a command starts. -/
def Payload.routed : Payload → Option RouteCall
  | .subscribe sub =>
    match sub.target, sub.routedScope with
    | some (.remote hostAlias), some (scope, capability) =>
      some (routeRemoteSubscribe sub hostAlias scope capability)
    | _, _ => none
  | .dockerAction req =>
    match req.target with
    | .remote hostAlias => some (routeRemoteDockerAction hostAlias req)
    | .localTarget => none
  | _ => none

theorem Session.handleCommand_routed {s : Session} (hp : s.phase = .ready) (task : TaskId)
    (panes : PaneAnswers) (payload : Payload) {call : RouteCall} {stage : CallStage} :
    (s.handleCommand task panes payload).session.phase = .routing call stage ↔
      payload.routed = some call ∧ stage = .lookup := by
  have hstarted : ∀ call' : RouteCall,
      (s.startCall call').session.phase = .routing call stage ↔ some call' = some call ∧ stage = .lookup := by
    intro call'
    show SessionPhase.routing call' .lookup = .routing call stage ↔ _
    rw [SessionPhase.routing.injEq, Option.some.injEq]
    exact and_congr_right fun _ => eq_comm
  have hidle : ∀ s' : Session, s'.phase = s.phase →
      (s'.phase = .routing call stage ↔ (none : Option RouteCall) = some call ∧ stage = .lookup) := by
    intro s' hs
    simp [hs, hp]
  cases payload with
  | subscribe sub =>
    cases sub with
    | status id => exact hidle _ rfl
    | fleet id => exact hidle _ rfl
    | docker id target => cases target; exacts [hidle _ rfl, hstarted _]
    | dockerLogs id containerId follow tailLines target =>
      cases target; exacts [hidle _ rfl, hstarted _]
    | dockerStats id containerId target => cases target; exacts [hidle _ rfl, hstarted _]
    | ports id target => cases target; exacts [hidle _ rfl, hstarted _]
    | processes id target => cases target; exacts [hidle _ rfl, hstarted _]
  | dockerAction req =>
    obtain ⟨requestId, containerId, kind, target⟩ := req
    cases target
    exacts [hidle _ rfl, hstarted _]
  | fleetAction req =>
    unfold handleCommand
    dsimp only
    split
    exacts [hidle _ rfl, hidle _ rfl]
  | attachPane paneId subscriptionId =>
    unfold handleCommand
    dsimp only
    split
    exacts [hidle _ rfl, hidle _ rfl]
  | unsubscribe id =>
    unfold handleCommand handleUnsubscribe
    cases hl : s.clientAgentSubs.lookup id <;> simp [hl, hp, Payload.routed]
  | _ => exact hidle _ rfl

/-- The client asked for the call. -/
def Issued (tr : List Obs) (c : ClientId) (call : RouteCall) : Prop :=
  ∃ payload, .commanded c payload ∈ tr ∧ payload.routed = some call

theorem Issued.old {tr out : List Obs} {c : ClientId} {call : RouteCall} (h : Issued tr c call) :
    Issued (tr ++ out) c call := by
  obtain ⟨payload, hm, hr⟩ := h
  exact ⟨payload, List.mem_append_left _ hm, hr⟩

/-- Calls in progress and inserted entries go back to commands, on connections of their own alias. -/
structure CallsIssued (tr : List Obs) (w : World) : Prop where
  call : ∀ c call stage, (w.sessions c).phase = .routing call stage → Issued tr c call ∧
    ∀ k, stage.conn = some k → (w.conns k).hostAlias = call.hostAlias
  entry : ∀ k d e, .inserted k d e ∈ tr → ∃ call : RouteCall, Issued tr e.client call ∧
    e = call.entry e.client ∧ (w.conns k).hostAlias = call.hostAlias

section Step

variable {tr out : List Obs} {w w' : World}

theorem callsIssued_initial : CallsIssued [] .initial where
  call := by simp [World.initial, Session.absent]
  entry := by simp

/-- From one await of a call to the next. -/
inductive CallStage.Next (w : World) (call : RouteCall) : CallStage → CallStage → Prop
  | same {stage : CallStage} : Next w call stage stage
  | allocated {k : ConnId} : w.pool call.hostAlias = some k →
      Next w call .lookup (.allocated k (w.conns k).nextSubId)
  | inserted {k : ConnId} {d : Nat} : Next w call (.allocated k d) (.inserted k d)
  | sendFailed {k : ConnId} {d : Nat} : (w.conns k).driver = false →
      Next w call (.inserted k d) (.rollback k d)

/-- A call goes from one stage to the next, or it is new. -/
theorem RoutingStep.call_cases {a : Act} {c : ClientId} {call : RouteCall} {stage : CallStage}
    (h : RoutingStep w a w' out) (hp : (w'.sessions c).phase = .routing call stage) :
    (stage = .lookup ∧ ∃ payload, .commanded c payload ∈ out ∧ payload.routed = some call) ∨
      ∃ stage', (w.sessions c).phase = .routing call stage' ∧ stage'.Next w call stage := by
  by_cases hc : a.client = some c
  · cases h with
    | quiet _ _ hs => rw [hs] at hp; exact .inr ⟨stage, hp, .same⟩
    | born _ _ hs => rw [hs] at hp; exact .inr ⟨stage, hp, .same⟩
    | drained _ _ _ _ _ _ _ _ hs => rw [hs] at hp; exact .inr ⟨stage, hp, .same⟩
    | driverEnd => cases hc
    | answered => cases hc
    | @connected c' hphase =>
      obtain rfl := Option.some.inj hc
      simp [Session.fresh] at hp
    | @commanded c' payload panes handled hphase heq =>
      obtain rfl := Option.some.inj hc
      subst heq
      rw [World.sessions_setSession, Function.update_self] at hp
      obtain ⟨hrouted, hstage⟩ := (Session.handleCommand_routed hphase _ _ _).mp hp
      exact .inl ⟨hstage, payload, List.mem_cons_self, hrouted⟩
    | @refused c' call' env hphase | @rolledBack c' call' k d hphase =>
      obtain rfl := Option.some.inj hc
      rw [World.sessions_setPhase_same] at hp
      cases hp
    | @allocated c' call' k hphase hk =>
      obtain rfl := Option.some.inj hc
      rw [World.sessions_setPhase_same] at hp
      cases hp
      exact .inr ⟨_, hphase, .allocated hk⟩
    | @inserted c' call' k d hphase =>
      obtain rfl := Option.some.inj hc
      rw [World.sessions_setPhase_same] at hp
      cases hp
      exact .inr ⟨_, hphase, .inserted⟩
    | @sendFailed c' call' k d hphase hd =>
      obtain rfl := Option.some.inj hc
      rw [World.sessions_setPhase_same] at hp
      cases hp
      exact .inr ⟨_, hphase, .sendFailed hd⟩
    | @sent c' call' k d handles hphase _ _ =>
      obtain rfl := Option.some.inj hc
      simp at hp
    | @unsubscribed c' id handle hphase | @teardownNext c' id handle todo hphase =>
      obtain rfl := Option.some.inj hc
      rw [World.sessions_setPhase_release, World.sessions_setPhase_same] at hp
      cases hp
    | @disconnected c' hphase =>
      obtain rfl := Option.some.inj hc
      rw [World.sessions_setSession, Function.update_self] at hp
      exact absurd hp ((w.sessions c').close_spec.1 _ _)
    | @teardownLocked c' todo hphase | @teardownDone c' hphase =>
      obtain rfl := Option.some.inj hc
      rw [World.sessions_setPhase_same] at hp
      cases hp
  · rw [h.sessions_other hc] at hp
    exact .inr ⟨stage, hp, .same⟩

theorem RoutingStep.commanded_cases {a : Act} {c : ClientId} {payload : Payload}
    (h : RoutingStep w a w' out) (hm : .commanded c payload ∈ out) :
    ∃ panes, a = .command c payload panes := by
  have hquiet : (∀ o ∈ out, o.quiet = true) → ∃ panes, a = .command c payload panes := fun hq => by
    simpa [Obs.quiet] using hq _ hm
  cases h with
  | quiet _ _ _ hq => exact hquiet hq
  | drained _ _ _ _ _ _ _ _ _ hq _ => exact hquiet hq
  | @answered k env _ => exact hquiet (w.routeAgentEnvelope_cases k env).2
  | @commanded c' payload' panes handled hp heq =>
    rcases List.mem_cons.mp hm with heq | hm
    · cases heq
      exact ⟨panes, rfl⟩
    · simpa [Obs.quiet] using World.replies_quiet _ hm
  | born | driverEnd | connected | sendFailed | disconnected | teardownLocked | teardownDone =>
    cases hm
  | refused | allocated | inserted | sent | rolledBack => cases List.mem_singleton.mp hm
  | @unsubscribed c' id handle | @teardownNext c' id handle todo =>
    rcases w.release_cases c' id handle with hr | ⟨_, -, -, hcases⟩
    · rw [hr] at hm
      cases hm
    · rcases hcases _ hm with ⟨_, -, heq⟩ | heq <;> cases heq

theorem CallsIssued.step {a : Act} (h : CallsIssued tr w) (hl : IdLedger tr w) (hpool : PoolBorn w)
    (haliased : PoolAliased w) (hs : RoutingStep w a w' out) : CallsIssued (tr ++ out) w' where
  call c call stage hp := by
    rcases hs.call_cases hp with ⟨rfl, payload, hm, hr⟩ | ⟨stage', hp', hnext⟩
    · exact ⟨⟨payload, List.mem_append_right _ hm, hr⟩, fun k hk => by cases hk⟩
    · obtain ⟨hissued, halias⟩ := h.call c call stage' hp'
      refine ⟨hissued.old, fun k hk => ?_⟩
      have hcloned : stage'.conn = some k → (w'.conns k).hostAlias = call.hostAlias := by
        intro hk'
        rw [hs.hostAlias_kept (hl.stage_born hp' hk')]
        exact halias k hk'
      cases hnext with
      | same => exact hcloned hk
      | @allocated k' hk' =>
        obtain rfl := Option.some.inj hk
        rw [hs.hostAlias_kept (hpool.pool _ _ hk')]
        exact haliased.pool _ _ hk'
      | inserted => exact hcloned hk
      | sendFailed => exact hcloned hk
  entry k d e hm := by
    rcases List.mem_append.mp hm with hm | hm
    · obtain ⟨call, hissued, he, halias⟩ := h.entry k d e hm
      refine ⟨call, hissued.old, he, ?_⟩
      rw [hs.hostAlias_kept (hl.born _ _ _ (hl.inserted _ _ _ hm))]
      exact halias
    · obtain ⟨c, call, -, hp, rfl, -⟩ := hs.inserted_call hm
      obtain ⟨hissued, halias⟩ := h.call c call _ hp
      refine ⟨call, hissued.old, rfl, ?_⟩
      rw [hs.hostAlias_kept (hl.stage_born hp rfl)]
      exact halias k rfl

theorem callsIssued_of_run {ok : List Obs → World → Act → Prop} (h : Run daemon ok tr w) :
    CallsIssued tr w := by
  refine h.invariant ?_ ?_
  · rintro _ rfl
    exact callsIssued_initial
  · intro tr w a w' out hr ih _ hs
    exact ih.step (idLedger_of_run hr) (poolBorn_of_run hr) (poolAliased_of_run hr)
      (World.routingStep_of_step hs)

end Step

end Tepegoz
