import Tepegoz.RoutingSteps

namespace Tepegoz

/-- The connection that a step drains. -/
def Act.draining (w : World) : Act → Option ConnId
  | .parserEnd k => some k
  | .supervisor j .replaced =>
    match (w.supervisors j).phase with
    | .replacing _ prev => some prev
    | _ => none
  | .supervisor j .drained =>
    match (w.supervisors j).phase with
    | .draining k => some k
    | _ => none
  | _ => none

/-- The call that a step gives up because the driver is gone. -/
def Act.failing (w : World) : Act → Option (ClientId × RouteCall × ConnId × Nat)
  | .route c =>
    match (w.sessions c).phase with
    | .routing call (.rollback k d) => some (c, call, k, d)
    | _ => none
  | _ => none

/-- What a step writes to the `event_tx` of a client, by where it comes from. -/
inductive Sends (w : World) : Act → ClientId → Envelope → Source → Prop
  | replied {c : ClientId} {payload : Payload} {panes : PaneAnswers} {env : Envelope} :
      (w.sessions c).phase = .ready →
      env ∈ ((w.sessions c).handleCommand w.taskCount panes payload).replies →
      Sends w (.command c payload panes) c env .session
  | refused {c : ClientId} {call : RouteCall} {env : Envelope} :
      (w.sessions c).phase = .routing call .lookup →
      env = call.notConnected ∨ env = call.lacksCapability → Sends w (.route c) c env .session
  | failed {c : ClientId} {call : RouteCall} {k : ConnId} {d : Nat} :
      (w.sessions c).phase = .routing call (.rollback k d) →
      Sends w (.route c) c call.writerClosed (.failedCall k d)
  | drained {a : Act} {k : ConnId} {d : Nat} {entry : RoutedSub} : a.draining w = some k →
      (w.conns k).routing.lookup d = some entry →
      Sends w a entry.client (disconnectNotice (w.conns k).hostAlias entry) (.drain k d)
  | relayed {k : ConnId} {d version : Nat} {event : Event} {entry : RoutedSub} :
      (w.conns k).parser = true → (w.conns k).routing.lookup d = some entry →
      Sends w (.agentFrame k ⟨version, .event d event⟩) entry.client
        ⟨version, .event entry.clientId event⟩ (.agent k d)
  | answered {k : ConnId} {version : Nat} {result : DockerActionResult} {entry : RoutedSub} :
      (w.conns k).parser = true → (w.conns k).routing.lookup result.requestId = some entry →
      entry.kind = .oneShot →
      Sends w (.agentFrame k ⟨version, .dockerActionResult result⟩) entry.client
        ⟨version, .dockerActionResult { result with requestId := entry.clientId }⟩
        (.agent k result.requestId)
  | announced {j : SupId} {event : SupEvent} {capabilities : List String} :
      (w.supervisors j).phase ≠ .unborn → Sends w (.supervisor j event) (w.supervisors j).client
        (eventFrame (w.supervisors j).fleetId
          (.agentCapabilities (w.supervisors j).hostAlias capabilities)) (.supervisor j)
  | emitted {task : TaskId} {c : ClientId} {sub : Subscription} {event : Event} :
      w.tasks task = some (c, sub) → sub.mayEmit event = true →
      Sends w (.emit task event) c (eventFrame sub.id event) (.task task)
  | acted {c : ClientId} {req : DockerActionRequest} {outcome : DockerActionOutcome} :
      (c, req) ∈ w.actions →
      Sends w (.acted c req outcome) c (World.runDockerAction req outcome) .action

theorem Session.openPaneReply_payload (spec : OpenPaneSpec) (opened : Except String PaneInfo) :
    (∃ info, (openPaneReply spec opened).payload = .paneOpened info) ∨
      ∃ info, (openPaneReply spec opened).payload = .error info := by
  unfold openPaneReply
  split
  next info => exact .inl ⟨info, rfl⟩
  next => split <;> exact .inr ⟨_, rfl⟩

/-- What a session answers on its own: no results of actions, and the only event confirms a status
subscription. -/
theorem Session.replies_own {s : Session} {task : TaskId} {panes : PaneAnswers} {payload : Payload}
    {env : Envelope} (h : env ∈ (s.handleCommand task panes payload).replies) :
    (∀ result, env.payload ≠ .dockerActionResult result) ∧
      ∀ i event, env.payload = .event i event → payload = .subscribe (.status i) := by
  have hplain : (∀ result, env.payload ≠ .dockerActionResult result) →
      (∀ i event, env.payload ≠ .event i event) →
        (∀ result, env.payload ≠ .dockerActionResult result) ∧
          ∀ i event, env.payload = .event i event → payload = .subscribe (.status i) :=
    fun hresult hevent => ⟨hresult, fun i event he => absurd he (hevent i event)⟩
  unfold handleCommand at h
  split at h
  next => cases List.mem_singleton.mp h; exact hplain (by simp [envelope]) (by simp [envelope])
  next sub =>
    cases sub with
    | status id =>
      cases List.mem_singleton.mp h
      refine ⟨by simp [eventFrame, envelope], fun i event he => ?_⟩
      cases he
      rfl
    | fleet id => cases h
    | docker id target => cases target <;> cases h
    | dockerLogs id containerId follow tailLines target => cases target <;> cases h
    | dockerStats id containerId target => cases target <;> cases h
    | ports id target => cases target <;> cases h
    | processes id target => cases target <;> cases h
  next =>
    split at h
    next =>
      cases List.mem_singleton.mp h
      exact hplain (by simp [fleetActionRefused, envelope]) (by simp [fleetActionRefused, envelope])
    next => cases h
  next => split at h <;> cases h
  next => cases h
  next spec =>
    cases List.mem_singleton.mp h
    rcases openPaneReply_payload spec panes.opened with ⟨info, heq⟩ | ⟨info, heq⟩
    · exact hplain (by simp [heq]) (by simp [heq])
    · exact hplain (by simp [heq]) (by simp [heq])
  next => cases List.mem_singleton.mp h; exact hplain (by simp [envelope]) (by simp [envelope])
  next =>
    split at h
    next => cases h
    next => cases List.mem_singleton.mp h; exact hplain (by simp [envelope]) (by simp [envelope])
  next => cases h

namespace World

variable {w w' : World} {out : List Obs} {c : ClientId} {env : Envelope} {source : Source}

theorem drain_sends {k : ConnId} {a : Act} (ha : a.draining w = some k)
    (h : .toClient c env source ∈ (w.drain k).2) : Sends w a c env source := by
  obtain ⟨entry, hentry, heq⟩ := List.mem_map.mp h
  cases heq
  exact .drained ha (AList.mem_lookup_iff.mpr hentry)

theorem release_silent {c' : ClientId} {id : Nat} {handle : AgentSubHandle} :
    .toClient c env source ∉ (w.release c' id handle).2 := by
  intro h
  rcases w.release_cases c' id handle with hr | ⟨k, -, -, hr⟩
  · rw [hr] at h
    cases h
  · rcases hr _ h with ⟨e, -, heq⟩ | heq <;> cases heq

theorem routeStep_sends {c' : ClientId} {call : RouteCall} {stage : CallStage}
    (hp : (w.sessions c').phase = .routing call stage)
    (h : w.routeStep c' call stage = some (w', out)) (ho : .toClient c env source ∈ out) :
    Sends w (.route c') c env source := by
  cases stage with
  | lookup =>
    simp only [routeStep, Option.ite_none_right_eq_some] at h
    obtain ⟨-, h⟩ := h
    split at h
    next =>
      cases Option.some.inj h
      cases List.mem_singleton.mp ho
      exact .refused hp (.inl rfl)
    next =>
      split at h
      next =>
        cases Option.some.inj h
        cases List.mem_singleton.mp ho
      next =>
        cases Option.some.inj h
        cases List.mem_singleton.mp ho
        exact .refused hp (.inr rfl)
  | allocated k d =>
    cases Option.some.inj h
    cases List.mem_singleton.mp ho
  | inserted k d =>
    simp only [routeStep] at h
    split at h
    next =>
      cases Option.some.inj h
      cases List.mem_singleton.mp ho
    next =>
      cases Option.some.inj h
      cases ho
  | rollback k d =>
    cases Option.some.inj h
    cases List.mem_singleton.mp ho
    exact .failed hp

theorem routeAgentEnvelope_sends {k : ConnId} {frame : Envelope} (hp : (w.conns k).parser = true)
    (ho : .toClient c env source ∈ (w.routeAgentEnvelope k frame).2) :
    Sends w (.agentFrame k frame) c env source := by
  obtain ⟨version, payload⟩ := frame
  unfold routeAgentEnvelope at ho
  dsimp only at ho
  split at ho
  next =>
    split at ho
    next hl =>
      cases List.mem_singleton.mp ho
      exact .relayed hp hl
    next => cases ho
  next =>
    split at ho
    next hl =>
      dsimp only at ho
      split at ho
      next hkind =>
        cases List.mem_singleton.mp ho
        exact .answered hp hl hkind
      next => cases ho
    next => cases ho
  next => cases ho

theorem supervisorStep_sends {j : SupId} {event : SupEvent}
    (h : w.supervisorStep j event = some (w', out)) (ho : .toClient c env source ∈ out) :
    Sends w (.supervisor j event) c env source := by
  have hborn : (w.supervisors j).phase ≠ .unborn := by
    intro hu
    cases event <;> simp [supervisorStep, hu] at h
  have hannounced : ∀ {capabilities},
      Obs.toClient c env source = w.capabilitiesEvent j capabilities →
        Sends w (.supervisor j event) c env source := by
    intro capabilities heq
    cases heq
    exact .announced hborn
  unfold supervisorStep at h
  split at h
  next => cases Option.some.inj h; cases ho
  next =>
    cases Option.some.inj h
    exact hannounced (List.mem_singleton.mp ho)
  next => cases Option.some.inj h; cases ho
  next k hp =>
    simp only [Option.ite_none_right_eq_some] at h
    obtain ⟨-, h⟩ := h
    split at h
    next =>
      cases Option.some.inj h
      rcases List.mem_cons.mp ho with heq | ho
      · cases heq
      · exact hannounced (List.mem_singleton.mp ho)
    next =>
      cases Option.some.inj h
      cases List.mem_singleton.mp ho
  next k prev hp =>
    cases Option.some.inj h
    rcases List.mem_append.mp ho with ho | ho
    · exact drain_sends (by simp [Act.draining, hp]) ho
    · rcases List.mem_cons.mp ho with heq | ho
      · cases heq
      · exact hannounced (List.mem_singleton.mp ho)
  next => cases Option.some.inj h; cases ho
  next =>
    simp only [Option.ite_none_right_eq_some] at h
    obtain ⟨-, h⟩ := h
    split at h
    next =>
      cases Option.some.inj h
      exact hannounced (List.mem_singleton.mp ho)
    next =>
      cases Option.some.inj h
      cases List.mem_singleton.mp ho
  next k hp =>
    cases Option.some.inj h
    rcases List.mem_append.mp ho with ho | ho
    · exact drain_sends (by simp [Act.draining, hp]) ho
    · exact hannounced (List.mem_singleton.mp ho)
  next => cases Option.some.inj h; cases ho
  next =>
    split at h
    next => cases h
    next =>
      split at h
      next => cases Option.some.inj h; cases ho
      next => cases Option.some.inj h; cases ho
  next => cases h

/-- Every envelope to a client is one that `Sends` lists. -/
theorem sends_of_step {a : Act} (h : w.step a = some (w', out))
    (ho : .toClient c env source ∈ out) : Sends w a c env source := by
  cases a with
  | connect c' =>
    simp only [step, Option.ite_none_right_eq_some] at h
    cases Option.some.inj h.2
    cases ho
  | command c' payload panes =>
    simp only [step, Option.ite_none_right_eq_some] at h
    cases Option.some.inj h.2
    rcases List.mem_cons.mp ho with heq | ho
    · cases heq
    · obtain ⟨env', henv, heq⟩ := List.mem_map.mp ho
      cases heq
      exact .replied h.1 henv
  | route c' =>
    simp only [step] at h
    split at h
    next hp => exact routeStep_sends hp h ho
    next => cases h
  | unsubscribe c' =>
    simp only [step] at h
    split at h
    next =>
      simp only [Option.ite_none_right_eq_some] at h
      cases Option.some.inj h.2
      exact absurd ho release_silent
    next => cases h
  | disconnect c' =>
    simp only [step, Option.ite_none_right_eq_some] at h
    cases Option.some.inj h.2
    cases ho
  | teardown c' =>
    simp only [step, teardownStep] at h
    split at h
    next =>
      simp only [Option.ite_none_right_eq_some] at h
      cases Option.some.inj h.2
      cases ho
    next => cases Option.some.inj h; cases ho
    next =>
      cases Option.some.inj h
      exact absurd ho release_silent
    next => cases h
  | spawn j c' fleetId hostAlias =>
    simp only [step] at h
    split at h
    next => cases Option.some.inj h; cases ho
    next => cases h
  | supervisor j event => exact supervisorStep_sends h ho
  | agentFrame k frame =>
    simp only [step, Option.ite_none_right_eq_some] at h
    have hout : (w.routeAgentEnvelope k frame).2 = out := congrArg Prod.snd (Option.some.inj h.2)
    rw [← hout] at ho
    exact routeAgentEnvelope_sends h.1 ho
  | parserEnd k =>
    simp only [step, Option.ite_none_right_eq_some] at h
    have hout : ((w.setConn k { w.conns k with parser := false }).drain k).2 = out :=
      congrArg Prod.snd (Option.some.inj h.2)
    have hsame : ((w.setConn k { w.conns k with parser := false }).drain k).2 = (w.drain k).2 := by
      simp [drain]
    rw [← hout, hsame] at ho
    exact drain_sends rfl ho
  | driverEnd k =>
    simp only [step, Option.ite_none_right_eq_some] at h
    cases Option.some.inj h.2
    cases ho
  | emit task event =>
    simp only [step] at h
    split at h
    next hp =>
      simp only [Option.ite_none_right_eq_some] at h
      cases Option.some.inj h.2
      cases List.mem_singleton.mp ho
      exact .emitted hp h.1
    next => cases h
  | finish task =>
    simp only [step] at h
    split at h
    next => cases Option.some.inj h; cases ho
    next => cases h
  | acted c' req outcome =>
    simp only [step, Option.ite_none_right_eq_some] at h
    cases Option.some.inj h.2
    cases List.mem_singleton.mp ho
    exact .acted h.1

/-- A call that is answered before it has an id leaves its session ready. -/
theorem route_refused {call : RouteCall} (h : w.step (.route c) = some (w', out))
    (hp : (w.sessions c).phase = .routing call .lookup) :
    out.length ≤ 1 ∧ ((∃ c' env source, .toClient c' env source ∈ out) →
      (w'.sessions c).phase = .ready) := by
  have hready : (w.setPhase c .ready).sessions c = { w.sessions c with phase := .ready } :=
    sessions_setPhase_same c .ready
  simp only [step, hp, routeStep, Option.ite_none_right_eq_some] at h
  obtain ⟨-, h⟩ := h
  split at h
  next =>
    cases Option.some.inj h
    exact ⟨Nat.le_refl 1, fun _ => by rw [hready]⟩
  next =>
    split at h
    next =>
      cases Option.some.inj h
      refine ⟨Nat.le_refl 1, ?_⟩
      rintro ⟨c', env, source, ho⟩
      cases List.mem_singleton.mp ho
    next =>
      cases Option.some.inj h
      exact ⟨Nat.le_refl 1, fun _ => by rw [hready]⟩

theorem failed_gone {call : RouteCall} {k : ConnId} {d : Nat}
    (h : w.step (.route c) = some (w', out))
    (hp : (w.sessions c).phase = .routing call (.rollback k d)) :
    out.length ≤ 1 ∧ (w'.conns k).routing.lookup d = none ∧ (w'.sessions c).phase = .ready := by
  simp only [step, hp, routeStep, Option.some.injEq, Prod.mk.injEq] at h
  obtain ⟨rfl, rfl⟩ := h
  refine ⟨Nat.le_refl 1, ?_, by rw [sessions_setPhase_same]⟩
  rw [conns_setPhase, conns_setRouting_same]
  exact AList.lookup_erase _ _

/-- A drain leaves no entry, and after its notices the step announces the new state of the pool at most. -/
theorem drain_out {a : Act} {k : ConnId} (h : w.step a = some (w', out)) (hk : a.draining w = some k) :
    (w'.conns k).routing = ∅ ∧ w'.sessions = w.sessions ∧ ∃ rest, out = w.notices k ++ rest ∧
      ∀ c env source, .toClient c env source ∈ rest → ∃ j, source = .supervisor j := by
  have hlast : ∀ (rest : List Obs) {c env source}, (∀ c env source, .toClient c env source ∉ rest) →
      ∀ j capabilities, .toClient c env source ∈ rest ++ [w.capabilitiesEvent j capabilities] →
        ∃ j, source = .supervisor j := by
    intro rest c env source hrest j capabilities ho
    rcases List.mem_append.mp ho with ho | ho
    · exact absurd ho (hrest c env source)
    · cases List.mem_singleton.mp ho
      exact ⟨j, rfl⟩
  unfold Act.draining at hk
  split at hk
  next k' =>
    obtain rfl := Option.some.inj hk
    simp only [step, Option.ite_none_right_eq_some] at h
    have hw := congrArg Prod.fst (Option.some.inj h.2)
    have hout := congrArg Prod.snd (Option.some.inj h.2)
    subst hw hout
    refine ⟨by simp [drain, setRouting], rfl, [], ?_, fun _ _ _ ho => by cases ho⟩
    simp [notices, drain]
  next j =>
    split at hk
    next conn prev hp =>
      obtain rfl := Option.some.inj hk
      simp only [step, supervisorStep, hp, Option.some.injEq, Prod.mk.injEq] at h
      obtain ⟨rfl, rfl⟩ := h
      refine ⟨?_, rfl, _, rfl, fun c env source ho => hlast [.pooled j conn] ?_ j _ ho⟩
      · show ((w.setRouting prev ∅).conns prev).routing = ∅
        rw [conns_setRouting_same]
      · intro c env source ho
        cases List.mem_singleton.mp ho
    next => cases hk
  next j =>
    split at hk
    next k' hp =>
      obtain rfl := Option.some.inj hk
      simp only [step, supervisorStep, hp, Option.some.injEq, Prod.mk.injEq] at h
      obtain ⟨rfl, rfl⟩ := h
      refine ⟨?_, rfl, _, rfl, fun c env source ho => hlast [] ?_ j _ ho⟩
      · show ((w.setRouting k' ∅).conns k').routing = ∅
        rw [conns_setRouting_same]
      · intro c env source ho
        cases ho
    next => cases hk
  next => cases hk

end World

end Tepegoz
