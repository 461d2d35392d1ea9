import Tepegoz.Daemon

namespace Tepegoz

/-- Observations that say nothing about commands, agents' ids and routing entries. -/
def Obs.quiet : Obs → Bool
  | .toClient _ _ _ | .pooled _ _ | .displaced _ _ | .unpooled _ _ => true
  | _ => false

/-- The notices of a drain. -/
def World.notices (w : World) (k : ConnId) : List Obs := (w.drain k).2

/-- What a step of the daemon can do to connections and sessions. -/
inductive RoutingStep (w : World) : Act → World → List Obs → Prop
  | quiet {a w' out} : w'.conns = w.conns → w'.connCount = w.connCount →
      w'.sessions = w.sessions → (∀ o ∈ out, o.quiet = true) → RoutingStep w a w' out
  | born {a w' hostAlias capabilities} :
      w'.conns = Function.update w.conns w.connCount (.spawned hostAlias capabilities) →
      w'.connCount = w.connCount + 1 → w'.sessions = w.sessions → RoutingStep w a w' []
  | drained {a w' out k} (conn : AgentConnection) : conn.routing = ∅ →
      conn.nextSubId = (w.conns k).nextSubId →
      conn.hostAlias = (w.conns k).hostAlias ∧ conn.capabilities = (w.conns k).capabilities →
      conn.driver = (w.conns k).driver → (conn.parser = true → (w.conns k).parser = true) →
      w'.conns = Function.update w.conns k conn → w'.connCount = w.connCount →
      w'.sessions = w.sessions → (∀ o ∈ out, o.quiet = true) → w.notices k ⊆ out →
      RoutingStep w a w' out
  | driverEnd {k} : RoutingStep w (.driverEnd k)
      (w.setConn k { w.conns k with driver := false }) []
  | answered {k env} : (w.conns k).parser = true →
      RoutingStep w (.agentFrame k env) (w.routeAgentEnvelope k env).1
        (w.routeAgentEnvelope k env).2
  | connected {c} : (w.sessions c).phase = .absent →
      RoutingStep w (.connect c) (w.setSession c .fresh) []
  | commanded {c payload panes handled} : (w.sessions c).phase = .ready →
      handled = (w.sessions c).handleCommand w.taskCount panes payload →
      RoutingStep w (.command c payload panes)
        (((w.addTask c handled.spawned).addAction c handled.acting).setSession c handled.session)
        (.commanded c payload :: World.replies c .session handled.replies)
  | refused {c call env} : (w.sessions c).phase = .routing call .lookup →
      RoutingStep w (.route c) (w.setPhase c .ready) [.toClient c env .session]
  | allocated {c call k} : (w.sessions c).phase = .routing call .lookup →
      w.pool call.hostAlias = some k →
      RoutingStep w (.route c)
        ((w.setConn k { w.conns k with nextSubId := (w.conns k).nextSubId + 1 }).setPhase c
          (.routing call (.allocated k (w.conns k).nextSubId)))
        [.allocated c k (w.conns k).nextSubId]
  | inserted {c call k d} : (w.sessions c).phase = .routing call (.allocated k d) →
      RoutingStep w (.route c)
        ((w.setRouting k ((w.conns k).routing.insert d (call.entry c))).setPhase c
          (.routing call (.inserted k d)))
        [.inserted k d (call.entry c)]
  | sent {c call k d handles} : (w.sessions c).phase = .routing call (.inserted k d) →
      (w.conns k).driver = true →
      handles = (if call.kind = .subscription then
        (w.sessions c).clientAgentSubs.insert call.clientId ⟨call.hostAlias, d, k⟩
        else (w.sessions c).clientAgentSubs) →
      RoutingStep w (.route c)
        (w.setSession c { w.sessions c with phase := .ready, clientAgentSubs := handles })
        [.toAgent c k (call.forwarded d)]
  | sendFailed {c call k d} : (w.sessions c).phase = .routing call (.inserted k d) →
      (w.conns k).driver = false →
      RoutingStep w (.route c) (w.setPhase c (.routing call (.rollback k d))) []
  | rolledBack {c call k d} : (w.sessions c).phase = .routing call (.rollback k d) →
      RoutingStep w (.route c)
        ((w.setRouting k ((w.conns k).routing.erase d)).setPhase c .ready)
        [.toClient c call.writerClosed (.failedCall k d)]
  | unsubscribed {c id handle} : (w.sessions c).phase = .unsubscribing id handle →
      RoutingStep w (.unsubscribe c) ((w.release c id handle).1.setPhase c .ready)
        (w.release c id handle).2
  | disconnected {c} : (w.sessions c).phase = .ready →
      RoutingStep w (.disconnect c) (w.setSession c (w.sessions c).close) []
  | teardownLocked {c todo} : (w.sessions c).phase = .closing todo →
      RoutingStep w (.teardown c)
        ({ w with poolLock := some (.session c) }.setPhase c (.draining todo)) []
  | teardownNext {c id handle todo} : (w.sessions c).phase = .draining ((id, handle) :: todo) →
      RoutingStep w (.teardown c) ((w.release c id handle).1.setPhase c (.draining todo))
        (w.release c id handle).2
  | teardownDone {c} : (w.sessions c).phase = .draining [] →
      RoutingStep w (.teardown c) ({ w with poolLock := none }.setPhase c .gone) []

namespace World

variable {w w' : World} {out : List Obs}

theorem notices_quiet (w : World) (k : ConnId) : ∀ o ∈ w.notices k, o.quiet = true := by
  intro o ho
  obtain ⟨entry, -, rfl⟩ := List.mem_map.mp ho
  rfl

/-- What `release` does, by what the pool holds for the alias. -/
theorem release_cases (w : World) (c : ClientId) (id : Nat) (handle : AgentSubHandle) :
    w.release c id handle = (w, []) ∨
    ∃ k, w.pool handle.hostAlias = some k ∧
      (w.release c id handle).1 =
        w.setRouting k ((w.conns k).routing.erase handle.daemonId) ∧
      ∀ o ∈ (w.release c id handle).2,
        (∃ e, (w.conns k).routing.lookup handle.daemonId = some e ∧
          o = .released c id k handle.daemonId e) ∨
        o = .toAgent c k (.unsubscribe handle.daemonId) := by
  unfold release
  split
  next => exact .inl rfl
  next k hk =>
    refine .inr ⟨k, hk, rfl, fun o ho => ?_⟩
    rcases List.mem_append.mp ho with ho | ho
    · split at ho
      next e he => exact .inl ⟨e, he, List.mem_singleton.mp ho⟩
      next => simp at ho
    · split at ho
      next => exact .inr (List.mem_singleton.mp ho)
      next => simp at ho

theorem release_pooled {c : ClientId} {id : Nat} {handle : AgentSubHandle} {k : ConnId}
    (h : w.pool handle.hostAlias = some k) : (w.release c id handle).1 =
      w.setRouting k ((w.conns k).routing.erase handle.daemonId) := by
  simp [release, h]

/-- A routing entry outlives a release, or the release reports it. -/
theorem release_lookup (w : World) (c : ClientId) (id : Nat) (handle : AgentSubHandle) {k : ConnId}
    {d : Nat} {e : RoutedSub} (he : (w.conns k).routing.lookup d = some e) :
    ((w.release c id handle).1.conns k).routing.lookup d = some e ∨
      .released c id k d e ∈ (w.release c id handle).2 := by
  unfold release
  split
  next => exact .inl he
  next k' hk' =>
    by_cases hk : k = k'
    · subst hk
      by_cases hd : d = handle.daemonId
      · subst hd; simp [he]
      · left
        rw [conns_setRouting_same]
        exact (AList.lookup_erase_ne hd).trans he
    · left
      rw [conns_setRouting_other hk]
      exact he

theorem sessions_release (w : World) (c : ClientId) (id : Nat) (handle : AgentSubHandle) :
    (w.release c id handle).1.sessions = w.sessions := by
  rcases w.release_cases c id handle with h | ⟨k, -, h, -⟩ <;> rw [h]
  rfl

theorem sessions_setPhase_release (w : World) (c : ClientId) (id : Nat) (handle : AgentSubHandle)
    (phase : SessionPhase) :
    ((w.release c id handle).1.setPhase c phase).sessions = (w.setPhase c phase).sessions := by
  simp [setPhase, sessions_release]

/-- An envelope of an agent changes nothing, but that an action result takes its entry away. -/
theorem routeAgentEnvelope_cases (w : World) (k : ConnId) (env : Envelope) :
    ((w.routeAgentEnvelope k env).1 = w ∨
      ∃ d, (w.routeAgentEnvelope k env).1 = w.setRouting k ((w.conns k).routing.erase d)) ∧
    ∀ o ∈ (w.routeAgentEnvelope k env).2, o.quiet = true := by
  unfold routeAgentEnvelope
  dsimp only
  split
  next =>
    split
    next => exact ⟨.inl rfl, by simp [Obs.quiet]⟩
    next => exact ⟨.inl rfl, by simp⟩
  next result _ =>
    split
    next =>
      refine ⟨.inr ⟨result.requestId, rfl⟩, fun o ho => ?_⟩
      dsimp only at ho
      split at ho
      next => rw [List.mem_singleton.mp ho]; rfl
      next => simp at ho
    next => exact ⟨.inl rfl, by simp⟩
  next => exact ⟨.inl rfl, by simp⟩

theorem replies_quiet {c : ClientId} {source : Source} {envs : List Envelope} :
    ∀ o ∈ replies c source envs, o.quiet = true := by
  intro o ho
  obtain ⟨env, -, rfl⟩ := List.mem_map.mp ho
  rfl

theorem routeStep_cases {c : ClientId} {call : RouteCall} {stage : CallStage}
    (hp : (w.sessions c).phase = .routing call stage)
    (h : w.routeStep c call stage = some (w', out)) : RoutingStep w (.route c) w' out := by
  cases stage with
  | lookup =>
    simp only [routeStep, Option.ite_none_right_eq_some] at h
    obtain ⟨-, h⟩ := h
    split at h
    next => cases Option.some.inj h; exact .refused hp
    next k hk =>
      split at h
      next => cases Option.some.inj h; exact .allocated hp hk
      next => cases Option.some.inj h; exact .refused hp
  | allocated k d => cases Option.some.inj h; exact .inserted hp
  | inserted k d =>
    simp only [routeStep] at h
    split at h
    next hd =>
      cases Option.some.inj h
      refine .sent hp hd ?_
      cases call.kind <;> simp
    next hd => cases Option.some.inj h; exact .sendFailed hp (by simpa using hd)
  | rollback k d => cases Option.some.inj h; exact .rolledBack hp

theorem teardownStep_cases {c : ClientId} (h : w.teardownStep c = some (w', out)) :
    RoutingStep w (.teardown c) w' out := by
  unfold teardownStep at h
  split at h
  next todo hp =>
    simp only [Option.ite_none_right_eq_some] at h
    cases Option.some.inj h.2
    exact .teardownLocked hp
  next hp => cases Option.some.inj h; exact .teardownDone hp
  next id handle todo hp => cases Option.some.inj h; exact .teardownNext hp
  next => simp at h

theorem supervisorStep_cases {j : SupId} {event : SupEvent}
    (h : w.supervisorStep j event = some (w', out)) :
    RoutingStep w (.supervisor j event) w' out := by
  unfold supervisorStep at h
  split at h
  next => cases Option.some.inj h; exact .quiet rfl rfl rfl (by simp)
  next => cases Option.some.inj h; exact .quiet rfl rfl rfl (by simp [capabilitiesEvent, Obs.quiet])
  next => cases Option.some.inj h; exact .born rfl rfl rfl
  next k hp =>
    simp only [Option.ite_none_right_eq_some] at h
    obtain ⟨-, h⟩ := h
    split at h
    next => cases Option.some.inj h; exact .quiet rfl rfl rfl (by simp [capabilitiesEvent, Obs.quiet])
    next => cases Option.some.inj h; exact .quiet rfl rfl rfl (by simp [Obs.quiet])
  next k prev hp =>
    cases Option.some.inj h
    refine .drained { w.conns prev with routing := ∅ } rfl rfl ⟨rfl, rfl⟩ rfl id rfl rfl rfl ?_
      (List.subset_append_left _ _)
    intro o ho
    rcases List.mem_append.mp ho with ho | ho
    · exact w.notices_quiet prev o ho
    · rcases List.mem_cons.mp ho with rfl | ho
      · rfl
      · rw [List.mem_singleton.mp ho]; rfl
  next => cases Option.some.inj h; exact .quiet rfl rfl rfl (by simp)
  next =>
    simp only [Option.ite_none_right_eq_some] at h
    obtain ⟨-, h⟩ := h
    split at h
    next => cases Option.some.inj h; exact .quiet rfl rfl rfl (by simp [capabilitiesEvent, Obs.quiet])
    next => cases Option.some.inj h; exact .quiet rfl rfl rfl (by simp [Obs.quiet])
  next k hp =>
    cases Option.some.inj h
    refine .drained { w.conns k with routing := ∅ } rfl rfl ⟨rfl, rfl⟩ rfl id rfl rfl rfl ?_
      (List.subset_append_left _ _)
    intro o ho
    rcases List.mem_append.mp ho with ho | ho
    · exact w.notices_quiet k o ho
    · rw [List.mem_singleton.mp ho]; rfl
  next => cases Option.some.inj h; exact .quiet rfl rfl rfl (by simp)
  next =>
    split at h
    next => simp at h
    next =>
      split at h
      next => cases Option.some.inj h; exact .quiet rfl rfl rfl (by simp)
      next => cases Option.some.inj h; exact .quiet rfl rfl rfl (by simp)
  next => simp at h

/-- Every step of the daemon does to connections and sessions what `RoutingStep` lists. -/
theorem routingStep_of_step {a : Act} (h : w.step a = some (w', out)) :
    RoutingStep w a w' out := by
  cases a with
  | connect c =>
    simp only [step, Option.ite_none_right_eq_some] at h
    cases Option.some.inj h.2
    exact .connected h.1
  | command c payload panes =>
    simp only [step, Option.ite_none_right_eq_some] at h
    cases Option.some.inj h.2
    exact .commanded h.1 rfl
  | route c =>
    simp only [step] at h
    split at h
    next call stage hp => exact routeStep_cases hp h
    next => simp at h
  | unsubscribe c =>
    simp only [step] at h
    split at h
    next id handle hp =>
      simp only [Option.ite_none_right_eq_some] at h
      cases Option.some.inj h.2
      exact .unsubscribed hp
    next => simp at h
  | disconnect c =>
    simp only [step, Option.ite_none_right_eq_some] at h
    cases Option.some.inj h.2
    exact .disconnected h.1
  | teardown c => exact teardownStep_cases h
  | spawn j c fleetId hostAlias =>
    simp only [step] at h
    split at h
    next => cases Option.some.inj h; exact .quiet rfl rfl rfl (by simp)
    next => simp at h
  | supervisor j event => exact supervisorStep_cases h
  | agentFrame k env =>
    simp only [step, Option.ite_none_right_eq_some] at h
    have hout := Option.some.inj h.2
    obtain rfl : _ = w' := congrArg Prod.fst hout
    obtain rfl : _ = out := congrArg Prod.snd hout
    exact .answered h.1
  | parserEnd k =>
    simp only [step, Option.ite_none_right_eq_some] at h
    have hout := Option.some.inj h.2
    obtain rfl : _ = w' := congrArg Prod.fst hout
    obtain rfl : _ = out := congrArg Prod.snd hout
    refine .drained { w.conns k with routing := ∅, parser := false } rfl rfl ⟨rfl, rfl⟩ rfl (by simp) ?_ rfl rfl
      ?_ ?_
    · simp [drain, setRouting]
    · intro o ho
      exact notices_quiet (w.setConn k { w.conns k with parser := false }) k o ho
    · simp [notices, drain]
  | driverEnd k =>
    simp only [step, Option.ite_none_right_eq_some] at h
    cases Option.some.inj h.2
    exact .driverEnd
  | emit task event =>
    simp only [step] at h
    split at h
    next c sub hp =>
      simp only [Option.ite_none_right_eq_some] at h
      cases Option.some.inj h.2
      exact .quiet rfl rfl rfl (by simp [Obs.quiet])
    next => simp at h
  | finish task =>
    simp only [step] at h
    split at h
    next => cases Option.some.inj h; exact .quiet rfl rfl rfl (by simp)
    next => simp at h
  | acted c req outcome =>
    simp only [step, Option.ite_none_right_eq_some] at h
    cases Option.some.inj h.2
    exact .quiet rfl rfl rfl (by simp [Obs.quiet])

end World

/-- The client whose session takes the step. -/
def Act.client : Act → Option ClientId
  | .connect c | .command c _ _ | .route c | .unsubscribe c | .disconnect c | .teardown c => some c
  | _ => none

theorem RoutingStep.sessions_other {w w' : World} {a : Act} {out : List Obs} {c : ClientId}
    (h : RoutingStep w a w' out) (hc : a.client ≠ some c) : w'.sessions c = w.sessions c := by
  have hne : ∀ {c'}, some c' ≠ some c → c ≠ c' := fun h he => h (he ▸ rfl)
  cases h with
  | quiet _ _ hs => rw [hs]
  | born _ _ hs => rw [hs]
  | drained _ _ _ _ _ _ _ _ hs => rw [hs]
  | driverEnd => rfl
  | @answered k env _ =>
    rcases (w.routeAgentEnvelope_cases k env).1 with hw | ⟨d, hw⟩ <;> rw [hw]
    rfl
  | connected | commanded | sent | disconnected =>
    exact Function.update_of_ne (hne hc) _ _
  | refused | allocated | inserted | sendFailed | rolledBack | teardownLocked | teardownDone =>
    exact World.sessions_setPhase_other (hne hc) _
  | unsubscribed | teardownNext =>
    rw [World.sessions_setPhase_release, World.sessions_setPhase_other (hne hc)]

/-- A connection keeps its alias and what it advertised. -/
theorem RoutingStep.identity_kept {w w' : World} {a : Act} {out : List Obs} {k : ConnId}
    (h : RoutingStep w a w' out) (hk : k < w.connCount) :
    (w'.conns k).hostAlias = (w.conns k).hostAlias ∧
      (w'.conns k).capabilities = (w.conns k).capabilities := by
  have hrouting : ∀ k' routing, ((w.setRouting k' routing).conns k).hostAlias = (w.conns k).hostAlias ∧
      ((w.setRouting k' routing).conns k).capabilities = (w.conns k).capabilities :=
    fun k' routing => ⟨World.hostAlias_setRouting k' k routing, World.capabilities_setRouting k' k routing⟩
  cases h with
  | quiet hc => rw [hc]; exact ⟨rfl, rfl⟩
  | born hc => rw [hc, Function.update_of_ne (Nat.ne_of_lt hk)]; exact ⟨rfl, rfl⟩
  | @drained _ _ _ k' conn _ _ hsame _ _ hc =>
    rw [hc]
    by_cases hk' : k = k'
    · subst hk'
      rw [Function.update_self]
      exact hsame
    · rw [Function.update_of_ne hk']
      exact ⟨rfl, rfl⟩
  | @driverEnd k' =>
    by_cases hk' : k = k'
    · subst hk'; simp
    · simp [hk']
  | @answered k' env _ =>
    rcases (w.routeAgentEnvelope_cases k' env).1 with hw | ⟨d, hw⟩
    · rw [hw]; exact ⟨rfl, rfl⟩
    · rw [hw]; exact hrouting _ _
  | connected | commanded | refused | sent | sendFailed | disconnected | teardownLocked
  | teardownDone => exact ⟨rfl, rfl⟩
  | @allocated c call k' _ _ =>
    by_cases hk' : k = k'
    · subst hk'; simp
    · simp [hk']
  | inserted | rolledBack => exact hrouting _ _
  | @unsubscribed c id handle _ | @teardownNext c id handle _ _ =>
    rw [World.conns_setPhase]
    rcases w.release_cases c id handle with hr | ⟨k', -, hr, -⟩
    · rw [hr]; exact ⟨rfl, rfl⟩
    · rw [hr]; exact hrouting _ _

theorem RoutingStep.hostAlias_kept {w w' : World} {a : Act} {out : List Obs} {k : ConnId}
    (h : RoutingStep w a w' out) (hk : k < w.connCount) :
    (w'.conns k).hostAlias = (w.conns k).hostAlias := (h.identity_kept hk).1

/-- A routing entry was there before the step, or the step inserted it. -/
theorem RoutingStep.lookup_old {w w' : World} {a : Act} {out : List Obs} {k : ConnId} {d : Nat}
    {e : RoutedSub} (h : RoutingStep w a w' out) (he : (w'.conns k).routing.lookup d = some e) :
    (w.conns k).routing.lookup d = some e ∨ .inserted k d e ∈ out := by
  cases h with
  | quiet hc => left; rwa [hc] at he
  | born hc =>
    rw [hc] at he
    by_cases hk : k = w.connCount
    · subst hk; simp [AgentConnection.spawned] at he
    · left; rwa [Function.update_of_ne hk] at he
  | @drained _ _ _ k' conn hr _ _ _ _ hc =>
    rw [hc] at he
    by_cases hk : k = k'
    · subst hk; simp [hr] at he
    · left; rwa [Function.update_of_ne hk] at he
  | @driverEnd k' =>
    left
    by_cases hk : k = k'
    · subst hk; simpa using he
    · simpa [hk] using he
  | @answered k' env _ =>
    left
    rcases (w.routeAgentEnvelope_cases k' env).1 with hw | ⟨d', hw⟩
    · rwa [hw] at he
    · rw [hw] at he; exact World.lookup_of_eraseRouting he
  | connected | commanded | refused | sent | sendFailed | disconnected | teardownLocked
  | teardownDone => exact .inl he
  | @allocated c call k' _ _ =>
    left
    by_cases hk : k = k'
    · subst hk; simpa using he
    · simpa [hk] using he
  | @inserted c call k' d' _ =>
    rw [World.conns_setPhase] at he
    by_cases hk : k = k'
    · subst hk
      rw [World.conns_setRouting_same] at he
      by_cases hd : d = d'
      · subst hd
        rw [AList.lookup_insert, Option.some.injEq] at he
        simp [he]
      · rw [AList.lookup_insert_ne hd] at he
        exact .inl he
    · rw [World.conns_setRouting_other hk] at he
      exact .inl he
  | rolledBack => left; exact World.lookup_of_eraseRouting he
  | @unsubscribed c id handle _ | @teardownNext c id handle _ _ =>
    left
    rw [World.conns_setPhase] at he
    rcases w.release_cases c id handle with hr | ⟨k', -, hr, -⟩
    · rwa [hr] at he
    · rw [hr] at he; exact World.lookup_of_eraseRouting he

end Tepegoz
