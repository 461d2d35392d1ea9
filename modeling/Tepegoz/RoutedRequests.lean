import Tepegoz.RoutingIds

namespace Tepegoz

open Transition

/-- What a release finds is the routing entry of the same client and the same id. -/
def World.ReleasesOwn (w : World) (c : ClientId) (id : Nat) (handle : AgentSubHandle) : Prop :=
  ∀ k ∈ w.pool handle.hostAlias, ∀ e ∈ (w.conns k).routing.lookup handle.daemonId,
    e.client = c ∧ e.clientId = id

instance (w : World) (c : ClientId) (id : Nat) (handle : AgentSubHandle) :
    Decidable (w.ReleasesOwn c id handle) :=
  inferInstanceAs (Decidable (∀ k ∈ w.pool handle.hostAlias, _))

/-- The routing entry for which a step sends the frame of its request. -/
def Act.sending (w : World) : Act → Option (ConnId × Nat)
  | .route c =>
    match (w.sessions c).phase with
    | .routing _ (.inserted k d) => some (k, d)
    | _ => none
  | _ => none

/-- The routing entry that an action result of an agent is for. -/
def Act.resulting : Act → Option (ConnId × Nat)
  | .agentFrame k ⟨_, .dockerActionResult result⟩ => some (k, result.requestId)
  | _ => none

/-- No frame is sent for an entry that was inserted after the parser had ended, while the driver
still lives; action results come for actions only; releases find their own entries. -/
def RequestsKept (_ : List Obs) (w : World) (a : Act) : Prop :=
  (∀ s ∈ a.sending w, (w.conns s.1).parser = true ∨ (w.conns s.1).driver = false ∨
    (w.conns s.1).routing.lookup s.2 = none) ∧
  (∀ s ∈ a.resulting, ∀ e ∈ (w.conns s.1).routing.lookup s.2, e.kind = .oneShot) ∧
  ∀ r ∈ a.releasing w, w.ReleasesOwn r.1 r.2.1 r.2.2

instance (tr : List Obs) (w : World) (a : Act) : Decidable (RequestsKept tr w a) :=
  inferInstanceAs (Decidable (_ ∧ _ ∧ _))

/-- The request behind a routing entry got an answer of the agent, a notice of a drain or the
failure of its own call. -/
def Answered (tr : List Obs) (k : ConnId) (d : Nat) (e : RoutedSub) : Prop :=
  ∃ env source, .toClient e.client env source ∈ tr ∧ env.payload.subject = some e.clientId ∧
    (source = .agent k d ∨ source = .drain k d ∨ source = .failedCall k d)

def Settled (tr : List Obs) (k : ConnId) (d : Nat) (e : RoutedSub) : Prop :=
  .released e.client e.clientId k d e ∈ tr ∨ Answered tr k d e

/-- Once parser and driver have ended and no route call has the connection, no entry is left, and
every request that was not unsubscribed was answered. -/
def RequestsSettled (tr : List Obs) (w : World) : Prop :=
  ∀ k, (w.conns k).parser = false → (w.conns k).driver = false →
    (∀ c call stage, (w.sessions c).phase = .routing call stage → stage.conn ≠ some k) →
    (w.conns k).routing = ∅ ∧ ∀ d e, .inserted k d e ∈ tr → Settled tr k d e

section Settled

variable {tr out : List Obs} {w w' : World} {a : Act} {k : ConnId} {d : Nat} {e : RoutedSub}

theorem Settled.old (h : Settled tr k d e) : Settled (tr ++ out) k d e := by
  rcases h with h | ⟨env, source, hm, h⟩
  · exact .inl (List.mem_append_left _ h)
  · exact .inr ⟨env, source, List.mem_append_left _ hm, h⟩

theorem Settled.new (h : Settled out k d e) : Settled (tr ++ out) k d e := by
  rcases h with h | ⟨env, source, hm, h⟩
  · exact .inl (List.mem_append_right _ h)
  · exact .inr ⟨env, source, List.mem_append_right _ hm, h⟩

theorem subject_disconnectNotice (hostAlias : String) (e : RoutedSub) :
    (disconnectNotice hostAlias e).payload.subject = some e.clientId := by
  unfold disconnectNotice
  dsimp only
  split <;> rfl

theorem RouteCall.subject_failure (call : RouteCall) (reason : String) :
    (call.failure reason).payload.subject = some call.clientId := by
  unfold failure clientId
  cases call.request <;> rfl

/-- A drain notifies the client of every entry. -/
theorem World.settled_notices (he : (w.conns k).routing.lookup d = some e)
    (hout : w.notices k ⊆ out) : Settled out k d e := by
  have hm : ⟨d, e⟩ ∈ (w.conns k).routing.entries := AList.mem_lookup_iff.mp he
  refine .inr ⟨_, _, hout (List.mem_map.mpr ⟨⟨d, e⟩, hm, rfl⟩), ?_, .inr (.inl rfl)⟩
  exact subject_disconnectNotice _ _

/-- The request of an entry that is taken away is settled. -/
theorem Taken.settled (h : Taken w k d e a out) (hok : RequestsKept tr w a)
    (he : (w.conns k).routing.lookup d = some e) : Settled out k d e := by
  cases h with
  | drained hout => exact World.settled_notices he hout
  | @answered _ version result hd =>
    subst hd
    have hkind := hok.2.1 (k, result.requestId) rfl e he
    simp only [World.routeAgentEnvelope, he, hkind, if_true]
    exact .inr ⟨_, _, List.mem_singleton.mpr rfl, rfl, .inl rfl⟩
  | @rolledBack c call hp =>
    refine .inr ⟨_, _, List.mem_singleton.mpr rfl, ?_, .inr (.inr rfl)⟩
    exact call.subject_failure _
  | @released _ _ c id handle hr hm =>
    have hown := hok.2.2 (c, id, handle) hr
    rcases w.release_cases c id handle with heq | ⟨k', hpool, -, hcases⟩
    · rw [heq] at hm
      cases hm
    · rcases hcases _ hm with ⟨e', he', heq⟩ | heq
      · obtain ⟨-, -, rfl, rfl, rfl⟩ := Obs.released.inj heq
        obtain ⟨rfl, rfl⟩ := hown _ hpool _ he'
        exact .inl hm
      · cases heq

end Settled

/-- A session is between the insertion of the entry `d` and the answer of the driver. -/
def Session.Sends (s : Session) (k : ConnId) (d : Nat) : Prop :=
  ∃ call, s.phase = .routing call (.inserted k d) ∨ s.phase = .routing call (.rollback k d)

/-- Inserted requests are in routing or settled, and entries on a connection without a parser still
have their call in progress. -/
structure Accounted (tr : List Obs) (w : World) : Prop where
  request : ∀ k d e, .inserted k d e ∈ tr →
    (w.conns k).routing.lookup d = some e ∨ Settled tr k d e
  late : ∀ k d e, (w.conns k).parser = false → (w.conns k).routing.lookup d = some e →
    ∃ c, (w.sessions c).Sends k d

theorem accounted_initial : Accounted [] .initial where
  request := by simp
  late := by simp [World.initial, AgentConnection.unborn]

section Step

variable {tr out : List Obs} {w w' : World}

theorem Obs.inserted_of_quiet {k : ConnId} {d : Nat} {e : RoutedSub}
    (ho : ∀ o ∈ out, o.quiet = true) : .inserted k d e ∉ out := fun h => by
  simpa [Obs.quiet] using ho _ h

/-- A request is inserted in the middle of its call, together with its entry. -/
theorem RoutingStep.inserted_call {a : Act} {k : ConnId} {d : Nat} {e : RoutedSub}
    (h : RoutingStep w a w' out) (hm : .inserted k d e ∈ out) : ∃ c call, a = .route c ∧
      (w.sessions c).phase = .routing call (.allocated k d) ∧ e = call.entry c ∧
        out = [.inserted k d e] ∧ (w'.conns k).routing.lookup d = some e ∧
          (w'.sessions c).phase = .routing call (.inserted k d) := by
  cases h with
  | quiet _ _ _ ho => exact absurd hm (Obs.inserted_of_quiet ho)
  | drained _ _ _ _ _ _ _ _ _ ho _ => exact absurd hm (Obs.inserted_of_quiet ho)
  | @answered k' env _ =>
    exact absurd hm (Obs.inserted_of_quiet (w.routeAgentEnvelope_cases k' env).2)
  | commanded =>
    rcases List.mem_cons.mp hm with hm | hm
    · cases hm
    · exact absurd hm (Obs.inserted_of_quiet World.replies_quiet)
  | born | driverEnd | connected | sendFailed | disconnected | teardownLocked | teardownDone =>
    cases hm
  | refused | allocated | sent | rolledBack => cases List.mem_singleton.mp hm
  | @inserted c call k' d' hp =>
    cases List.mem_singleton.mp hm
    refine ⟨c, call, rfl, hp, rfl, rfl, ?_, by rw [World.sessions_setPhase_same]⟩
    rw [World.conns_setPhase, World.conns_setRouting_same]
    exact AList.lookup_insert _
  | @unsubscribed c id handle hp | @teardownNext c id handle todo hp =>
    rcases w.release_cases c id handle with hr | ⟨_, -, -, hcases⟩
    · rw [hr] at hm
      cases hm
    · rcases hcases _ hm with ⟨_, -, heq⟩ | heq <;> cases heq

/-- An entry without a call in progress stays so, unless its parser ends or its frame is sent. -/
theorem RoutingStep.late {a : Act} {k : ConnId} {d : Nat} {e : RoutedSub}
    (h : RoutingStep w a w' out) (hacc : Accounted tr w) (hok : RequestsKept tr w a)
    (hp : (w'.conns k).parser = false) (he : (w'.conns k).routing.lookup d = some e) :
    ∃ c, (w'.sessions c).Sends k d := by
  have hsame : w'.sessions = w.sessions → (w.conns k).parser = false →
      (w.conns k).routing.lookup d = some e → ∃ c, (w'.sessions c).Sends k d := by
    intro hs hp he
    rw [hs]
    exact hacc.late k d e hp he
  have hother : ∀ {c}, a.client = some c → ¬ (w.sessions c).Sends k d →
      (w.conns k).parser = false → (w.conns k).routing.lookup d = some e →
      ∃ c, (w'.sessions c).Sends k d := by
    intro c hc hnot hp he
    obtain ⟨c', hc'⟩ := hacc.late k d e hp he
    have hne : a.client ≠ some c' := fun h' =>
      hnot (Option.some.inj (hc.symm.trans h') ▸ hc')
    exact ⟨c', by rw [h.sessions_other hne]; exact hc'⟩
  cases h with
  | quiet hc _ hs => rw [hc] at hp he; exact hsame hs hp he
  | born hc _ hs =>
    rw [hc] at hp he
    by_cases hk : k = w.connCount
    · subst hk; simp [AgentConnection.spawned] at hp
    · rw [Function.update_of_ne hk] at hp he
      exact hsame hs hp he
  | @drained _ _ _ k' conn hr _ _ _ _ hc _ hs _ _ =>
    rw [hc] at hp he
    by_cases hk : k = k'
    · subst hk
      rw [Function.update_self, hr] at he
      simp at he
    · rw [Function.update_of_ne hk] at hp he
      exact hsame hs hp he
  | @driverEnd k' =>
    by_cases hk : k = k'
    · subst hk
      exact hsame rfl (by simpa using hp) (by simpa using he)
    · exact hsame rfl (by simpa [hk] using hp) (by simpa [hk] using he)
  | @answered k' env _ =>
    rcases (w.routeAgentEnvelope_cases k' env).1 with hw | ⟨d', hw⟩
    · rw [hw] at hp he
      exact hsame (by rw [hw]) hp he
    · rw [hw] at hp he
      exact hsame (by rw [hw]; rfl) (by simpa using hp) (World.lookup_of_eraseRouting he)
  | @connected c hphase | @commanded c _ _ _ hphase _ | @disconnected c hphase
  | @teardownLocked c _ hphase | @teardownDone c hphase | @refused c _ _ hphase =>
    exact hother rfl (by simp [Session.Sends, hphase]) hp he
  | @allocated c call k' hphase _ =>
    refine hother rfl (by simp [Session.Sends, hphase]) ?_ ?_
    · by_cases hk : k = k'
      · subst hk; simpa using hp
      · simpa [hk] using hp
    · by_cases hk : k = k'
      · subst hk; simpa using he
      · simpa [hk] using he
  | @inserted c call k' d' hphase =>
    rw [World.conns_setPhase] at hp he
    by_cases hnew : k = k' ∧ d = d'
    · obtain ⟨rfl, rfl⟩ := hnew
      exact ⟨c, call, .inl (by rw [World.sessions_setPhase_same])⟩
    · refine hother rfl (by simp [Session.Sends, hphase]) (by simpa using hp) ?_
      by_cases hk : k = k'
      · subst hk
        rw [World.conns_setRouting_same] at he
        rwa [AList.lookup_insert_ne (fun hd => hnew ⟨rfl, hd⟩)] at he
      · rwa [World.conns_setRouting_other hk] at he
  | @sent c call k' d' handles hphase hd _ =>
    refine hother rfl ?_ hp he
    rintro ⟨call', hs⟩
    have hok := hok.1 (k', d') (by simp [Act.sending, hphase])
    simp only [hphase, SessionPhase.routing.injEq, CallStage.inserted.injEq, reduceCtorEq,
      and_false, or_false] at hs
    obtain ⟨-, rfl, rfl⟩ := hs
    rcases hok with hok | hok | hok
    · exact Bool.false_ne_true (hp.symm.trans hok)
    · exact Bool.false_ne_true (hok.symm.trans hd)
    · exact absurd (hok.symm.trans he) (by simp)
  | @sendFailed c call k' d' hphase _ =>
    by_cases hs : (w.sessions c).Sends k d
    · obtain ⟨call', hs⟩ := hs
      simp only [hphase, SessionPhase.routing.injEq, CallStage.inserted.injEq, reduceCtorEq,
        and_false, or_false] at hs
      obtain ⟨-, rfl, rfl⟩ := hs
      exact ⟨c, call, .inr (by rw [World.sessions_setPhase_same])⟩
    · exact hother rfl hs hp he
  | @rolledBack c call k' d' hphase =>
    rw [World.conns_setPhase] at hp he
    refine hother rfl ?_ (by simpa using hp) (World.lookup_of_eraseRouting he)
    rintro ⟨call', hs⟩
    simp only [hphase, SessionPhase.routing.injEq, CallStage.rollback.injEq, reduceCtorEq,
      and_false, false_or] at hs
    obtain ⟨-, rfl, rfl⟩ := hs
    rw [World.conns_setRouting_same] at he
    simp [AList.lookup_erase] at he
  | @unsubscribed c id handle hphase | @teardownNext c id handle _ hphase =>
    rw [World.conns_setPhase] at hp he
    refine hother rfl (by simp [Session.Sends, hphase]) ?_ ?_
    · rcases w.release_cases c id handle with hr | ⟨k', -, hr, -⟩
      · rwa [hr] at hp
      · rw [hr] at hp; simpa using hp
    · rcases w.release_cases c id handle with hr | ⟨k', -, hr, -⟩
      · rwa [hr] at he
      · rw [hr] at he; exact World.lookup_of_eraseRouting he

theorem Accounted.step {a : Act} (h : Accounted tr w) (hl : IdLedger tr w)
    (hok : RequestsKept tr w a) (hs : RoutingStep w a w' out) : Accounted (tr ++ out) w' where
  request k d e hm := by
    rcases List.mem_append.mp hm with hm | hm
    · rcases h.request k d e hm with he | hset
      · exact (hs.lookup_or_taken hl he).imp_right fun ht => (ht.settled hok he).new
      · exact .inr hset.old
    · obtain ⟨-, -, -, -, -, -, hlookup, -⟩ := hs.inserted_call hm
      exact .inl hlookup
  late _ _ _ hp he := hs.late h hok hp he

theorem accounted_of_run (h : Run daemon RequestsKept tr w) : Accounted tr w := by
  refine h.invariant ?_ ?_
  · rintro _ rfl
    exact accounted_initial
  · intro tr w a w' out hr hi hok hs
    exact hi.step (idLedger_of_run hr) hok (World.routingStep_of_step hs)

end Step

theorem routed_requests_settled {tr : List Obs} {w : World} (h : Run daemon RequestsKept tr w) :
    RequestsSettled tr w := by
  have hacc := accounted_of_run h
  intro k hp _ hcalls
  have hempty : ∀ d, (w.conns k).routing.lookup d = none := by
    intro d
    by_contra hd
    obtain ⟨e, he⟩ := Option.ne_none_iff_exists'.mp hd
    obtain ⟨c, call, hs | hs⟩ := hacc.late k d e hp he
    · exact hcalls c call _ hs rfl
    · exact hcalls c call _ hs rfl
  refine ⟨?_, fun d e hm => (hacc.request k d e hm).resolve_left (by simp [hempty d])⟩
  refine AList.ext (List.eq_nil_iff_forall_not_mem.mpr ?_)
  rintro ⟨d, e⟩ hm
  have := AList.mem_lookup_iff.mpr hm
  simp [hempty d] at this

theorem routed_requests_settled_drained : ∃ tr w, Run daemon RequestsKept tr w ∧
    (.inserted 0 1 ⟨0, 5, .subscription, .docker⟩ ∈ tr ∧ (w.conns 0).parser = false ∧
      (w.conns 0).driver = false) ∧ RequestsSettled tr w := by
  obtain ⟨tr, w, hr, hm⟩ := Run.of_replay daemon RequestsKept
    (fun tr w => .inserted 0 1 ⟨0, 5, .subscription, .docker⟩ ∈ tr ∧
      (w.conns 0).parser = false ∧ (w.conns 0).driver = false) rfl
    (registerBy 0 0 ++ routeBy 0 5 ++ [Act.parserEnd 0, .driverEnd 0]) (by decide)
  exact ⟨tr, w, hr, hm, routed_requests_settled hr⟩

/-- Steps of one client's session and of the rest of the daemon. -/
def SingleClient (c : ClientId) (_ : List Obs) (_ : World) (a : Act) : Prop :=
  a.client = none ∨ a.client = some c

instance (c : ClientId) (tr : List Obs) (w : World) (a : Act) : Decidable (SingleClient c tr w a) :=
  inferInstanceAs (Decidable (_ ∨ _))

theorem absent_of_singleClient {tr : List Obs} {w : World} {c c' : ClientId}
    (h : Run daemon (SingleClient c) tr w) (hc : c' ≠ c) : (w.sessions c').phase = .absent := by
  refine h.invariant (I := fun _ w => (w.sessions c').phase = .absent) ?_ ?_
  · rintro _ rfl
    rfl
  · intro tr w a w' out _ ih hok hs
    rw [(World.routingStep_of_step hs).sessions_other ?_]
    · exact ih
    · rcases hok with h | h <;> simp [h, Ne.symm hc]

/-- The parser ends and drains between the clone of the connection and the insertion; the driver
still takes the frame, so that the entry stays. -/
theorem routed_request_orphaned : ¬ ∀ (tr : List Obs) (w : World), Run daemon Free tr w →
    RequestsSettled tr w := by
  intro hall
  obtain ⟨tr, w, hr, hp, hd, hready, he⟩ := Run.of_replay daemon (SingleClient 0)
    (fun _ w => (w.conns 0).parser = false ∧ (w.conns 0).driver = false ∧
      (w.sessions 0).phase = .ready ∧ (w.conns 0).routing.lookup 1 ≠ none) rfl
    (registerBy 0 0 ++ [Act.command 0 (.subscribe (.docker 5 (.remote "h"))) .none, .route 0,
      .parserEnd 0, .route 0, .route 0, .driverEnd 0]) (by decide)
  have hcalls : ∀ c call stage, (w.sessions c).phase = .routing call stage →
      stage.conn ≠ some 0 := by
    intro c call stage hphase
    by_cases hc : c = 0
    · subst hc; simp [hready] at hphase
    · simp [absent_of_singleClient hr hc] at hphase
  have hempty := (hall tr w (hr.mono fun _ _ _ _ => trivial) 0 hp hd hcalls).1
  simp [hempty] at he

end Tepegoz
