import Tepegoz.RoutingIds

namespace Tepegoz

open Transition

/-- A handle is released while its alias has no pooled connection, or still the one that the handle
was issued on. -/
def ReleasedInTime (_ : List Obs) (w : World) (a : Act) : Prop :=
  ∀ r ∈ a.releasing w,
    w.pool r.2.2.hostAlias = none ∨ w.pool r.2.2.hostAlias = some r.2.2.conn

instance (tr : List Obs) (w : World) (a : Act) : Decidable (ReleasedInTime tr w a) :=
  inferInstanceAs (Decidable (∀ r ∈ a.releasing w,
    w.pool r.2.2.hostAlias = none ∨ w.pool r.2.2.hostAlias = some r.2.2.conn))

/-- Observations that end a routed subscription on behalf of a client. -/
def Obs.releases : Obs → Bool
  | .released _ _ _ _ _ | .toAgent _ _ (.unsubscribe _) => true
  | _ => false

theorem Obs.releases_of_quiet {o : Obs} (h : o.quiet = true) : o.releases = false := by
  cases o <;> simp_all [Obs.quiet, Obs.releases]

theorem RouteCall.forwarded_not_releases (call : RouteCall) (c : ClientId) (k : ConnId) (d : Nat) :
    (Obs.toAgent c k (call.forwarded d)).releases = false := by
  unfold forwarded
  cases call.request <;> rfl

section Step

variable {tr out : List Obs} {w w' : World}

/-- Only the release of a handle ends a routed subscription. -/
theorem RoutingStep.releases_cases {a : Act} {o : Obs} (h : RoutingStep w a w' out) (ho : o ∈ out)
    (hr : o.releases = true) : ∃ c id handle, (w.sessions c).Holds id handle ∧
      a.releasing w = some (c, id, handle) ∧ o ∈ (w.release c id handle).2 := by
  have hquiet : (∀ o ∈ out, o.quiet = true) → o.releases = false := fun hq =>
    Obs.releases_of_quiet (hq o ho)
  cases h with
  | quiet _ _ _ hq => simp [hquiet hq] at hr
  | drained _ _ _ _ _ _ _ _ _ hq _ => simp [hquiet hq] at hr
  | @answered k env _ => simp [hquiet (w.routeAgentEnvelope_cases k env).2] at hr
  | born | driverEnd | connected | sendFailed | disconnected | teardownLocked | teardownDone =>
    simp at ho
  | refused | allocated | inserted | rolledBack =>
    rw [List.mem_singleton.mp ho] at hr
    simp [Obs.releases] at hr
  | commanded =>
    rcases List.mem_cons.mp ho with rfl | ho
    · simp [Obs.releases] at hr
    · simp [Obs.releases_of_quiet (World.replies_quiet o ho)] at hr
  | @sent c call k d _ _ _ _ =>
    rw [List.mem_singleton.mp ho, call.forwarded_not_releases] at hr
    simp at hr
  | @unsubscribed c id handle hp =>
    exact ⟨c, id, handle, .inr (by simp [hp, SessionPhase.pending]),
      by simp [Act.releasing, hp], ho⟩
  | @teardownNext c id handle todo hp =>
    exact ⟨c, id, handle, .inr (by simp [hp, SessionPhase.pending]),
      by simp [Act.releasing, hp], ho⟩

/-- An unsubscribe or a teardown reports every routing entry that it takes away. -/
theorem World.kept_or_released {a : Act} {c : ClientId} {k : ConnId} {d : Nat} {e : RoutedSub}
    (ha : a = .unsubscribe c ∨ a = .teardown c) (hs : w.step a = some (w', out))
    (he : (w.conns k).routing.lookup d = some e) :
    (w'.conns k).routing.lookup d = some e ∨ ∃ id, .released c id k d e ∈ out := by
  rcases ha with rfl | rfl
  · simp only [step] at hs
    split at hs
    next id handle _ =>
      simp only [Option.ite_none_right_eq_some] at hs
      cases Option.some.inj hs.2
      exact (w.release_lookup c id handle he).imp_right fun hm => ⟨id, hm⟩
    next => simp at hs
  · simp only [step, teardownStep] at hs
    split at hs
    next =>
      simp only [Option.ite_none_right_eq_some] at hs
      cases Option.some.inj hs.2
      exact .inl he
    next => cases Option.some.inj hs; exact .inl he
    next id handle _ _ =>
      cases Option.some.inj hs
      exact (w.release_lookup c id handle he).imp_right fun hm => ⟨id, hm⟩
    next => simp at hs

/-- Released in time, a handle ends a subscription that its own client registered. -/
theorem IdLedger.releases_own {c : ClientId} {id : Nat} {handle : AgentSubHandle} {o : Obs}
    (h : IdLedger tr w) (hheld : (w.sessions c).Holds id handle)
    (hpool : w.pool handle.hostAlias = none ∨ w.pool handle.hostAlias = some handle.conn)
    (ho : o ∈ (w.release c id handle).2) :
    ∃ k d e, .inserted k d e ∈ tr ∧ e.client = c ∧
      (o = .released c id k d e ∨ o = .toAgent c k (.unsubscribe d)) := by
  obtain ⟨e, hins, hclient, -⟩ := h.handle c id handle hheld
  rcases w.release_cases c id handle with hr | ⟨k, hk, -, hcases⟩
  · simp [hr] at ho
  · rcases hpool with hn | hown
    · simp [hk] at hn
    · obtain rfl : k = handle.conn := Option.some.inj (hk.symm.trans hown)
      refine ⟨_, _, e, hins, hclient, ?_⟩
      rcases hcases o ho with ⟨e', he', rfl⟩ | rfl
      · rw [h.unique _ _ _ _ hins (h.entry _ _ _ he')]
        exact .inl rfl
      · exact .inr rfl

end Step

theorem releases_own_of_run {tr : List Obs} {w : World} (h : Run daemon ReleasedInTime tr w) :
    ∀ o ∈ tr, o.releases = true → ∃ c id k d e, .inserted k d e ∈ tr ∧ e.client = c ∧
      (o = .released c id k d e ∨ o = .toAgent c k (.unsubscribe d)) := by
  refine h.invariant (I := fun tr _ => ∀ o ∈ tr, o.releases = true → ∃ c id k d e,
    .inserted k d e ∈ tr ∧ e.client = c ∧
      (o = .released c id k d e ∨ o = .toAgent c k (.unsubscribe d))) (by simp) ?_
  intro tr w a w' out hr ih hok hs o ho hrel
  rcases List.mem_append.mp ho with ho | ho
  · obtain ⟨c, id, k, d, e, hins, hrest⟩ := ih o ho hrel
    exact ⟨c, id, k, d, e, List.mem_append_left _ hins, hrest⟩
  · obtain ⟨c, id, handle, hheld, ha, hm⟩ := (World.routingStep_of_step hs).releases_cases ho hrel
    obtain ⟨k, d, e, hins, hrest⟩ := (idLedger_of_run hr).releases_own hheld (hok _ ha) hm
    exact ⟨c, id, k, d, e, List.mem_append_left _ hins, hrest⟩

/-- When handles are released in time, an unsubscribe or a teardown takes away the client's own
routing entries only, and it unsubscribes at an agent only what the client registered there. -/
theorem routing_isolation {tr : List Obs} {w : World} (h : Run daemon ReleasedInTime tr w) :
    (∀ c id k d e, .released c id k d e ∈ tr → e.client = c) ∧
    (∀ c k d, .toAgent c k (.unsubscribe d) ∈ tr → ∃ e, .inserted k d e ∈ tr ∧ e.client = c) ∧
    ∀ c a w' out, a = .unsubscribe c ∨ a = .teardown c → ReleasedInTime tr w a →
      w.step a = some (w', out) → ∀ k d e, (w.conns k).routing.lookup d = some e →
        e.client ≠ c → (w'.conns k).routing.lookup d = some e := by
  have hrel : ∀ {tr w}, Run daemon ReleasedInTime tr w →
      ∀ c id k d e, .released c id k d e ∈ tr → e.client = c := by
    intro tr w h c id k d e hm
    obtain ⟨c', id', k', d', e', -, hc, ho | ho⟩ := releases_own_of_run h _ hm rfl
    · obtain ⟨rfl, -, -, -, rfl⟩ := Obs.released.inj ho
      exact hc
    · cases ho
  refine ⟨hrel h, fun c k d hm => ?_, fun c a w' out ha hok hs k d e he hne => ?_⟩
  · obtain ⟨c', id', k', d', e', hins, hc, ho | ho⟩ := releases_own_of_run h _ hm rfl
    · cases ho
    · obtain ⟨rfl, rfl, hd⟩ := Obs.toAgent.inj ho
      obtain rfl := Payload.unsubscribe.inj hd
      exact ⟨e', hins, hc⟩
  · rcases World.kept_or_released ha hs he with hk | ⟨id, hm⟩
    · exact hk
    · exact absurd (hrel (h.next hok hs) c id k d e (List.mem_append_right _ hm)) hne

/-- Two clients subscribe through one agent; the one unsubscribes, the other goes. -/
theorem routing_isolation_shared : ∃ tr w, Run daemon ReleasedInTime tr w ∧
    .released 0 5 0 1 ⟨0, 5, .subscription, .docker⟩ ∈ tr ∧
    .released 1 9 0 2 ⟨1, 9, .subscription, .docker⟩ ∈ tr ∧
    ∀ c id k d e, .released c id k d e ∈ tr → e.client = c := by
  obtain ⟨tr, w, hr, hm, hm'⟩ := Run.of_replay daemon ReleasedInTime
    (fun tr _ => .released 0 5 0 1 ⟨0, 5, .subscription, .docker⟩ ∈ tr ∧
      .released 1 9 0 2 ⟨1, 9, .subscription, .docker⟩ ∈ tr) rfl
    (registerBy 0 0 ++ routeBy 0 5 ++ [Act.connect 1] ++ routeBy 1 9 ++
      [Act.command 0 (.unsubscribe 5) .none, .unsubscribe 0, .disconnect 1, .teardown 1, .teardown 1])
    (by decide +kernel)
  exact ⟨tr, w, hr, hm, hm', (routing_isolation hr).1⟩

/-- The agent of `h` registers again; client `0` unsubscribes what it subscribed on the old
connection, and the entry of client `1` on the new one goes. -/
theorem routing_isolation_violated : ¬ ∀ (tr : List Obs) (w : World), Run daemon Free tr w →
    (∀ c id k d e, .released c id k d e ∈ tr → e.client = c) ∧
    (∀ c k d, .toAgent c k (.unsubscribe d) ∈ tr → ∃ e, .inserted k d e ∈ tr ∧ e.client = c) ∧
    ∀ c a w' out, a = .unsubscribe c ∨ a = .teardown c → Free tr w a →
      w.step a = some (w', out) → ∀ k d e, (w.conns k).routing.lookup d = some e →
        e.client ≠ c → (w'.conns k).routing.lookup d = some e := by
  intro hall
  obtain ⟨tr, w, hr, hm⟩ := Run.of_replay daemon Free
    (fun tr _ => Obs.released 0 5 1 1 ⟨1, 9, .subscription, .docker⟩ ∈ tr) rfl
    (registerBy 0 0 ++ routeBy 0 5 ++
      [Act.supervisor 0 .sessionEnded, .supervisor 0 .remove, .supervisor 0 .drained,
        .supervisor 0 .connected, .supervisor 0 (.handshaken ["docker"]), .supervisor 0 .register,
        .connect 1] ++
      routeBy 1 9 ++ [Act.command 0 (.unsubscribe 5) .none, .unsubscribe 0]) (by decide +kernel)
  exact absurd ((hall tr w hr).1 _ _ _ _ _ hm) (by decide)

end Tepegoz
