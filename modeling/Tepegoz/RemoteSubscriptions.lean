import Mathlib.Data.List.Induction
import Tepegoz.OneProducer
import Tepegoz.Deliveries
import Tepegoz.RoutedCalls

namespace Tepegoz

open Transition

/-- Subscriptions whose Unavailable events the daemon promises to follow up. -/
def IdKind.followedUp : IdKind → Bool
  | .docker | .ports | .processes => true
  | _ => false

/-- A session without a command in progress has a routing entry for each such subscription of another
host, on the connection in the pool if it offers the capability. -/
def SubscriptionsSurvive (tr : List Obs) (w : World) : Prop :=
  ∀ c sub hostAlias scope capability k, newest c sub.id tr = some (.subscription sub) →
    sub.kind.followedUp = true → sub.target = some (.remote hostAlias) →
    sub.routedScope = some (scope, capability) → (w.sessions c).phase = .ready →
    w.pool hostAlias = some k → (w.conns k).capabilities.contains capability = true →
      ∃ d, (w.conns k).routing.lookup d = some ⟨c, sub.id, .subscription, scope⟩

/-- The call for what client `c` last subscribed under the id `i`, if it is such a subscription. -/
def wanted (c : ClientId) (i : Nat) (tr : List Obs) : Option RouteCall :=
  match newest c i tr with
  | some (.subscription sub) =>
    if sub.kind.followedUp then (Payload.subscribe sub).routed else none
  | _ => none

/-- The connection that a step puts into the pool. -/
def Act.pooling (w : World) : Act → Option ConnId
  | .supervisor j .register =>
    match (w.supervisors j).phase, w.pool (w.supervisors j).hostAlias with
    | .registering k, none => some k
    | _, _ => none
  | .supervisor j .replaced =>
    match (w.supervisors j).phase with
    | .replacing k _ => some k
    | _ => none
  | _ => none

/-- A session wants the entry, and the connection is the one to serve it. -/
def World.Wants (w : World) (tr : List Obs) (k : ConnId) (e : RoutedSub) : Prop :=
  ∃ call ∈ wanted e.client e.clientId tr, e = call.entry e.client ∧
    (w.sessions e.client).phase.running = true ∧ w.pool call.hostAlias = some k ∧
    (w.conns k).capabilities.contains call.requiredCapability = true

/-- The client of a subscribe, if it still wants what `k` offers, is about to look it up. -/
def Obs.InTime (tr : List Obs) (w : World) (k : ConnId) : Obs → Prop
  | .commanded c (.subscribe sub) => ∀ call ∈ wanted c sub.id tr,
    (w.sessions c).phase.running = true → call.hostAlias = (w.conns k).hostAlias →
      (w.conns k).capabilities.contains call.requiredCapability = true →
        (w.sessions c).phase = .routing call .lookup
  | _ => True

/-- No session wants the entry, or an equal one stays when it goes. -/
def World.Spares (w : World) (tr : List Obs) (k : ConnId) (d : Nat) : Prop :=
  ∀ e ∈ (w.conns k).routing.lookup d, w.Wants tr k e →
    ∃ entry ∈ (w.conns k).routing.entries, entry.1 ≠ d ∧ entry.2 = e

/-- A connection enters the pool only while nobody waits for it, and it is drained only when no session
wants an entry of it. A call whose send failed, an action result and a release take no entry that a
session wants. -/
structure SubscriptionsKept (tr : List Obs) (w : World) (a : Act) : Prop where
  entered : ∀ k ∈ a.pooling w, ∀ o ∈ tr, o.InTime tr w k
  drained : ∀ k ∈ a.draining w, ∀ entry ∈ (w.conns k).routing.entries, ¬ w.Wants tr k entry.2
  failed : ∀ call ∈ a.failing w, w.Spares tr call.2.2.1 call.2.2.2
  resulted : ∀ result ∈ a.resulting, w.Spares tr result.1 result.2
  released : ∀ r ∈ a.releasing w, ∀ k ∈ w.pool r.2.2.hostAlias, w.Spares tr k r.2.2.daemonId

instance (w : World) (tr : List Obs) (k : ConnId) (e : RoutedSub) : Decidable (w.Wants tr k e) :=
  inferInstanceAs (Decidable (∃ call ∈ wanted e.client e.clientId tr, _))

instance (w : World) (tr : List Obs) (k : ConnId) (d : Nat) : Decidable (w.Spares tr k d) :=
  inferInstanceAs (Decidable (∀ e ∈ _, _ → _))

instance (tr : List Obs) (w : World) (k : ConnId) (o : Obs) : Decidable (o.InTime tr w k) := by
  unfold Obs.InTime
  split <;> infer_instance

instance (tr : List Obs) (w : World) (a : Act) : Decidable (SubscriptionsKept tr w a) :=
  decidable_of_iff ((∀ k ∈ a.pooling w, ∀ o ∈ tr, o.InTime tr w k) ∧
      (∀ k ∈ a.draining w, ∀ entry ∈ (w.conns k).routing.entries, ¬ w.Wants tr k entry.2) ∧
      (∀ call ∈ a.failing w, w.Spares tr call.2.2.1 call.2.2.2) ∧
      (∀ result ∈ a.resulting, w.Spares tr result.1 result.2) ∧
      ∀ r ∈ a.releasing w, ∀ k ∈ w.pool r.2.2.hostAlias, w.Spares tr k r.2.2.daemonId)
    ⟨fun ⟨he, hd, hf, ha, hr⟩ => ⟨he, hd, hf, ha, hr⟩, fun ⟨he, hd, hf, ha, hr⟩ => ⟨he, hd, hf, ha, hr⟩⟩

/-- The one routing entry that a step takes if it drains no connection. -/
def Act.dropping (w : World) (a : Act) : Option (ConnId × Nat) :=
  ((a.failing w).map fun call => (call.2.2.1, call.2.2.2)).or (a.resulting.or
    ((a.releasing w).bind fun r => (w.pool r.2.2.hostAlias).map fun k => (k, r.2.2.daemonId)))

section Wanted

variable {c : ClientId} {i : Nat} {tr out : List Obs} {call : RouteCall}

theorem newest_commanded {sub : Subscription} (h : newest c i tr = some (.subscription sub)) :
    sub.id = i ∧ .commanded c (.subscribe sub) ∈ tr := by
  induction tr using List.reverseRecOn with
  | nil => cases h
  | append_singleton tr o ih =>
    rw [newest_append, List.foldl_cons, List.foldl_nil] at h
    have hold : newest c i tr = some (.subscription sub) →
        sub.id = i ∧ .commanded c (.subscribe sub) ∈ tr ++ [o] := fun h' =>
      ⟨(ih h').1, List.mem_append_left _ (ih h').2⟩
    cases o with
    | commanded c' payload =>
      simp only [Obs.renew] at h
      split at h
      next hc =>
        subst hc
        cases payload with
        | subscribe sub' =>
          simp only [Payload.renew] at h
          split at h
          next hid =>
            cases h
            exact ⟨hid, List.mem_append_right _ List.mem_cons_self⟩
          next => exact hold h
        | attachPane paneId id =>
          simp only [Payload.renew] at h
          split at h
          next => cases h
          next => exact hold h
        | unsubscribe id =>
          simp only [Payload.renew] at h
          split at h
          next => cases h
          next => exact hold h
        | _ => exact hold h
      next => exact hold h
    | _ => exact hold h

theorem wanted_cases (h : wanted c i tr = some call) : ∃ sub, sub.id = i ∧
    newest c i tr = some (.subscription sub) ∧ sub.kind.followedUp = true ∧
      (Payload.subscribe sub).routed = some call := by
  unfold wanted at h
  split at h
  next sub hnew =>
    split at h
    next hkind => exact ⟨sub, (newest_commanded hnew).1, hnew, hkind, h⟩
    next => cases h
  next => cases h

theorem Subscription.routed_clientId {sub : Subscription}
    (h : (Payload.subscribe sub).routed = some call) : call.clientId = sub.id := by
  simp only [Payload.routed] at h
  split at h
  next =>
    cases h
    rfl
  next => cases h

theorem wanted_congr (h : newest c i (tr ++ out) = newest c i tr) :
    wanted c i (tr ++ out) = wanted c i tr := by
  unfold wanted
  rw [h]

end Wanted

section Step

variable {tr out : List Obs} {w w' : World} {a : Act} {c : ClientId} {call : RouteCall} {k : ConnId}
  {d : Nat} {e : RoutedSub}

/-- What is in the pool was there, or the step put it in. -/
theorem PoolStep.pool_cases {hostAlias : String} (h : PoolStep w a w' out) (hb : PoolBorn w)
    (ha : PoolAliased w) (hk : w'.pool hostAlias = some k) : w.pool hostAlias = some k ∨
      a.pooling w = some k ∧ a.client = none ∧ k < w.connCount ∧
        (w.conns k).hostAlias = hostAlias := by
  have hentered : ∀ {j : SupId} {k' : ConnId}, (w.supervisors j).phase.unpooled = some k' →
      w'.pool = Function.update w.pool (w.supervisors j).hostAlias (some k') →
      a.pooling w = some k' → a.client = none → w.pool hostAlias = some k ∨
        a.pooling w = some k ∧ a.client = none ∧ k < w.connCount ∧
          (w.conns k).hostAlias = hostAlias := by
    intro j k' hunpooled hpool hpooling hclient
    rw [hpool] at hk
    by_cases halias : hostAlias = (w.supervisors j).hostAlias
    · subst halias
      rw [Function.update_self, Option.some.injEq] at hk
      subst hk
      exact .inr ⟨hpooling, hclient, hb.sup j k' (SupPhase.mem_conns_of_unpooled hunpooled),
        ha.sup j k' hunpooled⟩
    · rw [Function.update_of_ne halias] at hk
      exact .inl hk
  have hcleared : ∀ {hostAlias' : String}, w'.pool = Function.update w.pool hostAlias' none →
      w.pool hostAlias = some k := by
    intro hostAlias' hpool
    rw [hpool] at hk
    by_cases halias : hostAlias = hostAlias'
    · subst halias
      simp at hk
    · rwa [Function.update_of_ne halias] at hk
  cases h with
  | quiet hpool => exact .inl (hpool ▸ hk)
  | spawned => exact .inl hk
  | moved _ hpool => exact .inl (hpool ▸ hk)
  | born _ hpool => exact .inl (hpool ▸ hk)
  | @pooled j k' out hp hnone _ =>
    exact hentered (by rw [hp]; rfl) rfl (by simp [Act.pooling, hp, hnone]) rfl
  | displaced _ _ hpool => exact .inl (hcleared hpool)
  | @replaced j k' prev w' out rest hp hpool _ _ _ _ =>
    exact hentered (by rw [hp]; rfl) hpool (by simp [Act.pooling, hp]) rfl
  | unpooled => exact .inl (hcleared rfl)
  | nothingPooled _ _ hpool => exact .inl (hpool ▸ hk)
  | aborted _ _ hpool => exact .inl (hpool ▸ hk)

theorem Sends.drain_source {env : Envelope} (h : Sends w a c env (.drain k d)) :
    a.draining w = some k := by
  generalize hsource : Source.drain k d = source at h
  cases h <;> cases hsource
  assumption

theorem SubscriptionsKept.spares (h : SubscriptionsKept tr w a) (hd : a.dropping w = some (k, d)) :
    w.Spares tr k d := by
  simp only [Act.dropping, Option.or_eq_some_iff] at hd
  rcases hd with hf | ⟨-, hresult | ⟨-, hd⟩⟩
  · obtain ⟨call, hcall, heq⟩ := Option.map_eq_some_iff.mp hf
    cases heq
    exact h.failed call hcall
  · exact h.resulted _ hresult
  · obtain ⟨r, hr, hd⟩ := Option.bind_eq_some_iff.mp hd
    obtain ⟨k', hpool, heq⟩ := Option.map_eq_some_iff.mp hd
    cases heq
    exact h.released r hr _ hpool

/-- The condition on runs knows of every entry that a step takes. -/
theorem Taken.dropping (ht : Taken w k d e a out) (h : w.step a = some (w', out))
    (he : (w.conns k).routing.lookup d = some e) : a.draining w = some k ∨ a.dropping w = some (k, d) := by
  cases ht with
  | drained hout =>
    have hnotice := hout (List.mem_map.mpr ⟨⟨d, e⟩, AList.mem_lookup_iff.mp he, rfl⟩)
    exact .inl (World.sends_of_step h hnotice).drain_source
  | @answered _ version result hd =>
    exact .inr (by simp [Act.dropping, Act.failing, Act.resulting, hd])
  | rolledBack hp => exact .inr (by simp [Act.dropping, Act.failing, hp])
  | @released _ _ c id handle hr hm =>
    have hother : a.failing w = none ∧ a.resulting = none := by
      cases a <;> first | cases hr | exact ⟨rfl, rfl⟩
    rcases w.release_cases c id handle with heq | ⟨k', hpool, -, hcases⟩
    · rw [heq] at hm
      cases hm
    · rcases hcases _ hm with ⟨e', -, heq⟩ | heq
      · obtain ⟨-, -, rfl, rfl, -⟩ := Obs.released.inj heq
        exact .inr (by simp [Act.dropping, hr, hother, hpool])
      · cases heq

theorem World.wanted_kept (h : w.step a = some (w', out)) (hl : IdLedger tr w)
    (hok : SubscriptionsKept tr w a) (hw : w.Wants tr k e)
    (he : (w.conns k).routing.lookup d = some e) : ∃ d', (w'.conns k).routing.lookup d' = some e := by
  have hs := routingStep_of_step h
  have hundrained : a.draining w ≠ some k := fun hd =>
    hok.drained k hd ⟨d, e⟩ (AList.mem_lookup_iff.mp he) hw
  rcases hs.lookup_or_taken hl he with he' | htaken
  · exact ⟨d, he'⟩
  · have hdrop := (htaken.dropping h he).resolve_left hundrained
    obtain ⟨⟨d', e'⟩, hm, hne, rfl⟩ := hok.spares hdrop e he hw
    have hl' := AList.mem_lookup_iff.mpr hm
    rcases hs.lookup_or_taken hl hl' with he' | htaken'
    · exact ⟨d', he'⟩
    · have hdrop' := (htaken'.dropping h hl').resolve_left hundrained
      cases hdrop.symm.trans hdrop'
      exact absurd rfl hne

/-- While a call is in progress its session takes no other step. -/
theorem World.step_of_routing {stage : CallStage} (h : w.step a = some (w', out))
    (hp : (w.sessions c).phase = .routing call stage) (hc : a.client = some c) :
    a = .route c ∧ w.routeStep c call stage = some (w', out) := by
  cases a <;> cases hc <;> simp_all [World.step, World.teardownStep]

/-- What a session wants of a connection in the pool has its entry, or its call is about to find the
connection or has it already. -/
def World.Serves (w : World) (c : ClientId) (call : RouteCall) (k : ConnId) : Prop :=
  (∃ d, (w.conns k).routing.lookup d = some (call.entry c)) ∨
    (w.sessions c).phase = .routing call .lookup ∨
      ∃ d, (w.sessions c).phase = .routing call (.allocated k d)

def WantsServed (tr : List Obs) (w : World) : Prop :=
  ∀ c i call k, wanted c i tr = some call → (w.sessions c).phase.running = true →
    w.pool call.hostAlias = some k →
    (w.conns k).capabilities.contains call.requiredCapability = true → w.Serves c call k

/-- A session that has begun to end goes on with it. -/
theorem RoutingStep.running_old (h : RoutingStep w a w' out)
    (hp : (w'.sessions c).phase.running = true) : (w.sessions c).phase.running = true := by
  by_cases hc : a.client = some c
  · cases h with
    | quiet _ _ hs => rwa [hs] at hp
    | born _ _ hs => rwa [hs] at hp
    | drained _ _ _ _ _ _ _ _ hs => rwa [hs] at hp
    | driverEnd => cases hc
    | answered => cases hc
    | @connected c' hphase | @commanded c' _ _ _ hphase | @refused c' _ _ hphase
    | @allocated c' _ _ hphase | @inserted c' _ _ _ hphase | @sent c' _ _ _ _ hphase
    | @sendFailed c' _ _ _ hphase | @rolledBack c' _ _ _ hphase | @unsubscribed c' _ _ hphase
    | @disconnected c' hphase =>
      obtain rfl := Option.some.inj hc
      rw [hphase]
      rfl
    | @teardownLocked c' | @teardownDone c' =>
      obtain rfl := Option.some.inj hc
      rw [World.sessions_setPhase_same] at hp
      cases hp
    | @teardownNext c' =>
      obtain rfl := Option.some.inj hc
      rw [World.sessions_setPhase_release, World.sessions_setPhase_same] at hp
      cases hp
  · rwa [h.sessions_other hc] at hp

theorem World.Serves.step {i : Nat} (h : w.Serves c call k) (hs : w.step a = some (w', out))
    (hl : IdLedger tr w) (hok : SubscriptionsKept tr w a) (hw : wanted c i tr = some call)
    (hrun : (w.sessions c).phase.running = true) (hpool : w.pool call.hostAlias = some k)
    (hcap : (w.conns k).capabilities.contains call.requiredCapability = true) :
    w'.Serves c call k := by
  rcases h with ⟨d, he⟩ | hp | ⟨d, hp⟩
  · have hid : call.clientId = i := by
      obtain ⟨sub, hid, -, -, hrouted⟩ := wanted_cases hw
      exact (Subscription.routed_clientId hrouted).trans hid
    have hwants : w.Wants tr k (call.entry c) := by
      refine ⟨call, ?_, rfl, hrun, hpool, hcap⟩
      show wanted c call.clientId tr = some call
      rw [hid]
      exact hw
    exact .inl (World.wanted_kept hs hl hok hwants he)
  · by_cases hc : a.client = some c
    · obtain ⟨rfl, hroute⟩ := World.step_of_routing hs hp hc
      simp only [World.routeStep, hpool, hcap, if_true, Option.ite_none_right_eq_some] at hroute
      cases hroute.2
      exact .inr (.inr ⟨_, by rw [World.sessions_setPhase_same]⟩)
    · rw [World.Serves, (World.routingStep_of_step hs).sessions_other hc]
      exact .inr (.inl hp)
  · by_cases hc : a.client = some c
    · obtain ⟨rfl, hroute⟩ := World.step_of_routing hs hp hc
      cases hroute
      refine .inl ⟨d, ?_⟩
      rw [World.conns_setPhase, World.conns_setRouting_same]
      exact AList.lookup_insert _
    · rw [World.Serves, (World.routingStep_of_step hs).sessions_other hc]
      exact .inr (.inr ⟨d, hp⟩)

/-- A command about the id `i` that leaves something wanted under it starts the call for it. -/
theorem wanted_commanded {payload : Payload} {panes : PaneAnswers} {replies : List Obs} {i : Nat}
    (hp : (w.sessions c).phase = .ready) (hq : ∀ o ∈ replies, o.quiet = true)
    (hw : wanted c i (tr ++ .commanded c payload :: replies) = some call) :
    wanted c i tr = some call ∨
      ((w.sessions c).handleCommand w.taskCount panes payload).session.phase =
        .routing call .lookup := by
  obtain ⟨sub, -, hnew, hkind, hrouted⟩ := wanted_cases hw
  rw [newest_append_command payload hq] at hnew
  have hkept : newest c i tr = some (.subscription sub) → wanted c i tr = some call := by
    intro hold
    simp [wanted, hold, hkind, hrouted]
  cases payload with
  | subscribe sub' =>
    simp only [Payload.renew] at hnew
    split at hnew
    next =>
      cases hnew
      exact .inr ((Session.handleCommand_routed hp _ _ _).mpr ⟨hrouted, rfl⟩)
    next => exact .inl (hkept hnew)
  | attachPane paneId id =>
    simp only [Payload.renew] at hnew
    split at hnew
    next => cases hnew
    next => exact .inl (hkept hnew)
  | unsubscribe id =>
    simp only [Payload.renew] at hnew
    split at hnew
    next => cases hnew
    next => exact .inl (hkept hnew)
  | _ => exact .inl (hkept hnew)

theorem wantsServed_step {ok : List Obs → World → Act → Prop} (hr : Run daemon ok tr w)
    (h : WantsServed tr w) (hok : SubscriptionsKept tr w a) (hs : w.step a = some (w', out)) :
    WantsServed (tr ++ out) w' := by
  intro c i call k hw hrun hpool hcap
  have hstep := World.routingStep_of_step hs
  have hrun' := hstep.running_old hrun
  have hborn := poolBorn_of_run hr
  rcases (World.poolStep_of_step hs).pool_cases hborn (poolAliased_of_run hr) hpool with
    hold | ⟨hpooling, hclient, hk, halias⟩
  · have hcap' : (w.conns k).capabilities.contains call.requiredCapability = true := by
      rwa [(hstep.identity_kept (hborn.pool _ _ hold)).2] at hcap
    have hserved : wanted c i tr = some call → w'.Serves c call k := fun hw' =>
      (h c i call k hw' hrun' hold hcap').step hs (idLedger_of_run hr) hok hw' hrun' hold hcap'
    by_cases hm : ∃ payload, .commanded c payload ∈ out
    · obtain ⟨payload, hm⟩ := hm
      obtain ⟨panes, rfl⟩ := hstep.commanded_cases hm
      have hs' := hs
      simp only [World.step, Option.ite_none_right_eq_some] at hs'
      obtain ⟨hp, hs'⟩ := hs'
      cases hs'
      rcases wanted_commanded hp World.replies_quiet hw with hw' | hcalled
      · exact hserved hw'
      · refine .inr (.inl ?_)
        rw [World.sessions_setSession, Function.update_self]
        exact hcalled
    · have hsame : newest c i (tr ++ out) = newest c i tr :=
        newest_append_of_none fun payload hm' => hm ⟨payload, hm'⟩
      exact hserved (wanted_congr hsame ▸ hw)
  · have hnone : ∀ payload, .commanded c payload ∉ out := by
      intro payload hm
      rw [hstep.author_client hm rfl] at hclient
      cases hclient
    have hw' : wanted c i tr = some call := wanted_congr (newest_append_of_none hnone) ▸ hw
    obtain ⟨sub, hid, hnew, -⟩ := wanted_cases hw'
    have hcap' : (w.conns k).capabilities.contains call.requiredCapability = true := by
      rwa [(hstep.identity_kept hk).2] at hcap
    have hwaits := hok.entered k hpooling _ (newest_commanded hnew).2 call (hid ▸ hw') hrun' halias.symm
      hcap'
    have hsession := hstep.sessions_other (c := c) (by rw [hclient]; exact Option.some_ne_none c |>.symm)
    exact .inr (.inl (by rw [hsession]; exact hwaits))

end Step

theorem subscriptions_survive {tr : List Obs} {w : World} (h : Run daemon SubscriptionsKept tr w) :
    SubscriptionsSurvive tr w := by
  have hserved : WantsServed tr w := by
    refine h.invariant ?_ ?_
    · rintro _ rfl c i call k - hrun hpool
      cases hpool
    · exact fun tr w a w' out hr ih hok hs => wantsServed_step hr ih hok hs
  intro c sub hostAlias scope capability k hnew hkind htarget hscope hready hpool hcap
  have hw : wanted c sub.id tr = some (routeRemoteSubscribe sub hostAlias scope capability) := by
    simp [wanted, hnew, hkind, Payload.routed, htarget, hscope]
  rcases hserved c sub.id _ k hw (by rw [hready]; rfl) hpool hcap with hentry | hp | ⟨d, hp⟩
  · exact hentry
  · rw [hready] at hp
    cases hp
  · rw [hready] at hp
    cases hp

/-- The connection to `h` ends and comes back, with a new agent. -/
def outage : List Act :=
  [.supervisor 0 .sessionEnded, .supervisor 0 .remove, .supervisor 0 .drained,
    .supervisor 0 .connected, .supervisor 0 (.handshaken ["docker"]), .supervisor 0 .register]

/-- The client gives its subscription up for the time of the outage. -/
theorem subscriptions_survive_renewed : ∃ tr w, Run daemon SubscriptionsKept tr w ∧
    w.pool "h" = some 1 ∧ ∃ d, (w.conns 1).routing.lookup d = some ⟨0, 6, .subscription, .docker⟩ := by
  obtain ⟨tr, w, hr, hpool, hnew, hready, hcap⟩ := Run.of_replay daemon SubscriptionsKept
    (fun tr w => w.pool "h" = some 1 ∧
      newest 0 6 tr = some (.subscription (.docker 6 (.remote "h"))) ∧
      (w.sessions 0).phase = .ready ∧ (w.conns 1).capabilities.contains "docker" = true) rfl
    (registerBy 0 0 ++ routeBy 0 5 ++ [Act.command 0 (.unsubscribe 5) .none, .unsubscribe 0] ++ outage ++
      routeBy 0 6) (by decide +kernel)
  exact ⟨tr, w, hr, hpool, subscriptions_survive hr 0 (.docker 6 (.remote "h")) "h" .docker "docker" 1
    hnew rfl rfl rfl hready hpool hcap⟩

/-- The client keeps its subscription through the outage, and nothing routes it anew. -/
theorem subscription_lost : ¬ ∀ (tr : List Obs) (w : World), Run daemon Free tr w →
    SubscriptionsSurvive tr w := by
  intro hall
  obtain ⟨tr, w, hr, hpool, hnew, hready, hcap, hempty⟩ := Run.of_replay daemon Free
    (fun tr w => w.pool "h" = some 1 ∧
      newest 0 5 tr = some (.subscription (.docker 5 (.remote "h"))) ∧
      (w.sessions 0).phase = .ready ∧ (w.conns 1).capabilities.contains "docker" = true ∧
      (w.conns 1).routing.entries = []) rfl
    (registerBy 0 0 ++ routeBy 0 5 ++ outage) (by decide +kernel)
  obtain ⟨d, hd⟩ := hall tr w hr 0 (.docker 5 (.remote "h")) "h" .docker "docker" 1 hnew rfl rfl rfl
    hready hpool hcap
  have hm := AList.mem_lookup_iff.mp hd
  rw [hempty] at hm
  cases hm

end Tepegoz
