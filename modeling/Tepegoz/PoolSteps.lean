import Tepegoz.RoutingSteps

namespace Tepegoz

/-- Observations about the agent pool. -/
def Obs.ofPool : Obs → Bool
  | .pooled _ _ | .displaced _ _ | .unpooled _ _ => true
  | _ => false

/-- The moves of a supervisor that leave the pool alone. -/
inductive SupMove : SupPhase → SupPhase → Prop
  | connected : SupMove .disconnected .connected
  | deployFailed : SupMove .connected (.serving none)
  | sessionEnded {conn} : SupMove (.serving conn) (.ended conn)
  | drained {k} : SupMove (.draining k) .disconnected
  | returned : SupMove .disconnected .stopped

/-- What a step of the daemon can do to the pool and to the supervisors. -/
inductive PoolStep (w : World) : Act → World → List Obs → Prop
  | quiet {a w' out} : w'.pool = w.pool → w'.supervisors = w.supervisors →
      w'.connCount = w.connCount → (∀ o ∈ out, o.ofPool = false) → PoolStep w a w' out
  | spawned {j c fleetId task hostAlias} : (w.supervisors j).phase = .unborn →
      PoolStep w (.spawn j c fleetId hostAlias)
        (w.setSupervisor j ⟨c, fleetId, task, hostAlias, .disconnected⟩) []
  | moved {j event w' out phase} : SupMove (w.supervisors j).phase phase →
      w'.pool = w.pool → w'.connCount = w.connCount →
      w'.supervisors = (w.setSupPhase j phase).supervisors → (∀ o ∈ out, o.ofPool = false) →
      PoolStep w (.supervisor j event) w' out
  | born {j event w' capabilities} : (w.supervisors j).phase = .connected → w'.pool = w.pool →
      w'.connCount = w.connCount + 1 →
      w'.supervisors = (w.setSupPhase j (.registering w.connCount)).supervisors →
      w'.conns = Function.update w.conns w.connCount
        (.spawned (w.supervisors j).hostAlias capabilities) →
      PoolStep w (.supervisor j event) w' []
  | pooled {j k out} : (w.supervisors j).phase = .registering k →
      w.pool (w.supervisors j).hostAlias = none → (∀ o ∈ out, o.ofPool = false) →
      PoolStep w (.supervisor j .register)
        ((w.setPool (w.supervisors j).hostAlias (some k)).setSupPhase j (.serving (some k)))
        (.pooled j k :: out)
  | displaced {j k prev w'} : (w.supervisors j).phase = .registering k →
      w.pool (w.supervisors j).hostAlias = some prev →
      w'.pool = Function.update w.pool (w.supervisors j).hostAlias none →
      w'.connCount = w.connCount →
      w'.supervisors = (w.setSupPhase j (.replacing k prev)).supervisors →
      PoolStep w (.supervisor j .register) w' [.displaced j prev]
  | replaced {j k prev w' out rest} : (w.supervisors j).phase = .replacing k prev →
      w'.pool = Function.update w.pool (w.supervisors j).hostAlias (some k) →
      w'.connCount = w.connCount →
      w'.supervisors = (w.setSupPhase j (.serving (some k))).supervisors →
      (∀ o ∈ out, o.ofPool = false) → (∀ o ∈ rest, o.ofPool = false) →
      PoolStep w (.supervisor j .replaced) w' (out ++ .pooled j k :: rest)
  | unpooled {j conn k} : (w.supervisors j).phase = .ended conn →
      w.pool (w.supervisors j).hostAlias = some k →
      PoolStep w (.supervisor j .remove)
        ((w.setPool (w.supervisors j).hostAlias none).setSupPhase j (.draining k))
        [.unpooled j k]
  | nothingPooled {j conn w' out} : (w.supervisors j).phase = .ended conn →
      w.pool (w.supervisors j).hostAlias = none → w'.pool = w.pool →
      w'.connCount = w.connCount →
      w'.supervisors = (w.setSupPhase j .disconnected).supervisors →
      (∀ o ∈ out, o.ofPool = false) → PoolStep w (.supervisor j .remove) w' out
  | aborted {j w'} : (w.supervisors j).phase ≠ .unborn → (w.supervisors j).phase ≠ .stopped →
      w'.pool = w.pool → w'.connCount = w.connCount →
      w'.supervisors = (w.setSupPhase j .stopped).supervisors →
      PoolStep w (.supervisor j .aborted) w' []

namespace World

variable {w w' : World} {out : List Obs}

theorem notices_ofPool (w : World) (k : ConnId) : ∀ o ∈ w.notices k, o.ofPool = false := by
  intro o ho
  obtain ⟨entry, -, rfl⟩ := List.mem_map.mp ho
  rfl

theorem supervisorStep_pool {j : SupId} {event : SupEvent}
    (h : w.supervisorStep j event = some (w', out)) : PoolStep w (.supervisor j event) w' out := by
  unfold supervisorStep at h
  split at h
  next hp =>
    cases Option.some.inj h
    exact .moved (hp ▸ .connected) rfl rfl rfl (by simp)
  next hp =>
    cases Option.some.inj h
    exact .moved (hp ▸ .deployFailed) rfl rfl rfl (by simp [capabilitiesEvent, Obs.ofPool])
  next hp => cases Option.some.inj h; exact .born hp rfl rfl rfl rfl
  next k hp =>
    simp only [Option.ite_none_right_eq_some] at h
    obtain ⟨-, h⟩ := h
    split at h
    next hpool =>
      cases Option.some.inj h
      exact .pooled hp hpool (by simp [capabilitiesEvent, Obs.ofPool])
    next prev hpool => cases Option.some.inj h; exact .displaced hp hpool rfl rfl rfl
  next k prev hp =>
    cases Option.some.inj h
    exact .replaced hp rfl rfl rfl (w.notices_ofPool prev)
      (by simp [capabilitiesEvent, Obs.ofPool])
  next conn hp =>
    cases Option.some.inj h
    exact .moved (hp ▸ .sessionEnded) rfl rfl rfl (by simp)
  next conn hp =>
    simp only [Option.ite_none_right_eq_some] at h
    obtain ⟨-, h⟩ := h
    split at h
    next hpool =>
      cases Option.some.inj h
      exact .nothingPooled hp hpool rfl rfl rfl (by simp [capabilitiesEvent, Obs.ofPool])
    next k hpool => cases Option.some.inj h; exact .unpooled hp hpool
  next k hp =>
    cases Option.some.inj h
    refine .moved (hp ▸ .drained) rfl rfl rfl fun o ho => ?_
    rcases List.mem_append.mp ho with ho | ho
    · exact w.notices_ofPool k o ho
    · rw [List.mem_singleton.mp ho]; rfl
  next hp =>
    cases Option.some.inj h
    exact .moved (hp ▸ .returned) rfl rfl rfl (by simp)
  next =>
    split at h
    next => simp at h
    next hn =>
      obtain ⟨-, hu, hs⟩ := not_or.mp hn |>.imp_right not_or.mp
      split at h
      next => cases Option.some.inj h; exact .aborted hu hs rfl rfl rfl
      next => cases Option.some.inj h; exact .aborted hu hs rfl rfl rfl
  next => simp at h

theorem routeStep_pool {c : ClientId} {call : RouteCall} {stage : CallStage} {a : Act}
    (h : w.routeStep c call stage = some (w', out)) : PoolStep w a w' out := by
  cases stage with
  | lookup =>
    simp only [routeStep, Option.ite_none_right_eq_some] at h
    obtain ⟨-, h⟩ := h
    split at h
    next => cases Option.some.inj h; exact .quiet rfl rfl rfl (by simp [Obs.ofPool])
    next k hk =>
      split at h
      next => cases Option.some.inj h; exact .quiet rfl rfl rfl (by simp [Obs.ofPool])
      next => cases Option.some.inj h; exact .quiet rfl rfl rfl (by simp [Obs.ofPool])
  | allocated k d => cases Option.some.inj h; exact .quiet rfl rfl rfl (by simp [Obs.ofPool])
  | inserted k d =>
    simp only [routeStep] at h
    split at h
    next => cases Option.some.inj h; exact .quiet rfl rfl rfl (by simp [Obs.ofPool])
    next => cases Option.some.inj h; exact .quiet rfl rfl rfl (by simp)
  | rollback k d => cases Option.some.inj h; exact .quiet rfl rfl rfl (by simp [Obs.ofPool])

theorem routeAgentEnvelope_pool (w : World) (k : ConnId) (env : Envelope) {a : Act} :
    PoolStep w a (w.routeAgentEnvelope k env).1 (w.routeAgentEnvelope k env).2 := by
  obtain ⟨hw, -⟩ := w.routeAgentEnvelope_cases k env
  have ho : ∀ o ∈ (w.routeAgentEnvelope k env).2, o.ofPool = false := by
    intro o ho
    unfold routeAgentEnvelope at ho
    dsimp only at ho
    split at ho
    next => split at ho <;> simp_all [Obs.ofPool]
    next =>
      split at ho
      next => dsimp only at ho; split at ho <;> simp_all [Obs.ofPool]
      next => simp at ho
    next => simp at ho
  rcases hw with hw | ⟨d, hw⟩
  · rw [hw]; exact .quiet rfl rfl rfl ho
  · rw [hw]; exact .quiet rfl rfl rfl ho

theorem pool_release (w : World) (c : ClientId) (id : Nat) (handle : AgentSubHandle) :
    (w.release c id handle).1.pool = w.pool ∧
      (w.release c id handle).1.supervisors = w.supervisors ∧
      (w.release c id handle).1.connCount = w.connCount ∧
      ∀ o ∈ (w.release c id handle).2, o.ofPool = false := by
  rcases w.release_cases c id handle with h | ⟨k, -, h, ho⟩
  · simp [h]
  · rw [h]
    refine ⟨rfl, rfl, rfl, fun o hm => ?_⟩
    rcases ho o hm with ⟨e, -, rfl⟩ | rfl <;> rfl

/-- Every step of the daemon does to the pool and to the supervisors what `PoolStep` lists. -/
theorem poolStep_of_step {a : Act} (h : w.step a = some (w', out)) : PoolStep w a w' out := by
  cases a with
  | connect c =>
    simp only [step, Option.ite_none_right_eq_some] at h
    cases Option.some.inj h.2
    exact .quiet rfl rfl rfl (by simp)
  | command c payload panes =>
    simp only [step, Option.ite_none_right_eq_some] at h
    cases Option.some.inj h.2
    refine .quiet rfl rfl rfl fun o ho => ?_
    rcases List.mem_cons.mp ho with rfl | ho
    · rfl
    · obtain ⟨env, -, rfl⟩ := List.mem_map.mp ho
      rfl
  | route c =>
    simp only [step] at h
    split at h
    next => exact routeStep_pool h
    next => simp at h
  | unsubscribe c =>
    simp only [step] at h
    split at h
    next id handle hp =>
      simp only [Option.ite_none_right_eq_some] at h
      cases Option.some.inj h.2
      obtain ⟨hp, hsup, hn, ho⟩ := w.pool_release c id handle
      exact .quiet hp hsup hn ho
    next => simp at h
  | disconnect c =>
    simp only [step, Option.ite_none_right_eq_some] at h
    cases Option.some.inj h.2
    exact .quiet rfl rfl rfl (by simp)
  | teardown c =>
    simp only [step, teardownStep] at h
    split at h
    next =>
      simp only [Option.ite_none_right_eq_some] at h
      cases Option.some.inj h.2
      exact .quiet rfl rfl rfl (by simp)
    next => cases Option.some.inj h; exact .quiet rfl rfl rfl (by simp)
    next id handle todo _ =>
      cases Option.some.inj h
      obtain ⟨hp, hsup, hn, ho⟩ := w.pool_release c id handle
      exact .quiet hp hsup hn ho
    next => simp at h
  | spawn j c fleetId hostAlias =>
    simp only [step] at h
    split at h
    next hp _ => cases Option.some.inj h; exact .spawned hp
    next => simp at h
  | supervisor j event => exact supervisorStep_pool h
  | agentFrame k env =>
    simp only [step, Option.ite_none_right_eq_some] at h
    have hout := Option.some.inj h.2
    obtain rfl : _ = w' := congrArg Prod.fst hout
    obtain rfl : _ = out := congrArg Prod.snd hout
    exact w.routeAgentEnvelope_pool k env
  | parserEnd k =>
    simp only [step, Option.ite_none_right_eq_some] at h
    have hout := Option.some.inj h.2
    obtain rfl : _ = w' := congrArg Prod.fst hout
    obtain rfl : _ = out := congrArg Prod.snd hout
    exact .quiet rfl rfl rfl (notices_ofPool (w.setConn k { w.conns k with parser := false }) k)
  | driverEnd k =>
    simp only [step, Option.ite_none_right_eq_some] at h
    cases Option.some.inj h.2
    exact .quiet rfl rfl rfl (by simp)
  | emit task event =>
    simp only [step] at h
    split at h
    next c sub hp =>
      simp only [Option.ite_none_right_eq_some] at h
      cases Option.some.inj h.2
      exact .quiet rfl rfl rfl (by simp [Obs.ofPool])
    next => simp at h
  | finish task =>
    simp only [step] at h
    split at h
    next => cases Option.some.inj h; exact .quiet rfl rfl rfl (by simp)
    next => simp at h
  | acted c req outcome =>
    simp only [step, Option.ite_none_right_eq_some] at h
    cases Option.some.inj h.2
    exact .quiet rfl rfl rfl (by simp [Obs.ofPool])

end World

open Transition

def SupPhase.conns : SupPhase → List ConnId
  | .registering k | .draining k => [k]
  | .replacing k prev => [k, prev]
  | .serving conn | .ended conn => conn.toList
  | _ => []

/-- The pool and the supervisors refer to connections that were made. -/
structure PoolBorn (w : World) : Prop where
  pool : ∀ a k, w.pool a = some k → k < w.connCount
  sup : ∀ j, ∀ k ∈ (w.supervisors j).phase.conns, k < w.connCount

section Born

variable {w w' : World} {j : SupId} {phase : SupPhase}

theorem SupMove.conns_subset {p p' : SupPhase} (h : SupMove p p') : p'.conns ⊆ p.conns := by
  cases h <;> simp [SupPhase.conns]

theorem PoolBorn.update (h : PoolBorn w) (hn : w.connCount ≤ w'.connCount)
    (hsup : w'.supervisors = (w.setSupPhase j phase).supervisors)
    (hphase : ∀ k ∈ phase.conns, k < w'.connCount)
    (hpool : ∀ a k, w'.pool a = some k → k < w'.connCount) : PoolBorn w' where
  pool := hpool
  sup i k hk := by
    rw [hsup] at hk
    by_cases hi : i = j
    · subst hi
      rw [World.supervisors_setSupPhase_same] at hk
      exact hphase k hk
    · rw [World.supervisors_setSupPhase_other hi] at hk
      exact Nat.lt_of_lt_of_le (h.sup i k hk) hn

theorem PoolBorn.step {a : Act} {out : List Obs} (h : PoolBorn w) (hs : PoolStep w a w' out) :
    PoolBorn w' := by
  have hset : ∀ {k : ConnId} {alias' : String} {pool : String → Option ConnId},
      k < w.connCount → pool = Function.update w.pool alias' (some k) →
      ∀ a k, pool a = some k → k < w.connCount := by
    rintro k alias' _ hk rfl a k' hp
    by_cases ha : a = alias'
    · subst ha
      rw [Function.update_self, Option.some.injEq] at hp
      exact hp ▸ hk
    · rw [Function.update_of_ne ha] at hp
      exact h.pool a k' hp
  have hclear : ∀ {alias' : String} {pool : String → Option ConnId},
      pool = Function.update w.pool alias' none → ∀ a k, pool a = some k → k < w.connCount := by
    rintro alias' _ rfl a k hp
    by_cases ha : a = alias'
    · subst ha; simp at hp
    · rw [Function.update_of_ne ha] at hp
      exact h.pool a k hp
  cases hs with
  | quiet hpool hsup hn _ => exact ⟨by rw [hpool, hn]; exact h.pool, by rw [hsup, hn]; exact h.sup⟩
  | @spawned j c fleetId task hostAlias hu =>
    refine ⟨h.pool, fun i k hk => ?_⟩
    by_cases hi : i = j
    · subst hi; simp [SupPhase.conns] at hk
    · simp only [World.supervisors_setSupervisor, Function.update_of_ne hi] at hk
      exact h.sup i k hk
  | @moved j event w' out phase hm hpool hn hsup ho =>
    refine h.update (by omega) hsup (fun k hk => ?_) (by rw [hpool, hn]; exact h.pool)
    rw [hn]
    exact h.sup j k (hm.conns_subset hk)
  | @born j event w' capabilities hp hpool hn hsup _ =>
    refine h.update (by omega) hsup (by simp [SupPhase.conns, hn]) fun a k hk => ?_
    rw [hpool] at hk
    rw [hn]
    exact Nat.lt_succ_of_lt (h.pool a k hk)
  | @pooled j k out hp hpool ho =>
    have hk := h.sup j k (by simp [hp, SupPhase.conns])
    refine h.update (Nat.le_refl _) rfl ?_ (hset hk rfl)
    simp only [SupPhase.conns, Option.toList_some, List.mem_singleton, forall_eq]
    exact hk
  | @displaced j k prev w' hp hpool hpool' hn hsup =>
    have hk := h.sup j k (by simp [hp, SupPhase.conns])
    have hprev := h.pool _ _ hpool
    refine h.update (by omega) hsup ?_ (by rw [hn]; exact hclear hpool')
    simpa [SupPhase.conns, hn] using ⟨hk, hprev⟩
  | @replaced j k prev w' out rest hp hpool hn hsup ho hrest =>
    have hk := h.sup j k (by simp [hp, SupPhase.conns])
    exact h.update (by omega) hsup (by simpa [SupPhase.conns, hn] using hk)
      (by rw [hn]; exact hset hk hpool)
  | @unpooled j conn k hp hpool =>
    have hk := h.pool _ _ hpool
    refine h.update (Nat.le_refl _) rfl ?_ (hclear rfl)
    simp only [SupPhase.conns, List.mem_singleton, forall_eq]
    exact hk
  | @nothingPooled j conn w' out hp hpool hpool' hn hsup ho =>
    exact h.update (by omega) hsup (by simp [SupPhase.conns]) (by rw [hpool', hn]; exact h.pool)
  | @aborted j w' hu hs hpool hn hsup =>
    exact h.update (by omega) hsup (by simp [SupPhase.conns]) (by rw [hpool, hn]; exact h.pool)

theorem poolBorn_of_run {ok : List Obs → World → Act → Prop} {tr : List Obs}
    (h : Run daemon ok tr w) : PoolBorn w := by
  refine h.invariant (I := fun _ w => PoolBorn w) ?_ ?_
  · rintro _ rfl
    exact ⟨by simp [World.initial], by simp [World.initial, Supervisor.unborn, SupPhase.conns]⟩
  · intro _ w a w' out _ hi _ hs
    exact hi.step (World.poolStep_of_step hs)

end Born

/-- A connection that its supervisor has made and not yet put into the pool. -/
def SupPhase.unpooled : SupPhase → Option ConnId
  | .registering k | .replacing k _ => some k
  | _ => none

theorem SupPhase.mem_conns_of_unpooled {phase : SupPhase} {k : ConnId}
    (h : phase.unpooled = some k) : k ∈ phase.conns := by
  cases phase <;> simp_all [unpooled, conns]

theorem SupMove.unpooled_none {phase phase' : SupPhase} (h : SupMove phase phase') :
    phase'.unpooled = none := by cases h <;> rfl

/-- Connections are pooled under their own alias. -/
structure PoolAliased (w : World) : Prop where
  pool : ∀ a k, w.pool a = some k → (w.conns k).hostAlias = a
  sup : ∀ j k, (w.supervisors j).phase.unpooled = some k →
    (w.conns k).hostAlias = (w.supervisors j).hostAlias

section Aliased

variable {w w' : World} {j : SupId} {phase : SupPhase}

theorem PoolAliased.update (h : PoolAliased w) (hborn : PoolBorn w)
    (hkept : ∀ k, k < w.connCount → (w'.conns k).hostAlias = (w.conns k).hostAlias)
    (hsup : w'.supervisors = (w.setSupPhase j phase).supervisors)
    (hphase : ∀ k, phase.unpooled = some k → (w'.conns k).hostAlias = (w.supervisors j).hostAlias)
    (hpool : ∀ a k, w'.pool a = some k → w.pool a = some k ∨
      k < w.connCount ∧ (w.conns k).hostAlias = a) : PoolAliased w' where
  pool a k hk := by
    rcases hpool a k hk with hk | ⟨hlt, ha⟩
    · rw [hkept k (hborn.pool a k hk)]
      exact h.pool a k hk
    · rw [hkept k hlt]
      exact ha
  sup i k hk := by
    rw [hsup] at hk ⊢
    rw [World.hostAlias_setSupPhase]
    by_cases hi : i = j
    · subst hi
      rw [World.supervisors_setSupPhase_same] at hk
      exact hphase k hk
    · rw [World.supervisors_setSupPhase_other hi] at hk
      rw [hkept k (hborn.sup i k (SupPhase.mem_conns_of_unpooled hk))]
      exact h.sup i k hk

theorem PoolAliased.step {a : Act} {out : List Obs} (h : PoolAliased w) (hborn : PoolBorn w)
    (hs : PoolStep w a w' out)
    (hkept : ∀ k, k < w.connCount → (w'.conns k).hostAlias = (w.conns k).hostAlias) :
    PoolAliased w' := by
  have hset : ∀ {k : ConnId} {hostAlias : String} {pool : String → Option ConnId},
      k < w.connCount → (w.conns k).hostAlias = hostAlias →
      pool = Function.update w.pool hostAlias (some k) →
      ∀ a k, pool a = some k → w.pool a = some k ∨
        k < w.connCount ∧ (w.conns k).hostAlias = a := by
    rintro k hostAlias _ hk rfl rfl a k' hp
    by_cases ha : a = (w.conns k).hostAlias
    · subst ha
      rw [Function.update_self, Option.some.injEq] at hp
      subst hp
      exact .inr ⟨hk, rfl⟩
    · rw [Function.update_of_ne ha] at hp
      exact .inl hp
  have hclear : ∀ {hostAlias : String} {pool : String → Option ConnId},
      pool = Function.update w.pool hostAlias none → ∀ a k, pool a = some k →
        w.pool a = some k ∨ k < w.connCount ∧ (w.conns k).hostAlias = a := by
    rintro hostAlias _ rfl a k hp
    by_cases ha : a = hostAlias
    · subst ha; simp at hp
    · rw [Function.update_of_ne ha] at hp
      exact .inl hp
  cases hs with
  | quiet hpool hsup _ _ =>
    refine ⟨fun a k hk => ?_, fun i k hk => ?_⟩
    · rw [hpool] at hk
      rw [hkept k (hborn.pool a k hk)]
      exact h.pool a k hk
    · rw [hsup] at hk ⊢
      rw [hkept k (hborn.sup i k (SupPhase.mem_conns_of_unpooled hk))]
      exact h.sup i k hk
  | @spawned j c fleetId task hostAlias _ =>
    refine ⟨h.pool, fun i k hk => ?_⟩
    by_cases hi : i = j
    · subst hi; simp [SupPhase.unpooled] at hk
    · simp only [World.supervisors_setSupervisor, Function.update_of_ne hi] at hk ⊢
      exact h.sup i k hk
  | @moved j event w' out phase hm hpool _ hsup _ =>
    exact h.update hborn hkept hsup (by simp [hm.unpooled_none]) (fun a k hk => .inl (hpool ▸ hk))
  | @born j event w' capabilities _ hpool _ hsup hc =>
    refine h.update hborn hkept hsup ?_ (fun a k hk => .inl (hpool ▸ hk))
    simp only [SupPhase.unpooled, Option.some.injEq, forall_eq']
    rw [hc, Function.update_self]
    rfl
  | @pooled j k out hp _ _ =>
    have hk := hborn.sup j k (by simp [hp, SupPhase.conns])
    exact h.update hborn hkept rfl (by simp [SupPhase.unpooled])
      (hset hk (h.sup j k (by simp [hp, SupPhase.unpooled])) rfl)
  | @displaced j k prev w' hp _ hpool _ hsup =>
    have hk := hborn.sup j k (by simp [hp, SupPhase.conns])
    refine h.update hborn hkept hsup ?_ (hclear hpool)
    simp only [SupPhase.unpooled, Option.some.injEq, forall_eq']
    rw [hkept k hk]
    exact h.sup j k (by simp [hp, SupPhase.unpooled])
  | @replaced j k prev w' out rest hp hpool _ hsup _ _ =>
    have hk := hborn.sup j k (by simp [hp, SupPhase.conns])
    exact h.update hborn hkept hsup (by simp [SupPhase.unpooled])
      (hset hk (h.sup j k (by simp [hp, SupPhase.unpooled])) hpool)
  | unpooled =>
    exact h.update hborn hkept rfl (by simp [SupPhase.unpooled]) (hclear rfl)
  | nothingPooled _ _ hpool _ hsup _ =>
    exact h.update hborn hkept hsup (by simp [SupPhase.unpooled]) (fun a k hk => .inl (hpool ▸ hk))
  | aborted _ _ hpool _ hsup =>
    exact h.update hborn hkept hsup (by simp [SupPhase.unpooled]) (fun a k hk => .inl (hpool ▸ hk))

theorem poolAliased_of_run {ok : List Obs → World → Act → Prop} {tr : List Obs}
    (h : Run daemon ok tr w) : PoolAliased w := by
  refine h.invariant (I := fun _ w => PoolAliased w) ?_ ?_
  · rintro _ rfl
    exact ⟨by simp [World.initial], by simp [World.initial, Supervisor.unborn, SupPhase.unpooled]⟩
  · intro _ w a w' out hr hi _ hs
    exact hi.step (poolBorn_of_run hr) (World.poolStep_of_step hs)
      fun _ => (World.routingStep_of_step hs).hostAlias_kept

end Aliased

end Tepegoz
