import Tepegoz.PoolSteps

namespace Tepegoz

open Transition

/-- The registrations so far, newest first. -/
def registrations : List Obs → List (SupId × ConnId)
  | [] => []
  | .pooled j k :: tr => registrations tr ++ [(j, k)]
  | _ :: tr => registrations tr

/-- The registrations made after the supervisor's own one, newest first; all of them if it has
none. -/
def registeredSince (tr : List Obs) (j : SupId) : Option ConnId → List (SupId × ConnId)
  | none => registrations tr
  | some k => (registrations tr).takeWhile (· ≠ (j, k))

/-- The connection that a supervisor has registered and still serves. -/
def SupPhase.served : SupPhase → Option ConnId
  | .serving conn | .ended conn => conn
  | _ => none

def SupPhase.inSession : SupPhase → Bool
  | .connected | .registering _ | .replacing _ _ | .serving _ | .ended _ => true
  | _ => false

theorem SupMove.served_eq {phase phase' : SupPhase} (h : SupMove phase phase') :
    phase'.served = phase.served := by cases h <;> rfl

theorem SupMove.ne_unborn {phase phase' : SupPhase} (h : SupMove phase phase') :
    phase ≠ .unborn ∧ phase' ≠ .unborn := by cases h <;> simp

/-- A supervisor leaves its connected session only when no other supervisor that registered for the
alias since is still serving, and is aborted only when its own connection is not the pooled one. -/
def LeavesInTurn : List Obs → World → Act → Prop
  | tr, w, .supervisor j .remove =>
    ∀ r ∈ registeredSince tr j (w.supervisors j).phase.served, r.1 ≠ j →
      (w.supervisors r.1).hostAlias = (w.supervisors j).hostAlias →
      (w.supervisors r.1).phase.served ≠ some r.2
  | _, w, .supervisor j .aborted =>
    (w.supervisors j).phase.served.isSome = true →
      w.pool (w.supervisors j).hostAlias ≠ (w.supervisors j).phase.served
  | _, _, _ => True

instance (tr : List Obs) (w : World) : (a : Act) → Decidable (LeavesInTurn tr w a)
  | .supervisor j .remove =>
    inferInstanceAs (Decidable (∀ r ∈ registeredSince tr j _, r.1 ≠ j → _ → _))
  | .supervisor _ .aborted => inferInstanceAs (Decidable (_ → _))
  | .supervisor _ .connected | .supervisor _ .deployFailed | .supervisor _ (.handshaken _)
  | .supervisor _ .register | .supervisor _ .replaced | .supervisor _ .sessionEnded
  | .supervisor _ .drained | .supervisor _ .returned | .connect _ | .command _ _ _ | .route _
  | .unsubscribe _ | .disconnect _ | .teardown _ | .spawn _ _ _ _ | .agentFrame _ _
  | .parserEnd _ | .driverEnd _ | .emit _ _ | .finish _ | .acted _ _ _ => .isTrue trivial

section Registrations

variable {tr out : List Obs} {j : SupId} {k : ConnId}

theorem registrations_append (tr out : List Obs) :
    registrations (tr ++ out) = registrations out ++ registrations tr := by
  induction tr with
  | nil => simp [registrations]
  | cons o tr ih => cases o <;> simp [registrations, ih]

theorem registrations_none (ho : ∀ o ∈ out, o.ofPool = false) : registrations out = [] := by
  induction out with
  | nil => rfl
  | cons o out ih =>
    have hh := ho o (by simp)
    have ht := ih (fun o h => ho o (by simp [h]))
    cases o <;> simp_all [registrations, Obs.ofPool]

theorem mem_registrations : (j, k) ∈ registrations tr ↔ .pooled j k ∈ tr := by
  induction tr with
  | nil => simp [registrations]
  | cons o tr ih => cases o <;> simp [registrations, ih, or_comm]

/-- Of two members of a list one comes before the other. -/
theorem takeWhile_total {α : Type} [DecidableEq α] {xs : List α} {x y : α} (hx : x ∈ xs)
    (hy : y ∈ xs) (hne : x ≠ y) : y ∈ xs.takeWhile (· ≠ x) ∨ x ∈ xs.takeWhile (· ≠ y) := by
  induction xs with
  | nil => simp at hx
  | cons z xs ih =>
    by_cases hzx : z = x
    · subst hzx
      right
      simp [hne]
    · by_cases hzy : z = y
      · subst hzy
        left
        simp [hzx]
      · have hx' : x ∈ xs := (List.mem_cons.mp hx).resolve_left (Ne.symm hzx)
        have hy' : y ∈ xs := (List.mem_cons.mp hy).resolve_left (Ne.symm hzy)
        simpa [List.takeWhile_cons, hzx, hzy, Ne.symm hzx, Ne.symm hzy] using ih hx' hy'

end Registrations

/-- The pooled connection of an alias is the newest registration for it, and its registrant serves
it. -/
structure PoolOwned (tr : List Obs) (w : World) : Prop where
  born : ∀ j k, (j, k) ∈ registrations tr → (w.supervisors j).phase ≠ .unborn
  served : ∀ j k, (w.supervisors j).phase.served = some k → (j, k) ∈ registrations tr
  owner : ∀ a k, w.pool a = some k → ∃ j, (w.supervisors j).hostAlias = a ∧
    (w.supervisors j).phase.served = some k ∧
    ∀ r ∈ registeredSince tr j (some k), (w.supervisors r.1).hostAlias ≠ a
  unpooled : ∀ j k, .unpooled j k ∈ tr → (j, k) ∈ registrations tr

theorem poolOwned_initial : PoolOwned [] .initial where
  born := by simp [registrations]
  served := by simp [World.initial, Supervisor.unborn, SupPhase.served]
  owner := by simp [World.initial]
  unpooled := by simp

section Step

variable {tr out : List Obs} {w w' : World} {j : SupId} {k : ConnId} {phase : SupPhase}

theorem registeredSince_append (hout : registrations out = []) (j : SupId) (conn : Option ConnId) :
    registeredSince (tr ++ out) j conn = registeredSince tr j conn := by
  cases conn <;> simp [registeredSince, registrations_append, hout]

/-- A supervisor moves on without registering; if it stops serving, its connection is not pooled. -/
theorem PoolOwned.move (h : PoolOwned tr w) (hu : (w.supervisors j).phase ≠ .unborn)
    (hu' : phase ≠ .unborn) (hsup : w'.supervisors = (w.setSupPhase j phase).supervisors)
    (hout : registrations out = [])
    (hgone : ∀ j' k, .unpooled j' k ∈ out → (j', k) ∈ registrations tr)
    (hserved : phase.served = (w.supervisors j).phase.served ∨ phase.served = none)
    (hpool : ∀ a k, w'.pool a = some k → w.pool a = some k ∧
      (phase.served = none → (w.supervisors j).hostAlias = a →
        (w.supervisors j).phase.served ≠ some k)) : PoolOwned (tr ++ out) w' where
  born j' k hr := by
    rw [registrations_append, hout, List.nil_append] at hr
    rw [hsup]
    by_cases hj : j' = j
    · subst hj; rw [World.supervisors_setSupPhase_same]; exact hu'
    · rw [World.supervisors_setSupPhase_other hj]; exact h.born j' k hr
  served j' k hs := by
    rw [registrations_append, hout, List.nil_append]
    rw [hsup] at hs
    by_cases hj : j' = j
    · subst hj
      rw [World.supervisors_setSupPhase_same] at hs
      rcases hserved with he | he
      · exact h.served j' k (he ▸ hs)
      · simp [he] at hs
    · rw [World.supervisors_setSupPhase_other hj] at hs
      exact h.served j' k hs
  owner a k hp := by
    obtain ⟨hp, hfree⟩ := hpool a k hp
    obtain ⟨i, ha, hs, hlast⟩ := h.owner a k hp
    simp only [hsup, World.hostAlias_setSupPhase, registeredSince_append hout]
    refine ⟨i, ha, ?_, hlast⟩
    by_cases hi : i = j
    · subst hi
      rw [World.supervisors_setSupPhase_same]
      rcases hserved with he | he
      · exact he.trans hs
      · exact absurd hs (hfree he ha)
    · rw [World.supervisors_setSupPhase_other hi]; exact hs
  unpooled j' k hm := by
    rw [registrations_append, hout, List.nil_append]
    rcases List.mem_append.mp hm with hm | hm
    · exact h.unpooled j' k hm
    · exact hgone j' k hm

/-- A registration makes its supervisor the owner of the alias. -/
theorem PoolOwned.register {rest : List Obs} (h : PoolOwned tr w)
    (hu : (w.supervisors j).phase.served = none)
    (hsup : w'.supervisors = (w.setSupPhase j (.serving (some k))).supervisors)
    (hpool : w'.pool = Function.update w.pool (w.supervisors j).hostAlias (some k))
    (hout : ∀ o ∈ out, o.ofPool = false) (hrest : ∀ o ∈ rest, o.ofPool = false) :
    PoolOwned (tr ++ (out ++ .pooled j k :: rest)) w' := by
  have hreg : registrations (tr ++ (out ++ .pooled j k :: rest)) = (j, k) :: registrations tr := by
    simp [registrations_append, registrations, registrations_none hout, registrations_none hrest]
  constructor
  · intro j' k' hr
    rw [hreg] at hr
    rw [hsup]
    by_cases hj : j' = j
    · subst hj; rw [World.supervisors_setSupPhase_same]; simp
    · rw [World.supervisors_setSupPhase_other hj]
      rcases List.mem_cons.mp hr with hr | hr
      · exact absurd (Prod.mk.inj hr).1 hj
      · exact h.born j' k' hr
  · intro j' k' hs
    rw [hreg]
    rw [hsup] at hs
    by_cases hj : j' = j
    · subst hj
      rw [World.supervisors_setSupPhase_same] at hs
      simp only [SupPhase.served, Option.some.injEq] at hs
      simp [hs]
    · rw [World.supervisors_setSupPhase_other hj] at hs
      exact List.mem_cons_of_mem _ (h.served j' k' hs)
  · intro a k' hp
    rw [hpool] at hp
    simp only [hsup, World.hostAlias_setSupPhase]
    by_cases ha : a = (w.supervisors j).hostAlias
    · subst ha
      rw [Function.update_self, Option.some.injEq] at hp
      subst hp
      refine ⟨j, rfl, by rw [World.supervisors_setSupPhase_same]; rfl, ?_⟩
      simp [registeredSince, hreg]
    · rw [Function.update_of_ne ha] at hp
      obtain ⟨i, hi, hs, hlast⟩ := h.owner a k' hp
      have hij : i ≠ j := by
        rintro rfl
        simp [hu] at hs
      refine ⟨i, hi, by rw [World.supervisors_setSupPhase_other hij]; exact hs, fun r hr => ?_⟩
      simp only [registeredSince, hreg, List.takeWhile_cons] at hr
      split at hr
      next =>
        rcases List.mem_cons.mp hr with rfl | hr
        · exact Ne.symm ha
        · exact hlast r hr
      next => simp at hr
  · intro j' k' hm
    rw [hreg]
    refine List.mem_cons_of_mem _ (h.unpooled j' k' ?_)
    rcases List.mem_append.mp hm with hm | hm
    · exact hm
    · rcases List.mem_append.mp hm with hm | hm
      · have := hout _ hm
        simp [Obs.ofPool] at this
      · rcases List.mem_cons.mp hm with hm | hm
        · cases hm
        · have := hrest _ hm
          simp [Obs.ofPool] at this

/-- The connection that a leaving supervisor finds in the pool is its own. -/
theorem PoolOwned.own_pooled (h : PoolOwned tr w)
    (hok : LeavesInTurn tr w (.supervisor j .remove))
    (hp : w.pool (w.supervisors j).hostAlias = some k) :
    (w.supervisors j).phase.served = some k := by
  obtain ⟨i, ha, hs, hlast⟩ := h.owner _ k hp
  by_cases hij : i = j
  · subst hij; exact hs
  · have hreg := h.served i k hs
    refine absurd hs (hok (i, k) ?_ hij ha)
    cases hown : (w.supervisors j).phase.served with
    | none => exact hreg
    | some own =>
      have hreg' := h.served j own hown
      have hne : (j, own) ≠ (i, k) := fun he => hij (Prod.mk.inj he).1.symm
      rcases takeWhile_total hreg' hreg hne with hm | hm
      · exact hm
      · exact absurd rfl (hlast (j, own) hm)

theorem PoolOwned.step {a : Act} (h : PoolOwned tr w) (hok : LeavesInTurn tr w a)
    (hs : PoolStep w a w' out) : PoolOwned (tr ++ out) w' := by
  cases hs with
  | quiet hpool hsup _ ho =>
    have hreg := registrations_none ho
    refine ⟨?_, ?_, ?_, ?_⟩
    · simpa [registrations_append, hreg, hsup] using h.born
    · simpa [registrations_append, hreg, hsup] using h.served
    · simpa only [registeredSince_append hreg, hsup, hpool] using h.owner
    · intro j' k' hm
      rw [registrations_append, hreg, List.nil_append]
      rcases List.mem_append.mp hm with hm | hm
      · exact h.unpooled j' k' hm
      · have := ho _ hm
        simp [Obs.ofPool] at this
  | @spawned j c fleetId task hostAlias hu =>
    have hne : ∀ {i k}, (i, k) ∈ registrations tr → i ≠ j := by
      rintro i k hr rfl
      exact h.born i k hr hu
    have hother : ∀ {i}, i ≠ j → (w.setSupervisor j
        ⟨c, fleetId, task, hostAlias, .disconnected⟩).supervisors i = w.supervisors i := by
      intro i hi
      simp [hi]
    refine ⟨?_, ?_, ?_, ?_⟩
    · intro i k hr
      rw [List.append_nil] at hr
      rw [hother (hne hr)]
      exact h.born i k hr
    · intro i k hs
      rw [List.append_nil]
      by_cases hi : i = j
      · subst hi; simp [SupPhase.served] at hs
      · rw [hother hi] at hs; exact h.served i k hs
    · intro a k hp
      obtain ⟨i, ha, hs, hlast⟩ := h.owner a k hp
      have hi := hne (h.served i k hs)
      refine ⟨i, by rw [hother hi]; exact ha, by rw [hother hi]; exact hs, fun r hr => ?_⟩
      rw [List.append_nil] at hr
      rw [hother (hne ((List.takeWhile_prefix _).subset hr))]
      exact hlast r hr
    · simpa using h.unpooled
  | @moved j event w' out phase hm hpool _ hsup ho =>
    have hnone : ∀ j' k, .unpooled j' k ∈ out → (j', k) ∈ registrations tr := by
      intro j' k hx
      have := ho _ hx
      simp [Obs.ofPool] at this
    refine h.move hm.ne_unborn.1 hm.ne_unborn.2 hsup (registrations_none ho) hnone
      (.inl hm.served_eq) fun a k hk => ⟨hpool ▸ hk, fun hn _ => ?_⟩
    rw [← hm.served_eq, hn]
    simp
  | @born j event w' capabilities hp hpool _ hsup _ =>
    refine h.move (by simp [hp]) (by simp) hsup rfl (by simp) (.inr rfl) ?_
    simp [hpool, hp, SupPhase.served]
  | @pooled j k out hp hpool ho =>
    change PoolOwned (tr ++ ([] ++ .pooled j k :: out)) _
    exact h.register (by simp [hp, SupPhase.served]) rfl rfl (by simp) ho
  | @displaced j k prev w' hp hpool hpool' _ hsup =>
    refine h.move (by simp [hp]) (by simp) hsup rfl (by simp) (.inr rfl) ?_
    intro a k' hk
    rw [hpool'] at hk
    by_cases ha : a = (w.supervisors j).hostAlias
    · subst ha; simp at hk
    · rw [Function.update_of_ne ha] at hk
      exact ⟨hk, fun _ he => absurd he.symm ha⟩
  | @replaced j k prev w' out rest hp hpool _ hsup ho hrest =>
    exact h.register (by simp [hp, SupPhase.served]) hsup hpool ho hrest
  | @unpooled j conn k hp hpool =>
    have hown := h.own_pooled hok hpool
    refine h.move (by simp [hp]) (by simp) rfl rfl ?_ (.inr rfl) ?_
    · intro j' k' hm
      obtain ⟨rfl, rfl⟩ := Obs.unpooled.inj (List.mem_singleton.mp hm)
      exact h.served j' k' hown
    · intro a k' hk
      change Function.update w.pool (w.supervisors j).hostAlias none a = some k' at hk
      by_cases ha : a = (w.supervisors j).hostAlias
      · subst ha; simp at hk
      · rw [Function.update_of_ne ha] at hk
        exact ⟨hk, fun _ he => absurd he.symm ha⟩
  | @nothingPooled j conn w' out hp hpool hpool' _ hsup ho =>
    refine h.move (by simp [hp]) (by simp) hsup (registrations_none ho) ?_ (.inr rfl) ?_
    · intro j' k hx
      have := ho _ hx
      simp [Obs.ofPool] at this
    · intro a k hk
      rw [hpool'] at hk
      refine ⟨hk, ?_⟩
      rintro - rfl
      simp [hpool] at hk
  | @aborted j w' hu hs hpool _ hsup =>
    refine h.move hu (by simp) hsup rfl (by simp) (.inr rfl) ?_
    intro a k hk
    rw [hpool] at hk
    refine ⟨hk, ?_⟩
    rintro - rfl hown
    exact hok (by simp [hown]) (hk.trans hown.symm)

end Step

theorem poolOwned_of_run {tr : List Obs} {w : World} (h : Run daemon LeavesInTurn tr w) :
    PoolOwned tr w := by
  refine h.invariant ?_ ?_
  · rintro _ rfl
    exact poolOwned_initial
  · intro tr w a w' out _ hi hok hs
    exact hi.step hok (World.poolStep_of_step hs)

/-- When supervisors leave in turn, the end of a session takes from the pool only what the same
supervisor registered, and an alias without a connected supervisor has no pooled connection. -/
theorem pool_ownership {tr : List Obs} {w : World} (h : Run daemon LeavesInTurn tr w) :
    (∀ j k, .unpooled j k ∈ tr → .pooled j k ∈ tr) ∧
    ∀ a, (∀ j, (w.supervisors j).hostAlias = a → (w.supervisors j).phase.inSession = false) →
      w.pool a = none := by
  have hi := poolOwned_of_run h
  refine ⟨fun j k hm => mem_registrations.mp (hi.unpooled j k hm), fun a hout => ?_⟩
  by_contra hp
  obtain ⟨k, hk⟩ := Option.ne_none_iff_exists'.mp hp
  obtain ⟨j, ha, hs, -⟩ := hi.owner a k hk
  have hsession := hout j ha
  cases hphase : (w.supervisors j).phase <;>
    simp_all [SupPhase.served, SupPhase.inSession]

/-- The supervisors of two clients serve the same alias, and the newer one leaves first. -/
theorem pool_ownership_shared : ∃ tr w, Run daemon LeavesInTurn tr w ∧ .displaced 1 0 ∈ tr ∧
    .unpooled 1 1 ∈ tr ∧ .pooled 1 1 ∈ tr ∧ w.pool "h" = none := by
  obtain ⟨tr, w, hr, hd, hm, hout⟩ := Run.of_replay daemon LeavesInTurn
    (fun tr w => .displaced 1 0 ∈ tr ∧ .unpooled 1 1 ∈ tr ∧ w.pool "h" = none) rfl
    (registerBy 0 0 ++ registerBy 1 1 ++
      [Act.supervisor 1 .replaced, .supervisor 1 .sessionEnded, .supervisor 1 .remove,
        .supervisor 1 .drained, .supervisor 0 .sessionEnded, .supervisor 0 .remove]) (by decide +kernel)
  exact ⟨tr, w, hr, hd, hm, (pool_ownership hr).1 1 1 hm, hout⟩

/-- The supervisors of two clients serve the same alias; the end of the older session takes the
newer one's connection out of the pool. -/
theorem pool_ownership_violated : ¬ ∀ (tr : List Obs) (w : World), Run daemon Free tr w →
    (∀ j k, .unpooled j k ∈ tr → .pooled j k ∈ tr) ∧
    ∀ a, (∀ j, (w.supervisors j).hostAlias = a → (w.supervisors j).phase.inSession = false) →
      w.pool a = none := by
  intro hall
  obtain ⟨tr, w, hr, hm, hn⟩ := Run.of_replay daemon Free
    (fun tr _ => .unpooled 0 1 ∈ tr ∧ .pooled 0 1 ∉ tr) rfl
    (registerBy 0 0 ++ registerBy 1 1 ++
      [Act.supervisor 1 .replaced, .supervisor 0 .sessionEnded, .supervisor 0 .remove]) (by decide)
  exact hn ((hall tr w hr).1 0 1 hm)

end Tepegoz
