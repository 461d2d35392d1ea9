import Mathlib.Data.List.Basic
import Mathlib.Tactic.Common

namespace Transition

/-- A partial labelled system. A step emits what an outside observer sees of it. -/
structure System (State Label Obs : Type) where
  init : State → Prop
  step : State → Label → Option (State × List Obs)

variable {State Label Obs : Type} {M : System State Label Obs}
  {ok ok' : List Obs → State → Label → Prop}

/-- Runs whose every step satisfied `ok` when it was taken, with everything observed so far. -/
inductive Run (M : System State Label Obs) (ok : List Obs → State → Label → Prop) :
    List Obs → State → Prop
  | start {s} : M.init s → Run M ok [] s
  | next {tr s l s' out} : Run M ok tr s → ok tr s l → M.step s l = some (s', out) →
      Run M ok (tr ++ out) s'

/-- No restriction on the steps: all runs of the system. -/
def Free : List Obs → State → Label → Prop := fun _ _ _ => True

theorem Run.mono {tr : List Obs} {s : State} (h : Run M ok tr s)
    (weaker : ∀ tr s l, ok tr s l → ok' tr s l) : Run M ok' tr s := by
  induction h with
  | start hi => exact .start hi
  | next _ hok hs ih => exact .next ih (weaker _ _ _ hok) hs

/-- The invariant rule; the step case may use that the state was reached by a run. -/
theorem Run.invariant {I : List Obs → State → Prop} {tr : List Obs} {s : State}
    (h : Run M ok tr s) (base : ∀ s, M.init s → I [] s)
    (step : ∀ tr s l s' out, Run M ok tr s → I tr s → ok tr s l →
      M.step s l = some (s', out) → I (tr ++ out) s') : I tr s := by
  induction h with
  | start hi => exact base _ hi
  | next hr hok hs ih => exact step _ _ _ _ _ hr ih hok hs

/-- A refinement with the same labels and observations has no other runs than what it refines. -/
theorem Run.project {State' : Type} {N : System State' Label Obs} {ok' : List Obs → State' → Label → Prop}
    (f : State → State') {tr : List Obs} {s : State} (h : Run M ok tr s)
    (start : ∀ s, M.init s → N.init (f s))
    (step : ∀ s l s' out, M.step s l = some (s', out) → N.step (f s) l = some (f s', out))
    (allowed : ∀ tr s l, ok tr s l → ok' tr (f s) l) : Run N ok' tr (f s) := by
  induction h with
  | start hi => exact .start (start _ hi)
  | next _ hok hs ih => exact .next ih (allowed _ _ _ hok) (step _ _ _ _ hs)

/-- A system that differs only in what is observed of it has the same runs. -/
theorem Run.reobserved {Obs' : Type} {N : System State Label Obs'} {tr : List Obs} {s : State}
    (h : Run M ok tr s) (start : ∀ s, M.init s → N.init s)
    (step : ∀ s l s' out, M.step s l = some (s', out) → ∃ out', N.step s l = some (s', out')) :
    ∃ tr', Run N Free tr' s := by
  induction h with
  | start hi => exact ⟨[], .start (start _ hi)⟩
  | next _ _ hs ih =>
    obtain ⟨tr', hr⟩ := ih
    obtain ⟨out', hs'⟩ := step _ _ _ _ hs
    exact ⟨tr' ++ out', hr.next trivial hs'⟩

/-- A system whose steps are, in another's view, steps of that other or nothing at all has no other runs
than it has. -/
theorem Run.simulated {State' Label' Obs' : Type} {N : System State' Label' Obs'}
    {ok' : List Obs' → State' → Label' → Prop} (f : State → State') (view : Obs → Option Obs')
    {tr : List Obs} {s : State} (h : Run M ok tr s) (start : ∀ s, M.init s → N.init (f s))
    (step : ∀ tr s l s' out, Run M ok tr s → ok tr s l → M.step s l = some (s', out) →
      f s' = f s ∧ out.filterMap view = [] ∨
        ∃ l', ok' (tr.filterMap view) (f s) l' ∧ N.step (f s) l' = some (f s', out.filterMap view)) :
    Run N ok' (tr.filterMap view) (f s) := by
  induction h with
  | start hi => exact .start (start _ hi)
  | next hr hok hs ih =>
    rw [List.filterMap_append]
    rcases step _ _ _ _ _ hr hok hs with ⟨hf, hout⟩ | ⟨l', hok', hs'⟩
    · rwa [hout, List.append_nil, hf]
    · exact ih.next hok' hs'

/-- The rule for a property of single observations: it holds of all once each step emits only such. -/
theorem Run.observed {P : Obs → Prop} {tr : List Obs} {s : State} (h : Run M ok tr s)
    (step : ∀ tr s l s' out, Run M ok tr s → ok tr s l → M.step s l = some (s', out) →
      ∀ o ∈ out, P o) : ∀ o ∈ tr, P o := by
  induction h with
  | start => simp
  | next hr hok hs ih =>
    intro o ho
    rcases List.mem_append.mp ho with ho | ho
    · exact ih o ho
    · exact step _ _ _ _ _ hr hok hs o ho

/-- The same for an observation together with everything observed before it, and with the state as it
is by now. -/
theorem Run.observed_lasting {P : State → List Obs → Obs → Prop} {tr : List Obs} {s : State}
    (h : Run M ok tr s)
    (keep : ∀ tr s l s' out, Run M ok tr s → M.step s l = some (s', out) →
      ∀ pre o post, tr = pre ++ o :: post → P s pre o → P s' pre o)
    (step : ∀ tr s l s' out, Run M ok tr s → ok tr s l → M.step s l = some (s', out) →
      ∀ pre o post, out = pre ++ o :: post → P s' (tr ++ pre) o) :
    ∀ pre o post, tr = pre ++ o :: post → P s pre o := by
  induction h with
  | start => simp
  | next hr hok hs ih =>
    intro pre o post heq
    rcases List.append_eq_append_iff.mp heq with ⟨mid, rfl, hout⟩ | ⟨mid, htr, hout⟩
    · exact step _ _ _ _ _ hr hok hs mid o post hout
    · cases mid with
      | nil =>
        rw [List.append_nil] at htr
        subst htr
        have hfirst := step _ _ _ _ _ hr hok hs [] o post hout.symm
        rwa [List.append_nil] at hfirst
      | cons o' mid =>
        obtain ⟨rfl, -⟩ := List.cons_eq_cons.mp hout
        exact keep _ _ _ _ _ hr hs pre o mid htr (ih pre o mid htr)

theorem Run.observed_after {P : List Obs → Obs → Prop} {tr : List Obs} {s : State} (h : Run M ok tr s)
    (step : ∀ tr s l s' out, Run M ok tr s → ok tr s l → M.step s l = some (s', out) →
      ∀ pre o post, out = pre ++ o :: post → P (tr ++ pre) o) :
    ∀ pre o post, tr = pre ++ o :: post → P pre o :=
  h.observed_lasting (P := fun _ => P) (fun _ _ _ _ _ _ _ _ _ _ _ hP => hP) step

/-- Each observation of `out` has the property, given what was observed before it. -/
def Each (P : List Obs → Obs → Prop) : List Obs → List Obs → Prop
  | _, [] => True
  | tr, o :: out => P tr o ∧ Each P (tr ++ [o]) out

theorem Each.of_forall {P : List Obs → Obs → Prop} {tr out : List Obs} (h : ∀ past, ∀ o ∈ out, P past o) :
    Each P tr out := by
  induction out generalizing tr with
  | nil => trivial
  | cons o out ih => exact ⟨h tr o (by simp), ih fun past o ho => h past o (by simp [ho])⟩

theorem Each.append {P : List Obs → Obs → Prop} {tr out out' : List Obs} (h : Each P tr out)
    (h' : Each P (tr ++ out) out') : Each P tr (out ++ out') := by
  induction out generalizing tr with
  | nil => simpa using h'
  | cons o out ih => exact ⟨h.1, ih h.2 (by simpa using h')⟩

theorem Each.split {P : List Obs → Obs → Prop} {tr out : List Obs} (h : Each P tr out) :
    ∀ pre o post, out = pre ++ o :: post → P (tr ++ pre) o := by
  induction out generalizing tr with
  | nil => simp
  | cons o out ih =>
    intro pre o' post heq
    cases pre with
    | nil =>
      obtain ⟨rfl, -⟩ := List.cons_eq_cons.mp heq
      simpa using h.1
    | cons o' pre =>
      obtain ⟨rfl, hout⟩ := List.cons_eq_cons.mp heq
      simpa using ih h.2 pre _ post hout

namespace System

/-- The runs that go on from a state. -/
def startingAt (M : System State Label Obs) (s : State) : System State Label Obs :=
  { M with init := (· = s) }

/-- A system that is only looked at through its states. -/
def silent (init : State → Prop) (next : State → Label → Option State) :
    System State Label Empty :=
  ⟨init, fun s l => (next s l).map (·, [])⟩

@[simp] theorem silent_step {init : State → Prop} {next : State → Label → Option State}
    {s s' : State} {l : Label} {out : List Empty} :
    (silent init next).step s l = some (s', out) ↔ next s l = some s' ∧ out = [] := by
  simp only [silent, Option.map_eq_some_iff, Prod.mk.injEq]
  constructor
  · rintro ⟨t, ht, rfl, rfl⟩; exact ⟨ht, rfl⟩
  · rintro ⟨ht, rfl⟩; exact ⟨s', ht, rfl, rfl⟩

/-- Play a schedule, as long as its steps satisfy `ok`. -/
def replay (M : System State Label Obs) (ok : List Obs → State → Label → Prop)
    [∀ tr s l, Decidable (ok tr s l)] : List Obs → State → List Label → Option (List Obs × State)
  | tr, s, [] => some (tr, s)
  | tr, s, l :: ls =>
    if ok tr s l then
      match M.step s l with
      | some (s', out) => M.replay ok (tr ++ out) s' ls
      | none => none
    else none

end System

instance (tr : List Obs) (s : State) (l : Label) : Decidable (Free tr s l) := .isTrue trivial

theorem Run.replay [∀ tr s l, Decidable (ok tr s l)] {tr tr' : List Obs} {s s' : State}
    {ls : List Label} (h : Run M ok tr s)
    (hp : M.replay ok tr s ls = some (tr', s')) : Run M ok tr' s' := by
  induction ls generalizing tr s with
  | nil =>
    obtain ⟨rfl, rfl⟩ := Prod.mk.inj (Option.some.inj hp)
    exact h
  | cons l ls ih =>
    unfold System.replay at hp
    split at hp
    next hok =>
      split at hp
      next t out hs => exact ih (h.next hok hs) hp
      next => simp at hp
    next => simp at hp

/-- A schedule that can be played out to a state with property `P` is a run to such a state. -/
theorem Run.of_replay (M : System State Label Obs) (ok : List Obs → State → Label → Prop)
    [∀ tr s l, Decidable (ok tr s l)] (P : List Obs → State → Prop)
    [∀ tr s, Decidable (P tr s)] {s : State} (hi : M.init s) (ls : List Label)
    (hp : (M.replay ok [] s ls).any (fun t => decide (P t.1 t.2)) = true) :
    ∃ tr t, Run M ok tr t ∧ P tr t := by
  obtain ⟨⟨tr, t⟩, ht, hP⟩ := Option.any_eq_true _ _ |>.mp hp
  exact ⟨tr, t, (Run.start hi).replay ht, of_decide_eq_true hP⟩

theorem System.replay_cons {tr : List Obs} {s : State} {l : Label} {ls : List Label} :
    M.replay Free tr s (l :: ls) =
      match M.step s l with
      | some (s', out) => M.replay Free (tr ++ out) s' ls
      | none => none := by
  rw [System.replay]
  exact if_pos trivial

/-- Two systems whose steps look the same through a view are played alike through it. -/
theorem System.replay_view {Obs' : Type} {N : System State Label Obs} {view : Obs → Obs'}
    (agree : ∀ s l, (M.step s l).map (fun r => (r.1, r.2.map view)) =
      (N.step s l).map fun r => (r.1, r.2.map view))
    {tr tr' : List Obs} {s : State} {ls : List Label} (h : tr.map view = tr'.map view) :
    (M.replay Free tr s ls).map (fun r => (r.1.map view, r.2)) =
      (N.replay Free tr' s ls).map fun r => (r.1.map view, r.2) := by
  induction ls generalizing tr tr' s with
  | nil => simp [System.replay, h]
  | cons l ls ih =>
    have hstep := agree s l
    rw [System.replay_cons, System.replay_cons]
    cases hM : M.step s l with
    | none =>
      rw [hM] at hstep
      rw [Option.map_eq_none_iff.mp hstep.symm]
    | some r =>
      rw [hM] at hstep
      obtain ⟨r', hN, he⟩ := Option.map_eq_some_iff.mp hstep.symm
      obtain ⟨hs, hout⟩ := Prod.mk.inj he
      rw [hN]
      simp only [hs]
      exact ih (by rw [List.map_append, List.map_append, h, hout])

/-- Playing a schedule only adds to what was observed before. -/
theorem System.mem_of_replay {tr tr' : List Obs} {s t : State} {ls : List Label}
    (h : M.replay Free tr s ls = some (tr', t)) {o : Obs} (ho : o ∈ tr) : o ∈ tr' := by
  induction ls generalizing tr s with
  | nil =>
    obtain ⟨rfl, rfl⟩ := Prod.mk.inj (Option.some.inj h)
    exact ho
  | cons l ls ih =>
    rw [System.replay_cons] at h
    split at h
    next s' out hs => exact ih h (List.mem_append_left _ ho)
    next => simp at h

/-- A schedule is no longer than a measure of where it starts, which every step lowers. -/
theorem System.replay_length (rank : State → Nat)
    (lower : ∀ s l s' out, M.step s l = some (s', out) → rank s' < rank s)
    {tr tr' : List Obs} {s t : State} {ls : List Label}
    (h : M.replay Free tr s ls = some (tr', t)) : ls.length + rank t ≤ rank s := by
  induction ls generalizing tr s with
  | nil =>
    obtain ⟨rfl, rfl⟩ := Prod.mk.inj (Option.some.inj h)
    simp
  | cons l ls ih =>
    rw [System.replay_cons] at h
    split at h
    next s' out hs =>
      have hrest := ih h
      have hstep := lower _ _ _ _ hs
      rw [List.length_cons]
      omega
    next => simp at h

/-- `P` holds wherever a schedule passes through. -/
def System.Always (M : System State Label Obs) (P : State → Prop) : State → List Label → Prop
  | s, [] => P s
  | s, l :: ls => P s ∧ ∀ s' out, M.step s l = some (s', out) → M.Always P s' ls

/-- Every step of a schedule satisfies `ok` when it is taken. -/
def System.EachStep (M : System State Label Obs) (ok : State → Label → Prop) :
    State → List Label → Prop
  | _, [] => True
  | s, l :: ls => ok s l ∧ ∀ s' out, M.step s l = some (s', out) → M.EachStep ok s' ls

section Passing

variable {P Q : State → Prop} {allowed : State → Label → Prop} {tr tr' : List Obs} {s t : State}
  {ls : List Label}

theorem System.Always.first (h : M.Always P s ls) : P s := by
  cases ls with
  | nil => exact h
  | cons l ls => exact h.1

theorem System.Always.last (h : M.Always P s ls) (hr : M.replay Free tr s ls = some (tr', t)) :
    P t := by
  induction ls generalizing tr s with
  | nil =>
    obtain ⟨rfl, rfl⟩ := Prod.mk.inj (Option.some.inj hr)
    exact h
  | cons l ls ih =>
    rw [System.replay_cons] at hr
    split at hr
    next s' out hs => exact ih (h.2 _ _ hs) hr
    next => simp at hr

theorem System.Always.of_forall (h : ∀ s, P s) : M.Always P s ls := by
  induction ls generalizing s with
  | nil => exact h s
  | cons l ls ih => exact ⟨h s, fun s' out _ => ih⟩

theorem System.Always.mono (h : M.Always P s ls) (weaker : ∀ s, P s → Q s) : M.Always Q s ls := by
  induction ls generalizing s with
  | nil => exact weaker _ h
  | cons l ls ih => exact ⟨weaker _ h.1, fun s' out hs => ih (h.2 s' out hs)⟩

/-- The invariant rule for any schedule. -/
theorem System.Always.invariant (hs : P s)
    (step : ∀ s l s' out, P s → M.step s l = some (s', out) → P s') : M.Always P s ls := by
  induction ls generalizing s with
  | nil => exact hs
  | cons l ls ih => exact ⟨hs, fun s' out hstep => ih (step _ _ _ _ hs hstep)⟩

/-- The invariant rule for a schedule of allowed steps. -/
theorem System.EachStep.always (h : M.EachStep allowed s ls) (hs : P s)
    (step : ∀ s l s' out, P s → allowed s l → M.step s l = some (s', out) → P s') :
    M.Always P s ls := by
  induction ls generalizing s with
  | nil => exact hs
  | cons l ls ih =>
    exact ⟨hs, fun s' out hstep => ih (h.2 s' out hstep) (step _ _ _ _ hs h.1 hstep)⟩

/-- A step that is not allowed leads out of `P`, or to a state `bad` from which that still happens
or which lasts. -/
theorem System.EachStep.of_always (bad : State → Prop)
    (keep : ∀ s l s' out, bad s → M.step s l = some (s', out) → P s' → bad s')
    (fail : ∀ s l s' out, P s → ¬ allowed s l → M.step s l = some (s', out) → P s' → bad s')
    (h : M.Always P s ls) (hr : M.replay Free tr s ls = some (tr', t)) (hgood : ¬ bad t) :
    M.EachStep allowed s ls := by
  have hlast : ∀ {ls : List Label} {tr s}, M.replay Free tr s ls = some (tr', t) →
      M.Always P s ls → bad s → bad t := by
    intro ls
    induction ls with
    | nil =>
      intro tr s hr _ hs
      obtain ⟨rfl, rfl⟩ := Prod.mk.inj (Option.some.inj hr)
      exact hs
    | cons l ls ih =>
      intro tr s hr h hs
      rw [System.replay_cons] at hr
      split at hr
      next s' out hstep =>
        have hrest := h.2 _ _ hstep
        exact ih hr hrest (keep _ _ _ _ hs hstep hrest.first)
      next => simp at hr
  induction ls generalizing tr s with
  | nil => trivial
  | cons l ls ih =>
    rw [System.replay_cons] at hr
    split at hr
    next s' out hstep =>
      have hrest := h.2 _ _ hstep
      refine ⟨?_, ?_⟩
      · by_contra hnot
        exact hgood (hlast hr hrest (fail _ _ _ _ h.first hnot hstep hrest.first))
      · intro s'' out' hstep'
        rw [hstep] at hstep'
        cases hstep'
        exact ih hrest hr
    next => simp at hr

/-- A property that a step keeps exactly if it is allowed tells at the end whether all steps were. -/
theorem System.EachStep.iff_of_step {I G : List Obs → State → Prop}
    (step : ∀ tr s l s' out, I tr s → M.step s l = some (s', out) →
      I (tr ++ out) s' ∧ (G (tr ++ out) s' ↔ G tr s ∧ allowed s l))
    (hI : I tr s) (hr : M.replay Free tr s ls = some (tr', t)) :
    I tr' t ∧ (G tr' t ↔ G tr s ∧ M.EachStep allowed s ls) := by
  induction ls generalizing tr s with
  | nil =>
    obtain ⟨rfl, rfl⟩ := Prod.mk.inj (Option.some.inj hr)
    exact ⟨hI, (and_iff_left trivial).symm⟩
  | cons l ls ih =>
    rw [System.replay_cons] at hr
    split at hr
    next s' out hstep =>
      obtain ⟨hI', hG⟩ := step _ _ _ _ _ hI hstep
      obtain ⟨hlast, hiff⟩ := ih hI' hr
      refine ⟨hlast, hiff.trans ?_⟩
      rw [hG, and_assoc]
      refine and_congr_right fun _ => and_congr_right fun _ => ?_
      constructor
      · intro hrest s'' out' hstep'
        rw [hstep] at hstep'
        cases hstep'
        exact hrest
      · intro hrest
        exact hrest _ _ hstep
    next => simp at hr

end Passing

section Schedules

/-! Rules for what is played from a state on. `I` relates a state to the rest of its schedule. -/

variable {I : State → List Label → Prop}
  (keep : ∀ s l ls s' out, I s (l :: ls) → M.step s l = some (s', out) → I s' ls)

include keep

theorem System.replay_observed {P : Obs → Prop}
    (emits : ∀ s l ls s' out, I s (l :: ls) → M.step s l = some (s', out) → ∀ o ∈ out, P o)
    {tr tr' : List Obs} {s t : State} {ls : List Label} (hI : I s ls)
    (h : M.replay Free tr s ls = some (tr', t)) (before : ∀ o ∈ tr, P o) : ∀ o ∈ tr', P o := by
  induction ls generalizing tr s with
  | nil =>
    obtain ⟨rfl, rfl⟩ := Prod.mk.inj (Option.some.inj h)
    exact before
  | cons l ls ih =>
    rw [System.replay_cons] at h
    split at h
    next s' out hs =>
      refine ih (keep _ _ _ _ _ hI hs) h ?_
      intro o ho
      rcases List.mem_append.mp ho with ho | ho
      · exact before o ho
      · exact emits _ _ _ _ _ hI hs o ho
    next => simp at h

/-- What is known of a state and the rest of its schedule allows each next step. -/
theorem System.EachStep.of_schedule {allowed : State → Label → Prop}
    (allow : ∀ s l ls, I s (l :: ls) → allowed s l) {s : State} {ls : List Label} (hI : I s ls) :
    M.EachStep allowed s ls := by
  induction ls generalizing s with
  | nil => trivial
  | cons l ls ih => exact ⟨allow _ _ _ hI, fun s' out hs => ih (keep _ _ _ _ _ hI hs)⟩

/-- Two schedules are played alike when no step tells their labels apart. -/
theorem System.replay_alike {alike : Label → Label → Prop}
    (agree : ∀ s l ls l', I s (l :: ls) → alike l l' → M.step s l' = M.step s l)
    {tr : List Obs} {s : State} {ls ls' : List Label} (hI : I s ls)
    (h : List.Forall₂ alike ls ls') : M.replay Free tr s ls' = M.replay Free tr s ls := by
  induction h generalizing tr s with
  | nil => rfl
  | @cons l l' ls ls' hl _ ih =>
    rw [System.replay_cons, System.replay_cons, agree _ _ _ _ hI hl]
    split
    next s' out hs => exact ih (keep _ _ _ _ _ hI hs)
    next => rfl

end Schedules

end Transition
