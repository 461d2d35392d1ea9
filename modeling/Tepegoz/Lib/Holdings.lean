import Mathlib.Data.List.Induction
import Tepegoz.Lib.IdSupply
import Tepegoz.Lib.Transition

namespace Holdings

open Transition

variable {Id Use : Type} [DecidableEq Id]

/-- What happens to an id: it is put to a use, it is given up, or its use ends by itself. -/
inductive Entry (Id Use : Type)
  | take (i : Id) (u : Use)
  | drop (i : Id)
  | lapse (i : Id) (ends : Use → Bool)

namespace Entry

def renew (i : Id) (current : Option Use) : Entry Id Use → Option Use
  | .take j u => if j = i then some u else current
  | .drop j => if j = i then none else current
  | .lapse j ends => if j = i then current.filter fun u => !ends u else current

/-- The same for one that does not know of uses that end by themselves. -/
def renewAsked (i : Id) (current : Option Use) : Entry Id Use → Option Use
  | .lapse _ _ => current
  | entry => entry.renew i current

end Entry

/-- What an id is used for by the end of a log. -/
def useOf (i : Id) (log : List (Entry Id Use)) : Option Use :=
  log.foldl (fun current entry => entry.renew i current) none

/-- What an id was last put to use for and not given up. -/
def askedFor (i : Id) (log : List (Entry Id Use)) : Option Use :=
  log.foldl (fun current entry => entry.renewAsked i current) none

/-- Only ids without a use are put to one, also for one that does not know of uses that ended, and only
ids in use are given up. -/
def Apt (past : List (Entry Id Use)) : Entry Id Use → Prop
  | .take i _ => useOf i past = none ∧ askedFor i past = none
  | .drop i => useOf i past ≠ none
  | .lapse _ _ => True

theorem useOf_concat (i : Id) (log : List (Entry Id Use)) (entry : Entry Id Use) :
    useOf i (log ++ [entry]) = entry.renew i (useOf i log) := by
  simp [useOf, List.foldl_append]

theorem askedFor_concat (i : Id) (log : List (Entry Id Use)) (entry : Entry Id Use) :
    askedFor i (log ++ [entry]) = entry.renewAsked i (askedFor i log) := by
  simp [askedFor, List.foldl_append]

variable [Preorder Id]

/-- A log of apt entries, with the uses that it leaves. An id that only one who does not know of ended
uses takes for used is never handed out again. -/
structure Kept (log : List (Entry Id Use)) (uses : List (Id × Use)) (live : Multiset Id)
    (next : Id) : Prop where
  sound : IdSupply.Sound live next
  lives : ∀ use ∈ uses, use.1 ∈ live
  nodup : (uses.map (·.1)).Nodup
  used : ∀ i u, useOf i log = some u ↔ (i, u) ∈ uses
  asked : ∀ i u, askedFor i log = some u → (i, u) ∈ uses ∨ i < next ∧ i ∉ live
  apt : Each Apt [] log

namespace Kept

variable {log : List (Entry Id Use)} {uses uses' : List (Id × Use)} {live live' : Multiset Id}
  {next next' i : Id} {u : Use}

theorem not_used (h : Kept log uses live next) (hi : i ∉ uses.map (·.1)) : useOf i log = none := by
  cases hu : useOf i log with
  | none => rfl
  | some u => exact absurd (List.mem_map_of_mem ((h.used i u).mp hu)) hi

theorem perm (h : Kept log uses live next) (hp : uses.Perm uses') : Kept log uses' live next where
  sound := h.sound
  lives use hm := h.lives use (hp.mem_iff.mpr hm)
  nodup := (hp.map _).nodup_iff.mp h.nodup
  used i u := (h.used i u).trans hp.mem_iff
  asked i u ha := (h.asked i u ha).imp_left hp.mem_iff.mp
  apt := h.apt

/-- Ids are handed out, or given up that have no use. -/
theorem evolves (h : Kept log uses live next) (he : IdSupply.Evolves live next live' next')
    (hlive : ∀ use ∈ uses, use.1 ∈ live') : Kept log uses live' next' where
  sound := he.sound h.sound
  lives := hlive
  nodup := h.nodup
  used := h.used
  asked i u ha := (h.asked i u ha).imp_right fun ⟨hlt, hi⟩ =>
    ⟨lt_of_lt_of_le hlt he.le, he.not_reissued hlt hi⟩
  apt := h.apt

theorem take (h : Kept log uses live next) (hi : i ∉ uses.map (·.1)) (hlive : i ∈ live) :
    Kept (log ++ [.take i u]) ((i, u) :: uses) live next where
  sound := h.sound
  lives use hm := by
    rcases List.mem_cons.mp hm with rfl | hm
    · exact hlive
    · exact h.lives use hm
  nodup := List.nodup_cons.mpr ⟨hi, h.nodup⟩
  used j v := by
    rw [useOf_concat]
    by_cases hj : i = j
    · subst hj
      have hnot : ∀ v, (i, v) ∉ uses := fun v hm => hi (List.mem_map_of_mem hm)
      simp [Entry.renew, hnot, eq_comm]
    · simp [Entry.renew, hj, Ne.symm hj, h.used j v]
  asked j v ha := by
    rw [askedFor_concat] at ha
    by_cases hj : i = j
    · subst hj
      simp only [Entry.renewAsked, Entry.renew, if_true, Option.some.injEq] at ha
      subst ha
      exact .inl List.mem_cons_self
    · simp only [Entry.renewAsked, Entry.renew, if_neg hj] at ha
      exact (h.asked j v ha).imp_left (List.mem_cons_of_mem _)
  apt := by
    refine h.apt.append ⟨⟨h.not_used hi, ?_⟩, trivial⟩
    cases ha : askedFor i log with
    | none => simpa using ha
    | some v =>
      rcases h.asked i v ha with hm | ⟨-, hnot⟩
      · exact absurd (List.mem_map_of_mem hm) hi
      · exact absurd hlive hnot

/-- Several ids are put to use at the start. -/
theorem of_takes (hs : IdSupply.Sound live next) (uses : List (Id × Use))
    (hlive : ∀ use ∈ uses, use.1 ∈ live) (hnodup : (uses.map (·.1)).Nodup) :
    Kept (uses.map fun use => .take use.1 use.2) uses live next := by
  induction uses using List.reverseRecOn with
  | nil =>
    exact ⟨hs, hlive, hnodup, fun i u => by simp [useOf], fun i u h => by simp [askedFor] at h, trivial⟩
  | append_singleton uses use ih =>
    have hperm : (uses ++ [use]).Perm (use :: uses) := List.perm_append_singleton _ _
    obtain ⟨hi, hrest⟩ := List.nodup_cons.mp ((hperm.map (·.1)).nodup_iff.mp hnodup)
    have hbefore := ih (fun use hm => hlive use (List.mem_append_left _ hm)) hrest
    rw [List.map_append, List.map_cons, List.map_nil]
    exact (hbefore.take hi (hlive use (by simp))).perm hperm.symm

/-- Without its first use, the list is what other ids are used for. -/
theorem used_without (h : Kept log ((i, u) :: uses) live next) (j : Id) (v : Use) :
    (if i = j then none else useOf j log) = some v ↔ (j, v) ∈ uses := by
  by_cases hj : i = j
  · subst hj
    have hi : i ∉ uses.map (·.1) := (List.nodup_cons.mp h.nodup).1
    have hnot : (i, v) ∉ uses := fun hm => hi (List.mem_map_of_mem (f := (·.1)) hm)
    simp [hnot]
  · have hold := h.used j v
    simp only [List.mem_cons, Prod.mk.injEq, Ne.symm hj, false_and, false_or] at hold
    rwa [if_neg hj]

theorem drop (h : Kept log ((i, u) :: uses) live next) : Kept (log ++ [.drop i]) uses live next where
  sound := h.sound
  lives use hm := h.lives use (List.mem_cons_of_mem _ hm)
  nodup := (List.nodup_cons.mp h.nodup).2
  used j v := by
    rw [useOf_concat]
    exact h.used_without j v
  asked j v ha := by
    rw [askedFor_concat] at ha
    by_cases hj : i = j
    · simp [Entry.renewAsked, Entry.renew, hj] at ha
    · simp only [Entry.renewAsked, Entry.renew, if_neg hj] at ha
      refine (h.asked j v ha).imp_left fun hm => ?_
      rcases List.mem_cons.mp hm with heq | hm
      · exact absurd (congrArg Prod.fst heq).symm hj
      · exact hm
  apt := by
    refine h.apt.append ⟨?_, trivial⟩
    have hused : useOf i log = some u := (h.used i u).mpr List.mem_cons_self
    simp [Apt, hused]

/-- A use ends by itself, and its id is done with. -/
theorem lapse {ends : Use → Bool} (h : Kept log ((i, u) :: uses) live next) (hends : ends u = true)
    (hle : live' ≤ live) (hi : i ∉ live') (hlive : ∀ use ∈ uses, use.1 ∈ live') :
    Kept (log ++ [.lapse i ends]) uses live' next := by
  have he : IdSupply.Evolves live next live' next := .release hle
  refine ⟨he.sound h.sound, hlive, (List.nodup_cons.mp h.nodup).2, ?_, ?_,
    h.apt.append ⟨trivial, trivial⟩⟩
  · intro j v
    rw [useOf_concat, ← h.used_without j v]
    by_cases hj : i = j
    · subst hj
      simp [Entry.renew, (h.used i u).mpr List.mem_cons_self, Option.filter, hends]
    · simp [Entry.renew, hj]
  · intro j v ha
    rw [askedFor_concat] at ha
    rcases h.asked j v ha with hm | ⟨hlt, hj⟩
    · rcases List.mem_cons.mp hm with heq | hm
      · obtain ⟨rfl, rfl⟩ := Prod.mk.inj heq
        exact .inr ⟨h.sound.lt _ (h.lives _ List.mem_cons_self), hi⟩
      · exact .inl hm
    · exact .inr ⟨hlt, he.not_reissued hlt hj⟩

/-- The end of a use that the id does not have. -/
theorem spared {ends : Use → Bool} (h : Kept log uses live next)
    (hends : ∀ u, (i, u) ∈ uses → ends u = false) : Kept (log ++ [.lapse i ends]) uses live next where
  sound := h.sound
  lives := h.lives
  nodup := h.nodup
  used j v := by
    rw [useOf_concat, ← h.used j v]
    by_cases hj : i = j
    · subst hj
      cases hu : useOf i log with
      | none => simp [Entry.renew]
      | some u => simp [Entry.renew, Option.filter, hends u ((h.used i u).mp hu)]
    · simp [Entry.renew, hj]
  asked j v ha := by
    rw [askedFor_concat] at ha
    exact h.asked j v ha
  apt := h.apt.append ⟨trivial, trivial⟩

end Kept

end Holdings
