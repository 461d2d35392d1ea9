import Mathlib.Data.Multiset.AddSub
import Mathlib.Data.Multiset.ZeroCons
import Mathlib.Order.Basic

namespace IdSupply

variable {α : Type} [Preorder α]

/-- Ids that are in use at one place each, all of them handed out before `next`. -/
structure Sound (live : Multiset α) (next : α) : Prop where
  nodup : live.Nodup
  lt : ∀ i ∈ live, i < next

/-- From one state of a supply to a later one: a sound supply stays sound, and an id in use was in use
before or is new. -/
structure Evolves (live : Multiset α) (next : α) (live' : Multiset α) (next' : α) : Prop where
  sound : Sound live next → Sound live' next'
  le : next ≤ next'
  old_or_new : ∀ i ∈ live', i ∈ live ∨ next ≤ i

namespace Evolves

variable {live live' live'' : Multiset α} {next next' next'' : α}

theorem refl (live : Multiset α) (next : α) : Evolves live next live next :=
  ⟨id, le_refl _, fun _ hi => .inl hi⟩

theorem trans (h : Evolves live next live' next') (h' : Evolves live' next' live'' next'') :
    Evolves live next live'' next'' where
  sound hs := h'.sound (h.sound hs)
  le := le_trans h.le h'.le
  old_or_new i hi := by
    rcases h'.old_or_new i hi with hi | hi
    · exact h.old_or_new i hi
    · exact .inr (le_trans h.le hi)

theorem release (hle : live' ≤ live) : Evolves live next live' next where
  sound hs := ⟨Multiset.nodup_of_le hle hs.nodup, fun i hi => hs.lt i (Multiset.mem_of_le hle hi)⟩
  le := le_refl _
  old_or_new _ hi := .inl (Multiset.mem_of_le hle hi)

theorem issue {i : α} (hi : next ≤ i) (hlt : i < next') : Evolves live next (i ::ₘ live) next' where
  sound hs := by
    have hnew : i ∉ live := fun hmem => lt_irrefl i (lt_of_lt_of_le (hs.lt i hmem) hi)
    refine ⟨Multiset.nodup_cons.mpr ⟨hnew, hs.nodup⟩, fun j hj => ?_⟩
    rcases Multiset.mem_cons.mp hj with rfl | hj
    · exact hlt
    · exact lt_trans (lt_of_lt_of_le (hs.lt j hj) hi) hlt
  le := le_of_lt (lt_of_le_of_lt hi hlt)
  old_or_new j hj := by
    rcases Multiset.mem_cons.mp hj with rfl | hj
    · exact .inr hi
    · exact .inl hj

/-- An id that was given up stays out of use. -/
theorem not_reissued (h : Evolves live next live' next') {i : α} (hlt : i < next) (hi : i ∉ live) :
    i ∉ live' := fun hi' => by
  rcases h.old_or_new i hi' with hi' | hle
  · exact hi hi'
  · exact lt_irrefl i (lt_of_lt_of_le hlt hle)

end Evolves

end IdSupply
