import Tepegoz.Lib.Runs
import Tepegoz.Lib.Transition
import Mathlib.Data.List.Forall2

namespace EdgeTrigger

open Transition Runs

variable {State Label Obs Poll : Type} {M : System State Label Obs} {poll : Label → Option Poll}
  {down : Poll → Bool} {flag : State → Option Bool} {emits : Poll → Obs → Prop}

/-- A step announces a poll that is up, and one that is down unless the one before was down too. The
flag keeps what the last poll was. -/
def Announces (poll : Label → Option Poll) (down : Poll → Bool) (flag : State → Option Bool)
    (emits : Poll → Obs → Prop) (s : State) (l : Label) (s' : State) (out : List Obs) : Prop :=
  match poll l with
  | none => flag s' = flag s ∧ out = []
  | some p => flag s' = some (down p) ∧
      if down p = true ∧ flag s = some true then out = [] else ∃ o, out = [o] ∧ emits p o

/-- A schedule whose steps announce their polls announces the edges of all polls. -/
theorem replay_edges {I : State → Prop} {allowed : Label → Prop}
    (step : ∀ s l s' out, I s → allowed l → M.step s l = some (s', out) →
      I s' ∧ Announces poll down flag emits s l s' out)
    {before : List Poll} {tr tr' : List Obs} {s t : State} {ls : List Label} (hI : I s)
    (hflag : flag s = before.getLast?.map down) (hout : List.Forall₂ emits (edges down before) tr)
    (hls : ∀ l ∈ ls, allowed l) (h : M.replay Free tr s ls = some (tr', t)) :
    List.Forall₂ emits (edges down (before ++ ls.filterMap poll)) tr' := by
  induction ls generalizing before tr s with
  | nil =>
    obtain ⟨rfl, rfl⟩ := Prod.mk.inj (Option.some.inj h)
    simpa using hout
  | cons l ls ih =>
    obtain ⟨hl, hrest⟩ := List.forall_mem_cons.mp hls
    rw [System.replay_cons] at h
    split at h
    next s' out hs =>
      obtain ⟨hI', hann⟩ := step _ _ _ _ hI hl hs
      unfold Announces at hann
      split at hann
      next hp =>
        obtain ⟨hf, rfl⟩ := hann
        rw [List.append_nil] at h
        rw [List.filterMap_cons_none hp]
        exact ih hI' (hf.trans hflag) hout hrest h
      next p hp =>
        obtain ⟨hf, hann⟩ := hann
        rw [List.filterMap_cons_some hp, List.append_cons]
        refine ih hI' ?_ ?_ hrest h
        · rw [hf, List.getLast?_concat, Option.map_some]
        · rw [edges_concat, ← hflag]
          refine List.rel_append hout ?_
          split at hann
          next hc => rw [if_pos hc, hann]; exact .nil
          next hc =>
            obtain ⟨o, rfl, he⟩ := hann
            rw [if_neg hc]
            exact .cons he .nil
    next => simp at h

theorem replay_edges_fresh {I : State → Prop} {allowed : Label → Prop}
    (step : ∀ s l s' out, I s → allowed l → M.step s l = some (s', out) →
      I s' ∧ Announces poll down flag emits s l s' out)
    {tr : List Obs} {s t : State} {ls : List Label} (hI : I s) (hflag : flag s = none)
    (hls : ∀ l ∈ ls, allowed l) (h : M.replay Free [] s ls = some (tr, t)) :
    List.Forall₂ emits (edges down (ls.filterMap poll)) tr := by
  have hnone : flag s = ([] : List Poll).getLast?.map down := hflag
  exact replay_edges step hI hnone .nil hls h

end EdgeTrigger
