import Mathlib.Data.List.SplitBy

namespace Runs

variable {α β : Type} [DecidableEq β] {key : α → β}

/-- The maximal runs of consecutive entries with equal keys. -/
def runs (key : α → β) (l : List α) : List (List α) := l.splitBy fun a b => key a = key b

/-- The first entry of each maximal run. -/
def starts (key : α → β) (l : List α) : List α := (runs key l).filterMap List.head?

@[simp] theorem starts_nil : starts key [] = [] := rfl

theorem runs_concat_of_ne {l : List α} {a : α} (h : l.getLast?.map key ≠ some (key a)) :
    runs key (l ++ [a]) = runs key l ++ [[a]] := by
  refine List.splitBy_append_cons [] ?_
  intro x hx
  rw [decide_eq_false_iff_not]
  intro heq
  exact h (by rw [Option.mem_def.mp hx, Option.map_some, heq])

/-- An entry with the key of the one before it goes on with the last run. -/
theorem runs_concat_of_eq {l : List α} {a : α} (h : l.getLast?.map key = some (key a)) :
    ∃ front last, last ≠ [] ∧ runs key l = front ++ [last] ∧
      runs key (l ++ [a]) = front ++ [last ++ [a]] := by
  obtain ⟨b, hb, hkey⟩ := Option.map_eq_some_iff.mp h
  have hl : l ≠ [] := by
    rintro rfl
    cases hb
  obtain ⟨hflat, hnil, hchain, hbreaks⟩ :=
    (List.splitBy_eq_iff (r := fun a b => decide (key a = key b))).mp (rfl : runs key l = _)
  obtain ⟨front, last, hruns⟩ : ∃ front last, runs key l = front ++ [last] :=
    ⟨_, _, (List.dropLast_append_getLast (List.splitBy_ne_nil.mpr hl)).symm⟩
  rw [hruns] at hflat hnil hchain hbreaks
  have hlast : last ≠ [] := fun heq => hnil (by simp [heq])
  have hend : last.getLast hlast = b := by
    have hget : l.getLast? = some (last.getLast hlast) := by
      rw [hflat, List.flatten_append, List.flatten_singleton, List.getLast?_append,
        List.getLast?_eq_some_getLast hlast]
      rfl
    exact Option.some.inj (hget.symm.trans hb)
  refine ⟨front, last, hlast, hruns, List.splitBy_eq_iff.mpr ⟨?_, ?_, ?_, ?_⟩⟩
  · rw [hflat]
    simp
  · intro hmem
    rcases List.mem_append.mp hmem with hmem | hmem
    · exact hnil (List.mem_append_left _ hmem)
    · simp at hmem
  · intro m hm
    rcases List.mem_append.mp hm with hm | hm
    · exact hchain m (List.mem_append_left _ hm)
    · rw [List.mem_singleton.mp hm]
      refine (hchain last (by simp)).append (List.isChain_singleton _) ?_
      intro x hx y hy
      rw [List.getLast?_eq_some_getLast hlast, hend, Option.mem_def, Option.some.injEq] at hx
      rw [List.head?_cons, Option.mem_def, Option.some.injEq] at hy
      subst hx hy
      exact decide_eq_true hkey
  · rw [List.isChain_append] at hbreaks ⊢
    refine ⟨hbreaks.1, List.isChain_singleton _, ?_⟩
    intro x hx y hy
    rw [List.head?_cons, Option.mem_def, Option.some.injEq] at hy
    subst hy
    obtain ⟨hxnil, hynil, hne⟩ := hbreaks.2.2 x hx last rfl
    refine ⟨hxnil, by simp, ?_⟩
    rwa [List.head_append_of_ne_nil hynil]

theorem starts_concat (l : List α) (a : α) : starts key (l ++ [a]) =
    starts key l ++ if l.getLast?.map key = some (key a) then [] else [a] := by
  split
  next h =>
    obtain ⟨front, last, hlast, hruns, hnext⟩ := runs_concat_of_eq h
    have hhead : (last ++ [a]).head? = last.head? := List.head?_append_of_ne_nil _ hlast
    simp only [starts, hruns, hnext, List.append_nil, List.filterMap_append, List.filterMap_cons,
      List.filterMap_nil, hhead]
  next h =>
    rw [starts, starts, runs_concat_of_ne h, List.filterMap_append]
    rfl

section Edges

variable {down : α → Bool}

theorem key_eq_of_mem_runs {l run : List α} {a b : α} (h : run ∈ runs key l) (ha : a ∈ run)
    (hb : b ∈ run) : key a = key b := by
  obtain ⟨-, -, hchain, -⟩ :=
    (List.splitBy_eq_iff (r := fun a b => decide (key a = key b))).mp (rfl : runs key l = _)
  have hsame : (run.map key).Pairwise (· = ·) :=
    ((List.isChain_map key).mpr ((hchain run h).imp fun _ _ hkey => of_decide_eq_true hkey)).pairwise
  exact hsame.forall_of_forall (fun _ _ => rfl) (List.mem_map_of_mem ha) (List.mem_map_of_mem hb)

/-- Of each maximal run of entries that are down only the first. -/
def edges (down : α → Bool) (l : List α) : List α :=
  (runs down l).flatMap fun run => if run.head?.any down then run.take 1 else run

@[simp] theorem edges_nil : edges down [] = [] := rfl

theorem edges_concat (l : List α) (a : α) : edges down (l ++ [a]) =
    edges down l ++ if down a = true ∧ l.getLast?.map down = some true then [] else [a] := by
  by_cases h : l.getLast?.map down = some (down a)
  · obtain ⟨front, last, hlast, hruns, hnext⟩ := runs_concat_of_eq h
    obtain ⟨b, rest, rfl⟩ := List.exists_cons_of_ne_nil hlast
    have hmem : b :: rest ++ [a] ∈ runs down (l ++ [a]) := by
      rw [hnext]
      simp
    have hfirst : down b = down a := key_eq_of_mem_runs hmem (by simp) (by simp)
    rw [edges, edges, hruns, hnext, List.flatMap_append, List.flatMap_append, h]
    cases hd : down a with
    | true => simp [hfirst, hd]
    | false => simp [hfirst, hd]
  · rw [edges, edges, runs_concat_of_ne h, List.flatMap_append]
    cases hd : down a with
    | true => rw [hd] at h; simp [hd, h]
    | false => simp [hd]

theorem getLast?_edges (l : List α) : (edges down l).getLast?.map down = l.getLast?.map down := by
  induction l using List.reverseRecOn with
  | nil => rfl
  | append_singleton l a ih =>
    rw [edges_concat, List.getLast?_append, List.getLast?_concat]
    split
    next h => rw [List.getLast?_nil, Option.none_or, ih, h.2, Option.map_some, h.1]
    next => rfl

/-- After an entry that is down comes one that is not. -/
theorem edges_isChain (l : List α) :
    (edges down l).IsChain fun a b => ¬ (down a = true ∧ down b = true) := by
  induction l using List.reverseRecOn with
  | nil => exact .nil
  | append_singleton l a ih =>
    rw [edges_concat]
    split
    next => rwa [List.append_nil]
    next h =>
      rw [List.isChain_append]
      refine ⟨ih, .singleton a, ?_⟩
      rintro x hx y hy ⟨hdx, hdy⟩
      obtain rfl : a = y := by simpa using hy
      refine h ⟨hdy, ?_⟩
      rw [← getLast?_edges, Option.mem_def.mp hx, Option.map_some, hdx]

theorem head?_edges (l : List α) : (edges down l).head? = l.head? := by
  induction l using List.reverseRecOn with
  | nil => rfl
  | append_singleton l a ih =>
    rw [edges_concat, List.head?_append, List.head?_append, ih]
    split
    next h =>
      cases l with
      | nil => simp at h
      | cons b l => rfl
    next => rfl

end Edges

end Runs
