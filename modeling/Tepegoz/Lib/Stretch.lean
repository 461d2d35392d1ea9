import Mathlib.Data.List.Infix

namespace Stretch

variable {Obs : Type} {P Q : List Obs → Prop} {asks : Obs → Prop} {log before since out : List Obs}

/-- At some time since a point in a log, and no later than now. -/
def During (P : List Obs → Prop) (before since : List Obs) : Prop :=
  ∃ mid, mid <+: since ∧ P (before ++ mid)

/-- All the time since a point in a log, up to now. -/
def Throughout (P : List Obs → Prop) (before since : List Obs) : Prop :=
  ∀ mid, mid <+: since → P (before ++ mid)

theorem During.now (h : P (before ++ since)) : During P before since := ⟨since, List.prefix_rfl, h⟩

theorem During.later (h : During P before since) (out : List Obs) : During P before (since ++ out) := by
  obtain ⟨mid, hmid, hP⟩ := h
  exact ⟨mid, hmid.trans (List.prefix_append since out), hP⟩

theorem During.mono (h : During P before since) (weaker : ∀ log, P log → Q log) :
    During Q before since := by
  obtain ⟨mid, hmid, hP⟩ := h
  exact ⟨mid, hmid, weaker _ hP⟩

theorem Throughout.now (h : Throughout P before since) : P (before ++ since) := h since List.prefix_rfl

theorem Throughout.earlier (h : Throughout P before (since ++ out)) : Throughout P before since :=
  fun mid hmid => h mid (hmid.trans (List.prefix_append since out))

/-- A log parted right after the latest question. -/
structure Since (asks : Obs → Prop) (question : Obs) (log before since : List Obs) : Prop where
  log_eq : log = before ++ since
  question_last : before.getLast? = some question
  latest : ∀ x ∈ since, ¬ asks x

namespace Since

variable {question : Obs}

theorem asked (asks : Obs → Prop) (question : Obs) (log : List Obs) :
    Since asks question (log ++ [question]) (log ++ [question]) [] :=
  ⟨(List.append_nil _).symm, List.getLast?_concat, fun _ h => absurd h List.not_mem_nil⟩

theorem later (h : Since asks question log before since) (hout : ∀ x ∈ out, ¬ asks x) :
    Since asks question (log ++ out) before (since ++ out) where
  log_eq := by rw [h.log_eq, List.append_assoc]
  question_last := h.question_last
  latest x hx := (List.mem_append.mp hx).elim (h.latest x) (hout x)

theorem during_now (h : Since asks question log before since) (hP : P log) : During P before since :=
  .now (h.log_eq ▸ hP)

theorem of_throughout (h : Since asks question log before since) (hP : Throughout P before since) : P log :=
  h.log_eq ▸ hP.now

end Since

end Stretch
