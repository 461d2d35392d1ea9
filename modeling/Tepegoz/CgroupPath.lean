import Mathlib.Data.List.TakeWhile
import Tepegoz.Lib.Text

namespace Tepegoz

open Text

def isAsciiHexdigit (c : Char) : Bool :=
  ('0' ≤ c && c ≤ '9') || ('a' ≤ c && c ≤ 'f') || ('A' ≤ c && c ≤ 'F')

def isDockerSeparator (c : Char) : Bool := c = '-' || c = '/'

/-- The separators at the start are skipped, then hex digits are taken as far as they go. -/
def idRun (tail : List Char) : List Char :=
  (tail.dropWhile isDockerSeparator).takeWhile isAsciiHexdigit

def containerIdFromCgroupPath (path : List Char) : Option (List Char) := do
  let (_, tail) ← rsplitOnce "docker".toList path
  let id := idRun tail
  if 12 ≤ id.length then some id else none

def IsContainerId (id : List Char) : Prop :=
  12 ≤ id.length ∧ id.length ≤ 64 ∧ ∀ c ∈ id, isAsciiHexdigit c = true

/-- What follows the name of a component is the end of the path or the next component. -/
def ComponentEnds (rest : List Char) : Prop := rest = [] ∨ rest.head? = some '/'

def ComponentStarts (before : List Char) : Prop := before = [] ∨ before.getLast? = some '/'

/-- After `before` there is a component `docker-<id>.scope`, or `docker` with the component `<id>`
directly after it. -/
def ContainerPlace (path before id : List Char) : Prop :=
  ComponentStarts before ∧ IsContainerId id ∧ ∃ rest, ComponentEnds rest ∧
    (path = before ++ ("docker".toList ++ ('-' :: (id ++ (".scope".toList ++ rest)))) ∨
      path = before ++ ("docker".toList ++ ('/' :: (id ++ rest))))

/-- The container that a path belongs to: the innermost of the places that name one. -/
def ContainerOf (path : List Char) : Option (List Char) → Prop
  | some id => ∃ before, ContainerPlace path before id ∧
      ∀ before' id', ContainerPlace path before' id' → before'.length ≤ before.length
  | none => ∀ before id, ¬ ContainerPlace path before id

/-- Separators and after them the digits `run` stand at the start. -/
def DigitsAt (tail run : List Char) : Prop :=
  ∃ seps rest, tail = seps ++ (run ++ rest) ∧ (∀ c ∈ seps, isDockerSeparator c = true) ∧
    ∀ c ∈ run, isAsciiHexdigit c = true

/-- `tail` comes behind the last `docker` of the path, `before` in front of it. -/
def LastDocker (path before tail : List Char) : Prop :=
  path = before ++ ("docker".toList ++ tail) ∧
    ∀ before' tail', path = before' ++ ("docker".toList ++ tail') → before'.length ≤ before.length

/-- The last `docker` of the path is the one of a place that names a container; or no place does, and
twelve digits follow no `docker` at all. -/
def PlainDockers (path : List Char) : Prop :=
  (∃ before tail id, LastDocker path before tail ∧ ContainerPlace path before id) ∨
  (∀ before id, ¬ ContainerPlace path before id) ∧
    ∀ before tail run, path = before ++ ("docker".toList ++ tail) → DigitsAt tail run → run.length < 12

/-- Twelve digits follow the last `docker` though no place names a container; or one does, and not its
digits follow the last `docker`. -/
def MisleadingDocker (path : List Char) : Prop :=
  ∃ before tail, LastDocker path before tail ∧
    ((∀ before id, ¬ ContainerPlace path before id) ∧ (∃ run, DigitsAt tail run ∧ 12 ≤ run.length) ∨
      (∃ before id, ContainerPlace path before id) ∧
        ∀ id, ContainerOf path (some id) → ¬ DigitsAt tail id)

section Digits

variable {tail run rest : List Char}

theorem not_separator_of_hexdigit {c : Char} (h : isAsciiHexdigit c = true) :
    isDockerSeparator c = false := by
  cases hs : isDockerSeparator c with
  | false => rfl
  | true =>
    have hc : c = '-' ∨ c = '/' := by simpa [isDockerSeparator] using hs
    rcases hc with rfl | rfl
    · exact absurd h (by decide)
    · exact absurd h (by decide)

theorem digitsAt_idRun (tail : List Char) : DigitsAt tail (idRun tail) := by
  refine ⟨tail.takeWhile isDockerSeparator,
    (tail.dropWhile isDockerSeparator).dropWhile isAsciiHexdigit, ?_, fun _ => List.mem_takeWhile_imp,
    fun _ => List.mem_takeWhile_imp⟩
  rw [idRun, List.takeWhile_append_dropWhile, List.takeWhile_append_dropWhile]

/-- Digits are no separators, so those that are taken begin where the separators end. -/
theorem idRun_append {seps : List Char} {c : Char} (hseps : ∀ c ∈ seps, isDockerSeparator c = true)
    (hrun : ∀ d ∈ c :: run, isAsciiHexdigit d = true) (rest : List Char) :
    idRun (seps ++ (c :: run ++ rest)) = c :: run ++ rest.takeWhile isAsciiHexdigit := by
  have hc := not_separator_of_hexdigit (hrun c (List.mem_cons_self ..))
  rw [idRun, List.dropWhile_append_of_pos hseps, List.cons_append,
    List.dropWhile_cons_of_neg (by simp [hc]), ← List.cons_append,
    List.takeWhile_append_of_pos hrun]

theorem DigitsAt.starts (h : DigitsAt tail run) : run <+: idRun tail := by
  obtain ⟨seps, rest, rfl, hseps, hrun⟩ := h
  cases run with
  | nil => exact List.nil_prefix
  | cons c run =>
    rw [idRun_append hseps hrun]
    exact List.prefix_append ..

end Digits

section Places

variable {path before tail id : List Char}

theorem ContainerPlace.eq_docker (h : ContainerPlace path before id) :
    ∃ back, path = before ++ ("docker".toList ++ back) := by
  obtain ⟨-, -, rest, -, rfl | rfl⟩ := h
  · exact ⟨_, rfl⟩
  · exact ⟨_, rfl⟩

/-- No place is further to the right than the last `docker`. -/
theorem ContainerPlace.length_le (h : ContainerPlace path before id) :
    ∃ last tail, rsplitOnce "docker".toList path = some (last, tail) ∧
      before.length ≤ last.length := by
  obtain ⟨back, rfl⟩ := h.eq_docker
  exact rsplitOnce_last (by decide) before back

theorem ContainerPlace.length_le_last (h : ContainerPlace path before id) {last : List Char}
    (hl : rsplitOnce "docker".toList path = some (last, tail)) : before.length ≤ last.length := by
  obtain ⟨last', tail', hl', hle⟩ := h.length_le
  rw [hl] at hl'
  cases hl'
  exact hle

/-- At a place the digits taken are the id: what stands behind it is no digit. -/
theorem ContainerPlace.idRun_eq (h : ContainerPlace path before id)
    (hl : rsplitOnce "docker".toList path = some (before, tail)) : idRun tail = id := by
  obtain ⟨-, ⟨hlen, -, hid⟩, rest, hrest, hpath⟩ := h
  obtain ⟨c, digits, rfl⟩ := List.exists_cons_of_ne_nil (show id ≠ [] by rintro rfl; simp at hlen)
  have hsep : ∀ sep, isDockerSeparator sep = true → ∀ c ∈ [sep], isDockerSeparator c = true :=
    fun _ h => List.forall_mem_singleton.mpr h
  have hpath' := eq_of_rsplitOnce hl
  rcases hpath with hpath | hpath
  · have htail : tail = ['-'] ++ (c :: digits ++ (".scope".toList ++ rest)) := by
      have heq := hpath'.symm.trans hpath
      rwa [List.append_cancel_left_eq, List.append_cancel_left_eq] at heq
    have hdot : (".scope".toList ++ rest).takeWhile isAsciiHexdigit = [] := rfl
    rw [htail, idRun_append (hsep '-' (by decide)) hid, hdot, List.append_nil]
  · have htail : tail = ['/'] ++ (c :: digits ++ rest) := by
      have heq := hpath'.symm.trans hpath
      rwa [List.append_cancel_left_eq, List.append_cancel_left_eq] at heq
    have hend : rest.takeWhile isAsciiHexdigit = [] := by
      rcases hrest with rfl | hslash
      · rfl
      · obtain ⟨more, rfl⟩ := List.head?_eq_some_iff.mp hslash
        rfl
    rw [htail, idRun_append (hsep '/' (by decide)) hid, hend, List.append_nil]

end Places

theorem containerId_of_last {path before tail : List Char}
    (h : rsplitOnce "docker".toList path = some (before, tail)) :
    containerIdFromCgroupPath path = if 12 ≤ (idRun tail).length then some (idRun tail) else none := by
  rw [containerIdFromCgroupPath, h]
  rfl

/-- The split is at the last `docker`. -/
theorem lastDocker_iff {path before tail : List Char} : LastDocker path before tail ↔
    rsplitOnce "docker".toList path = some (before, tail) := by
  have hne : "docker".toList ≠ [] := by decide
  constructor
  · rintro ⟨hpath, hlast⟩
    obtain ⟨last, tail', hl, hle⟩ := rsplitOnce_last hne before tail
    rw [← hpath] at hl
    have hpath' := eq_of_rsplitOnce hl
    have hlen : before.length = last.length := Nat.le_antisymm hle (hlast last tail' hpath')
    obtain ⟨rfl, htail⟩ := List.append_inj (hpath.symm.trans hpath') hlen
    rw [hl, List.append_cancel_left htail]
  · intro hl
    refine ⟨eq_of_rsplitOnce hl, fun before' tail' hpath => ?_⟩
    obtain ⟨last, tail'', hl', hle⟩ := rsplitOnce_last hne before' tail'
    rw [← hpath, hl] at hl'
    cases hl'
    exact hle

theorem PlainDockers.finds {path : List Char} (h : PlainDockers path) :
    ContainerOf path (containerIdFromCgroupPath path) := by
  rcases h with ⟨before, tail, id, hlast, hplace⟩ | ⟨hnone, hshort⟩
  · have hsplit := lastDocker_iff.mp hlast
    rw [containerId_of_last hsplit, hplace.idRun_eq hsplit, if_pos hplace.2.1.1]
    exact ⟨before, hplace, fun _ _ h => h.length_le_last hsplit⟩
  · cases hsplit : rsplitOnce "docker".toList path with
    | none =>
      rw [containerIdFromCgroupPath, hsplit]
      exact hnone
    | some last =>
      obtain ⟨before, tail⟩ := last
      have hlt := hshort before tail _ (eq_of_rsplitOnce hsplit) (digitsAt_idRun tail)
      rw [containerId_of_last hsplit, if_neg (Nat.not_le.mpr hlt)]
      exact hnone

theorem MisleadingDocker.misses {path : List Char} (h : MisleadingDocker path) :
    ¬ ContainerOf path (containerIdFromCgroupPath path) := by
  obtain ⟨before, tail, hlast, ⟨hnone, run, hrun, hlong⟩ | ⟨⟨before', id, hplace⟩, hother⟩⟩ := h
  · have hlen : 12 ≤ (idRun tail).length := Nat.le_trans hlong hrun.starts.length_le
    rw [containerId_of_last (lastDocker_iff.mp hlast), if_pos hlen]
    rintro ⟨before', hplace, -⟩
    exact hnone before' _ hplace
  · rw [containerId_of_last (lastDocker_iff.mp hlast)]
    split
    next => exact fun hof => hother _ hof (digitsAt_idRun tail)
    next => exact fun hof => hof before' id hplace

/-- The id returned is the one of the innermost place, or none where there is no place, if the last
`docker` is the one of a place or no `docker` could be taken for one; and it is not if the last one
misleads. -/
theorem container_id_innermost (path : List Char) :
    (PlainDockers path → ContainerOf path (containerIdFromCgroupPath path)) ∧
      (MisleadingDocker path → ¬ ContainerOf path (containerIdFromCgroupPath path)) :=
  ⟨fun h => h.finds, fun h => h.misses⟩

/-- An engine inside a container, with one place inside the other. -/
theorem container_id_innermost_nested :
    ContainerOf "/docker/abc123def456/docker-0123456789ab.scope".toList (some "0123456789ab".toList) := by
  have hid : IsContainerId "0123456789ab".toList :=
    ⟨by decide, by decide, List.all_eq_true.mp (by decide)⟩
  exact (container_id_innermost "/docker/abc123def456/docker-0123456789ab.scope".toList).1
    (.inl ⟨"/docker/abc123def456/".toList, "-0123456789ab.scope".toList, "0123456789ab".toList,
      lastDocker_iff.mpr (by decide), .inr rfl, hid, [], .inl rfl, .inl rfl⟩)

/-- A process of a service called docker inside a container. -/
theorem nested_service_missed : ¬ ∀ path, ContainerOf path (containerIdFromCgroupPath path) := by
  intro h
  have hof := h "/docker/abc123def456/docker.service".toList
  have hnone : containerIdFromCgroupPath "/docker/abc123def456/docker.service".toList = none := by
    decide
  rw [hnone] at hof
  have hid : IsContainerId "abc123def456".toList :=
    ⟨by decide, by decide, List.all_eq_true.mp (by decide)⟩
  exact hof ['/'] "abc123def456".toList
    ⟨.inr rfl, hid, "/docker.service".toList, .inr rfl, .inr rfl⟩

end Tepegoz
