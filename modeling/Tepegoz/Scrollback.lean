import Mathlib.Data.List.Basic
import Mathlib.Tactic.Common

namespace Tepegoz

abbrev Bytes := List UInt8

/-- The byte ring of a pane, kept as the chunks it was filled with. The remote pane's file carries
a verbatim copy of this type. -/
structure Scrollback where
  chunks : List Bytes
  totalBytes : Nat
  capacity : Nat
  deriving DecidableEq

namespace Scrollback

def empty (capacity : Nat) : Scrollback := ⟨[], 0, capacity⟩

/-- The eviction loop of `append`: drop chunks from the front while over capacity. -/
def evict (capacity : Nat) : List Bytes → Nat → List Bytes × Nat
  | [], total => ([], total)
  | chunk :: rest, total =>
    if capacity < total then evict capacity rest (total - chunk.length) else (chunk :: rest, total)

def append (sb : Scrollback) (bytes : Bytes) : Scrollback :=
  if bytes.isEmpty then sb
  else
    let (chunks, total) := evict sb.capacity (sb.chunks ++ [bytes]) (sb.totalBytes + bytes.length)
    { sb with chunks := chunks, totalBytes := total }

def snapshot (sb : Scrollback) : Bytes := sb.chunks.flatten

theorem evict_suffix (capacity : Nat) (chunks : List Bytes) (total : Nat) :
    (evict capacity chunks total).1 <:+ chunks := by
  induction chunks generalizing total with
  | nil => exact List.suffix_rfl
  | cons chunk rest ih =>
    unfold evict
    split
    next => exact (ih _).trans (List.suffix_cons chunk rest)
    next => exact List.suffix_rfl

theorem flatten_suffix {xs ys : List Bytes} (h : xs <:+ ys) : xs.flatten <:+ ys.flatten := by
  obtain ⟨pre, rfl⟩ := h
  exact ⟨pre.flatten, by simp⟩

@[simp] theorem snapshot_empty (capacity : Nat) : (empty capacity).snapshot = [] := rfl

/-- Whatever is evicted, a snapshot stays a suffix of what was appended. -/
theorem append_snapshot_suffix {sb : Scrollback} {log : Bytes} (h : sb.snapshot <:+ log)
    (bytes : Bytes) : (sb.append bytes).snapshot <:+ log ++ bytes := by
  unfold append
  split
  next he =>
    have : bytes = [] := List.isEmpty_iff.mp he
    simpa [this] using h
  next =>
    have hs := flatten_suffix (evict_suffix sb.capacity (sb.chunks ++ [bytes])
      (sb.totalBytes + bytes.length))
    have hf : (sb.chunks ++ [bytes]).flatten = sb.snapshot ++ bytes := by simp [snapshot]
    rw [hf] at hs
    obtain ⟨pre, hpre⟩ := h
    exact hs.trans ⟨pre, by rw [← List.append_assoc, hpre]⟩

/-- `append` with the subtraction of the loop checked: `none` stands for an underflow. -/
def evictChecked (capacity : Nat) : List Bytes → Nat → Option (List Bytes × Nat)
  | [], total => some ([], total)
  | chunk :: rest, total =>
    if capacity < total then
      if chunk.length ≤ total then evictChecked capacity rest (total - chunk.length) else none
    else some (chunk :: rest, total)

def appendChecked (sb : Scrollback) (bytes : Bytes) : Option Scrollback :=
  if bytes.isEmpty then some sb
  else (evictChecked sb.capacity (sb.chunks ++ [bytes]) (sb.totalBytes + bytes.length)).map
    fun kept => { sb with chunks := kept.1, totalBytes := kept.2 }

end Scrollback

/-- The copy in the remote pane's file. -/
structure RemoteScrollback where
  chunks : List Bytes
  totalBytes : Nat
  capacity : Nat
  deriving DecidableEq

namespace RemoteScrollback

def empty (capacity : Nat) : RemoteScrollback where
  chunks := []
  totalBytes := 0
  capacity := capacity

/-- The turns of the loop that are left, on what the deque holds. -/
def dropOldest (sb : RemoteScrollback) : List Bytes → Option RemoteScrollback
  | [] => some { sb with chunks := [] }
  | dropped :: chunks =>
    if sb.totalBytes ≤ sb.capacity then some { sb with chunks := dropped :: chunks }
    else if sb.totalBytes < dropped.length then none
    else dropOldest { sb with totalBytes := sb.totalBytes - dropped.length } chunks

def append (sb : RemoteScrollback) (bytes : Bytes) : Option RemoteScrollback :=
  if bytes = [] then some sb
  else dropOldest { sb with totalBytes := sb.totalBytes + bytes.length } (sb.chunks ++ [bytes])

def snapshot (sb : RemoteScrollback) : Bytes :=
  if sb.chunks = [] then [] else sb.chunks.foldl (· ++ ·) []

end RemoteScrollback

/-- The longest run of chunks at the end of the log whose bytes fit. -/
def LongestFitting (capacity : Nat) (log kept : List Bytes) : Prop :=
  (kept <:+ log ∧ kept.flatten.length ≤ capacity) ∧
    ∀ other, other <:+ log → other.flatten.length ≤ capacity → other <:+ kept

/-- It is what remains when chunks are taken from the front until the rest fits. -/
def fitting (capacity : Nat) : List Bytes → List Bytes
  | [] => []
  | chunk :: rest =>
    if (chunk :: rest).flatten.length ≤ capacity then chunk :: rest else fitting capacity rest

section Fitting

variable {capacity : Nat} {log : List Bytes}

theorem fitting_of_fits (h : log.flatten.length ≤ capacity) : fitting capacity log = log := by
  cases log with
  | nil => rfl
  | cons chunk rest => exact if_pos h

theorem fitting_fits : (fitting capacity log).flatten.length ≤ capacity := by
  induction log with
  | nil => exact Nat.zero_le capacity
  | cons chunk rest ih =>
    rw [fitting]
    split
    next h => exact h
    next => exact ih

theorem fitting_longest : LongestFitting capacity log (fitting capacity log) := by
  induction log with
  | nil => exact ⟨⟨List.suffix_rfl, Nat.zero_le capacity⟩, fun _ h _ => h⟩
  | cons chunk rest ih =>
    rw [fitting]
    split
    next h => exact ⟨⟨List.suffix_rfl, h⟩, fun _ hs _ => hs⟩
    next h =>
      refine ⟨⟨ih.1.1.trans (List.suffix_cons chunk rest), ih.1.2⟩, ?_⟩
      intro other hs hfits
      rcases List.suffix_cons_iff.mp hs with rfl | hs
      · exact absurd hfits h
      · exact ih.2 other hs hfits

/-- What was dropped before a chunk came would be dropped after it. -/
theorem fitting_append (chunk : Bytes) :
    fitting capacity (fitting capacity log ++ [chunk]) = fitting capacity (log ++ [chunk]) := by
  induction log with
  | nil => rfl
  | cons first rest ih =>
    by_cases h : (first :: rest).flatten.length ≤ capacity
    · rw [fitting_of_fits h]
    · have hgrown : ¬ (first :: (rest ++ [chunk])).flatten.length ≤ capacity := by
        simp only [List.flatten_cons, List.flatten_append, List.length_append] at h ⊢
        omega
      rw [fitting, if_neg h, List.cons_append, fitting.eq_2 _ first, if_neg hgrown, ih]

/-- Chunks without bytes make no difference to the bytes kept. -/
theorem fitting_filter_flatten :
    (fitting capacity (log.filter (· ≠ []))).flatten = (fitting capacity log).flatten := by
  induction log with
  | nil => rfl
  | cons chunk rest ih =>
    have hflat : ∀ chunks : List Bytes, (chunks.filter (· ≠ [])).flatten = chunks.flatten :=
      fun _ => List.flatten_filter_ne_nil
    by_cases h : (chunk :: rest).flatten.length ≤ capacity
    · rw [fitting_of_fits h, fitting_of_fits (by rw [hflat]; exact h), hflat]
    · rw [fitting.eq_2, if_neg h, ← ih]
      by_cases hc : chunk = []
      · simp [hc]
      · rw [List.filter_cons_of_pos (by simpa using hc), fitting.eq_2, if_neg]
        rw [List.flatten_cons, hflat]
        exact h

end Fitting

namespace Scrollback

/-- With an exact counter the loop keeps the longest fitting run, and no subtraction fails. -/
theorem evictChecked_eq (capacity : Nat) (chunks : List Bytes) :
    evictChecked capacity chunks chunks.flatten.length =
      some (fitting capacity chunks, (fitting capacity chunks).flatten.length) := by
  induction chunks with
  | nil => rfl
  | cons chunk rest ih =>
    have hlength : (chunk :: rest).flatten.length = chunk.length + rest.flatten.length := by
      rw [List.flatten_cons, List.length_append]
    rw [evictChecked, fitting]
    by_cases h : (chunk :: rest).flatten.length ≤ capacity
    · rw [if_neg (Nat.not_lt.mpr h), if_pos h]
    · rw [if_pos (Nat.not_le.mp h), if_neg h, if_pos (by omega), hlength, Nat.add_sub_cancel_left]
      exact ih

theorem evict_eq_of_checked {capacity total : Nat} {chunks : List Bytes} {kept : List Bytes × Nat}
    (h : evictChecked capacity chunks total = some kept) : evict capacity chunks total = kept := by
  induction chunks generalizing total with
  | nil => exact Option.some.inj h
  | cons chunk rest ih =>
    rw [evictChecked] at h
    rw [evict]
    split at h
    next ho =>
      rw [if_pos ho]
      split at h
      next => exact ih h
      next => cases h
    next ho =>
      rw [if_neg ho]
      exact Option.some.inj h

theorem append_eq_of_checked {sb sb' : Scrollback} {bytes : Bytes}
    (h : sb.appendChecked bytes = some sb') : sb.append bytes = sb' := by
  unfold appendChecked at h
  unfold append
  split at h
  next he => rw [if_pos he]; exact Option.some.inj h
  next he =>
    obtain ⟨kept, hkept, rfl⟩ := Option.map_eq_some_iff.mp h
    rw [if_neg he, evict_eq_of_checked hkept]

/-- The buffer after the chunks of `log`. -/
def after (capacity : Nat) (log : List Bytes) : Scrollback where
  chunks := fitting capacity (log.filter (· ≠ []))
  totalBytes := (fitting capacity (log.filter (· ≠ []))).flatten.length
  capacity := capacity

theorem after_append (capacity : Nat) (log : List Bytes) (bytes : Bytes) :
    (after capacity log).appendChecked bytes = some (after capacity (log ++ [bytes])) := by
  unfold appendChecked
  by_cases h : bytes = []
  · rw [if_pos (List.isEmpty_iff.mpr h)]
    simp [after, h]
  · have hlength : ∀ chunks : List Bytes,
        chunks.flatten.length + bytes.length = (chunks ++ [bytes]).flatten.length := by
      intro chunks
      simp
    have hlog : (log ++ [bytes]).filter (· ≠ []) = log.filter (· ≠ []) ++ [bytes] := by
      rw [List.filter_append, List.filter_cons_of_pos (by simpa using h), List.filter_nil]
    rw [if_neg (by simpa using h)]
    simp only [after]
    rw [hlength, evictChecked_eq, fitting_append, hlog]
    rfl

theorem foldlM_appendChecked (capacity : Nat) (done log : List Bytes) :
    log.foldlM appendChecked (after capacity done) = some (after capacity (done ++ log)) := by
  induction log generalizing done with
  | nil => rw [List.append_nil]; rfl
  | cons bytes log ih =>
    rw [List.foldlM_cons, after_append, Option.bind_eq_bind, Option.bind_some, ih,
      List.append_assoc]
    rfl

theorem foldl_append_eq {sb sb' : Scrollback} {log : List Bytes}
    (h : log.foldlM appendChecked sb = some sb') : log.foldl append sb = sb' := by
  induction log generalizing sb with
  | nil => exact Option.some.inj h
  | cons bytes log ih =>
    obtain ⟨next, hnext, hrest⟩ := Option.bind_eq_some_iff.mp h
    rw [List.foldl_cons, append_eq_of_checked hnext]
    exact ih hrest

end Scrollback

namespace RemoteScrollback

/-- The remote buffer with the contents of a local one. -/
def ofLocal (sb : Scrollback) : RemoteScrollback := ⟨sb.chunks, sb.totalBytes, sb.capacity⟩

theorem dropOldest_eq (chunks held : List Bytes) (total capacity : Nat) :
    dropOldest ⟨held, total, capacity⟩ chunks =
      (Scrollback.evictChecked capacity chunks total).map fun kept => ⟨kept.1, kept.2, capacity⟩ := by
  induction chunks generalizing total with
  | nil => rfl
  | cons dropped chunks ih =>
    rw [dropOldest, Scrollback.evictChecked]
    by_cases h : total ≤ capacity
    · rw [if_pos h, if_neg (Nat.not_lt.mpr h)]
      rfl
    · rw [if_neg h, if_pos (Nat.not_le.mp h)]
      by_cases hl : dropped.length ≤ total
      · rw [if_neg (Nat.not_lt.mpr hl), if_pos hl]
        exact ih (total - dropped.length)
      · rw [if_pos (Nat.not_le.mp hl), if_neg hl]
        rfl

theorem append_ofLocal (sb : Scrollback) (bytes : Bytes) :
    (ofLocal sb).append bytes = (sb.appendChecked bytes).map ofLocal := by
  unfold append Scrollback.appendChecked
  by_cases h : bytes = []
  · rw [if_pos h, if_pos (List.isEmpty_iff.mpr h)]
    rfl
  · rw [if_neg h, if_neg (by simpa using h), Option.map_map]
    exact dropOldest_eq ..

theorem foldlM_ofLocal (sb : Scrollback) (log : List Bytes) :
    log.foldlM append (ofLocal sb) = (log.foldlM Scrollback.appendChecked sb).map ofLocal := by
  induction log generalizing sb with
  | nil => rfl
  | cons bytes log ih =>
    rw [List.foldlM_cons, List.foldlM_cons, append_ofLocal]
    cases sb.appendChecked bytes with
    | none => rfl
    | some next => exact ih next

theorem snapshot_ofLocal (sb : Scrollback) : (ofLocal sb).snapshot = sb.snapshot := by
  have hfold : sb.chunks.foldl (· ++ ·) [] = sb.chunks.flatten := by
    have happend : sb.chunks.foldl (fun log chunk => log ++ id chunk) [] =
        [] ++ (sb.chunks.map id).flatten := List.foldl_append_eq_append
    rwa [List.nil_append, List.map_id] at happend
  unfold snapshot Scrollback.snapshot
  split
  next h => rw [show sb.chunks = [] from h]; rfl
  next => exact hfold

end RemoteScrollback

/-- On every sequence of chunks both buffers count the bytes they hold, stay within their capacity
and show the longest run of the last chunks that fits. -/
theorem scrollback_ring (capacity : Nat) (log : List Bytes) :
    ∃ sb remote, log.foldlM Scrollback.appendChecked (.empty capacity) = some sb ∧
      log.foldl Scrollback.append (.empty capacity) = sb ∧
      log.foldlM RemoteScrollback.append (.empty capacity) = some remote ∧
      (sb.totalBytes = sb.chunks.flatten.length ∧ sb.totalBytes ≤ capacity) ∧
      (remote.totalBytes = remote.chunks.flatten.length ∧ remote.totalBytes ≤ capacity) ∧
      remote.chunks = sb.chunks ∧ remote.snapshot = sb.snapshot ∧
      ∃ kept, LongestFitting capacity log kept ∧ sb.snapshot = kept.flatten := by
  have hlocal : log.foldlM Scrollback.appendChecked (.empty capacity) =
      some (.after capacity log) := Scrollback.foldlM_appendChecked capacity [] log
  have hremote : log.foldlM RemoteScrollback.append (.empty capacity) =
      some (.ofLocal (.after capacity log)) := by
    have hfold := RemoteScrollback.foldlM_ofLocal (.empty capacity) log
    rw [hlocal] at hfold
    exact hfold
  exact ⟨_, _, hlocal, Scrollback.foldl_append_eq hlocal, hremote, ⟨rfl, fitting_fits⟩,
    ⟨rfl, fitting_fits⟩, rfl, RemoteScrollback.snapshot_ofLocal _, fitting capacity log,
    fitting_longest, fitting_filter_flatten⟩

end Tepegoz
