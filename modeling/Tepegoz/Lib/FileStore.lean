import Mathlib.Data.List.Basic
import Mathlib.Logic.Function.Basic
import Mathlib.Tactic.Common

namespace FileStore

structure Inode where
  bytes : List UInt8
  executable : Bool

/-- Files under their names, without hard links. A file that is open stays reachable by its inode. -/
structure Store where
  dirs : String → Bool
  names : String → Option Nat
  inodes : Nat → Inode
  fresh : Nat
  names_inj : ∀ {p q i}, names p = some i → names q = some i → p = q
  names_lt : ∀ {p i}, names p = some i → i < fresh

namespace Store

def empty : Store := ⟨fun _ => false, fun _ => none, fun _ => ⟨[], false⟩, 0, nofun, nofun⟩

def read (s : Store) (path : String) : Option (List UInt8) :=
  (s.names path).map fun i => (s.inodes i).bytes

def makeDir (s : Store) (dir : String) : Store := { s with dirs := Function.update s.dirs dir true }

def setInode (s : Store) (i : Nat) (inode : Inode) : Store :=
  { s with inodes := Function.update s.inodes i inode }

def create (s : Store) (path : String) : Store where
  dirs := s.dirs
  names := Function.update s.names path (some s.fresh)
  inodes := Function.update s.inodes s.fresh ⟨[], false⟩
  fresh := s.fresh + 1
  names_inj := by
    intro p q i hp hq
    simp only [Function.update_apply] at hp hq
    split at hp <;> split at hq
    · rename_i hp' hq'; rw [hp', hq']
    · cases hp; exact absurd (s.names_lt hq) (Nat.lt_irrefl _)
    · cases hq; exact absurd (s.names_lt hp) (Nat.lt_irrefl _)
    · exact s.names_inj hp hq
  names_lt := by
    intro p i hp
    simp only [Function.update_apply] at hp
    split at hp
    · cases hp; exact Nat.lt_succ_self _
    · exact Nat.lt_succ_of_lt (s.names_lt hp)

def remove (s : Store) (path : String) : Store where
  dirs := s.dirs
  names := Function.update s.names path none
  inodes := s.inodes
  fresh := s.fresh
  names_inj := by
    intro p q i hp hq
    simp only [Function.update_apply] at hp hq
    split at hp <;> split at hq
    · cases hp
    · cases hp
    · cases hq
    · exact s.names_inj hp hq
  names_lt := by
    intro p i hp
    simp only [Function.update_apply] at hp
    split at hp
    · cases hp
    · exact s.names_lt hp

/-- Open for writing; a file that is there is truncated. Gives the inode that is open. -/
def openTruncated (s : Store) (dir path : String) : Option (Store × Nat) :=
  if s.dirs dir then
    match s.names path with
    | some i => some (s.setInode i { s.inodes i with bytes := [] }, i)
    | none => some (s.create path, s.fresh)
  else none

/-- A write past the end leaves zeros before it. -/
def overwrite (old : List UInt8) (offset : Nat) (chunk : List UInt8) : List UInt8 :=
  old.take offset ++ List.replicate (offset - old.length) 0 ++ chunk ++
    old.drop (offset + chunk.length)

def writeAt (s : Store) (i offset : Nat) (chunk : List UInt8) : Store :=
  s.setInode i { s.inodes i with bytes := overwrite (s.inodes i).bytes offset chunk }

def link (s : Store) (path : String) (i : Nat) (unnamed : ∀ p, s.names p ≠ some i)
    (old : i < s.fresh) : Store where
  dirs := s.dirs
  names := Function.update s.names path (some i)
  inodes := s.inodes
  fresh := s.fresh
  names_inj := by
    intro p q j hp hq
    simp only [Function.update_apply] at hp hq
    split at hp <;> split at hq
    · rename_i hp' hq'; rw [hp', hq']
    · cases hp; exact absurd hq (unnamed q)
    · cases hq; exact absurd hp (unnamed p)
    · exact s.names_inj hp hq
  names_lt := by
    intro p j hp
    simp only [Function.update_apply] at hp
    split at hp
    · cases hp; exact old
    · exact s.names_lt hp

theorem remove_unnamed {s : Store} {src : String} {i : Nat} (h : s.names src = some i) (p : String) :
    (s.remove src).names p ≠ some i := by
  intro hp
  simp only [remove, Function.update_apply] at hp
  split at hp
  · cases hp
  next hne => exact hne (s.names_inj hp h)

/-- `dst` names what `src` named, and `src` is gone. -/
def rename (s : Store) (src dst : String) : Option Store :=
  match h : s.names src with
  | some i => some ((s.remove src).link dst i (remove_unnamed h) (s.names_lt h))
  | none => none

def makeExecutable (s : Store) (path : String) : Option Store :=
  (s.names path).map fun i => s.setInode i { s.inodes i with executable := true }

def stat (s : Store) (path : String) : Option Inode := (s.names path).map s.inodes

section Rules

variable {s s' : Store} {path p dir : String} {i offset : Nat} {chunk : List UInt8}

@[simp] theorem read_makeDir : (s.makeDir dir).read p = s.read p := rfl

@[simp] theorem names_makeDir : (s.makeDir dir).names p = s.names p := rfl

@[simp] theorem dirs_makeDir : (s.makeDir dir).dirs dir = true := Function.update_self ..

theorem dirs_makeDir_mono {d : String} (h : s.dirs d = true) : (s.makeDir dir).dirs d = true := by
  by_cases hd : d = dir
  · rw [hd, dirs_makeDir]
  · show Function.update s.dirs dir true d = true
    rwa [Function.update_of_ne hd]

theorem read_eq_stat (s : Store) (p : String) : s.read p = (s.stat p).map Inode.bytes :=
  Option.map_map .. |>.symm

theorem stat_setInode_of_ne {inode : Inode} (h : s.names p ≠ some i) :
    (s.setInode i inode).stat p = s.stat p := by
  unfold stat
  cases hp : s.names p with
  | none => simp [setInode, hp]
  | some j =>
    have hj : j ≠ i := by
      rintro rfl
      exact h hp
    simp [setInode, hp, Function.update_of_ne hj]

theorem stat_setInode {inode : Inode} (h : s.names p = some i) :
    (s.setInode i inode).stat p = some inode := by
  simp [stat, setInode, h]

theorem read_setInode_of_ne {inode : Inode} (h : s.names p ≠ some i) :
    (s.setInode i inode).read p = s.read p := by
  rw [read_eq_stat, stat_setInode_of_ne h, read_eq_stat]

theorem read_setInode {inode : Inode} (h : s.names p = some i) :
    (s.setInode i inode).read p = some inode.bytes := by
  rw [read_eq_stat, stat_setInode h, Option.map_some]

theorem stat_create_of_ne (h : p ≠ path) : (s.create path).stat p = s.stat p := by
  unfold stat
  cases hp : s.names p with
  | none => simp [create, Function.update_of_ne h, hp]
  | some j =>
    have hj : j ≠ s.fresh := Nat.ne_of_lt (s.names_lt hp)
    simp [create, Function.update_of_ne h, Function.update_of_ne hj, hp]

/-- Opening a file for writing leaves the others as they are. -/
theorem stat_openTruncated (h : s.openTruncated dir path = some (s', i)) (hp : p ≠ path) :
    s'.stat p = s.stat p := by
  unfold openTruncated at h
  split at h
  next =>
    split at h
    next j hj =>
      cases h
      refine stat_setInode_of_ne ?_
      intro hpi
      exact hp (s.names_inj hpi hj)
    next =>
      cases h
      exact stat_create_of_ne hp
  next => cases h

/-- Opening a file for writing empties it and touches no other. -/
theorem openTruncated_spec (h : s.openTruncated dir path = some (s', i)) :
    s'.dirs = s.dirs ∧ s'.names path = some i ∧ s'.read path = some [] ∧
      ∀ p ≠ path, s'.read p = s.read p := by
  have hothers : ∀ p ≠ path, s'.read p = s.read p := by
    intro p hp
    rw [read_eq_stat, stat_openTruncated h hp, read_eq_stat]
  unfold openTruncated at h
  split at h
  next =>
    split at h
    next j hj => cases h; exact ⟨rfl, hj, read_setInode hj, hothers⟩
    next => cases h; exact ⟨rfl, by simp [create], by simp [read, create], hothers⟩
  next => cases h

theorem openTruncated_exists (path : String) (h : s.dirs dir = true) :
    ∃ s' i, s.openTruncated dir path = some (s', i) := by
  unfold openTruncated
  rw [if_pos h]
  split
  · exact ⟨_, _, rfl⟩
  · exact ⟨_, _, rfl⟩

@[simp] theorem names_writeAt : (s.writeAt i offset chunk).names = s.names := rfl

@[simp] theorem dirs_writeAt : (s.writeAt i offset chunk).dirs = s.dirs := rfl

theorem read_writeAt_of_ne (h : s.names p ≠ some i) :
    (s.writeAt i offset chunk).read p = s.read p := read_setInode_of_ne h

/-- A file that is written front to back holds what was written so far. -/
theorem read_writeAt_next {data : List UInt8} {n : Nat} (hp : s.names p = some i)
    (hr : s.read p = some (data.take offset)) (hn : offset + n ≤ data.length) :
    (s.writeAt i offset ((data.drop offset).take n)).read p = some (data.take (offset + n)) := by
  have hbytes : (s.inodes i).bytes = data.take offset := by simpa [read, hp] using hr
  have hlen : (data.take offset).length = offset := by
    rw [List.length_take]
    omega
  have hdrop : (data.take offset).drop (offset + ((data.drop offset).take n).length) = [] := by
    rw [List.drop_eq_nil_iff]
    omega
  rw [writeAt, read_setInode hp, hbytes, overwrite, hdrop, hlen, List.take_take]
  simp [List.take_add]

theorem rename_of_none (h : s.names path = none) (dst : String) : s.rename path dst = none := by
  unfold rename
  split
  next hi => simp [h] at hi
  next => rfl

theorem rename_spec {dst : String} (hne : path ≠ dst) (h : s.rename path dst = some s') :
    s'.dirs = s.dirs ∧ s'.names path = none ∧ s'.read dst = s.read path := by
  unfold rename at h
  split at h
  next j hj =>
    cases h
    refine ⟨rfl, ?_, ?_⟩
    · simp [link, remove, Function.update_of_ne hne]
    · simp [read, link, remove, hj]
  next => cases h

theorem rename_exists (dst : String) (h : s.names path = some i) :
    ∃ s', s.rename path dst = some s' := by
  unfold rename
  split
  next => exact ⟨_, rfl⟩
  next hnone => simp [h] at hnone

/-- Only the mode of the file changes. -/
theorem makeExecutable_spec (h : s.makeExecutable path = some s') :
    s'.dirs = s.dirs ∧ s'.names = s.names ∧ s'.read = s.read := by
  obtain ⟨i, hi, rfl⟩ := Option.map_eq_some_iff.mp h
  refine ⟨rfl, rfl, ?_⟩
  funext p
  by_cases hp : s.names p = some i
  · rw [read_setInode hp]
    simp [read, hp]
  · exact read_setInode_of_ne hp

theorem stat_makeExecutable (h : s.makeExecutable path = some s') :
    ∃ inode, s'.stat path = some inode ∧ inode.executable = true := by
  obtain ⟨i, hi, rfl⟩ := Option.map_eq_some_iff.mp h
  exact ⟨_, stat_setInode hi, rfl⟩

theorem makeExecutable_exists {bytes : List UInt8} (h : s.read path = some bytes) :
    ∃ s', s.makeExecutable path = some s' := by
  obtain ⟨i, hi, -⟩ := Option.map_eq_some_iff.mp h
  exact ⟨_, by rw [makeExecutable, hi]; rfl⟩

end Rules

end Store

end FileStore
