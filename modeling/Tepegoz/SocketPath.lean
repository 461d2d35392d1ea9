import Mathlib.Logic.Function.Basic
import Tepegoz.Lib.Transition

namespace Tepegoz

open Transition

abbrev DaemonId := Nat

/-- The file that a socket path names: one left by a process that is gone, or the socket that a
daemon bound. -/
inductive SocketFile
  | stale
  | boundBy (d : DaemonId)
  deriving DecidableEq

inductive StartError
  | alreadyRunning
  | evict
  | bind
  | permissions
  deriving DecidableEq

/-- Where a daemon is in `run_daemon_with_resolver`, by its next step: the check that the path
exists, the connect probe and the unlink of `evict_stale_socket`, the two halves of
`UnixListener::bind`, `set_socket_perms`, the loop, and the unlink at its end. -/
inductive DaemonPhase
  | checking
  | connecting
  | evicting
  | binding
  | bound
  | listening
  | serving
  | closing
  | stopped
  | failed (error : StartError)
  deriving DecidableEq

namespace DaemonPhase

def accepts : DaemonPhase → Bool
  | .listening | .serving => true
  | _ => false

/-- Past start-up and not yet shut down. Whether the shutdown lasts until the path is unlinked, or is
over when the listener is dropped, is `untilUnlink`. -/
def up (untilUnlink : Bool) : DaemonPhase → Bool
  | .listening | .serving => true
  | .closing => untilUnlink
  | _ => false

/-- The same from the bind on. -/
def holds (untilUnlink : Bool) (phase : DaemonPhase) : Bool :=
  phase = .bound || phase.up untilUnlink

def unlinks : DaemonPhase → Bool
  | .evicting | .closing => true
  | _ => false

end DaemonPhase

/-- The daemons that are started on one socket path. -/
structure SocketPath where
  path : Option SocketFile
  phase : DaemonId → DaemonPhase

namespace SocketPath

def initial (path : Option SocketFile) : SocketPath := ⟨path, fun _ => .checking⟩

def setPhase (s : SocketPath) (d : DaemonId) (phase : DaemonPhase) : SocketPath :=
  { s with phase := Function.update s.phase d phase }

/-- A connect to the path succeeds. -/
def accepting (s : SocketPath) : Bool :=
  match s.path with
  | some (.boundBy d) => (s.phase d).accepts
  | _ => false

def step (s : SocketPath) (d : DaemonId) : Option SocketPath :=
  match s.phase d with
  | .checking => some (s.setPhase d (if s.path.isSome then .connecting else .binding))
  | .connecting => some (s.setPhase d (if s.accepting then .failed .alreadyRunning else .evicting))
  | .evicting =>
    if s.path.isSome then some ({ s with path := none }.setPhase d .binding)
    else some (s.setPhase d (.failed .evict))
  | .binding =>
    if s.path.isSome then some (s.setPhase d (.failed .bind))
    else some ({ s with path := some (.boundBy d) }.setPhase d .bound)
  | .bound => some (s.setPhase d .listening)
  | .listening =>
    some (s.setPhase d (if s.path.isSome then .serving else .failed .permissions))
  | .serving => some (s.setPhase d .closing)
  -- The result of this unlink is ignored.
  | .closing => some ({ s with path := none }.setPhase d .stopped)
  | .stopped | .failed _ => none

/-- At most one daemon is up, and the path names its socket. -/
structure OneDaemon (untilUnlink : Bool) (s : SocketPath) : Prop where
  one : ∀ d d', (s.phase d).up untilUnlink = true → (s.phase d').up untilUnlink = true → d = d'
  own : ∀ d, (s.phase d).up untilUnlink = true → s.path = some (.boundBy d)

/-- A daemon unlinks the path only while no other holds it. -/
def UnlinksAlone (untilUnlink : Bool) (s : SocketPath) (d : DaemonId) : Prop :=
  (s.phase d).unlinks = true → ∀ d' ≠ d, (s.phase d').holds untilUnlink = false

end SocketPath

def socketPath (path : Option SocketFile) : System SocketPath DaemonId Empty :=
  .silent (· = .initial path) SocketPath.step

namespace SocketPath

variable {untilUnlink : Bool} {s s' : SocketPath} {d : DaemonId}

theorem phase_setPhase_same (s : SocketPath) (d : DaemonId) (phase : DaemonPhase) :
    (s.setPhase d phase).phase d = phase := Function.update_self ..

theorem phase_setPhase_other {d' : DaemonId} (h : d' ≠ d) (s : SocketPath) (phase : DaemonPhase) :
    (s.setPhase d phase).phase d' = s.phase d' := Function.update_of_ne h ..

/-- What a step does to the path and to the daemon that takes it. -/
inductive StepEffect (s : SocketPath) (d : DaemonId) (s' : SocketPath) : Prop
  | unlinked : (s.phase d).unlinks = true → s'.path = none → (∀ b, (s'.phase d).holds b = false) →
      StepEffect s d s'
  | bound : (s.phase d) = .binding → s.path = none → s'.path = some (.boundBy d) →
      s'.phase d = .bound → StepEffect s d s'
  | listened : s.phase d = .bound → s'.path = s.path → s'.phase d = .listening → StepEffect s d s'
  | kept : s.phase d ≠ .bound → s'.path = s.path → s'.phase d ≠ .bound →
      (∀ b, (s'.phase d).up b = true → (s.phase d).up b = true) →
      ((s.phase d).unlinks = true → s.path = none) → StepEffect s d s'

theorem StepEffect.kept_setPhase {phase : DaemonPhase} (hp : s.phase d ≠ .bound)
    (hnext : phase ≠ .bound) (hup : ∀ b, phase.up b = true → (s.phase d).up b = true)
    (hgone : (s.phase d).unlinks = true → s.path = none) : StepEffect s d (s.setPhase d phase) :=
  .kept hp rfl (by rwa [phase_setPhase_same]) (by rwa [phase_setPhase_same]) hgone

theorem StepEffect.unlinked_setPhase {phase : DaemonPhase} (hp : (s.phase d).unlinks = true)
    (hnext : ∀ b, phase.holds b = false) :
    StepEffect s d ({ s with path := none }.setPhase d phase) :=
  .unlinked hp rfl (by rwa [phase_setPhase_same])

theorem stepEffect (h : s.step d = some s') :
    StepEffect s d s' ∧ ∀ d' ≠ d, s'.phase d' = s.phase d' := by
  unfold step at h
  split at h
  next hp =>
    cases h
    refine ⟨.kept_setPhase (by simp [hp]) ?_ ?_ (by simp [hp, DaemonPhase.unlinks]),
      fun d' hd => phase_setPhase_other hd ..⟩
    all_goals split <;> simp [DaemonPhase.up]
  next hp =>
    cases h
    refine ⟨.kept_setPhase (by simp [hp]) ?_ ?_ (by simp [hp, DaemonPhase.unlinks]),
      fun d' hd => phase_setPhase_other hd ..⟩
    all_goals split <;> simp [DaemonPhase.up]
  next hp =>
    split at h
    next =>
      cases h
      refine ⟨.unlinked_setPhase (by simp [hp, DaemonPhase.unlinks]) ?_,
        fun d' hd => phase_setPhase_other hd ..⟩
      simp [DaemonPhase.holds, DaemonPhase.up]
    next hnone =>
      cases h
      refine ⟨.kept_setPhase (by simp [hp]) ?_ ?_ fun _ => Option.not_isSome_iff_eq_none.mp hnone,
        fun d' hd => phase_setPhase_other hd ..⟩
      all_goals simp [DaemonPhase.up]
  next hp =>
    split at h
    next =>
      cases h
      refine ⟨.kept_setPhase (by simp [hp]) ?_ ?_ (by simp [hp, DaemonPhase.unlinks]),
        fun d' hd => phase_setPhase_other hd ..⟩
      all_goals simp [DaemonPhase.up]
    next hnone =>
      cases h
      exact ⟨.bound hp (Option.not_isSome_iff_eq_none.mp hnone) rfl (phase_setPhase_same ..),
        fun d' hd => phase_setPhase_other hd ..⟩
  next hp =>
    cases h
    exact ⟨.listened hp rfl (phase_setPhase_same ..), fun d' hd => phase_setPhase_other hd ..⟩
  next hp =>
    cases h
    refine ⟨.kept_setPhase (by simp [hp]) ?_ ?_ (by simp [hp, DaemonPhase.unlinks]),
      fun d' hd => phase_setPhase_other hd ..⟩
    all_goals split <;> simp [hp, DaemonPhase.up]
  next hp =>
    cases h
    refine ⟨.kept_setPhase (by simp [hp]) ?_ ?_ (by simp [hp, DaemonPhase.unlinks]),
      fun d' hd => phase_setPhase_other hd ..⟩
    all_goals simp [hp, DaemonPhase.up]
  next hp =>
    cases h
    refine ⟨.unlinked_setPhase (by simp [hp, DaemonPhase.unlinks]) ?_,
      fun d' hd => phase_setPhase_other hd ..⟩
    simp [DaemonPhase.holds, DaemonPhase.up]
  next => cases h
  next => cases h

/-- Every daemon that holds the path finds its own socket under it. -/
def Held (untilUnlink : Bool) (s : SocketPath) : Prop :=
  ∀ d, (s.phase d).holds untilUnlink = true → s.path = some (.boundBy d)

theorem Held.oneDaemon (h : s.Held untilUnlink) : s.OneDaemon untilUnlink := by
  have hown : ∀ d, (s.phase d).up untilUnlink = true → s.path = some (.boundBy d) := by
    intro d hd
    exact h d (by simp [DaemonPhase.holds, hd])
  constructor
  · intro d d' hd hd'
    have heq := (hown d hd).symm.trans (hown d' hd')
    cases heq
    rfl
  · exact hown

theorem held_step (hh : s.Held untilUnlink) (ha : s.UnlinksAlone untilUnlink d)
    (h : s.step d = some s') : s'.Held untilUnlink := by
  obtain ⟨heffect, hother⟩ := stepEffect h
  intro d' hd'
  by_cases hd : d' = d
  · subst hd
    cases heffect with
    | unlinked _ _ hfree => simp [hfree] at hd'
    | bound _ _ hpath => exact hpath
    | listened hb hpath =>
      rw [hpath]
      exact hh d' (by simp [DaemonPhase.holds, hb])
    | kept hb hpath hb' hup _ =>
      rw [hpath]
      refine hh d' ?_
      simp only [DaemonPhase.holds, hb', decide_false, Bool.false_or] at hd'
      simp [DaemonPhase.holds, hup _ hd']
  · rw [hother d' hd] at hd'
    cases heffect with
    | unlinked hu => simp [ha hu d' hd] at hd'
    | bound _ hnone =>
      have hpath := hh d' hd'
      simp [hnone] at hpath
    | listened _ hpath => rw [hpath, hh d' hd']
    | kept _ hpath => rw [hpath, hh d' hd']

/-- A daemon is about to listen on a socket that the path does not name any more. -/
def Doomed (s : SocketPath) : Prop := ∃ d, s.phase d = .bound ∧ s.path ≠ some (.boundBy d)

theorem doomed_step (hd : s.Doomed) (h : s.step d = some s') (hone : s'.OneDaemon untilUnlink) :
    s'.Doomed := by
  obtain ⟨lost, hlost, hpath⟩ := hd
  obtain ⟨heffect, hother⟩ := stepEffect h
  by_cases hd : lost = d
  · subst hd
    cases heffect with
    | unlinked hu => simp [hlost, DaemonPhase.unlinks] at hu
    | bound hb => simp [hlost] at hb
    | listened _ hpath' hl =>
      have hown := hone.own lost (by simp [hl, DaemonPhase.up])
      rw [hpath'] at hown
      exact absurd hown hpath
    | kept hb => exact absurd hlost hb
  · refine ⟨lost, by rw [hother lost hd, hlost], ?_⟩
    cases heffect with
    | unlinked _ hnone => simp [hnone]
    | bound _ _ hpath' =>
      rw [hpath']
      intro heq
      cases heq
      exact hd rfl
    | listened _ hpath' => rwa [hpath']
    | kept _ hpath' => rwa [hpath']

theorem doomed_of_unlink (ha : ¬ s.UnlinksAlone untilUnlink d) (h : s.step d = some s')
    (hone : s'.OneDaemon untilUnlink) : s'.Doomed := by
  simp only [UnlinksAlone, Classical.not_imp, not_forall] at ha
  obtain ⟨hu, lost, hd, hholds⟩ := ha
  obtain ⟨heffect, hother⟩ := stepEffect h
  have hnone : s'.path = none := by
    cases heffect with
    | unlinked _ hnone => exact hnone
    | bound hb => simp [hb, DaemonPhase.unlinks] at hu
    | listened hb => simp [hb, DaemonPhase.unlinks] at hu
    | kept _ hpath _ _ hgone => rw [hpath, hgone hu]
  have hphase := hother lost hd
  by_cases hb : s.phase lost = .bound
  · exact ⟨lost, by rw [hphase, hb], by simp [hnone]⟩
  · have hup : (s'.phase lost).up untilUnlink = true := by
      rw [hphase]
      simpa [DaemonPhase.holds, hb] using hholds
    have hown := hone.own lost hup
    simp [hnone] at hown

end SocketPath

/-- Wherever the daemons pass through, at most one is up and reachable under the path, if no step
unlinks the path while another daemon holds it, and, unless a daemon is left between its bind and its
listen, only then. Nothing in the code sees to that: between the probe of a socket and its unlink
another daemon may have replaced it, and the unlink at the end does not look whose socket it
removes. -/
theorem one_daemon (untilUnlink : Bool) (path : Option SocketFile) (steps : List DaemonId)
    (t : SocketPath) (h : (socketPath path).replay Free [] (.initial path) steps = some ([], t)) :
    ((socketPath path).EachStep (SocketPath.UnlinksAlone untilUnlink) (.initial path) steps →
      (socketPath path).Always (SocketPath.OneDaemon untilUnlink) (.initial path) steps) ∧
    ((∀ d, t.phase d ≠ .bound) →
      (socketPath path).Always (SocketPath.OneDaemon untilUnlink) (.initial path) steps →
        (socketPath path).EachStep (SocketPath.UnlinksAlone untilUnlink) (.initial path) steps) := by
  constructor
  · intro hsteps
    have hstart : (SocketPath.initial path).Held untilUnlink := by
      intro d hd
      cases hd
    have hheld := hsteps.always hstart fun _ _ _ _ hh ha hs =>
      SocketPath.held_step hh ha (System.silent_step.mp hs).1
    exact hheld.mono fun _ hh => hh.oneDaemon
  · intro hbound halways
    refine System.EachStep.of_always SocketPath.Doomed ?_ ?_ halways h ?_
    · intro _ _ _ _ hd hs hone
      exact SocketPath.doomed_step hd (System.silent_step.mp hs).1 hone
    · intro _ _ _ _ _ ha hs hone
      exact SocketPath.doomed_of_unlink ha (System.silent_step.mp hs).1 hone
    · rintro ⟨d, hd, -⟩
      exact hbound d hd

theorem one_daemon_restarted :
    (socketPath (some .stale)).Always (SocketPath.OneDaemon true) (.initial (some .stale))
        (List.replicate 8 0) ↔
      (socketPath (some .stale)).EachStep (SocketPath.UnlinksAlone true) (.initial (some .stale))
        (List.replicate 8 0) := by
  obtain ⟨henough, hneeded⟩ := one_daemon true (some .stale) (List.replicate 8 0) _ rfl
  refine ⟨hneeded ?_, henough⟩
  intro d
  by_cases hd : d = 0
  · subst hd
    decide
  · simp [SocketPath.initial, SocketPath.setPhase, hd]

/-- Two daemons probe the same stale socket; the second one then unlinks the socket of the first. -/
theorem both_daemons_listen :
    ∃ steps t, (socketPath (some .stale)).replay Free [] (.initial (some .stale)) steps =
        some ([], t) ∧
      t.phase 0 = .listening ∧ t.phase 1 = .listening ∧ t.path = some (.boundBy 1) ∧
      ¬ (socketPath (some .stale)).Always (SocketPath.OneDaemon true) (.initial (some .stale)) steps ∧
      ¬ (socketPath (some .stale)).Always (SocketPath.OneDaemon false) (.initial (some .stale))
        steps := by
  have hplay : (socketPath (some .stale)).replay Free [] (.initial (some .stale))
      [0, 1, 0, 1, 0, 0, 0, 1, 1, 1] = some ([], _) := rfl
  refine ⟨_, _, hplay, rfl, rfl, rfl, ?_, ?_⟩
  · intro h
    exact absurd ((h.last hplay).one 0 1 (by decide) (by decide)) (by decide)
  · intro h
    exact absurd ((h.last hplay).one 0 1 (by decide) (by decide)) (by decide)

end Tepegoz
