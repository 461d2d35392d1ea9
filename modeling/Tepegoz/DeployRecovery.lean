import Tepegoz.DeployAgent

namespace Tepegoz

open FileStore Transition

/-- Calls of `deploy_agent` one after the other, each in a process of its own. -/
structure Redeploy where
  store : Store
  pid : Nat
  phase : DeployPhase

inductive RedeployAct
  | step (chunk : Nat)
  | restart (pid : Nat)

def DeployPhase.renamed : DeployPhase → Bool
  | .chmod _ => true
  | _ => false

/-- A call that has not begun an upload, and one that has returned. -/
def DeployPhase.resting : DeployPhase → Bool
  | .inspect | .inspectHash | .returned _ => true
  | _ => false

namespace Deployment

variable (d : Deployment)

def inProcess (pid : Nat) : Deployment := { d with pid := pid }

def Executable (store : Store) : Prop :=
  ∃ inode, store.stat d.remotePath = some inode ∧ inode.executable = true

/-- The cache hit takes this file for a deployed agent, and it cannot run. -/
def Stuck (store : Store) : Prop := d.remoteHash store = some d.localHash ∧ ¬ d.Executable store

end Deployment

namespace Redeploy

variable (d : Deployment) (s : Redeploy)

def start (store : Store) (pid : Nat) : Redeploy := ⟨store, pid, .inspect⟩

/-- A new call begins when the last one has returned or was cut off where it stands. -/
def next : RedeployAct → Option Redeploy
  | .step chunk =>
    ((d.inProcess s.pid).callStep s.store s.phase chunk).map fun r => ⟨r.1, s.pid, r.2⟩
  | .restart pid => some (start s.store pid)

/-- No call is cut off between its `mv` and its `chmod`, unless the file can run already. -/
def WholeFinalize : RedeployAct → Prop
  | .step _ => True
  | .restart _ => s.phase.renamed = true → d.Executable s.store

end Redeploy

def redeploys (d : Deployment) (store : Store) (pid : Nat) : System Redeploy RedeployAct Empty :=
  .silent (· = .start store pid) (Redeploy.next d)

namespace Deployment

variable {d : Deployment} {store store' : Store} {phase phase' : DeployPhase} {chunk : Nat}

/-- Up to its `mv` a call leaves the agent file as it is. -/
theorem stat_step (hf : d.Fit store phase) (hn : phase'.renamed = false)
    (hp : phase.renamed = false) (h : d.callStep store phase chunk = some (store', phase')) :
    store'.stat d.remotePath = store.stat d.remotePath := by
  cases phase with
  | inspect => cases h; rfl
  | inspectHash =>
    simp only [callStep] at h
    split at h
    all_goals cases h; rfl
  | mkdir retry => cases h; rfl
  | cat retry =>
    cases retry with
    | true => exact hf.elim
    | false =>
      obtain ⟨i, ho, rfl⟩ := callStep_cat hf h
      exact Store.stat_openTruncated ho tmpPath_ne.symm
  | writing retry i offset =>
    cases retry with
    | true => exact hf.elim
    | false =>
      obtain ⟨-, rfl, rfl⟩ | ⟨-, -, rfl, rfl⟩ := callStep_writing h
      · rfl
      · exact Store.stat_setInode_of_ne (names_remotePath_ne hf.1)
  | mv retry =>
    cases retry with
    | true => exact hf.elim
    | false =>
      obtain ⟨-, rfl⟩ := callStep_mv hf h
      cases hn
  | chmod retry => cases hp
  | verify retry =>
    simp only [callStep] at h
    split at h
    all_goals cases h; rfl
  | returned outcome => cases h

theorem chmod_step {retry : Bool} (hf : d.Fit store (.chmod retry))
    (h : d.callStep store (.chmod retry) chunk = some (store', phase')) : d.Executable store' := by
  cases retry with
  | true => exact hf.elim
  | false =>
    obtain ⟨bytes, hbytes⟩ := read_of_remoteHash hf
    obtain ⟨made, hm⟩ := Store.makeExecutable_exists hbytes
    simp only [callStep, hm] at h
    cases h
    exact Store.stat_makeExecutable hm

theorem Stuck.of_stat (hs : store'.stat d.remotePath = store.stat d.remotePath)
    (h : d.Stuck store') : d.Stuck store := by
  have hhash : d.remoteHash store' = d.remoteHash store := by
    rw [remoteHash, remoteHash, Store.read_eq_stat, Store.read_eq_stat, hs]
  obtain ⟨hright, hexec⟩ := h
  rw [hhash] at hright
  rw [Executable, hs] at hexec
  exact ⟨hright, hexec⟩

theorem executable_iff (h : d.remoteHash store = some d.localHash) :
    d.Executable store ↔ ¬ d.Stuck store := by
  simp [Stuck, h]

/-- A step leaves a stuck file behind only with `mv`. -/
theorem not_stuck_step (hf : d.Fit store phase)
    (hs : phase.renamed = false → ¬ d.Stuck store)
    (h : d.callStep store phase chunk = some (store', phase')) :
    phase'.renamed = false → ¬ d.Stuck store' := by
  intro hn hstuck
  cases hp : phase.renamed with
  | false => exact hs hp (hstuck.of_stat (stat_step hf hn hp h))
  | true =>
    cases phase with
    | chmod retry => exact hstuck.2 (chmod_step hf h)
    | inspect | inspectHash | mkdir | cat | writing | mv | verify | returned => cases hp

/-- A stuck file is a cache hit for every call that looks at it. -/
theorem stuck_step (hs : d.Stuck store) (hr : phase.resting = true)
    (h : d.callStep store phase chunk = some (store', phase')) :
    d.Stuck store' ∧ phase'.resting = true := by
  obtain ⟨bytes, hbytes⟩ := read_of_remoteHash hs.1
  cases phase with
  | inspect =>
    obtain ⟨i, hi⟩ := names_of_read hbytes
    simp only [callStep, hi] at h
    cases h
    exact ⟨hs, rfl⟩
  | inspectHash =>
    simp only [callStep, hs.1, if_true] at h
    cases h
    exact ⟨hs, rfl⟩
  | returned outcome => cases h
  | mkdir | cat | writing | mv | chmod | verify => cases hr

end Deployment

namespace Redeploy

variable {d : Deployment} {s s' : Redeploy} {act : RedeployAct}

/-- The call at work finds what it has achieved, and no stuck file. -/
structure Sound (d : Deployment) (s : Redeploy) : Prop where
  fit : (d.inProcess s.pid).Fit s.store s.phase
  clear : s.phase.renamed = false → ¬ d.Stuck s.store

theorem fit_next (hf : (d.inProcess s.pid).Fit s.store s.phase) (h : s.next d act = some s') :
    (d.inProcess s'.pid).Fit s'.store s'.phase := by
  cases act with
  | step chunk =>
    obtain ⟨⟨store, phase⟩, hstep, rfl⟩ := Option.map_eq_some_iff.mp h
    exact Deployment.fit_step hf hstep
  | restart pid => cases h; trivial

theorem Sound.next (hs : s.Sound d) (hok : s.WholeFinalize d act) (h : s.next d act = some s') :
    s'.Sound d := by
  refine ⟨fit_next hs.fit h, ?_⟩
  cases act with
  | step chunk =>
    obtain ⟨⟨store, phase⟩, hstep, rfl⟩ := Option.map_eq_some_iff.mp h
    exact Deployment.not_stuck_step (d := d.inProcess s.pid) hs.fit hs.clear hstep
  | restart pid =>
    cases h
    intro _ hstuck
    cases hp : s.phase.renamed with
    | false => exact hs.clear hp hstuck
    | true => exact hstuck.2 (hok hp)

/-- Nothing gets a stuck file out of its place. -/
theorem stuck_next (hs : d.Stuck s.store ∧ s.phase.resting = true) (h : s.next d act = some s') :
    d.Stuck s'.store ∧ s'.phase.resting = true := by
  cases act with
  | step chunk =>
    obtain ⟨⟨store, phase⟩, hstep, rfl⟩ := Option.map_eq_some_iff.mp h
    exact Deployment.stuck_step (d := d.inProcess s.pid) hs.1 hs.2 hstep
  | restart pid => cases h; exact ⟨hs.1, rfl⟩

theorem stuck_of_cut (hf : (d.inProcess s.pid).Fit s.store s.phase) (hcut : ¬ s.WholeFinalize d act)
    (h : s.next d act = some s') : d.Stuck s'.store ∧ s'.phase.resting = true := by
  cases act with
  | step chunk => exact absurd trivial hcut
  | restart pid =>
    cases h
    obtain ⟨hp, hexec⟩ := Classical.not_imp.mp hcut
    refine ⟨⟨?_, hexec⟩, rfl⟩
    cases hphase : s.phase with
    | chmod retry =>
      rw [hphase] at hf
      cases retry with
      | true => exact hf.elim
      | false => exact hf
    | inspect | inspectHash | mkdir | cat | writing | mv | verify | returned =>
      rw [hphase] at hp
      cases hp

end Redeploy

/-- When the last of some calls returns `Ok` the agent file has the right hash. It is executable
exactly when the first call did not find it stuck and no call was cut off between its `mv` and its
`chmod`. -/
theorem interrupted_deploys (d : Deployment) (store : Store) (pid : Nat) (acts : List RedeployAct)
    (t : Redeploy) (deployedNow : Bool)
    (h : (redeploys d store pid).replay Free [] (.start store pid) acts = some ([], t))
    (hok : t.phase = .returned (.ok deployedNow)) :
    d.remoteHash t.store = some d.localHash ∧
      (d.Executable t.store ↔ ¬ d.Stuck store ∧
        (redeploys d store pid).EachStep (Redeploy.WholeFinalize d) (.start store pid) acts) := by
  have hfit : (redeploys d store pid).Always
      (fun s => (d.inProcess s.pid).Fit s.store s.phase) (.start store pid) acts :=
    .invariant trivial fun _ _ _ _ hf hs => Redeploy.fit_next hf (System.silent_step.mp hs).1
  have hhash : d.remoteHash t.store = some d.localHash := by
    have hlast := hfit.last h
    rw [hok] at hlast
    exact hlast.2
  refine ⟨hhash, ?_⟩
  constructor
  · intro hexec
    have hclear : ¬ (d.Stuck t.store ∧ t.phase.resting = true) := fun hs => hs.1.2 hexec
    refine ⟨fun hstuck => ?_, ?_⟩
    · have hbad : (redeploys d store pid).Always
          (fun s => d.Stuck s.store ∧ s.phase.resting = true) (.start store pid) acts :=
        .invariant ⟨hstuck, rfl⟩ fun _ _ _ _ hb hs =>
          Redeploy.stuck_next hb (System.silent_step.mp hs).1
      exact hclear (hbad.last h)
    · refine System.EachStep.of_always (fun s => d.Stuck s.store ∧ s.phase.resting = true)
        ?_ ?_ hfit h hclear
      · intro _ _ _ _ hb hs _
        exact Redeploy.stuck_next hb (System.silent_step.mp hs).1
      · intro _ _ _ _ hf hcut hs _
        exact Redeploy.stuck_of_cut hf hcut (System.silent_step.mp hs).1
  · rintro ⟨hstuck, hwhole⟩
    have hsound := hwhole.always (P := Redeploy.Sound d) ⟨trivial, fun _ => hstuck⟩
      fun _ _ _ _ hs hw hstep => hs.next hw (System.silent_step.mp hstep).1
    have hclear := (hsound.last h).clear (by rw [hok]; rfl)
    exact (Deployment.executable_iff hhash).mpr hclear

/-- A call in another process, after one that was cut off in the middle of its upload. -/
theorem interrupted_deploys_resumed : ∃ t : Redeploy,
    sampleDeployment.remoteHash t.store = some sampleDeployment.localHash ∧
      (sampleDeployment.Executable t.store ↔ ¬ sampleDeployment.Stuck .empty ∧
        (redeploys sampleDeployment .empty 77).EachStep (Redeploy.WholeFinalize sampleDeployment)
          (.start .empty 77) (List.replicate 4 (.step 1) ++ [.restart 78] ++
            List.replicate 8 (.step 2))) :=
  ⟨_, interrupted_deploys sampleDeployment .empty 77 _ _ true rfl rfl⟩

/-- The cache hit accepts what a call left that was cut off between `mv` and `chmod`. -/
theorem cut_before_chmod : ¬ ∀ (d : Deployment) (store : Store) (pid : Nat)
    (acts : List RedeployAct) (t : Redeploy) (deployedNow : Bool),
    (redeploys d store pid).replay Free [] (.start store pid) acts = some ([], t) →
    t.phase = .returned (.ok deployedNow) →
    d.remoteHash t.store = some d.localHash ∧ d.Executable t.store := by
  intro hall
  obtain ⟨inode, hstat, hexec⟩ := (hall sampleDeployment .empty 77
    (List.replicate 6 (.step 2) ++ [.restart 78] ++ List.replicate 2 (.step 0)) _ false rfl rfl).2
  cases hstat
  cases hexec

end Tepegoz
