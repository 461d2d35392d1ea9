import Tepegoz.Lib.FileStore
import Tepegoz.Lib.Transition

namespace Tepegoz

open FileStore Transition

/-- What a call of `deploy_agent` is given, with the hash and the process it runs in. -/
structure Deployment where
  sha256 : List UInt8 → String
  agentBytes : List UInt8
  home : String
  protocolVersion : Nat
  pid : Nat

inductive DeployError
  | deployFailed (stage : String)
  | checksumMismatch (remotePath expected actual : String)
  deriving DecidableEq

/-- Where a call is, by the remote command it runs next. `retry` is set in the second upload;
`writing` has `offset` bytes written to the file that `cat` has open. -/
inductive DeployPhase
  | inspect
  | inspectHash
  | mkdir (retry : Bool)
  | cat (retry : Bool)
  | writing (retry : Bool) (inode offset : Nat)
  | mv (retry : Bool)
  | chmod (retry : Bool)
  | verify (retry : Bool)
  | returned (outcome : Except DeployError Bool)

namespace DeployPhase

/-- The temporary file was opened and is not yet renamed. -/
def uploading : DeployPhase → Bool
  | .writing _ _ _ | .mv _ => true
  | _ => false

def opening : DeployPhase → Bool
  | .cat _ => true
  | _ => false

end DeployPhase

namespace Deployment

variable (d : Deployment)

def localHash : String := d.sha256 d.agentBytes

def remoteDir : String := d.home ++ "/.cache/tepegoz"

def remotePath : String := d.remoteDir ++ "/agent-v" ++ toString d.protocolVersion

def tmpPath : String := d.remotePath ++ ".tmp." ++ toString d.pid

def remoteHash (store : Store) : Option String := (store.read d.remotePath).map d.sha256

/-- The remote step of a call. `chunk` is how much the next write of `cat` takes. -/
def callStep (store : Store) (phase : DeployPhase) (chunk : Nat) : Option (Store × DeployPhase) :=
  match phase with
  | .inspect =>
    some (store, if (store.names d.remotePath).isSome then .inspectHash else .mkdir false)
  | .inspectHash =>
    match d.remoteHash store with
    | none => some (store, .returned (.error (.deployFailed "inspect_hash")))
    | some hash =>
      some (store, if hash = d.localHash then .returned (.ok false) else .mkdir false)
  | .mkdir retry => some (store.makeDir d.remoteDir, .cat retry)
  | .cat retry =>
    match store.openTruncated d.remoteDir d.tmpPath with
    | some (store', inode) => some (store', .writing retry inode 0)
    | none => some (store.remove d.tmpPath, .returned (.error (.deployFailed "upload")))
  | .writing retry inode offset =>
    if d.agentBytes.length ≤ offset then some (store, .mv retry)
    else if 0 < chunk ∧ offset + chunk ≤ d.agentBytes.length then
      some (store.writeAt inode offset ((d.agentBytes.drop offset).take chunk),
        .writing retry inode (offset + chunk))
    else none
  | .mv retry =>
    match store.rename d.tmpPath d.remotePath with
    | some store' => some (store', .chmod retry)
    | none => some (store, .returned (.error (.deployFailed "finalize")))
  | .chmod retry =>
    match store.makeExecutable d.remotePath with
    | some store' => some (store', .verify retry)
    | none => some (store, .returned (.error (.deployFailed "finalize")))
  | .verify retry =>
    match d.remoteHash store with
    | none => some (store, .returned (.error (.deployFailed "verify_hash")))
    | some hash =>
      some (store, if hash = d.localHash then .returned (.ok true)
        else if retry then
          .returned (.error (.checksumMismatch d.remotePath d.localHash hash))
        else .mkdir true)
  | .returned _ => none

end Deployment

inductive DeployCall
  | first
  | second
  deriving DecidableEq

def DeployCall.other : DeployCall → DeployCall
  | .first => .second
  | .second => .first

/-- Two calls on one remote account. -/
structure DeployRace where
  store : Store
  phase : DeployCall → DeployPhase

structure DeployAct where
  call : DeployCall
  chunk : Nat

namespace DeployRace

def start (store : Store) : DeployRace := ⟨store, fun _ => .inspect⟩

def step (d : Deployment) (s : DeployRace) (act : DeployAct) : Option DeployRace :=
  (d.callStep s.store (s.phase act.call) act.chunk).map fun r =>
    ⟨r.1, Function.update s.phase act.call r.2⟩

/-- A call opens the temporary file only while the other has none under way. -/
def Apart (s : DeployRace) (act : DeployAct) : Prop :=
  (s.phase act.call).opening = true → (s.phase act.call.other).uploading = false

/-- Both calls returned `Ok` and the agent file has the hash of the bytes. -/
def Delivered (d : Deployment) (s : DeployRace) : Prop :=
  (∀ call, ∃ deployedNow, s.phase call = .returned (.ok deployedNow)) ∧
    d.remoteHash s.store = some d.localHash

end DeployRace

def deployRace (d : Deployment) (store : Store) : System DeployRace DeployAct Empty :=
  .silent (· = .start store) (DeployRace.step d)

namespace Deployment

variable {d : Deployment}

theorem tmpPath_ne : d.tmpPath ≠ d.remotePath := by
  intro h
  have hlen := congrArg String.length h
  have hsuffix : (".tmp." : String).length = 5 := by decide
  simp only [tmpPath, String.length_append, hsuffix] at hlen
  omega

/-- What a call has achieved at the remote command it runs next, if no other upload got in its way. -/
def Fit (d : Deployment) (store : Store) : DeployPhase → Prop
  | .inspect | .mkdir false => True
  | .inspectHash => (store.read d.remotePath).isSome = true
  | .cat false => store.dirs d.remoteDir = true
  | .writing false inode offset => store.names d.tmpPath = some inode ∧
      store.read d.tmpPath = some (d.agentBytes.take offset) ∧ offset ≤ d.agentBytes.length
  | .mv false => store.read d.tmpPath = some d.agentBytes
  | .chmod false | .verify false => d.remoteHash store = some d.localHash
  | .returned outcome => (∃ deployedNow, outcome = .ok deployedNow) ∧
      d.remoteHash store = some d.localHash
  | .mkdir true | .cat true | .writing true _ _ | .mv true | .chmod true | .verify true => False

theorem read_of_remoteHash {store : Store} {hash : String} (h : d.remoteHash store = some hash) :
    ∃ bytes, store.read d.remotePath = some bytes := by
  obtain ⟨bytes, hbytes, -⟩ := Option.map_eq_some_iff.mp h
  exact ⟨bytes, hbytes⟩

theorem names_of_read {store : Store} {path : String} {bytes : List UInt8}
    (h : store.read path = some bytes) : ∃ i, store.names path = some i := by
  obtain ⟨i, hi, -⟩ := Option.map_eq_some_iff.mp h
  exact ⟨i, hi⟩

/-- In an existing directory the temporary file is opened. -/
theorem callStep_cat {store store' : Store} {retry : Bool} {chunk : Nat} {phase' : DeployPhase}
    (hdir : store.dirs d.remoteDir = true)
    (h : d.callStep store (.cat retry) chunk = some (store', phase')) :
    ∃ i, store.openTruncated d.remoteDir d.tmpPath = some (store', i) ∧
      phase' = .writing retry i 0 := by
  obtain ⟨opened, i, ho⟩ := Store.openTruncated_exists d.tmpPath hdir
  simp only [callStep, ho] at h
  cases h
  exact ⟨i, ho, rfl⟩

/-- A temporary file that is there is renamed. -/
theorem callStep_mv {store store' : Store} {retry : Bool} {chunk : Nat} {phase' : DeployPhase}
    {bytes : List UInt8} (hread : store.read d.tmpPath = some bytes)
    (h : d.callStep store (.mv retry) chunk = some (store', phase')) :
    store.rename d.tmpPath d.remotePath = some store' ∧ phase' = .chmod retry := by
  obtain ⟨i, hi⟩ := names_of_read hread
  obtain ⟨renamed, hr⟩ := Store.rename_exists d.remotePath hi
  simp only [callStep, hr] at h
  cases h
  exact ⟨hr, rfl⟩

/-- The file is complete, or `cat` writes the next bytes behind the offset. -/
theorem callStep_writing {store store' : Store} {retry : Bool} {i offset chunk : Nat}
    {phase' : DeployPhase}
    (h : d.callStep store (.writing retry i offset) chunk = some (store', phase')) :
    d.agentBytes.length ≤ offset ∧ store' = store ∧ phase' = .mv retry ∨
    0 < chunk ∧ offset + chunk ≤ d.agentBytes.length ∧
      store' = store.writeAt i offset ((d.agentBytes.drop offset).take chunk) ∧
      phase' = .writing retry i (offset + chunk) := by
  simp only [callStep] at h
  split at h
  next hend =>
    cases h
    exact .inl ⟨hend, rfl, rfl⟩
  next =>
    split at h
    next hchunk =>
      cases h
      exact .inr ⟨hchunk.1, hchunk.2, rfl, rfl⟩
    next => cases h

/-- The temporary file is not the agent file. -/
theorem names_remotePath_ne {store : Store} {i : Nat} (h : store.names d.tmpPath = some i) :
    store.names d.remotePath ≠ some i :=
  fun hpath => tmpPath_ne (store.names_inj h hpath)

theorem fit_step {store store' : Store} {phase phase' : DeployPhase} {chunk : Nat}
    (hf : d.Fit store phase) (h : d.callStep store phase chunk = some (store', phase')) :
    d.Fit store' phase' := by
  cases phase with
  | inspect =>
    cases h
    split
    next hp => simpa [Fit, Store.read] using hp
    next => trivial
  | inspectHash =>
    obtain ⟨bytes, hbytes⟩ := Option.isSome_iff_exists.mp hf
    simp only [callStep, remoteHash, hbytes, Option.map_some] at h
    cases h
    split
    next heq => exact ⟨⟨false, rfl⟩, by rw [remoteHash, hbytes, Option.map_some, heq]⟩
    next => trivial
  | mkdir retry =>
    cases retry with
    | true => exact hf.elim
    | false =>
      cases h
      exact Store.dirs_makeDir
  | cat retry =>
    cases retry with
    | true => exact hf.elim
    | false =>
      obtain ⟨i, ho, rfl⟩ := callStep_cat hf h
      obtain ⟨-, hname, hread, -⟩ := Store.openTruncated_spec ho
      exact ⟨hname, hread, Nat.zero_le _⟩
  | writing retry i offset =>
    cases retry with
    | true => exact hf.elim
    | false =>
      obtain ⟨hname, hread, hle⟩ := hf
      obtain ⟨hend, rfl, rfl⟩ | ⟨-, hlast, rfl, rfl⟩ := callStep_writing h
      · rwa [List.take_of_length_le hend] at hread
      · exact ⟨hname, Store.read_writeAt_next hname hread hlast, hlast⟩
  | mv retry =>
    cases retry with
    | true => exact hf.elim
    | false =>
      obtain ⟨hr, rfl⟩ := callStep_mv hf h
      obtain ⟨-, -, hread⟩ := Store.rename_spec tmpPath_ne hr
      rw [Fit, remoteHash, hread, hf]
      rfl
  | chmod retry =>
    cases retry with
    | true => exact hf.elim
    | false =>
      obtain ⟨bytes, hbytes⟩ := read_of_remoteHash hf
      obtain ⟨made, hm⟩ := Store.makeExecutable_exists hbytes
      simp only [callStep, hm] at h
      cases h
      rw [Fit, remoteHash, (Store.makeExecutable_spec hm).2.2]
      exact hf
  | verify retry =>
    cases retry with
    | true => exact hf.elim
    | false =>
      have hhash : d.remoteHash store = some d.localHash := hf
      simp only [callStep, hhash, if_pos] at h
      cases h
      exact ⟨⟨true, rfl⟩, hhash⟩
  | returned outcome => cases h

/-- What the step of one call leaves to another that is not uploading. -/
structure Kept (d : Deployment) (store store' : Store) : Prop where
  dirs : store.dirs d.remoteDir = true → store'.dirs d.remoteDir = true
  present : (store.read d.remotePath).isSome = true → (store'.read d.remotePath).isSome = true
  hash : d.remoteHash store = some d.localHash → d.remoteHash store' = some d.localHash

theorem Kept.of_read {store store' : Store}
    (hdirs : store.dirs d.remoteDir = true → store'.dirs d.remoteDir = true)
    (hread : store'.read d.remotePath = store.read d.remotePath) : d.Kept store store' := by
  constructor
  · exact hdirs
  · rw [hread]; exact id
  · rw [remoteHash, remoteHash, hread]; exact id

theorem Kept.fit {store store' : Store} {phase : DeployPhase} (h : d.Kept store store')
    (hu : phase.uploading = false) (hf : d.Fit store phase) : d.Fit store' phase := by
  cases phase with
  | inspect => trivial
  | inspectHash => exact h.present hf
  | mkdir retry => cases retry; exacts [trivial, hf.elim]
  | cat retry => cases retry; exacts [h.dirs hf, hf.elim]
  | writing | mv => cases hu
  | chmod retry => cases retry; exacts [h.hash hf, hf.elim]
  | verify retry => cases retry; exacts [h.hash hf, hf.elim]
  | returned outcome => exact ⟨hf.1, h.hash hf.2⟩

theorem kept_step {store store' : Store} {phase phase' : DeployPhase} {chunk : Nat}
    (hf : d.Fit store phase) (h : d.callStep store phase chunk = some (store', phase')) :
    d.Kept store store' := by
  cases phase with
  | inspect => cases h; exact .of_read id rfl
  | inspectHash =>
    simp only [callStep] at h
    split at h
    all_goals cases h; exact .of_read id rfl
  | mkdir retry => cases h; exact .of_read Store.dirs_makeDir_mono rfl
  | cat retry =>
    cases retry with
    | true => exact hf.elim
    | false =>
      obtain ⟨i, ho, rfl⟩ := callStep_cat hf h
      obtain ⟨hdirs, -, -, hread⟩ := Store.openTruncated_spec ho
      exact .of_read (fun _ => by rwa [hdirs]) (hread _ tmpPath_ne.symm)
  | writing retry i offset =>
    cases retry with
    | true => exact hf.elim
    | false =>
      obtain ⟨-, rfl, rfl⟩ | ⟨-, -, rfl, rfl⟩ := callStep_writing h
      · exact .of_read id rfl
      · exact .of_read id (Store.read_writeAt_of_ne (names_remotePath_ne hf.1))
  | mv retry =>
    cases retry with
    | true => exact hf.elim
    | false =>
      obtain ⟨hr, rfl⟩ := callStep_mv hf h
      obtain ⟨hdirs, -, hread⟩ := Store.rename_spec tmpPath_ne hr
      have htmp : store.read d.tmpPath = some d.agentBytes := hf
      rw [htmp] at hread
      constructor
      · rw [hdirs]; exact id
      · simp [hread]
      · simp [remoteHash, hread, localHash]
  | chmod retry =>
    simp only [callStep] at h
    split at h
    next hm =>
      cases h
      obtain ⟨hdirs, -, hread⟩ := Store.makeExecutable_spec hm
      exact .of_read (fun hd => by rwa [hdirs]) (by rw [hread])
    next => cases h; exact .of_read id rfl
  | verify retry =>
    simp only [callStep] at h
    split at h
    all_goals cases h; exact .of_read id rfl
  | returned outcome => cases h

/-- Outside its own upload a call leaves the temporary file alone. -/
theorem tmp_step {store store' : Store} {phase phase' : DeployPhase} {chunk : Nat}
    (ho : phase.opening = false) (hu : phase.uploading = false)
    (h : d.callStep store phase chunk = some (store', phase')) :
    store'.names d.tmpPath = store.names d.tmpPath ∧
      store'.read d.tmpPath = store.read d.tmpPath ∧ phase'.uploading = false := by
  cases phase with
  | inspect =>
    cases h
    refine ⟨rfl, rfl, ?_⟩
    split <;> rfl
  | inspectHash =>
    simp only [callStep] at h
    split at h
    next => cases h; exact ⟨rfl, rfl, rfl⟩
    next =>
      cases h
      refine ⟨rfl, rfl, ?_⟩
      split <;> rfl
  | mkdir retry => cases h; exact ⟨rfl, rfl, rfl⟩
  | cat => cases ho
  | writing | mv => cases hu
  | chmod retry =>
    simp only [callStep] at h
    split at h
    next hm =>
      cases h
      obtain ⟨-, hnames, hread⟩ := Store.makeExecutable_spec hm
      exact ⟨by rw [hnames], by rw [hread], rfl⟩
    next => cases h; exact ⟨rfl, rfl, rfl⟩
  | verify retry =>
    simp only [callStep] at h
    split at h
    next => cases h; exact ⟨rfl, rfl, rfl⟩
    next =>
      cases h
      refine ⟨rfl, rfl, ?_⟩
      split
      next => rfl
      next => split <;> rfl
  | returned outcome => cases h

theorem Fit.of_tmp {store store' : Store} {phase : DeployPhase} (hu : phase.uploading = true)
    (hnames : store'.names d.tmpPath = store.names d.tmpPath)
    (hread : store'.read d.tmpPath = store.read d.tmpPath) (hf : d.Fit store phase) :
    d.Fit store' phase := by
  cases phase with
  | writing retry i offset =>
    cases retry with
    | true => exact hf.elim
    | false =>
      obtain ⟨hname, hpart, hle⟩ := hf
      exact ⟨by rw [hnames, hname], by rw [hread, hpart], hle⟩
  | mv retry =>
    cases retry with
    | true => exact hf.elim
    | false => exact hread.trans hf
  | inspect | inspectHash | mkdir | cat | chmod | verify | returned => cases hu

/-- An upload goes on, fails, or uses up the name of the temporary file. -/
theorem upload_step {store store' : Store} {phase phase' : DeployPhase} {chunk : Nat}
    (hu : phase.uploading = true) (h : d.callStep store phase chunk = some (store', phase')) :
    (phase'.uploading = true ∧ store'.names = store.names) ∨
      (∃ e, phase' = .returned (.error e)) ∨
      (store.names d.tmpPath ≠ none ∧ store'.names d.tmpPath = none) := by
  cases phase with
  | writing retry i offset =>
    left
    obtain ⟨-, rfl, rfl⟩ | ⟨-, -, rfl, rfl⟩ := callStep_writing h
    · exact ⟨rfl, rfl⟩
    · exact ⟨rfl, rfl⟩
  | mv retry =>
    right
    simp only [callStep] at h
    split at h
    next hr =>
      cases h
      right
      refine ⟨?_, (Store.rename_spec tmpPath_ne hr).2.1⟩
      intro hnone
      rw [Store.rename_of_none hnone] at hr
      cases hr
    next => cases h; exact .inl ⟨_, rfl⟩
  | inspect | inspectHash | mkdir | cat | chmod | verify | returned => cases hu

theorem opening_step {store store' : Store} {phase phase' : DeployPhase} {chunk : Nat}
    (ho : phase.opening = true) (h : d.callStep store phase chunk = some (store', phase')) :
    phase'.uploading = true ∨ ∃ e, phase' = .returned (.error e) := by
  cases phase with
  | cat retry =>
    simp only [callStep] at h
    split at h
    next => cases h; exact .inl rfl
    next => cases h; exact .inr ⟨_, rfl⟩
  | inspect | inspectHash | mkdir | writing | mv | chmod | verify | returned => cases ho

/-- How many steps a call can still take. -/
def rank (d : Deployment) : DeployPhase → Nat
  | .inspect => 2 * (d.agentBytes.length + 6) + 2
  | .inspectHash => 2 * (d.agentBytes.length + 6) + 1
  | .mkdir retry => d.agentBytes.length + 6 + again retry
  | .cat retry => d.agentBytes.length + 5 + again retry
  | .writing retry _ offset => d.agentBytes.length - offset + 4 + again retry
  | .mv retry => 3 + again retry
  | .chmod retry => 2 + again retry
  | .verify retry => 1 + again retry
  | .returned _ => 0
where
  again (retry : Bool) : Nat := if retry then 0 else d.agentBytes.length + 6

theorem rank_step {store store' : Store} {phase phase' : DeployPhase} {chunk : Nat}
    (h : d.callStep store phase chunk = some (store', phase')) : d.rank phase' < d.rank phase := by
  cases phase with
  | inspect =>
    cases h
    split
    all_goals simp only [rank, rank.again]
    · omega
    · simp only [Bool.false_eq_true, if_false]; omega
  | inspectHash =>
    simp only [callStep] at h
    split at h
    next => cases h; simp only [rank]; omega
    next =>
      cases h
      split
      next => simp only [rank]; omega
      next => simp only [rank, rank.again, Bool.false_eq_true, if_false]; omega
  | mkdir retry => cases h; simp only [rank]; omega
  | cat retry =>
    simp only [callStep] at h
    split at h
    next => cases h; simp only [rank]; omega
    next => cases h; simp only [rank]; omega
  | writing retry i offset =>
    obtain ⟨-, rfl, rfl⟩ | ⟨hpos, hlast, rfl, rfl⟩ := callStep_writing h
    · simp only [rank]
      omega
    · simp only [rank]
      omega
  | mv retry | chmod retry =>
    simp only [callStep] at h
    split at h
    next => cases h; simp only [rank]; omega
    next => cases h; simp only [rank]; omega
  | verify retry =>
    simp only [callStep] at h
    split at h
    next => cases h; simp only [rank]; omega
    next =>
      cases h
      split
      next => simp only [rank]; omega
      next =>
        cases retry with
        | true => simp only [if_true, rank]; omega
        | false => simp only [rank, rank.again, Bool.false_eq_true, if_false, if_true]; omega
  | returned outcome => cases h

theorem callStep_exists (store : Store) {phase : DeployPhase}
    (h : ∀ outcome, phase ≠ .returned outcome) :
    ∃ chunk r, d.callStep store phase chunk = some r := by
  cases phase with
  | inspect | mkdir => exact ⟨0, _, rfl⟩
  | inspectHash | cat | mv | chmod | verify =>
    refine ⟨0, ?_⟩
    simp only [callStep]
    split
    all_goals exact ⟨_, rfl⟩
  | writing retry i offset =>
    refine ⟨1, ?_⟩
    simp only [callStep]
    split
    next => exact ⟨_, rfl⟩
    next => rw [if_pos (by omega)]; exact ⟨_, rfl⟩
  | returned outcome => exact absurd rfl (h outcome)

end Deployment

namespace DeployRace

variable {d : Deployment}

theorem step_eq_some {s s' : DeployRace} {act : DeployAct} (h : s.step d act = some s') :
    ∃ phase, d.callStep s.store (s.phase act.call) act.chunk = some (s'.store, phase) ∧
      s'.phase act.call = phase ∧ s'.phase act.call.other = s.phase act.call.other := by
  obtain ⟨⟨store, phase⟩, hr, rfl⟩ := Option.map_eq_some_iff.mp h
  refine ⟨phase, hr, Function.update_self .., Function.update_of_ne ?_ ..⟩
  cases act.call <;> decide

theorem forall_call {P : DeployCall → Prop} (call : DeployCall) :
    (∀ c, P c) ↔ P call ∧ P call.other := by
  constructor
  · exact fun h => ⟨h _, h _⟩
  · rintro ⟨h, h'⟩ c
    cases c <;> cases call <;> assumption

/-- At most one upload is under way, and each call finds what it left. -/
structure Orderly (d : Deployment) (s : DeployRace) : Prop where
  one : ∀ call, (s.phase call).uploading = true → (s.phase call.other).uploading = false
  fit : ∀ call, d.Fit s.store (s.phase call)

theorem orderly_start (d : Deployment) (store : Store) : (start store).Orderly d := by
  constructor
  · intro call h
    cases h
  · intro call
    trivial

theorem orderly_step {s s' : DeployRace} {act : DeployAct} (ho : s.Orderly d)
    (ha : s.Apart act) (h : s.step d act = some s') : s'.Orderly d := by
  obtain ⟨phase, hstep, hphase, hother⟩ := step_eq_some h
  have hfree : (s.phase act.call).opening = true ∨ (s.phase act.call).uploading = true →
      (s.phase act.call.other).uploading = false := fun h => h.elim ha (ho.one act.call)
  have hidle : (s.phase act.call.other).uploading = true →
      (s.phase act.call).opening = false ∧ (s.phase act.call).uploading = false := by
    intro hu
    constructor
    · exact Bool.eq_false_iff.mpr fun hopen => by simp [hfree (.inl hopen)] at hu
    · exact Bool.eq_false_iff.mpr fun hup => by simp [hfree (.inr hup)] at hu
  constructor
  · refine (forall_call act.call).mpr ⟨?_, ?_⟩
    · rw [hphase, hother]
      intro hu
      refine hfree ?_
      by_contra hnot
      obtain ⟨hopen, hup⟩ := not_or.mp hnot
      have hafter := (Deployment.tmp_step (Bool.eq_false_iff.mpr hopen)
        (Bool.eq_false_iff.mpr hup) hstep).2.2
      simp [hafter] at hu
    · intro hu
      rw [hother] at hu
      have hback : act.call.other.other = act.call := by cases act.call <;> rfl
      rw [hback, hphase]
      exact (Deployment.tmp_step (hidle hu).1 (hidle hu).2 hstep).2.2
  · refine (forall_call act.call).mpr ⟨?_, ?_⟩
    · rw [hphase]
      exact Deployment.fit_step (ho.fit _) hstep
    · rw [hother]
      cases hu : (s.phase act.call.other).uploading with
      | false => exact (Deployment.kept_step (ho.fit _) hstep).fit hu (ho.fit _)
      | true =>
        obtain ⟨hnames, hread, -⟩ := Deployment.tmp_step (hidle hu).1 (hidle hu).2 hstep
        exact Deployment.Fit.of_tmp hu hnames hread (ho.fit _)

/-- Two uploads share one temporary file, or one has lost it to the other: one of them will fail. -/
def Clash (d : Deployment) (s : DeployRace) : Prop :=
  (∃ call e, s.phase call = .returned (.error e)) ∨
    (∀ call, (s.phase call).uploading = true) ∨
    (s.store.names d.tmpPath = none ∧ ∃ call, (s.phase call).uploading = true)

theorem clash_of_overlap {s s' : DeployRace} {act : DeployAct} (ha : ¬ s.Apart act)
    (h : s.step d act = some s') : s'.Clash d := by
  obtain ⟨phase, hstep, hphase, hother⟩ := step_eq_some h
  obtain ⟨hopen, hup⟩ := Classical.not_imp.mp ha
  rcases Deployment.opening_step hopen hstep with hu | ⟨e, he⟩
  · refine .inr (.inl ((forall_call act.call).mpr ⟨?_, ?_⟩))
    · rw [hphase, hu]
    · rw [hother]
      exact eq_true_of_ne_false hup
  · exact .inl ⟨act.call, e, by rw [hphase, he]⟩

theorem clash_step {s s' : DeployRace} {act : DeployAct} (hc : s.Clash d)
    (h : s.step d act = some s') : s'.Clash d := by
  obtain ⟨phase, hstep, hphase, hother⟩ := step_eq_some h
  have hcall : ∀ call, call = act.call ∨ call = act.call.other := by
    intro call
    cases call <;> cases act.call <;> simp [DeployCall.other]
  rcases hc with ⟨call, e, he⟩ | hboth | ⟨hnone, call, hu⟩
  · rcases hcall call with rfl | rfl
    · rw [he] at hstep
      cases hstep
    · exact .inl ⟨_, e, by rw [hother, he]⟩
  · rcases Deployment.upload_step (hboth act.call) hstep with ⟨hu, -⟩ | ⟨e, he⟩ | ⟨-, hgone⟩
    · refine .inr (.inl ((forall_call act.call).mpr ⟨?_, ?_⟩))
      · rw [hphase, hu]
      · rw [hother, hboth]
    · exact .inl ⟨act.call, e, by rw [hphase, he]⟩
    · exact .inr (.inr ⟨hgone, act.call.other, by rw [hother, hboth]⟩)
  · rcases hcall call with rfl | rfl
    · rcases Deployment.upload_step hu hstep with ⟨hu', hnames⟩ | ⟨e, he⟩ | ⟨hsome, -⟩
      · exact .inr (.inr ⟨by rw [hnames, hnone], act.call, by rw [hphase, hu']⟩)
      · exact .inl ⟨act.call, e, by rw [hphase, he]⟩
      · exact absurd hnone hsome
    · have hu' : (s'.phase act.call.other).uploading = true := by rw [hother, hu]
      by_cases hup : (s.phase act.call).uploading = true
      · rcases Deployment.upload_step hup hstep with ⟨hu₂, -⟩ | ⟨e, he⟩ | ⟨hsome, -⟩
        · exact .inr (.inl ((forall_call act.call).mpr ⟨by rw [hphase, hu₂], hu'⟩))
        · exact .inl ⟨act.call, e, by rw [hphase, he]⟩
        · exact absurd hnone hsome
      · by_cases hopen : (s.phase act.call).opening = true
        · rcases Deployment.opening_step hopen hstep with hu₂ | ⟨e, he⟩
          · exact .inr (.inl ((forall_call act.call).mpr ⟨by rw [hphase, hu₂], hu'⟩))
          · exact .inl ⟨act.call, e, by rw [hphase, he]⟩
        · obtain ⟨hnames, -, -⟩ := Deployment.tmp_step (Bool.eq_false_iff.mpr hopen)
            (Bool.eq_false_iff.mpr hup) hstep
          exact .inr (.inr ⟨by rw [hnames, hnone], _, hu'⟩)

theorem not_delivered_of_clash {s : DeployRace} (hc : s.Clash d) : ¬ s.Delivered d := by
  rintro ⟨hok, -⟩
  rcases hc with ⟨call, e, he⟩ | hboth | ⟨-, call, hu⟩
  · obtain ⟨deployedNow, hcall⟩ := hok call
    simp [hcall] at he
  · obtain ⟨deployedNow, hcall⟩ := hok .first
    have hu := hboth .first
    simp [hcall, DeployPhase.uploading] at hu
  · obtain ⟨deployedNow, hcall⟩ := hok call
    simp [hcall, DeployPhase.uploading] at hu

def rank (d : Deployment) (s : DeployRace) : Nat :=
  d.rank (s.phase .first) + d.rank (s.phase .second)

theorem rank_step {s s' : DeployRace} {act : DeployAct} (h : s.step d act = some s') :
    s'.rank d < s.rank d := by
  obtain ⟨phase, hstep, hphase, hother⟩ := step_eq_some h
  have hlower := Deployment.rank_step hstep
  unfold rank
  cases hcall : act.call with
  | first =>
    rw [hcall] at hphase hother hlower
    rw [hphase, show s'.phase .second = s.phase .second from hother]
    omega
  | second =>
    rw [hcall] at hphase hother hlower
    rw [hphase, show s'.phase .first = s.phase .first from hother]
    omega

theorem returned_of_stuck {s : DeployRace} (h : ∀ act, s.step d act = none) (call : DeployCall) :
    ∃ outcome, s.phase call = .returned outcome := by
  by_contra hnot
  obtain ⟨chunk, r, hr⟩ := Deployment.callStep_exists (d := d) s.store (not_exists.mp hnot)
  have hnone := h ⟨call, chunk⟩
  simp [step, hr] at hnone

theorem stuck_of_returned {s : DeployRace} {first second : Except DeployError Bool}
    (h₁ : s.phase .first = .returned first) (h₂ : s.phase .second = .returned second)
    (act : DeployAct) : s.step d act = none := by
  cases hcall : act.call
  all_goals simp [step, hcall, h₁, h₂, Deployment.callStep]

theorem delivered_of_orderly {s : DeployRace} (ho : s.Orderly d)
    (h : ∀ act, s.step d act = none) : s.Delivered d := by
  have hfit : ∀ call, (∃ deployedNow, s.phase call = .returned (.ok deployedNow)) ∧
      d.remoteHash s.store = some d.localHash := by
    intro call
    obtain ⟨outcome, hret⟩ := returned_of_stuck h call
    have hf := ho.fit call
    rw [hret] at hf
    obtain ⟨⟨deployedNow, hok⟩, hhash⟩ := hf
    exact ⟨⟨deployedNow, by rw [hret, hok]⟩, hhash⟩
  exact ⟨fun call => (hfit call).1, (hfit .first).2⟩

end DeployRace

/-- Two calls of one process always come to an end. They both succeed and leave the right file
exactly when neither opens the temporary file between the other's `cat` and its `mv`: the name of
that file is the same for both. -/
theorem concurrent_deploys (d : Deployment) (store : Store) (acts : List DeployAct) (t : DeployRace)
    (h : (deployRace d store).replay Free [] (.start store) acts = some ([], t)) :
    acts.length ≤ 4 * d.agentBytes.length + 28 ∧
      ((∀ act, t.step d act = none) →
        (t.Delivered d ↔ (deployRace d store).EachStep DeployRace.Apart (.start store) acts)) := by
  constructor
  · have hlen := System.replay_length (DeployRace.rank d)
      (fun _ _ _ _ hs => DeployRace.rank_step (System.silent_step.mp hs).1) h
    have hstart : (DeployRace.start store).rank d = 4 * d.agentBytes.length + 28 := by
      simp only [DeployRace.rank, DeployRace.start, Deployment.rank]
      omega
    omega
  · intro hstuck
    constructor
    · intro hdelivered
      refine System.EachStep.of_always (P := fun _ => True) (DeployRace.Clash d) ?_ ?_
        (.of_forall fun _ => trivial) h ?_
      · intro _ _ _ _ hc hs _
        exact DeployRace.clash_step hc (System.silent_step.mp hs).1
      · intro _ _ _ _ _ ha hs _
        exact DeployRace.clash_of_overlap ha (System.silent_step.mp hs).1
      · intro hclash
        exact DeployRace.not_delivered_of_clash hclash hdelivered
    · intro hapart
      have horderly := hapart.always (DeployRace.orderly_start d store) fun _ _ _ _ ho ha hs =>
        DeployRace.orderly_step ho ha (System.silent_step.mp hs).1
      exact DeployRace.delivered_of_orderly (horderly.last h) hstuck

def sampleDeployment : Deployment := ⟨fun bytes => toString bytes, [1, 2], "/root", 12, 77⟩

/-- Steps of one call in a row. -/
def DeployCall.goesOn (call : DeployCall) (steps : Nat) : List DeployAct :=
  List.replicate steps ⟨call, 2⟩

theorem concurrent_deploys_sequential :
    ∃ (acts : List DeployAct) (t : DeployRace), acts.length ≤ 36 ∧
      (t.Delivered sampleDeployment ↔
        (deployRace sampleDeployment .empty).EachStep DeployRace.Apart (.start .empty) acts) := by
  have h := concurrent_deploys sampleDeployment .empty
    (DeployCall.first.goesOn 8 ++ DeployCall.second.goesOn 2) _ rfl
  exact ⟨_, _, h.1, h.2 (DeployRace.stuck_of_returned rfl rfl)⟩

/-- Both calls write the same temporary file, and the rename of one takes it away from the other. -/
theorem second_rename_fails :
    ∃ acts t, (deployRace sampleDeployment .empty).replay Free [] (.start .empty) acts =
        some ([], t) ∧
      (∀ act, t.step sampleDeployment act = none) ∧
      t.phase .first = .returned (.ok true) ∧
      t.phase .second = .returned (.error (.deployFailed "finalize")) ∧
      ¬ t.Delivered sampleDeployment := by
  refine ⟨DeployCall.first.goesOn 4 ++ DeployCall.second.goesOn 4 ++ DeployCall.first.goesOn 4 ++
    DeployCall.second.goesOn 2, _, rfl, DeployRace.stuck_of_returned rfl rfl, rfl, rfl, ?_⟩
  rintro ⟨hok, -⟩
  obtain ⟨deployedNow, hsecond⟩ := hok .second
  cases hsecond

end Tepegoz
