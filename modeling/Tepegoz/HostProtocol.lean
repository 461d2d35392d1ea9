import Tepegoz.HostSupervisor

namespace Tepegoz

open Transition

/-- The states a supervisor may announce next; `none` is before its first announcement. -/
def HostState.mayFollow : Option HostState → HostState → Bool
  | none, .disconnected => true
  | some .disconnected, .connecting => true
  | some .connecting, .connecting | some .connecting, .connected
  | some .connecting, .disconnected | some .connecting, .authFailed
  | some .connecting, .hostKeyMismatch => true
  | some .connected, .degraded | some .degraded, .connected => true
  | some .connected, .disconnected | some .degraded, .disconnected
  | some .authFailed, .disconnected | some .hostKeyMismatch, .disconnected => true
  | _, _ => false

/-! What the observations so far say. -/

@[simp] def HostObs.announced : HostObs → Option (HostState × Option String)
  | .sent ⟨_, .event _ (.hostStateChanged _ state reason)⟩ => some (state, reason)
  | _ => none

@[simp] def HostObs.followState (current : Option HostState) (o : HostObs) : Option HostState :=
  match o.announced with
  | some (state, _) => some state
  | none => current

/-- The state announced last. -/
def announcedState (tr : List HostObs) : Option HostState :=
  tr.foldl HostObs.followState none

@[simp] def HostObs.followParked (parked : Bool) : HostObs → Bool
  | .handled .reconnect => false
  | .handled .disconnect => true
  | o =>
    match o.announced with
    | some (.authFailed, _) | some (.hostKeyMismatch, _) => true
    | _ => parked

/-- An authentication or host key failure or a `Disconnect`, and no `Reconnect` handled since. -/
def parked (tr : List HostObs) : Bool :=
  tr.foldl HostObs.followParked false

@[simp] def HostObs.followMisses (misses : Nat) : HostObs → Nat
  | .attempt | .heartbeat true => 0
  | .heartbeat false => misses + 1
  | _ => misses

/-- The consecutive missed heartbeats of the session at hand. -/
def missedHeartbeats (tr : List HostObs) : Nat :=
  tr.foldl HostObs.followMisses 0

@[simp] def HostObs.followBackoffs (backoffs : Nat) : HostObs → Nat
  | .handled .reconnect => 0
  | .sessionHeld .heartbeatFailed millis =>
    if millis ≥ sshReconnectResetThreshold then 0 else backoffs
  | .slept _ => backoffs + 1
  | _ => backoffs

/-- The back-offs that elapsed since the last reset: a handled `Reconnect`, or a session that held
for long before its heartbeat failed. -/
def elapsedBackoffs (tr : List HostObs) : Nat :=
  tr.foldl HostObs.followBackoffs 0

/-- The milliseconds to wait when so many back-offs elapsed: 1, 2, 5 and 15 seconds, then a minute
each time. -/
def ladderDelay : Nat → Nat
  | 0 => 1000
  | 1 => 2000
  | 2 => 5000
  | 3 => 15000
  | _ + 4 => 60000

@[simp] def HostObs.followDelay (delay : Nat) : HostObs → Nat
  | .backingOff delay => delay
  | _ => delay

def chosenDelay (tr : List HostObs) : Nat :=
  tr.foldl HostObs.followDelay 0

/-- What a supervisor may do after the observations `tr`. -/
def HostObs.Allowed (entry : HostEntry) (tr : List HostObs) (o : HostObs) : Prop :=
  (∀ state reason, o.announced = some (state, reason) →
    (reason.isSome = state.isTerminal) ∧
      if entry.proxyJump.isSome then state = .authFailed
      else HostState.mayFollow (announcedState tr) state = true) ∧
  match o with
  | .attempt => entry.proxyJump = none ∧ parked tr = false
  | .sessionEnded ended =>
    ended = .heartbeatFailed ↔ missedHeartbeats tr = sshDisconnectedThreshold
  | .backingOff delay => delay = ladderDelay (elapsedBackoffs tr)
  | .slept millis => chosenDelay tr ≤ millis
  | _ => True

section Follow

variable (tr out : List HostObs)

@[simp] theorem announcedState_append :
    announcedState (tr ++ out) = out.foldl HostObs.followState (announcedState tr) :=
  List.foldl_append

@[simp] theorem parked_append :
    parked (tr ++ out) = out.foldl HostObs.followParked (parked tr) :=
  List.foldl_append

@[simp] theorem missedHeartbeats_append :
    missedHeartbeats (tr ++ out) = out.foldl HostObs.followMisses (missedHeartbeats tr) :=
  List.foldl_append

@[simp] theorem elapsedBackoffs_append :
    elapsedBackoffs (tr ++ out) = out.foldl HostObs.followBackoffs (elapsedBackoffs tr) :=
  List.foldl_append

@[simp] theorem chosenDelay_append :
    chosenDelay (tr ++ out) = out.foldl HostObs.followDelay (chosenDelay tr) :=
  List.foldl_append

end Follow

/-- Phases of a host that is dialed, not of one behind a ProxyJump. -/
def HostPhase.dials : HostPhase → Bool
  | .spawned | .jumpOnly _ | .returned => false
  | _ => true

/-- The index of the ladder is the number of back-offs since the last reset, capped. -/
def backoffIdxOf (tr : List HostObs) : Nat :=
  min (elapsedBackoffs tr) (sshBackoffLadder.length - 1)

/-- The capped index looks up the entry of the ladder for so many back-offs. -/
theorem backoffDelay_capped (backoffs : Nat) :
    backoffDelay (min backoffs (sshBackoffLadder.length - 1)) = ladderDelay backoffs := by
  have hlength : sshBackoffLadder.length = 5 := rfl
  match backoffs with
  | 0 | 1 | 2 | 3 => rfl
  | n + 4 =>
    have hcap : min (n + 4) (sshBackoffLadder.length - 1) = 4 := by omega
    rw [hcap]
    rfl

namespace HostSupervisor

/-- While the supervisor wants a connection: no action parked it, and the ladder is in step. -/
structure Dialing (tr : List HostObs) (s : HostSupervisor) : Prop where
  wanted : s.shouldConnect = true
  unparked : parked tr = false
  ladder : s.backoffIdx = backoffIdxOf tr

/-- What holds of the supervisor in each phase, given what was observed of it. -/
def PhaseKept (tr : List HostObs) (s : HostSupervisor) : Prop :=
  match s.phase with
  | .spawned => tr = [] ∧ s.backoffIdx = 0
  | .jumpOnly _ => s.entry.proxyJump.isSome = true
  | .idle => announcedState tr = some .disconnected ∧ s.shouldConnect = false
  | .connecting _ =>
    announcedState tr = some .connecting ∧ missedHeartbeats tr = 0 ∧ s.Dialing tr
  | .deploying _ =>
    announcedState tr = some .connected ∧ missedHeartbeats tr = 0 ∧ s.Dialing tr
  | .connected _ _ missCounter currentState =>
    announcedState tr = some currentState ∧ missedHeartbeats tr = missCounter ∧
      missCounter < sshDisconnectedThreshold ∧
      currentState = (if sshDegradedThreshold ≤ missCounter then .degraded else .connected) ∧
      s.Dialing tr
  | .shuttingDown _ ended =>
    (announcedState tr = some .connected ∨ announcedState tr = some .degraded) ∧
      s.shouldConnect = true ∧ (ended ≠ .disconnectRequested → parked tr = false) ∧
      (ended = .heartbeatFailed → s.backoffIdx = backoffIdxOf tr) ∧
      (ended = .reconnectRequested → elapsedBackoffs tr = 0)
  | .terminal =>
    (announcedState tr = some .authFailed ∨ announcedState tr = some .hostKeyMismatch) ∧
      s.shouldConnect = true
  | .backingOff _ delay =>
    announcedState tr = some .disconnected ∧ chosenDelay tr = delay ∧ s.Dialing tr
  | .returned => True

structure Kept (entry : HostEntry) (tr : List HostObs) (s : HostSupervisor) : Prop where
  entry_eq : s.entry = entry
  direct : s.phase.dials = true → entry.proxyJump = none
  phase_kept : s.PhaseKept tr

theorem Dialing.congr {tr : List HostObs} {s s' : HostSupervisor} (h : s.Dialing tr)
    (hwanted : s'.shouldConnect = s.shouldConnect) (hidx : s'.backoffIdx = s.backoffIdx) :
    s'.Dialing tr :=
  ⟨hwanted.trans h.wanted, h.unparked, hidx.trans h.ladder⟩

theorem Kept.elapse {entry : HostEntry} {tr : List HostObs} {s : HostSupervisor}
    (h : Kept entry tr s) (millis : Nat) : Kept entry tr { s with now := s.now + millis } := by
  refine ⟨h.entry_eq, h.direct, ?_⟩
  have hk := h.phase_kept
  unfold PhaseKept at hk ⊢
  cases hphase : s.phase <;> simp only [hphase] at hk ⊢
  case connecting | deploying | backingOff =>
    obtain ⟨hstate, hsame, hd⟩ := hk
    exact ⟨hstate, hsame, hd.congr rfl rfl⟩
  case connected =>
    obtain ⟨hstate, hmisses, hbelow, hcurrent, hd⟩ := hk
    exact ⟨hstate, hmisses, hbelow, hcurrent, hd.congr rfl rfl⟩
  all_goals exact hk

/-- Only handled actions, ended sessions and slept back-offs matter to a supervisor that dials. -/
theorem Dialing.snoc {tr : List HostObs} {s s' : HostSupervisor} {o : HostObs} (h : s.Dialing tr)
    (hwanted : s'.shouldConnect = s.shouldConnect) (hidx : s'.backoffIdx = s.backoffIdx)
    (hparked : HostObs.followParked (parked tr) o = parked tr)
    (hbackoffs : HostObs.followBackoffs (elapsedBackoffs tr) o = elapsedBackoffs tr) :
    s'.Dialing (tr ++ [o]) where
  wanted := hwanted.trans h.wanted
  unparked := by
    rw [parked_append]
    exact hparked.trans h.unparked
  ladder := by
    rw [hidx, h.ladder, backoffIdxOf, backoffIdxOf, elapsedBackoffs_append]
    exact congrArg (min · _) hbackoffs.symm

/-- A stretch of the supervisor's code says only what it may and keeps the invariant. -/
def Speaks (entry : HostEntry) (tr : List HostObs) (r : HostSupervisor × List HostObs) : Prop :=
  Each (HostObs.Allowed entry) tr r.2 ∧ Kept entry (tr ++ r.2) r.1

variable {entry : HostEntry} {tr out : List HostObs} {s s' : HostSupervisor} {o : HostObs}

theorem Speaks.nil (h : Kept entry tr s) : Speaks entry tr (s, []) :=
  ⟨trivial, by simpa using h⟩

theorem Speaks.cons (ho : o.Allowed entry tr) (h : Speaks entry (tr ++ [o]) (s, out)) :
    Speaks entry tr (s, o :: out) := by
  refine ⟨⟨ho, h.1⟩, ?_⟩
  simpa using h.2

section Emit

variable {state : HostState} {reason : Option String}

@[simp] theorem emitState_eq : s.emitState state reason = .sent ⟨protocolVersion,
    .event s.subscriptionId (.hostStateChanged s.entry.hostAlias state reason)⟩ := rfl

@[simp] theorem emitAgentCapabilities_eq (capabilities : List String) :
    s.emitAgentCapabilities capabilities = .sent ⟨protocolVersion,
      .event s.subscriptionId (.agentCapabilities s.entry.hostAlias capabilities)⟩ := rfl

theorem emitState_allowed (hdirect : entry.proxyJump = none)
    (hreason : reason.isSome = state.isTerminal)
    (hstate : HostState.mayFollow (announcedState tr) state = true) :
    (s.emitState state reason).Allowed entry tr := by
  refine ⟨fun state' reason' h => ?_, trivial⟩
  obtain ⟨rfl, rfl⟩ := Prod.mk.inj (Option.some.inj h)
  exact ⟨hreason, by simpa [hdirect] using hstate⟩

end Emit

theorem loopTop_speaks (hentry : s.entry = entry) (hdirect : entry.proxyJump = none)
    (hstate : announcedState tr = some .disconnected ∨
      announcedState tr = some .connecting ∧ s.shouldConnect = true)
    (hdialing : s.shouldConnect = true → s.Dialing tr) : Speaks entry tr s.loopTop := by
  unfold loopTop
  by_cases hwanted : s.shouldConnect = true
  · have hd := hdialing hwanted
    rw [if_pos hwanted]
    have hfollow : HostState.mayFollow (announcedState tr) .connecting = true := by
      rcases hstate with h | ⟨h, -⟩ <;> rw [h] <;> rfl
    have hattempt : HostObs.attempt.Allowed entry (tr ++ [s.emitState .connecting none]) :=
      ⟨by simp, hdirect, by simp [hd.unparked]⟩
    apply Speaks.cons (emitState_allowed hdirect rfl hfollow)
    apply Speaks.cons hattempt
    apply Speaks.nil
    have hannounced : s.Dialing (tr ++ [s.emitState .connecting none]) := hd.snoc rfl rfl rfl rfl
    exact ⟨hentry, fun _ => hdirect, by simp, by simp, hannounced.snoc rfl rfl rfl rfl⟩
  · rw [if_neg hwanted]
    apply Speaks.nil
    have hdisconnected : announcedState tr = some .disconnected := by
      rcases hstate with h | ⟨-, h⟩
      · exact h
      · exact absurd h hwanted
    exact ⟨hentry, fun _ => hdirect, hdisconnected, by simpa using hwanted⟩

theorem announceDisconnected_speaks {next : HostSupervisor × List HostObs}
    (hdirect : entry.proxyJump = none)
    (hstate : HostState.mayFollow (announcedState tr) .disconnected = true)
    (h : Speaks entry (tr ++ [s.emitState .disconnected none]) next) :
    Speaks entry tr (s.announceDisconnected next) :=
  Speaks.cons (emitState_allowed hdirect rfl hstate) h

theorem waitBackoff_speaks (hentry : s.entry = entry) (hdirect : entry.proxyJump = none)
    (hstate : announcedState tr = some .disconnected) (hd : s.Dialing tr) :
    Speaks entry tr s.waitBackoff := by
  have hdelay : backoffDelay s.backoffIdx = ladderDelay (elapsedBackoffs tr) := by
    rw [hd.ladder]
    exact backoffDelay_capped _
  apply Speaks.cons ⟨by simp, hdelay⟩
  apply Speaks.nil
  exact ⟨hentry, fun _ => hdirect, by simpa using hstate, by simp, hd.snoc rfl rfl rfl rfl⟩

theorem start_speaks (h : Kept entry tr s) (hphase : s.phase = .spawned) :
    Speaks entry tr s.start := by
  obtain ⟨hentry, -, hk⟩ := h
  simp only [PhaseKept, hphase] at hk
  obtain ⟨rfl, hidx⟩ := hk
  unfold start
  cases hj : s.entry.proxyJump with
  | some jump =>
    have hjump : entry.proxyJump.isSome = true := by rw [← hentry, hj]; rfl
    apply Speaks.cons ⟨by simp [HostState.isTerminal, hjump], trivial⟩
    apply Speaks.nil
    exact ⟨hentry, fun hdials => Bool.noConfusion hdials, by simp [PhaseKept, hj]⟩
  | none =>
    have hdirect : entry.proxyJump = none := by rw [← hentry, hj]
    apply announceDisconnected_speaks hdirect rfl
    exact loopTop_speaks hentry hdirect (.inl (by simp [announcedState])) fun hwanted =>
      ⟨hwanted, by simp [parked], by simp [hidx, backoffIdxOf, elapsedBackoffs]⟩

theorem connectDone_speaks {started : Nat} (h : Kept entry tr s)
    (hphase : s.phase = .connecting started) (outcome : Option (Except SshError Unit)) :
    Speaks entry tr (s.connectDone started outcome) := by
  obtain ⟨hentry, hdials, hk⟩ := h
  have hdirect := hdials (by rw [hphase]; rfl)
  simp only [PhaseKept, hphase] at hk
  obtain ⟨hstate, hmisses, hd⟩ := hk
  have hretry : Speaks entry tr (s.announceDisconnected s.waitBackoff) := by
    apply announceDisconnected_speaks hdirect (by rw [hstate]; rfl)
    exact waitBackoff_speaks hentry hdirect (by simp) (hd.snoc rfl rfl rfl rfl)
  cases outcome with
  | none => exact hretry
  | some outcome =>
    cases outcome with
    | ok session =>
      apply Speaks.cons (emitState_allowed hdirect rfl (by rw [hstate]; rfl))
      apply Speaks.nil
      exact ⟨hentry, fun _ => hdirect, by simp, by simpa using hmisses, hd.snoc rfl rfl rfl rfl⟩
    | error e =>
      cases e with
      | hostKeyMismatch path line =>
        apply Speaks.cons (emitState_allowed hdirect rfl (by rw [hstate]; rfl))
        apply Speaks.nil
        exact ⟨hentry, fun _ => hdirect, by simp, hd.wanted⟩
      | authFailed reason =>
        apply Speaks.cons (emitState_allowed hdirect rfl (by rw [hstate]; rfl))
        apply Speaks.nil
        exact ⟨hentry, fun _ => hdirect, by simp, hd.wanted⟩
      | other message => exact hretry

theorem deployed_speaks {started : Nat} (h : Kept entry tr s)
    (hphase : s.phase = .deploying started) (capabilities : Option (List String)) :
    Speaks entry tr (s.deployed started capabilities) := by
  obtain ⟨hentry, hdials, hk⟩ := h
  have hdirect := hdials (by rw [hphase]; rfl)
  simp only [PhaseKept, hphase] at hk
  obtain ⟨hstate, hmisses, hd⟩ := hk
  apply Speaks.cons ⟨by simp, trivial⟩
  apply Speaks.nil
  exact ⟨hentry, fun _ => hdirect, by simpa using hstate, by simpa using hmisses, by decide,
    by decide, hd.snoc rfl rfl rfl rfl⟩

theorem session_live {started deadline missCounter : Nat} {currentState : HostState}
    (hphase : s.phase = .connected started deadline missCounter currentState)
    (hk : s.PhaseKept tr) :
    (announcedState tr = some .connected ∨ announcedState tr = some .degraded) ∧
      missedHeartbeats tr < sshDisconnectedThreshold ∧ s.Dialing tr := by
  simp only [PhaseKept, hphase] at hk
  obtain ⟨hstate, rfl, hbelow, hcurrent, hd⟩ := hk
  refine ⟨?_, hbelow, hd⟩
  rw [hstate, hcurrent]
  split
  · exact .inr rfl
  · exact .inl rfl

theorem heartbeat_speaks {started deadline missCounter : Nat} {currentState : HostState}
    (h : Kept entry tr s) (hphase : s.phase = .connected started deadline missCounter currentState)
    (sendOk : Bool) : Speaks entry (tr ++ [.heartbeat sendOk])
      (s.heartbeat started deadline missCounter currentState sendOk) := by
  have hlive := (session_live hphase h.phase_kept).1
  obtain ⟨hentry, hdials, hk⟩ := h
  have hdirect := hdials (by rw [hphase]; rfl)
  simp only [PhaseKept, hphase] at hk
  obtain ⟨hstate, rfl, hbelow, hcurrent, hd⟩ := hk
  have hbeat : s.Dialing (tr ++ [.heartbeat sendOk]) := hd.snoc rfl rfl rfl rfl
  unfold heartbeat
  cases sendOk with
  | true =>
    rw [if_pos rfl]
    split
    next hback =>
      apply Speaks.cons (emitState_allowed hdirect rfl (by simp [hstate, hback.2]; rfl))
      apply Speaks.nil
      exact ⟨hentry, fun _ => hdirect, by simp, by simp, by decide, rfl, hbeat.snoc rfl rfl rfl rfl⟩
    next hback =>
      have hconnected : currentState = .connected := by
        rw [hcurrent] at hback ⊢
        simp only [sshDegradedThreshold] at hback ⊢
        grind
      apply Speaks.nil
      exact ⟨hentry, fun _ => hdirect, by simpa using hstate, by simp, by decide, hconnected,
        hbeat.congr rfl rfl⟩
  | false =>
    rw [if_neg Bool.false_ne_true]
    split
    next hlost =>
      have hthree : missedHeartbeats tr + 1 = sshDisconnectedThreshold := by omega
      apply Speaks.cons ⟨by simp, by simpa using hthree⟩
      apply Speaks.nil
      have hended : s.Dialing (tr ++ [.heartbeat false] ++ [.sessionEnded .heartbeatFailed]) :=
        hbeat.snoc rfl rfl rfl rfl
      exact ⟨hentry, fun _ => hdirect, by simpa using hlive, hd.wanted, fun _ => hended.unparked,
        fun _ => hended.ladder, by simp⟩
    next hkeeps =>
      split
      next hfirst =>
        have hconnected : currentState = .connected := by
          rw [hcurrent] at hfirst ⊢
          grind
        apply Speaks.cons (emitState_allowed hdirect rfl (by simp [hstate, hconnected]; rfl))
        apply Speaks.nil
        exact ⟨hentry, fun _ => hdirect, by simp, by simp, by omega, rfl,
          hbeat.snoc rfl rfl rfl rfl⟩
      next hagain =>
        have hdegraded : currentState = .degraded := by
          by_contra hne
          exact hagain ⟨by simp [sshDegradedThreshold], hne⟩
        have hpast : sshDegradedThreshold ≤ missedHeartbeats tr + 1 := by simp [sshDegradedThreshold]
        apply Speaks.nil
        exact ⟨hentry, fun _ => hdirect, by simpa using hstate, by simp, by omega,
          by rw [if_pos hpast]; exact hdegraded, hbeat.congr rfl rfl⟩

theorem afterSession_speaks {started : Nat} {ended : ConnectedOutcome} (h : Kept entry tr s)
    (hphase : s.phase = .shuttingDown started ended) :
    Speaks entry (tr ++ [s.emitAgentCapabilities []] ++ [.sessionHeld ended (s.now - started)])
      (s.afterSession started ended) := by
  obtain ⟨hentry, hdials, hk⟩ := h
  have hdirect := hdials (by rw [hphase]; rfl)
  simp only [PhaseKept, hphase] at hk
  obtain ⟨hstate, hwanted, hunparked, hfailed, hasked⟩ := hk
  have hfollow : HostState.mayFollow (announcedState (tr ++ [s.emitAgentCapabilities []] ++
      [.sessionHeld ended (s.now - started)])) .disconnected = true := by
    rcases hstate with h | h <;> simp [h] <;> rfl
  cases ended with
  | heartbeatFailed =>
    apply announceDisconnected_speaks hdirect hfollow
    refine waitBackoff_speaks hentry hdirect (by simp) ⟨hwanted, by simp [hunparked], ?_⟩
    have hladder : s.backoffIdx = min (elapsedBackoffs tr) (sshBackoffLadder.length - 1) :=
      hfailed rfl
    by_cases hlong : sshReconnectResetThreshold ≤ s.now - started
    · simp [backoffIdxOf, hlong]
    · simp [backoffIdxOf, hlong, hladder]
  | reconnectRequested =>
    apply announceDisconnected_speaks hdirect hfollow
    exact loopTop_speaks hentry hdirect (.inl (by simp)) fun _ =>
      ⟨hwanted, by simp [hunparked], by simp [backoffIdxOf, hasked]⟩
  | disconnectRequested =>
    apply announceDisconnected_speaks hdirect hfollow
    exact loopTop_speaks hentry hdirect (.inl (by simp)) fun hc => Bool.noConfusion hc
  | shutdown =>
    apply Speaks.nil
    exact ⟨hentry, fun hc => Bool.noConfusion hc, trivial⟩

/-- A session that is ended by an action or with the coordinator. -/
theorem sessionEnded_speaks {started : Nat} {ended : ConnectedOutcome} (hentry : s.entry = entry)
    (hdirect : entry.proxyJump = none) (hended : ended ≠ .heartbeatFailed)
    (hstate : announcedState tr = some .connected ∨ announcedState tr = some .degraded)
    (hbelow : missedHeartbeats tr < sshDisconnectedThreshold) (hwanted : s.shouldConnect = true)
    (hunparked : ended ≠ .disconnectRequested → parked tr = false)
    (hreset : ended = .reconnectRequested → elapsedBackoffs tr = 0) :
    Speaks entry tr ({ s with phase := .shuttingDown started ended }, [.sessionEnded ended]) := by
  have hnot : ended = .heartbeatFailed ↔ missedHeartbeats tr = sshDisconnectedThreshold := by
    constructor
    · exact fun h => absurd h hended
    · omega
  apply Speaks.cons ⟨by simp, hnot⟩
  apply Speaks.nil
  exact ⟨hentry, fun _ => hdirect, by simpa using hstate, hwanted, by simpa using hunparked,
    fun h => absurd h hended, by simpa using hreset⟩

theorem close_speaks {r : HostSupervisor × List HostObs} (h : Kept entry tr s)
    (hr : s.close = some r) : Speaks entry tr r := by
  obtain ⟨hentry, hdials, hk⟩ := h
  have hreturned : Speaks entry tr ({ s with phase := .returned }, []) :=
    .nil ⟨hentry, fun hc => Bool.noConfusion hc, trivial⟩
  unfold close at hr
  split at hr <;> cases hr
  · exact hreturned
  · exact hreturned
  · exact hreturned
  · exact hreturned
  · exact hreturned
  next hphase =>
    obtain ⟨hstate, hbelow, hd⟩ := session_live hphase hk
    exact sessionEnded_speaks hentry (hdials (by rw [hphase]; rfl)) (by decide) hstate hbelow
      hd.wanted (fun _ => hd.unparked) (fun hc => by cases hc)

theorem handle_speaks {r : HostSupervisor × List HostObs} {action : HostAction}
    (h : Kept entry tr s) (hr : s.handle action = some r) :
    Speaks entry (tr ++ [.handled action]) r := by
  obtain ⟨hentry, hdials, hk⟩ := h
  have hladder : (0 : Nat) = backoffIdxOf (tr ++ [.handled .reconnect]) := by simp [backoffIdxOf]
  unfold handle at hr
  split at hr <;> cases hr
  next reason hphase =>
    simp only [PhaseKept, hphase] at hk
    have hjump : entry.proxyJump.isSome = true := by rw [← hentry]; exact hk
    apply Speaks.cons ⟨by simp [HostState.isTerminal, hjump], trivial⟩
    apply Speaks.nil
    exact ⟨hentry, by simp [hphase, HostPhase.dials], by simpa [PhaseKept, hphase] using hk⟩
  next reason hphase =>
    apply Speaks.nil
    exact ⟨hentry, by simp [hphase, HostPhase.dials], by simpa [PhaseKept, hphase] using hk⟩
  next hphase =>
    have hdirect := hdials (by rw [hphase]; rfl)
    simp only [PhaseKept, hphase] at hk
    exact loopTop_speaks hentry hdirect (.inl (by simpa using hk.1)) fun _ =>
      ⟨rfl, by simp, hladder⟩
  next hphase =>
    have hdirect := hdials (by rw [hphase]; rfl)
    simp only [PhaseKept, hphase] at hk
    exact loopTop_speaks hentry hdirect (.inl (by simpa using hk.1)) fun hc =>
      absurd hc (by simp [hk.2])
  next started hphase =>
    have hdirect := hdials (by rw [hphase]; rfl)
    simp only [PhaseKept, hphase] at hk
    obtain ⟨hstate, -, hd⟩ := hk
    exact loopTop_speaks hentry hdirect (.inr ⟨by simpa using hstate, hd.wanted⟩) fun _ =>
      ⟨hd.wanted, by simp, hladder⟩
  next started hphase =>
    have hdirect := hdials (by rw [hphase]; rfl)
    simp only [PhaseKept, hphase] at hk
    apply announceDisconnected_speaks hdirect (by simp [hk.1]; rfl)
    exact loopTop_speaks hentry hdirect (.inl (by simp)) fun hc => Bool.noConfusion hc
  next hphase =>
    obtain ⟨hstate, hbelow, hd⟩ := session_live hphase hk
    exact sessionEnded_speaks hentry (hdials (by rw [hphase]; rfl)) (by decide)
      (by simpa using hstate) (by simpa using hbelow) hd.wanted (fun _ => by simp) (fun _ => by simp)
  next hphase =>
    obtain ⟨hstate, hbelow, hd⟩ := session_live hphase hk
    exact sessionEnded_speaks hentry (hdials (by rw [hphase]; rfl)) (by decide)
      (by simpa using hstate) (by simpa using hbelow) hd.wanted (fun hc => absurd rfl hc)
      (fun hc => by cases hc)
  next hphase =>
    have hdirect := hdials (by rw [hphase]; rfl)
    simp only [PhaseKept, hphase] at hk
    obtain ⟨hstate, hwanted⟩ := hk
    apply announceDisconnected_speaks hdirect (by rcases hstate with h | h <;> simp [h] <;> rfl)
    exact loopTop_speaks hentry hdirect (.inl (by simp)) fun _ =>
      ⟨hwanted, by simp, by simp [backoffIdxOf]⟩
  next hphase =>
    apply Speaks.nil
    exact ⟨hentry, fun _ => hdials (by rw [hphase]; rfl), by simpa [PhaseKept, hphase] using hk⟩
  next since delay hphase =>
    have hdirect := hdials (by rw [hphase]; rfl)
    simp only [PhaseKept, hphase] at hk
    obtain ⟨hstate, -, hd⟩ := hk
    exact loopTop_speaks hentry hdirect (.inl (by simpa using hstate)) fun _ =>
      ⟨hd.wanted, by simp, hladder⟩
  next since delay hphase =>
    have hdirect := hdials (by rw [hphase]; rfl)
    simp only [PhaseKept, hphase] at hk
    exact loopTop_speaks hentry hdirect (.inl (by simpa using hk.1)) fun hc =>
      Bool.noConfusion hc

theorem slept_speaks {since delay : Nat} {r : HostSupervisor × List HostObs} (h : Kept entry tr s)
    (hphase : s.phase = .backingOff since delay) (hdue : since + delay ≤ s.now)
    (hr : r = loopTop { s with
      backoffIdx := min (s.backoffIdx + 1) (sshBackoffLadder.length - 1) }) :
    Speaks entry tr (r.1, .slept (s.now - since) :: r.2) := by
  obtain ⟨hentry, hdials, hk⟩ := h
  have hdirect := hdials (by rw [hphase]; rfl)
  simp only [PhaseKept, hphase] at hk
  obtain ⟨hstate, rfl, hd⟩ := hk
  have hwaited : chosenDelay tr ≤ s.now - since := by omega
  have hladder : s.backoffIdx = min (elapsedBackoffs tr) (sshBackoffLadder.length - 1) := hd.ladder
  subst hr
  apply Speaks.cons ⟨by simp, hwaited⟩
  refine loopTop_speaks hentry hdirect (.inl (by simpa using hstate)) fun _ =>
    ⟨hd.wanted, by simp [hd.unparked], ?_⟩
  simp only [backoffIdxOf, elapsedBackoffs_append, List.foldl_cons, List.foldl_nil,
    HostObs.followBackoffs]
  omega

/-- The step lemma: whatever it is fed, a supervisor says only what it may and keeps the
invariant. -/
theorem step_speaks {input : HostInput} {r : HostSupervisor × List HostObs} (h : Kept entry tr s)
    (hs : s.step input = some r) : Speaks entry tr r := by
  cases stretch_of_step hs with
  | elapse millis => exact .nil (h.elapse millis)
  | start hphase => exact start_speaks h hphase
  | action hr => exact Speaks.cons ⟨by simp, trivial⟩ (handle_speaks h hr)
  | closed hr => exact close_speaks h hr
  | connectDone outcome hphase => exact connectDone_speaks h hphase outcome
  | deployed capabilities hphase => exact deployed_speaks h hphase capabilities
  | heartbeat sendOk hphase hdue =>
    exact Speaks.cons ⟨by simp, trivial⟩ (heartbeat_speaks h hphase sendOk)
  | agentRemoved hphase =>
    apply Speaks.cons ⟨by simp, trivial⟩
    exact Speaks.cons ⟨by simp, trivial⟩ (afterSession_speaks h hphase)
  | slept hphase hdue hr => exact slept_speaks h hphase hdue hr

end HostSupervisor

variable {subscriptionId : Nat} {entry : HostEntry} {autoconnect : Bool} {tr : List HostObs}
  {s : HostSupervisor}

theorem kept_of_run (h : Run (supervision subscriptionId entry autoconnect) Free tr s) :
    s.Kept entry tr := by
  refine h.invariant ?_ fun tr s input s' out hr hk hok hs => (HostSupervisor.step_speaks hk hs).2
  intro s hi
  have hs : s = .new subscriptionId entry autoconnect := hi
  subst hs
  exact ⟨rfl, fun hc => Bool.noConfusion hc, rfl, rfl⟩

theorem allowed_of_run (h : Run (supervision subscriptionId entry autoconnect) Free tr s) :
    ∀ pre o post, tr = pre ++ o :: post → o.Allowed entry pre :=
  h.observed_after fun _ _ _ _ _ hr _ hs => (HostSupervisor.step_speaks (kept_of_run hr) hs).1.split

/-- A connected session runs from the announcement of `Connected` to the end of its heartbeat. -/
def HostPhase.inSession : HostPhase → Bool
  | .deploying _ | .connected _ _ _ _ => true
  | _ => false

/-- The protocol that a host supervisor keeps towards its client and its host. -/
structure HostProtocol (entry : HostEntry) (tr : List HostObs) (s : HostSupervisor) : Prop where
  states_follow : entry.proxyJump = none → ∀ pre o post state reason, tr = pre ++ o :: post →
    o.announced = some (state, reason) → HostState.mayFollow (announcedState pre) state = true
  jump_host : entry.proxyJump.isSome = true → .attempt ∉ tr ∧
    ∀ o ∈ tr, ∀ state reason, o.announced = some (state, reason) → state = .authFailed
  reason_iff_terminal : ∀ o ∈ tr, ∀ state reason, o.announced = some (state, reason) →
    reason.isSome = state.isTerminal
  no_attempt_while_parked : ∀ pre post, tr = pre ++ .attempt :: post → parked pre = false
  degraded_iff : s.phase.inSession = true → (announcedState tr = some .degraded ↔
    sshDegradedThreshold ≤ missedHeartbeats tr ∧ missedHeartbeats tr < sshDisconnectedThreshold)
  session_goes_on : s.phase.inSession = true → missedHeartbeats tr < sshDisconnectedThreshold
  session_ends_iff : ∀ pre ended post, tr = pre ++ .sessionEnded ended :: post →
    (ended = .heartbeatFailed ↔ missedHeartbeats pre = sshDisconnectedThreshold)
  backoff_on_ladder : ∀ pre delay post, tr = pre ++ .backingOff delay :: post →
    delay = ladderDelay (elapsedBackoffs pre)
  backoff_waited : ∀ pre millis post, tr = pre ++ .slept millis :: post → chosenDelay pre ≤ millis

theorem HostSupervisor.Kept.inSession (h : s.Kept entry tr) (hs : s.phase.inSession = true) :
    (announcedState tr = some .degraded ↔ sshDegradedThreshold ≤ missedHeartbeats tr) ∧
      missedHeartbeats tr < sshDisconnectedThreshold := by
  have hk := h.phase_kept
  cases hphase : s.phase with
  | deploying started =>
    simp only [HostSupervisor.PhaseKept, hphase] at hk
    obtain ⟨hstate, hmisses, -⟩ := hk
    rw [hstate, hmisses]
    decide
  | connected started deadline missCounter currentState =>
    simp only [HostSupervisor.PhaseKept, hphase] at hk
    obtain ⟨hstate, rfl, hbelow, hcurrent, -⟩ := hk
    refine ⟨?_, hbelow⟩
    rw [hstate, hcurrent]
    split
    next hlate => exact iff_of_true rfl hlate
    next hfresh => exact iff_of_false (by decide) hfresh
  | _ =>
    rw [hphase] at hs
    cases hs

theorem host_protocol (h : Run (supervision subscriptionId entry autoconnect) Free tr s) :
    HostProtocol entry tr s := by
  have hallowed := allowed_of_run h
  have hat : ∀ o ∈ tr, ∃ pre, o.Allowed entry pre := by
    intro o ho
    obtain ⟨pre, post, heq⟩ := List.append_of_mem ho
    exact ⟨pre, hallowed pre o post heq⟩
  refine ⟨?_, ?_, ?_, ?_, ?_, ?_, ?_, ?_, ?_⟩
  · intro hdirect pre o post state reason heq ho
    have hsaid := ((hallowed pre o post heq).1 state reason ho).2
    rwa [if_neg (by simp [hdirect])] at hsaid
  · intro hjump
    constructor
    · intro hattempt
      obtain ⟨pre, -, hdirect, -⟩ := hat _ hattempt
      rw [hdirect] at hjump
      cases hjump
    · intro o ho state reason hsaid
      obtain ⟨pre, hallowed, -⟩ := hat o ho
      have hstate := (hallowed state reason hsaid).2
      rwa [if_pos hjump] at hstate
  · intro o ho state reason hsaid
    obtain ⟨pre, hallowed, -⟩ := hat o ho
    exact (hallowed state reason hsaid).1
  · exact fun pre post heq => (hallowed pre _ post heq).2.2
  · intro hs
    obtain ⟨hstate, hbelow⟩ := (kept_of_run h).inSession hs
    exact hstate.trans (and_iff_left hbelow).symm
  · exact fun hs => ((kept_of_run h).inSession hs).2
  · exact fun pre ended post heq => (hallowed pre _ post heq).2
  · exact fun pre delay post heq => (hallowed pre _ post heq).2
  · exact fun pre millis post heq => (hallowed pre _ post heq).2

/-- A host without a jump host that is dialed at once, and whose second attempt succeeds. -/
theorem host_protocol_degraded : ∃ tr s,
    Run (supervision 4 ⟨"db", "10.0.0.2", "root", none⟩ true) Free tr s ∧
      .backingOff 1000 ∈ tr ∧ announcedState tr = some .degraded ∧
      HostProtocol ⟨"db", "10.0.0.2", "root", none⟩ tr s := by
  obtain ⟨tr, s, hr, hwaits, hdegraded⟩ := Run.of_replay
    (supervision 4 ⟨"db", "10.0.0.2", "root", none⟩ true) Free
    (fun tr _ => .backingOff 1000 ∈ tr ∧ announcedState tr = some .degraded) rfl
    [.start, .connectDone (some (.error (.other "timeout"))), .elapse 1000, .slept,
      .connectDone (some (.ok ())), .deployed none, .elapse 30000, .heartbeat false] (by decide)
  exact ⟨tr, s, hr, hwaits, hdegraded, host_protocol hr⟩

/-! A heartbeat fails a session only at its third tick, so the ladder never goes on from there. -/

/-- The ticks of the interval are apart, and a session's heartbeat starts after its attempt. -/
def HostSupervisor.Timed (s : HostSupervisor) : Prop :=
  match s.phase with
  | .connecting started | .deploying started => started ≤ s.now
  | .connected started deadline missCounter _ =>
    started + sshHeartbeatInterval * (missCounter + 1) ≤ deadline
  | .shuttingDown started .heartbeatFailed =>
    started + sshHeartbeatInterval * sshDisconnectedThreshold ≤ s.now
  | _ => True

namespace HostSupervisor

theorem loopTop_timed : s.loopTop.1.Timed := by
  unfold loopTop
  split
  · exact Nat.le_refl s.now
  · trivial

theorem handle_timed {action : HostAction} {r : HostSupervisor × List HostObs} (h : s.Timed)
    (hr : s.handle action = some r) : r.1.Timed := by
  unfold handle at hr
  split at hr <;> cases hr
  all_goals first
    | exact loopTop_timed
    | exact h
    | trivial

theorem heartbeat_timed {started deadline missCounter : Nat} {currentState : HostState}
    (h : s.Timed) (hphase : s.phase = .connected started deadline missCounter currentState)
    (hdue : deadline ≤ s.now) (sendOk : Bool) :
    (s.heartbeat started deadline missCounter currentState sendOk).1.Timed := by
  have hafter : started + sshHeartbeatInterval * (missCounter + 1) ≤ deadline := by
    simpa only [Timed, hphase] using h
  have hnext : deadline + sshHeartbeatInterval ≤
      s.now + sshHeartbeatInterval - (s.now - deadline) % sshHeartbeatInterval := by
    have hlate := Nat.mod_le (s.now - deadline) sshHeartbeatInterval
    omega
  have hmissed : started + sshHeartbeatInterval * (missCounter + 1 + 1) ≤
      s.now + sshHeartbeatInterval - (s.now - deadline) % sshHeartbeatInterval := by
    rw [Nat.mul_succ]
    omega
  have hfirst : sshHeartbeatInterval * (0 + 1) ≤ sshHeartbeatInterval * (missCounter + 1) :=
    Nat.mul_le_mul_left _ (by omega)
  have hfresh : started + sshHeartbeatInterval * (0 + 1) ≤
      s.now + sshHeartbeatInterval - (s.now - deadline) % sshHeartbeatInterval := by
    omega
  unfold heartbeat
  split
  · split <;> exact hfresh
  · split
    next hlost =>
      have hthree : sshHeartbeatInterval * sshDisconnectedThreshold ≤
          sshHeartbeatInterval * (missCounter + 1) := Nat.mul_le_mul_left _ hlost
      show started + sshHeartbeatInterval * sshDisconnectedThreshold ≤ s.now
      omega
    next => split <;> exact hmissed

theorem step_timed {input : HostInput} {r : HostSupervisor × List HostObs} (h : s.Timed)
    (hs : s.step input = some r) : r.1.Timed := by
  cases stretch_of_step hs with
  | elapse millis =>
    unfold Timed at h ⊢
    dsimp only
    grind
  | start hphase =>
    unfold start
    split
    · trivial
    · exact loopTop_timed
  | action hr =>
    have ht := handle_timed h hr
    exact ht
  | closed hr =>
    unfold close at hr
    split at hr <;> cases hr <;> trivial
  | connectDone outcome hphase =>
    simp only [Timed, hphase] at h
    unfold connectDone
    split
    · trivial
    · exact h
    · trivial
    · trivial
    · trivial
  | deployed capabilities hphase =>
    simp only [Timed, hphase] at h
    simp only [deployed, Timed]
    omega
  | heartbeat sendOk hphase hdue => exact heartbeat_timed h hphase hdue sendOk
  | @agentRemoved started ended hphase =>
    cases ended with
    | heartbeatFailed => trivial
    | reconnectRequested => exact loopTop_timed
    | disconnectRequested => exact loopTop_timed
    | shutdown => trivial
  | slept hphase hdue hr =>
    subst hr
    exact loopTop_timed

@[simp] theorem held_notMem_loopTop (ended : ConnectedOutcome) (millis : Nat) :
    .sessionHeld ended millis ∉ s.loopTop.2 := by
  unfold loopTop
  split <;> simp

/-- Only the end of a session says how long it held. -/
theorem step_held {input : HostInput} {r : HostSupervisor × List HostObs} {ended : ConnectedOutcome}
    {millis : Nat} (hs : s.step input = some r) (ho : .sessionHeld ended millis ∈ r.2) :
    ∃ started, s.phase = .shuttingDown started ended ∧ millis = s.now - started := by
  cases stretch_of_step hs with
  | elapse millis => simp at ho
  | start hphase =>
    unfold start at ho
    split at ho <;> simp [announceDisconnected] at ho
  | action hr =>
    unfold handle at hr
    split at hr <;> cases hr <;> simp [announceDisconnected] at ho
  | closed hr =>
    unfold close at hr
    split at hr <;> cases hr <;> simp at ho
  | connectDone outcome hphase =>
    unfold connectDone at ho
    split at ho <;> simp [announceDisconnected, waitBackoff] at ho
  | deployed capabilities hphase => simp [deployed] at ho
  | heartbeat sendOk hphase hdue =>
    unfold heartbeat at ho
    grind [emitState_eq]
  | @agentRemoved started ended' hphase =>
    cases ended' <;> simp [afterSession, announceDisconnected, waitBackoff] at ho <;>
      exact ⟨started, by rw [hphase, ho.1], ho.2⟩
  | slept hphase hdue hr =>
    subst hr
    simp at ho

end HostSupervisor

theorem timed_of_run (h : Run (supervision subscriptionId entry autoconnect) Free tr s) :
    s.Timed := by
  refine h.invariant (I := fun _ s => s.Timed) ?_ fun tr s input s' out hr ht hok hs =>
    HostSupervisor.step_timed ht hs
  intro s hi
  have hs : s = .new subscriptionId entry autoconnect := hi
  subst hs
  trivial

theorem lost_session_resets (h : Run (supervision subscriptionId entry autoconnect) Free tr s) :
    ∀ millis, .sessionHeld .heartbeatFailed millis ∈ tr → sshReconnectResetThreshold ≤ millis := by
  have hobserved : ∀ o ∈ tr, ∀ millis, o = .sessionHeld .heartbeatFailed millis →
      sshReconnectResetThreshold ≤ millis := by
    refine h.observed ?_
    rintro tr s input s' out hr - hs _ ho millis rfl
    obtain ⟨started, hphase, rfl⟩ := HostSupervisor.step_held hs ho
    have ht := timed_of_run hr
    simp only [HostSupervisor.Timed, hphase] at ht
    have hticks : sshReconnectResetThreshold ≤ sshHeartbeatInterval * sshDisconnectedThreshold := by
      decide
    omega
  exact fun millis hm => hobserved _ hm millis rfl

end Tepegoz
