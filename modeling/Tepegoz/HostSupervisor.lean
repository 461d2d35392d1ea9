import Tepegoz.Lib.Transition
import Tepegoz.Proto

namespace Tepegoz

open Transition

inductive HostAction
  | reconnect
  | disconnect
  deriving DecidableEq

/-- `other` is every error after which the supervisor tries again, with the text it displays. -/
inductive SshError
  | hostKeyMismatch (path : String) (line : Nat)
  | authFailed (reason : String)
  | other (message : String)
  deriving DecidableEq

inductive ConnectedOutcome
  | heartbeatFailed
  | reconnectRequested
  | disconnectRequested
  | shutdown
  deriving DecidableEq

/-! Times are in milliseconds. -/

def sshHeartbeatInterval : Nat := 30000

def sshDegradedThreshold : Nat := 1

def sshDisconnectedThreshold : Nat := 3

def sshReconnectResetThreshold : Nat := 30000

def sshBackoffLadder : List Nat := [1000, 2000, 5000, 15000, 60000]

/-- The entry of the ladder for an index, capped at the last one. -/
def backoffDelay (idx : Nat) : Nat :=
  sshBackoffLadder.getD (min idx (sshBackoffLadder.length - 1)) 0

/-- The awaits of `host_supervisor`. `started` is `connect_start`, `deadline` the next tick of the
heartbeat interval. -/
inductive HostPhase
  | spawned
  | jumpOnly (reason : String)
  | idle
  | connecting (started : Nat)
  | deploying (started : Nat)
  | connected (started deadline missCounter : Nat) (currentState : HostState)
  | shuttingDown (started : Nat) (ended : ConnectedOutcome)
  | terminal
  | backingOff (since delay : Nat)
  | returned
  deriving DecidableEq

structure HostSupervisor where
  subscriptionId : Nat
  entry : HostEntry
  now : Nat
  shouldConnect : Bool
  backoffIdx : Nat
  phase : HostPhase
  deriving DecidableEq

/-- What the supervisor is fed. A connect task that panicked gives no outcome. -/
inductive HostInput
  | elapse (millis : Nat)
  | start
  | action (action : HostAction)
  | closed
  | connectDone (outcome : Option (Except SshError Unit))
  | deployed (capabilities : Option (List String))
  | heartbeat (sendOk : Bool)
  | agentRemoved
  | slept
  deriving DecidableEq

inductive HostObs
  | sent (env : Envelope)
  | attempt
  | handled (action : HostAction)
  | heartbeat (sendOk : Bool)
  | sessionEnded (ended : ConnectedOutcome)
  | sessionHeld (ended : ConnectedOutcome) (millis : Nat)
  | backingOff (delay : Nat)
  | slept (millis : Nat)
  deriving DecidableEq

def connectOutcomeErrReason : Except SshError Unit → String
  | .ok () => ""
  | .error (.authFailed reason) => reason
  | .error (.hostKeyMismatch path line) =>
    "host-key TOFU rejected — stored key at " ++ path ++ ":" ++ toString line ++
      " does not match; recover with `tepegoz doctor --ssh-forget <alias>` after verifying"
  | .error (.other message) => message

namespace HostSupervisor

def new (subscriptionId : Nat) (entry : HostEntry) (autoconnect : Bool) : HostSupervisor :=
  ⟨subscriptionId, entry, 0, autoconnect, 0, .spawned⟩

variable (s : HostSupervisor)

def emitState (state : HostState) (reason : Option String) : HostObs :=
  .sent (envelope (.event s.subscriptionId (.hostStateChanged s.entry.hostAlias state reason)))

def emitAgentCapabilities (capabilities : List String) : HostObs :=
  .sent (envelope (.event s.subscriptionId (.agentCapabilities s.entry.hostAlias capabilities)))

/-- The supervisor announces that it is disconnected and goes on. -/
def announceDisconnected (next : HostSupervisor × List HostObs) : HostSupervisor × List HostObs :=
  (next.1, s.emitState .disconnected none :: next.2)

/-- From the top of the outer loop to its first await. -/
def loopTop : HostSupervisor × List HostObs :=
  if s.shouldConnect then
    ({ s with phase := .connecting s.now }, [s.emitState .connecting none, .attempt])
  else
    ({ s with phase := .idle }, [])

def start : HostSupervisor × List HostObs :=
  match s.entry.proxyJump with
  | some jump =>
    let reason := "host requires ProxyJump (" ++ jump ++
      ") which is not supported in Phase 5 (v1.1)"
    ({ s with phase := .jumpOnly reason }, [s.emitState .authFailed (some reason)])
  | none => s.announceDisconnected s.loopTop

/-- Enter `wait_backoff`. -/
def waitBackoff : HostSupervisor × List HostObs :=
  let delay := backoffDelay s.backoffIdx
  ({ s with phase := .backingOff s.now delay }, [.backingOff delay])

/-- An action from the coordinator, wherever the supervisor receives one. -/
def handle (action : HostAction) : Option (HostSupervisor × List HostObs) :=
  let reset := { s with shouldConnect := true, backoffIdx := 0 }
  let parked := { s with shouldConnect := false }
  match s.phase, action with
  | .jumpOnly reason, .reconnect => some (s, [s.emitState .authFailed (some reason)])
  | .jumpOnly _, .disconnect => some (s, [])
  | .idle, .reconnect => some reset.loopTop
  | .idle, .disconnect => some s.loopTop
  | .connecting _, .reconnect => some { s with backoffIdx := 0 }.loopTop
  | .connecting _, .disconnect => some (s.announceDisconnected parked.loopTop)
  | .connected started _ _ _, .reconnect =>
    some ({ s with phase := .shuttingDown started .reconnectRequested },
      [.sessionEnded .reconnectRequested])
  | .connected started _ _ _, .disconnect =>
    some ({ s with phase := .shuttingDown started .disconnectRequested },
      [.sessionEnded .disconnectRequested])
  | .terminal, .reconnect => some (s.announceDisconnected { s with backoffIdx := 0 }.loopTop)
  | .terminal, .disconnect => some (s, [])
  | .backingOff _ _, .reconnect => some { s with backoffIdx := 0 }.loopTop
  | .backingOff _ _, .disconnect => some parked.loopTop
  | _, _ => none

/-- The coordinator is gone: `recv` answers `None`. -/
def close : Option (HostSupervisor × List HostObs) :=
  match s.phase with
  | .jumpOnly _ | .idle | .connecting _ | .terminal | .backingOff _ _ =>
    some ({ s with phase := .returned }, [])
  | .connected started _ _ _ =>
    some ({ s with phase := .shuttingDown started .shutdown }, [.sessionEnded .shutdown])
  | _ => none

def connectDone (started : Nat) : Option (Except SshError Unit) → HostSupervisor × List HostObs
  | none => s.announceDisconnected s.waitBackoff
  | some (.ok ()) => ({ s with phase := .deploying started }, [s.emitState .connected none])
  | some (.error (.hostKeyMismatch path line)) =>
    let reason := connectOutcomeErrReason (.error (.hostKeyMismatch path line))
    ({ s with phase := .terminal }, [s.emitState .hostKeyMismatch (some reason)])
  | some (.error (.authFailed reason)) =>
    let reason := connectOutcomeErrReason (.error (.authFailed reason))
    ({ s with phase := .terminal }, [s.emitState .authFailed (some reason)])
  | some (.error (.other _)) => s.announceDisconnected s.waitBackoff

/-- `deploy_and_register_agent` is done; `run_connected_session` consumes its first tick. -/
def deployed (started : Nat) (capabilities : Option (List String)) :
    HostSupervisor × List HostObs :=
  ({ s with phase := .connected started (s.now + sshHeartbeatInterval) 0 .connected },
    [s.emitAgentCapabilities (capabilities.getD [])])

/-- One tick of the heartbeat interval, which skips the ticks it missed. -/
def heartbeat (started deadline missCounter : Nat) (currentState : HostState) (sendOk : Bool) :
    HostSupervisor × List HostObs :=
  let next := s.now + sshHeartbeatInterval - (s.now - deadline) % sshHeartbeatInterval
  if sendOk then
    if missCounter > 0 ∧ currentState = .degraded then
      ({ s with phase := .connected started next 0 .connected }, [s.emitState .connected none])
    else
      ({ s with phase := .connected started next 0 currentState }, [])
  else if missCounter + 1 ≥ sshDisconnectedThreshold then
    ({ s with phase := .shuttingDown started .heartbeatFailed }, [.sessionEnded .heartbeatFailed])
  else if missCounter + 1 ≥ sshDegradedThreshold ∧ currentState ≠ .degraded then
    ({ s with phase := .connected started next (missCounter + 1) .degraded },
      [s.emitState .degraded none])
  else
    ({ s with phase := .connected started next (missCounter + 1) currentState }, [])

/-- What follows a session, once its agent is out of the pool. -/
def afterSession (started : Nat) (ended : ConnectedOutcome) : HostSupervisor × List HostObs :=
  match ended with
  | .heartbeatFailed =>
    let held := s.now - started
    let idx := if held ≥ sshReconnectResetThreshold then 0 else s.backoffIdx
    s.announceDisconnected { s with backoffIdx := idx }.waitBackoff
  | .reconnectRequested => s.announceDisconnected { s with backoffIdx := 0 }.loopTop
  | .disconnectRequested => s.announceDisconnected { s with shouldConnect := false }.loopTop
  | .shutdown => ({ s with phase := .returned }, [])

def step : HostInput → Option (HostSupervisor × List HostObs)
  | .elapse millis => some ({ s with now := s.now + millis }, [])
  | .start =>
    match s.phase with
    | .spawned => some s.start
    | _ => none
  | .action action => (s.handle action).map fun r => (r.1, .handled action :: r.2)
  | .closed => s.close
  | .connectDone outcome =>
    match s.phase with
    | .connecting started => some (s.connectDone started outcome)
    | _ => none
  | .deployed capabilities =>
    match s.phase with
    | .deploying started => some (s.deployed started capabilities)
    | _ => none
  | .heartbeat sendOk =>
    match s.phase with
    | .connected started deadline missCounter currentState =>
      if deadline ≤ s.now then
        let r := s.heartbeat started deadline missCounter currentState sendOk
        some (r.1, .heartbeat sendOk :: r.2)
      else none
    | _ => none
  | .agentRemoved =>
    match s.phase with
    | .shuttingDown started ended =>
      let r := s.afterSession started ended
      some (r.1, s.emitAgentCapabilities [] :: .sessionHeld ended (s.now - started) :: r.2)
    | _ => none
  | .slept =>
    match s.phase with
    | .backingOff since delay =>
      if since + delay ≤ s.now then
        let idx := min (s.backoffIdx + 1) (sshBackoffLadder.length - 1)
        let r := { s with backoffIdx := idx }.loopTop
        some (r.1, .slept (s.now - since) :: r.2)
      else none
    | _ => none

/-- The stretches of the supervisor's code, each between two awaits. -/
inductive Stretch (s : HostSupervisor) : HostInput → HostSupervisor × List HostObs → Prop
  | elapse (millis : Nat) : Stretch s (.elapse millis) ({ s with now := s.now + millis }, [])
  | start : s.phase = .spawned → Stretch s .start s.start
  | action {action : HostAction} {r} : s.handle action = some r →
      Stretch s (.action action) (r.1, .handled action :: r.2)
  | closed {r} : s.close = some r → Stretch s .closed r
  | connectDone {started : Nat} (outcome) : s.phase = .connecting started →
      Stretch s (.connectDone outcome) (s.connectDone started outcome)
  | deployed {started : Nat} (capabilities) : s.phase = .deploying started →
      Stretch s (.deployed capabilities) (s.deployed started capabilities)
  | heartbeat {started deadline missCounter currentState} (sendOk) :
      s.phase = .connected started deadline missCounter currentState → deadline ≤ s.now →
      Stretch s (.heartbeat sendOk)
        ((s.heartbeat started deadline missCounter currentState sendOk).1, .heartbeat sendOk ::
          (s.heartbeat started deadline missCounter currentState sendOk).2)
  | agentRemoved {started ended} : s.phase = .shuttingDown started ended →
      Stretch s .agentRemoved ((s.afterSession started ended).1,
        s.emitAgentCapabilities [] :: .sessionHeld ended (s.now - started) ::
          (s.afterSession started ended).2)
  | slept {since delay r} : s.phase = .backingOff since delay → since + delay ≤ s.now →
      r = loopTop { s with
        backoffIdx := min (s.backoffIdx + 1) (sshBackoffLadder.length - 1) } →
      Stretch s .slept (r.1, .slept (s.now - since) :: r.2)

variable {s}

theorem stretch_of_step {input : HostInput} {r : HostSupervisor × List HostObs}
    (hs : s.step input = some r) : Stretch s input r := by
  cases input with
  | elapse millis => exact Option.some.inj hs ▸ .elapse millis
  | start =>
    simp only [step] at hs
    split at hs
    next hphase => exact Option.some.inj hs ▸ .start hphase
    next => cases hs
  | action action =>
    obtain ⟨r', hr, heq⟩ := Option.map_eq_some_iff.mp hs
    exact heq ▸ .action hr
  | closed => exact .closed hs
  | connectDone outcome =>
    simp only [step] at hs
    split at hs
    next hphase => exact Option.some.inj hs ▸ .connectDone outcome hphase
    next => cases hs
  | deployed capabilities =>
    simp only [step] at hs
    split at hs
    next hphase => exact Option.some.inj hs ▸ .deployed capabilities hphase
    next => cases hs
  | heartbeat sendOk =>
    simp only [step] at hs
    split at hs
    next hphase =>
      split at hs
      next hdue => exact Option.some.inj hs ▸ .heartbeat sendOk hphase hdue
      next => cases hs
    next => cases hs
  | agentRemoved =>
    simp only [step] at hs
    split at hs
    next hphase => exact Option.some.inj hs ▸ .agentRemoved hphase
    next => cases hs
  | slept =>
    simp only [step] at hs
    split at hs
    next hphase =>
      split at hs
      next hdue => exact Option.some.inj hs ▸ .slept hphase hdue rfl
      next => cases hs
    next => cases hs

end HostSupervisor

/-- The supervisor of one host, from its spawn on. -/
def supervision (subscriptionId : Nat) (entry : HostEntry) (autoconnect : Bool) :
    System HostSupervisor HostInput HostObs :=
  ⟨fun s => s = .new subscriptionId entry autoconnect, fun s input => s.step input⟩

end Tepegoz
