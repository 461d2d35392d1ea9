import Mathlib.Logic.Function.Basic
import Tepegoz.Lib.Broadcast
import Tepegoz.Proto
import Tepegoz.Scrollback

namespace Tepegoz

open Broadcast

inductive PaneUpdate
  | bytes (data : Bytes)
  | exit (exitCode : Option Int)
  deriving DecidableEq

/-- What a forwarder makes of an update. -/
def PaneUpdate.event : PaneUpdate → Event
  | .bytes data => .paneOutput data
  | .exit exitCode => .paneExit exitCode

def broadcastChannelSize : Nat := 1024

def defaultRingCapacity : Nat := 2 * 1024 * 1024

/-- Who holds the scrollback mutex of a pane. -/
inductive Holder
  | writer
  | subscriber (k : Nat)
  deriving DecidableEq

/-- Where a forwarder task stands. The first four steps are the body of `subscribe`. -/
inductive ForwardPc
  | start
  | locked
  | snapped
  | attached
  | subscribed
  | opened
  | streaming
  | closed
  deriving DecidableEq

def ForwardPc.holdsLock : ForwardPc → Bool
  | .locked | .snapped | .attached => true
  | _ => false

/-- One client's view of a pane. `emitted` is what went to its `event_tx`, `start` the number of
output bytes that precede the snapshot. -/
structure Forwarder where
  pc : ForwardPc
  snapshot : Bytes
  start : Nat
  rx : Option Receiver
  emitted : List Event
  lagged : Bool

def Forwarder.fresh : Forwarder := ⟨.start, [], 0, none, [], false⟩

/-- What the local and the remote pane have in common. `appended` records everything that ever
went into the ring. -/
structure PaneCore where
  rows : Nat
  cols : Nat
  channel : Channel PaneUpdate
  scrollback : Scrollback
  lock : Option Holder
  exitCode : Option Int
  alive : Bool
  appended : Bytes
  forwarders : Nat → Forwarder

def bytesOf (updates : List PaneUpdate) : Bytes :=
  updates.flatMap fun
    | .bytes data => data
    | .exit _ => []

/-- The live output in a list of events. -/
def outputOf (events : List Event) : Bytes :=
  events.flatMap fun
    | .paneOutput data => data
    | _ => []

@[simp] theorem bytesOf_nil : bytesOf [] = [] := rfl

@[simp] theorem bytesOf_append (xs ys : List PaneUpdate) :
    bytesOf (xs ++ ys) = bytesOf xs ++ bytesOf ys := by simp [bytesOf]

@[simp] theorem bytesOf_bytes (data : Bytes) (rest : List PaneUpdate) :
    bytesOf (.bytes data :: rest) = data ++ bytesOf rest := by simp [bytesOf]

@[simp] theorem bytesOf_exit (code : Option Int) (rest : List PaneUpdate) :
    bytesOf (.exit code :: rest) = bytesOf rest := by simp [bytesOf]

@[simp] theorem outputOf_nil : outputOf [] = [] := rfl

@[simp] theorem outputOf_append (xs ys : List Event) :
    outputOf (xs ++ ys) = outputOf xs ++ outputOf ys := by simp [outputOf]

@[simp] theorem outputOf_paneOutput (data : Bytes) : outputOf [.paneOutput data] = data := by
  simp [outputOf]

@[simp] theorem outputOf_paneSnapshot (data : Bytes) (rows cols : Nat) :
    outputOf [.paneSnapshot data rows cols] = [] := rfl

@[simp] theorem outputOf_paneExit (code : Option Int) : outputOf [.paneExit code] = [] := rfl

@[simp] theorem outputOf_paneLagged (n : Nat) : outputOf [.paneLagged n] = [] := rfl

namespace PaneCore

def initial (rows cols senders : Nat) : PaneCore where
  rows := rows
  cols := cols
  channel := ⟨[], senders⟩
  scrollback := .empty defaultRingCapacity
  lock := none
  exitCode := none
  alive := true
  appended := []
  forwarders := fun _ => .fresh

def setForwarder (s : PaneCore) (k : Nat) (f : Forwarder) : PaneCore :=
  { s with forwarders := Function.update s.forwarders k f }

def lockBy (s : PaneCore) (holder : Holder) : Option PaneCore :=
  if s.lock = none then some { s with lock := some holder } else none

def unlock (s : PaneCore) : PaneCore := { s with lock := none }

def append (s : PaneCore) (data : Bytes) : PaneCore :=
  { s with scrollback := s.scrollback.append data, appended := s.appended ++ data }

def broadcast (s : PaneCore) (update : PaneUpdate) : PaneCore :=
  { s with channel := s.channel.send update }

/-- One step of the forwarder's receive loop. Only the local forwarder sends an exit notice when
the channel is closed. -/
def receive (exitOnClosed : Bool) (s : PaneCore) (f : Forwarder) (rx : Receiver) :
    Option Forwarder :=
  match s.channel.recv broadcastChannelSize rx with
  | (.value (.bytes data), rx') =>
    some { f with rx := some rx', emitted := f.emitted ++ [.paneOutput data] }
  | (.value (.exit code), rx') =>
    some { f with pc := .closed, rx := some rx', emitted := f.emitted ++ [.paneExit code] }
  | (.lagged n, rx') =>
    some { f with rx := some rx', emitted := f.emitted ++ [.paneLagged n], lagged := true }
  | (.closed, _) =>
    some { f with
      pc := .closed
      emitted := if exitOnClosed then f.emitted ++ [.paneExit s.exitCode] else f.emitted }
  | (.empty, _) => none

/-- `subscribe`: take the lock, copy the ring, subscribe, release. -/
def enter (k : Nat) (s : PaneCore) : Option PaneCore := do
  let s ← s.lockBy (.subscriber k)
  some (s.setForwarder k { s.forwarders k with pc := .locked })

def snap (k : Nat) (s : PaneCore) : PaneCore :=
  let snapshot := s.scrollback.snapshot
  s.setForwarder k { s.forwarders k with
    pc := .snapped, snapshot := snapshot, start := s.appended.length - snapshot.length }

def attach (k : Nat) (s : PaneCore) : PaneCore :=
  s.setForwarder k { s.forwarders k with pc := .attached, rx := some s.channel.subscribe }

def leave (k : Nat) (s : PaneCore) : PaneCore :=
  s.unlock.setForwarder k { s.forwarders k with pc := .subscribed }

/-- The events a forwarder sends before its loop: the snapshot, and an exit notice if the pane is
dead already. -/
def announce (k : Nat) (s : PaneCore) : PaneCore :=
  let f := s.forwarders k
  s.setForwarder k { f with
    pc := .opened, emitted := f.emitted ++ [.paneSnapshot f.snapshot s.rows s.cols] }

def check (k : Nat) (s : PaneCore) : PaneCore :=
  let f := s.forwarders k
  s.setForwarder k (if s.alive then { f with pc := .streaming }
    else { f with pc := .closed, emitted := f.emitted ++ [.paneExit s.exitCode] })

def stream (exitOnClosed : Bool) (k : Nat) (s : PaneCore) : Option PaneCore := do
  let rx ← (s.forwarders k).rx
  let f ← s.receive exitOnClosed (s.forwarders k) rx
  some (s.setForwarder k f)

/-- `forward_pane` and `forward_remote_pane`, one step at a time. -/
def forward (exitOnClosed : Bool) (k : Nat) (s : PaneCore) : Option PaneCore :=
  match (s.forwarders k).pc with
  | .start => s.enter k
  | .locked => some (s.snap k)
  | .snapped => some (s.attach k)
  | .attached => some (s.leave k)
  | .subscribed => some (s.announce k)
  | .opened => some (s.check k)
  | .streaming => s.stream exitOnClosed k
  | .closed => none

/-- The task is aborted, or its client's `event_tx` is gone. Neither happens inside `subscribe`,
which does not await. -/
def abandon (k : Nat) (s : PaneCore) : Option PaneCore :=
  let f := s.forwarders k
  if f.pc.holdsLock then none else some (s.setForwarder k { f with pc := .closed })

@[simp] theorem setForwarder_same (s : PaneCore) (k : Nat) (f : Forwarder) :
    (s.setForwarder k f).forwarders k = f := by simp [setForwarder]

theorem setForwarder_other {s : PaneCore} {j k : Nat} {f : Forwarder} (h : j ≠ k) :
    (s.setForwarder k f).forwarders j = s.forwarders j := by simp [setForwarder, h]

theorem lockBy_some {s s' : PaneCore} {holder : Holder} (h : s.lockBy holder = some s') :
    s.lock = none ∧ s' = { s with lock := some holder } := by
  unfold lockBy at h
  split at h
  next hl => exact ⟨hl, (Option.some.inj h).symm⟩
  next => simp at h

/-- A forwarder step touches its own forwarder and the lock only, and the lock only where it takes
or releases it. -/
theorem forward_frame {s s' : PaneCore} {exitOnClosed : Bool} {k : Nat}
    (h : s.forward exitOnClosed k = some s') :
    ∃ f lock, s' = { s.setForwarder k f with lock := lock } ∧
      (lock = s.lock ∨ s.lock = none ∨ (s.forwarders k).pc = .attached) := by
  unfold forward at h
  split at h
  next =>
    obtain ⟨t, ht, h⟩ := Option.bind_eq_some_iff.mp h
    obtain rfl := Option.some.inj h
    obtain ⟨hn, rfl⟩ := lockBy_some ht
    exact ⟨_, _, rfl, .inr (.inl hn)⟩
  next => cases Option.some.inj h; exact ⟨_, _, rfl, .inl rfl⟩
  next => cases Option.some.inj h; exact ⟨_, _, rfl, .inl rfl⟩
  next hp => cases Option.some.inj h; exact ⟨_, _, rfl, .inr (.inr hp)⟩
  next => cases Option.some.inj h; exact ⟨_, _, rfl, .inl rfl⟩
  next => cases Option.some.inj h; exact ⟨_, _, rfl, .inl rfl⟩
  next =>
    obtain ⟨rx, -, h⟩ := Option.bind_eq_some_iff.mp h
    obtain ⟨f, -, h⟩ := Option.bind_eq_some_iff.mp h
    obtain rfl := Option.some.inj h
    exact ⟨_, _, rfl, .inl rfl⟩
  next => simp at h

theorem abandon_frame {s s' : PaneCore} {k : Nat} (h : s.abandon k = some s') :
    s' = s.setForwarder k { s.forwarders k with pc := .closed } := by
  simp only [abandon] at h
  split at h
  next => simp at h
  next => exact (Option.some.inj h).symm

/-- A forwarder whose channel still holds the next update sends it on. -/
theorem receive_unread {s : PaneCore} {rx : Receiver} {update : PaneUpdate} {rest : List PaneUpdate}
    (exitOnClosed : Bool) (f : Forwarder) (hu : s.channel.unread rx = update :: rest)
    (hn : rest.length < broadcastChannelSize) : ∃ f' rx', s.receive exitOnClosed f rx = some f' ∧
      f'.emitted = f.emitted ++ [update.event] ∧ f'.rx = some rx' ∧ s.channel.unread rx' = rest ∧
        (∀ data, update = .bytes data → f'.pc = f.pc) := by
  have hrecv := Channel.recv_of_unread hu hn
  have hrest : s.channel.unread ⟨rx.next + 1⟩ = rest :=
    List.cons_inj_right _ |>.mp ((Channel.recv_value hrecv).1.symm.trans hu)
  unfold receive
  rw [hrecv]
  cases update with
  | bytes data => exact ⟨_, _, rfl, rfl, rfl, hrest, fun _ _ => rfl⟩
  | exit code => exact ⟨_, _, rfl, rfl, rfl, hrest, fun _ h => by cases h⟩

end PaneCore

end Tepegoz
