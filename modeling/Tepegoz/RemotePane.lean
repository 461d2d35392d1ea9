import Tepegoz.Lib.Transition
import Tepegoz.PaneHandoff

namespace Tepegoz

open Transition Broadcast

/-- What `channel.wait()` yields; `ended` is its `None`, `other` are the messages it ignores. -/
inductive ChannelMsg
  | data (data : Bytes)
  | extendedData (data : Bytes) (ext : UInt32)
  | exitStatus (exitStatus : UInt32)
  | close
  | eof
  | other
  | ended
  deriving DecidableEq

inductive RemotePaneCmd
  | data (data : Bytes)
  | resize (rows cols : Nat)
  | close
  deriving DecidableEq

/-- The driver task between two lines of `drive_channel`. Here the lock is released before the
chunk is sent. -/
inductive DriverPc
  | waiting
  | got (chunk : Bytes)
  | locked (chunk : Bytes)
  | appended (chunk : Bytes)
  | unlocked (chunk : Bytes)
  | left
  | marked
  | exiting (exitCode : Option Int)
  | ended
  deriving DecidableEq

structure RemotePane where
  core : PaneCore
  commands : List RemotePaneCmd
  driver : DriverPc

inductive RemoteAct
  | message (msg : ChannelMsg)
  | command (written : Bool)
  | hangUp
  | driver
  | sendInput (data : Bytes)
  | resize (rows cols : Nat)
  | close
  | forward (k : Nat)
  | abandon (k : Nat)
  deriving DecidableEq

def DriverPc.holdsLock : DriverPc → Bool
  | .locked _ | .appended _ => true
  | _ => false

def DriverPc.unsent : DriverPc → Bytes
  | .appended chunk | .unlocked chunk => chunk
  | _ => []

def DriverPc.inFlight : DriverPc → Bytes
  | .got chunk | .locked chunk | .appended chunk | .unlocked chunk => chunk
  | _ => []

def DriverPc.unappended : DriverPc → Bytes
  | .got chunk | .locked chunk => chunk
  | _ => []

/-- The cast `as i32`. -/
def asI32 (n : UInt32) : Int := n.toBitVec.toInt

namespace RemotePane

def spawn (rows cols : Nat) : RemotePane := ⟨.initial rows cols 2, [], .waiting⟩

/-- Everything the SSH channel has delivered. -/
def output (s : RemotePane) : Bytes := s.core.appended ++ s.driver.unappended

/-- The branch of `select!` that a channel message takes. -/
def onMessage (s : RemotePane) : ChannelMsg → RemotePane
  | .data data | .extendedData data _ => { s with driver := .got data }
  | .exitStatus status => { s with core := { s.core with exitCode := some (asI32 status) } }
  | .close | .eof | .ended => { s with driver := .left }
  | .other => s

/-- The branch of `select!` that a command takes; `written` tells whether `channel.data` worked. -/
def onCommand (s : RemotePane) (written : Bool) : RemotePaneCmd → RemotePane
  | .data _ => if written then s else { s with driver := .left }
  | .resize _ _ => s
  | .close => { s with driver := .left }

/-- `drive_channel`, between two turns of its loop and after the loop. -/
def driverStep (s : RemotePane) : Option RemotePane :=
  match s.driver with
  | .got chunk => do
    let core ← s.core.lockBy .writer
    some { s with core := core, driver := .locked chunk }
  | .locked chunk => some { s with core := s.core.append chunk, driver := .appended chunk }
  | .appended chunk => some { s with core := s.core.unlock, driver := .unlocked chunk }
  | .unlocked chunk => some { s with core := s.core.broadcast (.bytes chunk), driver := .waiting }
  | .left => some { s with core := { s.core with alive := false }, driver := .marked }
  | .marked => some { s with driver := .exiting s.core.exitCode }
  | .exiting code =>
    let core := s.core.broadcast (.exit code)
    some { s with
      core := { core with channel := core.channel.dropSender }, driver := .ended }
  | .waiting | .ended => none

/-- The loop is biased towards commands, so a message is taken only when none is queued. -/
def next (s : RemotePane) : RemoteAct → Option RemotePane
  | .message msg =>
    if s.driver = .waiting ∧ s.commands = [] then some (s.onMessage msg) else none
  | .command written =>
    match s.commands with
    | cmd :: rest =>
      if s.driver = .waiting then some ({ s with commands := rest }.onCommand written cmd) else none
    | [] => none
  | .hangUp =>
    if s.driver = .waiting ∧ s.commands = [] then some { s with driver := .left } else none
  | .driver => s.driverStep
  | .sendInput data =>
    if s.driver = .ended then none else some { s with commands := s.commands ++ [.data data] }
  | .resize rows cols =>
    let core := { s.core with rows := rows, cols := cols }
    if s.driver = .ended then some { s with core := core }
    else some { s with core := core, commands := s.commands ++ [.resize rows cols] }
  | .close =>
    if s.driver = .ended then none else some { s with commands := s.commands ++ [.close] }
  | .forward k => do
    let core ← s.core.forward false k
    some { s with core := core }
  | .abandon k => do
    let core ← s.core.abandon k
    some { s with core := core }

end RemotePane

def remotePane : System RemotePane RemoteAct Empty :=
  .silent (fun s => ∃ rows cols, s = .spawn rows cols) RemotePane.next

/-- No subscriber attaches to the channel while a chunk is in the ring and not yet sent. -/
def AttachedOutsideGap : List Empty → RemotePane → RemoteAct → Prop
  | _, s, .forward k => (s.core.forwarders k).pc = .snapped → s.driver.unsent = []
  | _, _, _ => True

instance (tr : List Empty) (s : RemotePane) : (a : RemoteAct) → Decidable (AttachedOutsideGap tr s a)
  | .forward _ => inferInstanceAs (Decidable (_ → _))
  | .message _ | .command _ | .hangUp | .driver | .sendInput _ | .resize _ _ | .close
  | .abandon _ => .isTrue trivial

structure RemotePane.Inv (s : RemotePane) : Prop where
  handoff : Handoff s.core s.driver.unsent
  locked : s.driver.holdsLock = true → s.core.lock = some .writer

namespace RemotePane

variable {s s' : RemotePane}

theorem inv_spawn (rows cols : Nat) : (spawn rows cols).Inv :=
  ⟨handoff_initial rows cols 2, by simp [spawn, DriverPc.holdsLock]⟩

/-- A waiting driver has nothing in hand, wherever it goes from there. -/
theorem Inv.turn {core : PaneCore} {commands : List RemotePaneCmd} {driver : DriverPc} (h : s.Inv)
    (hw : s.driver = .waiting) (hc : core = { s.core with exitCode := core.exitCode })
    (hu : driver.unsent = []) (hl : driver.holdsLock = false) :
    (⟨core, commands, driver⟩ : RemotePane).Inv := by
  have hh := h.handoff
  rw [hw] at hh
  refine ⟨?_, by simp [hl]⟩
  rw [hu, hc]
  exact hh.congr rfl rfl rfl rfl rfl

theorem Inv.onMessage (h : s.Inv) (hw : s.driver = .waiting) (msg : ChannelMsg) :
    (s.onMessage msg).Inv := by
  cases msg with
  | data data => exact h.turn hw rfl rfl rfl
  | extendedData data ext => exact h.turn hw rfl rfl rfl
  | exitStatus status => exact h.turn hw rfl (by rw [hw]; rfl) (by rw [hw]; rfl)
  | close => exact h.turn hw rfl rfl rfl
  | eof => exact h.turn hw rfl rfl rfl
  | other => exact h
  | ended => exact h.turn hw rfl rfl rfl

theorem Inv.onCommand (h : s.Inv) (hw : s.driver = .waiting) (written : Bool)
    (cmd : RemotePaneCmd) : (s.onCommand written cmd).Inv := by
  cases cmd with
  | data data =>
    cases written with
    | true => exact h
    | false => exact h.turn hw rfl rfl rfl
  | resize rows cols => exact h
  | close => exact h.turn hw rfl rfl rfl

theorem Inv.driverStep (h : s.Inv) (hs : s.driverStep = some s') : s'.Inv := by
  have hh := h.handoff
  have hl := h.locked
  unfold RemotePane.driverStep at hs
  split at hs
  next chunk hd =>
    obtain ⟨core, hc, hs⟩ := Option.bind_eq_some_iff.mp hs
    obtain rfl := Option.some.inj hs
    rw [hd] at hh
    obtain ⟨-, rfl⟩ := PaneCore.lockBy_some hc
    exact ⟨hh.lockWriter hc, fun _ => rfl⟩
  next chunk hd =>
    obtain rfl := Option.some.inj hs
    rw [hd] at hh hl
    exact ⟨hh.append (hl rfl) chunk, fun _ => hl rfl⟩
  next chunk hd =>
    obtain rfl := Option.some.inj hs
    rw [hd] at hh hl
    exact ⟨hh.unlockWriter (hl rfl), by simp [DriverPc.holdsLock]⟩
  next chunk hd =>
    obtain rfl := Option.some.inj hs
    rw [hd] at hh
    exact ⟨hh.broadcastBytes, by simp [DriverPc.holdsLock]⟩
  next hd =>
    obtain rfl := Option.some.inj hs
    rw [hd] at hh
    exact ⟨hh.congr rfl rfl rfl rfl rfl, by simp [DriverPc.holdsLock]⟩
  next hd =>
    obtain rfl := Option.some.inj hs
    rw [hd] at hh
    exact ⟨hh, by simp [DriverPc.holdsLock]⟩
  next code hd =>
    obtain rfl := Option.some.inj hs
    rw [hd] at hh
    exact ⟨(hh.broadcastExit code).congr rfl rfl rfl rfl rfl, by simp [DriverPc.holdsLock]⟩
  next => simp at hs
  next => simp at hs

theorem Inv.step {a : RemoteAct} (h : s.Inv) (hok : AttachedOutsideGap [] s a)
    (hs : s.next a = some s') : s'.Inv := by
  cases a with
  | message msg =>
    simp only [RemotePane.next, Option.ite_none_right_eq_some, Option.some.injEq] at hs
    obtain ⟨⟨hw, -⟩, rfl⟩ := hs
    exact h.onMessage hw msg
  | command written =>
    simp only [RemotePane.next] at hs
    split at hs
    next cmd rest hc =>
      simp only [Option.ite_none_right_eq_some, Option.some.injEq] at hs
      obtain ⟨hw, rfl⟩ := hs
      have hrest : ({ s with commands := rest } : RemotePane).Inv := ⟨h.handoff, h.locked⟩
      exact hrest.onCommand hw written cmd
    next => simp at hs
  | hangUp =>
    simp only [RemotePane.next, Option.ite_none_right_eq_some, Option.some.injEq] at hs
    obtain ⟨⟨hw, -⟩, rfl⟩ := hs
    exact h.turn hw rfl rfl rfl
  | driver => exact h.driverStep hs
  | sendInput data =>
    simp only [RemotePane.next, Option.ite_none_left_eq_some, Option.some.injEq] at hs
    obtain ⟨-, rfl⟩ := hs
    exact ⟨h.handoff, h.locked⟩
  | resize rows cols =>
    have hh : Handoff { s.core with rows := rows, cols := cols } s.driver.unsent :=
      h.handoff.congr rfl rfl rfl rfl rfl
    simp only [RemotePane.next] at hs
    split at hs
    next => cases Option.some.inj hs; exact ⟨hh, h.locked⟩
    next => cases Option.some.inj hs; exact ⟨hh, h.locked⟩
  | close =>
    simp only [RemotePane.next, Option.ite_none_left_eq_some, Option.some.injEq] at hs
    obtain ⟨-, rfl⟩ := hs
    exact ⟨h.handoff, h.locked⟩
  | forward k =>
    obtain ⟨core, hc, hs⟩ := Option.bind_eq_some_iff.mp hs
    cases Option.some.inj hs
    exact ⟨h.handoff.forward hok hc, fun hd => h.handoff.forward_writer (h.locked hd) hc⟩
  | abandon k =>
    obtain ⟨core, hc, hs⟩ := Option.bind_eq_some_iff.mp hs
    cases Option.some.inj hs
    obtain rfl := PaneCore.abandon_frame hc
    exact ⟨h.handoff.abandon hc, h.locked⟩

theorem inv_of_run {tr : List Empty} (h : Run remotePane AttachedOutsideGap tr s) : s.Inv := by
  refine h.invariant (I := fun _ s => s.Inv) ?_ ?_
  · rintro _ ⟨rows, cols, rfl⟩
    exact inv_spawn rows cols
  · intro tr s l s' out _ hi hok hs
    exact hi.step (by cases l <;> exact hok) (System.silent_step.mp hs).1

theorem Inv.output_eq (h : s.Inv) : s.output = bytesOf s.core.channel.sent ++ s.driver.inFlight := by
  have hsent := h.handoff.sent
  unfold output
  cases hd : s.driver <;> simp_all [DriverPc.unsent, DriverPc.unappended, DriverPc.inFlight]

end RemotePane

/-- The hand-off of the local pane, for runs in which every subscriber attaches outside the gap. -/
theorem remote_subscribe_exactly_once {tr : List Empty} {s : RemotePane} {k : Nat} {rx : Receiver}
    (h : Run remotePane AttachedOutsideGap tr s) (hr : (s.core.forwarders k).rx = some rx)
    (hl : (s.core.forwarders k).lagged = false) :
    (s.core.forwarders k).snapshot ++ outputOf (s.core.forwarders k).emitted ++
        bytesOf (s.core.channel.unread rx) ++ s.driver.inFlight =
      s.output.drop (s.core.forwarders k).start ∧
    (s.core.forwarders k).start + (s.core.forwarders k).snapshot.length ≤ s.output.length := by
  have hi := RemotePane.inv_of_run h
  exact hi.handoff.delivered hi.output_eq hr hl

/-- A subscriber that comes between two chunks. -/
theorem remote_subscribe_exactly_once_between : ∃ tr s, Run remotePane AttachedOutsideGap tr s ∧
    s.output = [97, 98] ∧ (s.core.forwarders 0).snapshot = [97] ∧
    (s.core.forwarders 0).snapshot ++ outputOf (s.core.forwarders 0).emitted ++
        bytesOf (s.core.channel.unread ⟨2⟩) ++ s.driver.inFlight =
      s.output.drop (s.core.forwarders 0).start := by
  obtain ⟨tr, s, hr, ho, hs, hrx, hl⟩ := Run.of_replay remotePane AttachedOutsideGap
    (fun _ s => s.output = [97, 98] ∧ (s.core.forwarders 0).snapshot = [97] ∧
      (s.core.forwarders 0).rx = some ⟨2⟩ ∧ (s.core.forwarders 0).lagged = false)
    ⟨40, 120, rfl⟩
    ([RemoteAct.message (.data [97])] ++ List.replicate 4 RemoteAct.driver ++
      List.replicate 6 (RemoteAct.forward 0) ++ [RemoteAct.message (.extendedData [98] 1)] ++
      List.replicate 4 RemoteAct.driver ++ [RemoteAct.forward 0]) (by decide)
  exact ⟨tr, s, hr, ho, hs, (remote_subscribe_exactly_once hr hrx hl).1⟩

/-- A subscriber that comes between unlock and send gets the chunk twice. -/
theorem remote_subscribe_duplicates : ¬ ∀ (tr : List Empty) (s : RemotePane) (k : Nat)
    (rx : Receiver), Run remotePane Free tr s → (s.core.forwarders k).rx = some rx →
    (s.core.forwarders k).lagged = false →
    (s.core.forwarders k).snapshot ++ outputOf (s.core.forwarders k).emitted ++
        bytesOf (s.core.channel.unread rx) ++ s.driver.inFlight =
      s.output.drop (s.core.forwarders k).start := by
  intro hall
  obtain ⟨tr, s, hr, hrx, hl, hne⟩ := Run.of_replay remotePane Free
    (fun _ s => (s.core.forwarders 0).rx = some ⟨1⟩ ∧ (s.core.forwarders 0).lagged = false ∧
      (s.core.forwarders 0).snapshot ++ outputOf (s.core.forwarders 0).emitted ++
          bytesOf (s.core.channel.unread ⟨1⟩) ++ s.driver.inFlight ≠
        s.output.drop (s.core.forwarders 0).start)
    ⟨40, 120, rfl⟩
    ([RemoteAct.message (.data [97])] ++ List.replicate 3 RemoteAct.driver ++
      List.replicate 6 (RemoteAct.forward 0) ++ [RemoteAct.driver, .forward 0]) (by decide)
  exact hne (hall tr s 0 _ hr hrx hl)

end Tepegoz
