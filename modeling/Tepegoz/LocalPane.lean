import Tepegoz.Lib.Transition
import Tepegoz.PaneHandoff

namespace Tepegoz

open Transition Broadcast

def readBufferSize : Nat := 8192

/-- The reader thread between two lines of `reader_loop`. -/
inductive ReaderPc
  | reading
  | got (chunk : Bytes)
  | locked (chunk : Bytes)
  | appended (chunk : Bytes)
  | sent
  | ended
  deriving DecidableEq

inductive WaiterPc
  | waiting
  | reaped (code : Option Int)
  | stored (code : Option Int)
  | marked (code : Option Int)
  | finished
  deriving DecidableEq

structure LocalPane where
  core : PaneCore
  reader : ReaderPc
  waiter : WaiterPc

inductive LocalAct
  | read (chunk : Bytes)
  | endOfFile
  | reader
  | reap (code : Option Int)
  | waiter
  | resize (rows cols : Nat)
  | forward (k : Nat)
  | abandon (k : Nat)
  deriving DecidableEq

def ReaderPc.holdsLock : ReaderPc → Bool
  | .locked _ | .appended _ | .sent => true
  | _ => false

/-- The chunk that is in the ring and not yet broadcast. -/
def ReaderPc.unsent : ReaderPc → Bytes
  | .appended chunk => chunk
  | _ => []

/-- The chunk that was read and is not yet broadcast. -/
def ReaderPc.inFlight : ReaderPc → Bytes
  | .got chunk | .locked chunk | .appended chunk => chunk
  | _ => []

def ReaderPc.unappended : ReaderPc → Bytes
  | .got chunk | .locked chunk => chunk
  | _ => []

namespace LocalPane

def opened (rows cols : Nat) : LocalPane := ⟨.initial rows cols 3, .reading, .waiting⟩

/-- Every byte the reader has read from the pty. -/
def output (s : LocalPane) : Bytes := s.core.appended ++ s.reader.unappended

/-- `reader_loop`, between two reads. -/
def readerStep (s : LocalPane) : Option LocalPane :=
  match s.reader with
  | .got chunk => do
    let core ← s.core.lockBy .writer
    some { s with core := core, reader := .locked chunk }
  | .locked chunk => some { s with core := s.core.append chunk, reader := .appended chunk }
  | .appended chunk => some { s with core := s.core.broadcast (.bytes chunk), reader := .sent }
  | .sent => some { s with core := s.core.unlock, reader := .reading }
  | .reading | .ended => none

/-- The waiter thread, from the exit code to the notice. -/
def waiterStep (s : LocalPane) : Option LocalPane :=
  match s.waiter with
  | .reaped code => some { s with
      core := { s.core with exitCode := code }, waiter := .stored code }
  | .stored code => some { s with core := { s.core with alive := false }, waiter := .marked code }
  | .marked code =>
    let core := s.core.broadcast (.exit code)
    some { s with
      core := { core with channel := core.channel.dropSender }, waiter := .finished }
  | .waiting | .finished => none

def next (s : LocalPane) : LocalAct → Option LocalPane
  | .read chunk =>
    if s.reader = .reading ∧ chunk ≠ [] ∧ chunk.length ≤ readBufferSize then
      some { s with reader := .got chunk }
    else none
  | .endOfFile =>
    if s.reader = .reading then
      some { s with
        core := { s.core with channel := s.core.channel.dropSender }, reader := .ended }
    else none
  | .reader => s.readerStep
  | .reap code => if s.waiter = .waiting then some { s with waiter := .reaped code } else none
  | .waiter => s.waiterStep
  | .resize rows cols => some { s with core := { s.core with rows := rows, cols := cols } }
  | .forward k => do
    let core ← s.core.forward true k
    some { s with core := core }
  | .abandon k => do
    let core ← s.core.abandon k
    some { s with core := core }

end LocalPane

def localPane : System LocalPane LocalAct Empty :=
  .silent (fun s => ∃ rows cols, s = .opened rows cols) LocalPane.next

/-- The reader holds the lock from append to send, so that a subscriber sees both or neither. -/
structure LocalPane.Inv (s : LocalPane) : Prop where
  handoff : Handoff s.core s.reader.unsent
  locked : s.reader.holdsLock = true → s.core.lock = some .writer

namespace LocalPane

variable {s s' : LocalPane}

theorem inv_opened (rows cols : Nat) : (opened rows cols).Inv :=
  ⟨handoff_initial rows cols 3, by simp [opened, ReaderPc.holdsLock]⟩

theorem Inv.readerStep (h : s.Inv) (hs : s.readerStep = some s') : s'.Inv := by
  have hh := h.handoff
  have hl := h.locked
  unfold LocalPane.readerStep at hs
  split at hs
  next chunk hr =>
    obtain ⟨core, hc, hs⟩ := Option.bind_eq_some_iff.mp hs
    obtain rfl := Option.some.inj hs
    rw [hr] at hh
    obtain ⟨-, rfl⟩ := PaneCore.lockBy_some hc
    exact ⟨hh.lockWriter hc, fun _ => rfl⟩
  next chunk hr =>
    obtain rfl := Option.some.inj hs
    rw [hr] at hh hl
    exact ⟨hh.append (hl rfl) chunk, fun _ => hl rfl⟩
  next chunk hr =>
    obtain rfl := Option.some.inj hs
    rw [hr] at hh hl
    exact ⟨hh.broadcastBytes, fun _ => hl rfl⟩
  next hr =>
    obtain rfl := Option.some.inj hs
    rw [hr] at hh hl
    exact ⟨hh.unlockWriter (hl rfl), by simp [ReaderPc.holdsLock]⟩
  next => simp at hs
  next => simp at hs

theorem Inv.waiterStep (h : s.Inv) (hs : s.waiterStep = some s') : s'.Inv := by
  unfold LocalPane.waiterStep at hs
  split at hs
  next =>
    obtain rfl := Option.some.inj hs
    exact ⟨h.handoff.congr rfl rfl rfl rfl rfl, h.locked⟩
  next =>
    obtain rfl := Option.some.inj hs
    exact ⟨h.handoff.congr rfl rfl rfl rfl rfl, h.locked⟩
  next code _ =>
    obtain rfl := Option.some.inj hs
    exact ⟨(h.handoff.broadcastExit code).congr rfl rfl rfl rfl rfl, h.locked⟩
  next => simp at hs
  next => simp at hs

theorem Inv.forward {core : PaneCore} {k : Nat} (h : s.Inv)
    (hs : s.core.forward true k = some core) : ({ s with core := core } : LocalPane).Inv := by
  refine ⟨h.handoff.forward ?_ hs, fun hr => h.handoff.forward_writer (h.locked hr) hs⟩
  intro hp
  have hk := h.handoff.guarded k (by simp [hp, ForwardPc.holdsLock])
  have hfree : s.reader.holdsLock = false := by
    by_contra hr
    simp [h.locked (by simpa using hr)] at hk
  cases hr : s.reader <;> simp_all [ReaderPc.holdsLock, ReaderPc.unsent]

theorem Inv.step {a : LocalAct} (h : s.Inv) (hs : s.next a = some s') : s'.Inv := by
  cases a with
  | read chunk =>
    simp only [LocalPane.next, Option.ite_none_right_eq_some, Option.some.injEq] at hs
    obtain ⟨⟨hr, -, -⟩, rfl⟩ := hs
    have hh := h.handoff
    rw [hr] at hh
    exact ⟨hh, by simp [ReaderPc.holdsLock]⟩
  | endOfFile =>
    simp only [LocalPane.next, Option.ite_none_right_eq_some, Option.some.injEq] at hs
    obtain ⟨hr, rfl⟩ := hs
    have hh := h.handoff
    rw [hr] at hh
    exact ⟨hh.congr rfl rfl rfl rfl rfl, by simp [ReaderPc.holdsLock]⟩
  | reader => exact h.readerStep hs
  | reap code =>
    simp only [LocalPane.next, Option.ite_none_right_eq_some, Option.some.injEq] at hs
    obtain ⟨-, rfl⟩ := hs
    exact ⟨h.handoff, h.locked⟩
  | waiter => exact h.waiterStep hs
  | resize rows cols =>
    cases Option.some.inj hs
    exact ⟨h.handoff.congr rfl rfl rfl rfl rfl, h.locked⟩
  | forward k =>
    obtain ⟨core, hc, hs⟩ := Option.bind_eq_some_iff.mp hs
    cases Option.some.inj hs
    exact h.forward hc
  | abandon k =>
    obtain ⟨core, hc, hs⟩ := Option.bind_eq_some_iff.mp hs
    cases Option.some.inj hs
    obtain rfl := PaneCore.abandon_frame hc
    exact ⟨h.handoff.abandon hc, h.locked⟩

theorem inv_of_run {ok : List Empty → LocalPane → LocalAct → Prop} {tr : List Empty}
    (h : Run localPane ok tr s) : s.Inv := by
  refine h.invariant (I := fun _ s => s.Inv) ?_ ?_
  · rintro _ ⟨rows, cols, rfl⟩
    exact inv_opened rows cols
  · intro _ s l s' out _ hi _ hs
    exact hi.step (System.silent_step.mp hs).1

/-- What was read and not yet broadcast is the end of the output. -/
theorem Inv.output_eq (h : s.Inv) : s.output = bytesOf s.core.channel.sent ++ s.reader.inFlight := by
  have hsent := h.handoff.sent
  unfold output
  cases hr : s.reader <;> simp_all [ReaderPc.unsent, ReaderPc.unappended, ReaderPc.inFlight]

end LocalPane

/-- At every moment after `subscribe` returned its pair, the snapshot, the live output read so far,
the output still queued for the subscriber and the chunk on its way make up the output from the
start of the snapshot on. -/
theorem subscribe_exactly_once {tr : List Empty} {s : LocalPane} {k : Nat} {rx : Receiver}
    (h : Run localPane Free tr s) (hr : (s.core.forwarders k).rx = some rx)
    (hl : (s.core.forwarders k).lagged = false) :
    (s.core.forwarders k).snapshot ++ outputOf (s.core.forwarders k).emitted ++
        bytesOf (s.core.channel.unread rx) ++ s.reader.inFlight =
      s.output.drop (s.core.forwarders k).start ∧
    (s.core.forwarders k).start + (s.core.forwarders k).snapshot.length ≤ s.output.length := by
  have hi := LocalPane.inv_of_run h
  exact hi.handoff.delivered hi.output_eq hr hl

/-- One chunk before the subscription and one after it. -/
theorem subscribe_exactly_once_midstream : ∃ tr s, Run localPane Free tr s ∧
    s.output = [97, 98] ∧ (s.core.forwarders 0).snapshot = [97] ∧
    (s.core.forwarders 0).snapshot ++ outputOf (s.core.forwarders 0).emitted ++
        bytesOf (s.core.channel.unread ⟨2⟩) ++ s.reader.inFlight =
      s.output.drop (s.core.forwarders 0).start := by
  obtain ⟨tr, s, hr, ho, hs, hrx, hl⟩ := Run.of_replay localPane Free
    (fun _ s => s.output = [97, 98] ∧ (s.core.forwarders 0).snapshot = [97] ∧
      (s.core.forwarders 0).rx = some ⟨2⟩ ∧ (s.core.forwarders 0).lagged = false)
    ⟨40, 120, rfl⟩
    ([LocalAct.read [97]] ++ List.replicate 4 LocalAct.reader ++
      List.replicate 6 (LocalAct.forward 0) ++ [LocalAct.read [98]] ++
      List.replicate 4 LocalAct.reader ++ [LocalAct.forward 0]) (by decide)
  exact ⟨tr, s, hr, ho, hs, (subscribe_exactly_once hr hrx hl).1⟩

end Tepegoz
