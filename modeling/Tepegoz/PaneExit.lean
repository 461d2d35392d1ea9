import Tepegoz.LocalPane

namespace Tepegoz

open Transition Broadcast

def PaneUpdate.isExit : PaneUpdate → Bool
  | .exit _ => true
  | .bytes _ => false

def Event.isPaneExit : Event → Bool
  | .paneExit _ => true
  | _ => false

def ReaderPc.idle : ReaderPc → Bool
  | .reading | .sent | .ended => true
  | _ => false

/-- What the forwarder's receiver has still to read. -/
def PaneCore.queued (s : PaneCore) (k : Nat) : List PaneUpdate :=
  s.channel.unreadBy (s.forwarders k).rx

def Forwarder.exited (f : Forwarder) : Bool := f.emitted.any Event.isPaneExit

/-- Attached to the channel and not yet done with it. -/
def Forwarder.listening (f : Forwarder) : Bool := f.rx.isSome && f.pc != .closed

/-- The next step of the waiter broadcasts the exit notice. -/
def WaiterPc.notifies : WaiterPc → Bool
  | .marked _ => true
  | _ => false

/-- No exit notice overtakes output on its way to forwarder `k`: none is broadcast, and none is
inferred from a dead child, while the reader or the channel still holds bytes, and the reader reads
nothing more once a notice is out. -/
def ExitInOrder (k : Nat) : List Empty → LocalPane → LocalAct → Prop
  | _, s, .read _ => (s.core.forwarders k).exited = false ∧
      ((s.core.forwarders k).listening = true → (s.core.queued k).any PaneUpdate.isExit = false)
  | _, s, .waiter => s.waiter.notifies = true →
      (s.core.forwarders k).listening = true → s.reader.idle = true
  | _, s, .forward j => j = k → (s.core.forwarders k).pc = .opened → s.core.alive = false →
      s.reader.idle = true ∧ bytesOf (s.core.queued k) = []
  | _, _, _ => True

instance (k : Nat) (tr : List Empty) (s : LocalPane) :
    (a : LocalAct) → Decidable (ExitInOrder k tr s a)
  | .read _ => inferInstanceAs (Decidable (_ ∧ _))
  | .waiter => inferInstanceAs (Decidable (_ → _))
  | .forward j => inferInstanceAs (Decidable (j = k → _ → _ → _ ∧ _))
  | .endOfFile | .reader | .reap _ | .resize _ _ | .abandon _ => .isTrue trivial

/-- Nothing follows an element with property `p`. -/
def Final {α : Type} (p : α → Bool) (xs : List α) : Prop :=
  ∀ before a after, xs = before ++ a :: after → p a = true → after = []

section Final

variable {α : Type} {p : α → Bool} {xs ys : List α}

theorem final_of_none (h : xs.any p = false) : Final p xs := by
  rintro before a after rfl hp
  simp [hp] at h

theorem final_snoc (h : xs.any p = false) (x : α) : Final p (xs ++ [x]) := by
  intro before a after he hp
  rcases List.eq_nil_or_concat after with hn | ⟨init, last, rfl⟩
  · exact hn
  · have hx : xs = before ++ a :: init := by
      have := List.append_inj' (show xs ++ [x] = before ++ a :: init ++ [last] by simpa using he) rfl
      exact this.1
    simp [hx, hp] at h

theorem Final.suffix (h : Final p ys) (hs : xs <:+ ys) : Final p xs := by
  obtain ⟨pre, rfl⟩ := hs
  rintro before a after rfl hp
  exact h (pre ++ before) a after (by simp) hp

theorem Final.tail {x : α} (h : Final p (x :: xs)) (hp : p x = true) : xs = [] :=
  h [] x xs rfl hp

end Final

/-- The account of exit notices for one forwarder, against what its receiver has still to read and
whether the reader is between two chunks. -/
structure ExitOrder (f : Forwarder) (queued : List PaneUpdate) (idle : Bool) : Prop where
  attached : f.pc.early = false → f.pc ≠ .closed → f.rx.isSome = true
  waiting : f.listening = true → queued.any PaneUpdate.isExit = true → idle = true
  last : f.listening = true → Final PaneUpdate.isExit queued
  final : Final Event.isPaneExit f.emitted
  done : f.exited = true → f.pc = .closed ∧ f.rx.isSome = true ∧ idle = true ∧
    bytesOf queued = []

namespace ExitOrder

variable {f : Forwarder} {queued : List PaneUpdate} {idle : Bool}

theorem becomesIdle (h : ExitOrder f queued idle) : ExitOrder f queued true where
  attached := h.attached
  waiting := fun _ _ => rfl
  last := h.last
  final := h.final
  done := fun he => ⟨(h.done he).1, (h.done he).2.1, rfl, (h.done he).2.2.2⟩

theorem becomesBusy (h : ExitOrder f queued idle) (hx : f.exited = false)
    (hq : f.listening = true → queued.any PaneUpdate.isExit = false) :
    ExitOrder f queued false where
  attached := h.attached
  waiting := by intro hl hw; simp [hq hl] at hw
  last := h.last
  final := h.final
  done := by intro he; simp [hx] at he

theorem bytes (h : ExitOrder f queued false) (data : Bytes) :
    ExitOrder f (queued ++ [.bytes data]) true where
  attached := h.attached
  waiting := fun _ _ => rfl
  last := by
    intro hl
    apply final_of_none
    have hq : queued.any PaneUpdate.isExit = false := by
      by_contra hw
      have := h.waiting hl (by simpa using hw)
      simp at this
    simp [hq, PaneUpdate.isExit]
  final := h.final
  done := by
    intro he
    have := (h.done he).2.2.1
    simp at this

theorem exit (h : ExitOrder f queued idle) (hq : queued.any PaneUpdate.isExit = false)
    (hi : f.listening = true → idle = true) (code : Option Int) :
    ExitOrder f (queued ++ [.exit code]) idle where
  attached := h.attached
  waiting := fun hl _ => hi hl
  last := fun _ => final_snoc hq _
  final := h.final
  done := by
    intro he
    obtain ⟨hp, hr, hi, hb⟩ := h.done he
    exact ⟨hp, hr, hi, by simp [hb]⟩

/-- A forwarder that is not closed has sent no exit notice. -/
theorem not_exited (h : ExitOrder f queued idle) (hp : f.pc ≠ .closed) : f.exited = false := by
  by_contra he
  exact hp (h.done (by simpa using he)).1

theorem of_early (hp : f.pc.early = true) (hr : f.rx = none) (he : f.emitted = []) :
    ExitOrder f queued idle where
  attached := by intro hf; simp [hp] at hf
  waiting := by intro hl; simp [Forwarder.listening, hr] at hl
  last := by intro hl; simp [Forwarder.listening, hr] at hl
  final := by rw [he]; exact final_of_none rfl
  done := by intro hx; simp [Forwarder.exited, he] at hx

/-- A step of a forwarder that goes on. -/
theorem advance {f' : Forwarder} {queued' : List PaneUpdate} {events : List Event}
    (h : ExitOrder f queued idle) (hp : f.pc.early = false) (hc : f.pc ≠ .closed)
    (hr : f'.rx.isSome = true) (he : f'.emitted = f.emitted ++ events)
    (hev : events.any Event.isPaneExit = false) (hq : queued' <:+ queued) :
    ExitOrder f' queued' idle := by
  have hl : f.listening = true := by simp [Forwarder.listening, h.attached hp hc, hc]
  have hx : f'.emitted.any Event.isPaneExit = false := by
    have := h.not_exited hc
    simp only [Forwarder.exited] at this
    simp [he, this, hev]
  refine ⟨fun _ _ => hr, fun _ hw => ?_, fun _ => (h.last hl).suffix hq, final_of_none hx, ?_⟩
  · obtain ⟨pre, rfl⟩ := hq
    exact h.waiting hl (by simp [hw])
  · intro hd
    simp [Forwarder.exited, hx] at hd

/-- The step that sends the exit notice. -/
theorem close {f' : Forwarder} {queued' : List PaneUpdate} {code : Option Int}
    (h : ExitOrder f queued idle) (hc : f.pc ≠ .closed) (hp : f'.pc = .closed)
    (hr : f'.rx.isSome = true) (he : f'.emitted = f.emitted ++ [.paneExit code])
    (hi : idle = true) (hb : bytesOf queued' = []) : ExitOrder f' queued' idle where
  attached := fun _ hn => absurd hp hn
  waiting := by intro hl; simp [Forwarder.listening, hp] at hl
  last := by intro hl; simp [Forwarder.listening, hp] at hl
  final := by rw [he]; exact final_snoc (h.not_exited hc) _
  done := fun _ => ⟨hp, hr, hi, hb⟩

theorem abandon (h : ExitOrder f queued idle) :
    ExitOrder { f with pc := .closed } queued idle where
  attached := fun _ hn => absurd rfl hn
  waiting := by intro hl; simp [Forwarder.listening] at hl
  last := by intro hl; simp [Forwarder.listening] at hl
  final := h.final
  done := fun hx => ⟨rfl, (h.done hx).2⟩

end ExitOrder

namespace PaneCore

theorem queued_congr {s t : PaneCore} {k : Nat} (hf : t.forwarders k = s.forwarders k)
    (hc : t.channel.sent = s.channel.sent) : t.queued k = s.queued k := by
  cases hr : (s.forwarders k).rx <;> simp [queued, hf, Channel.unreadBy, Channel.unread, hc, hr]

@[simp] theorem queued_setForwarder (s : PaneCore) (k : Nat) (f : Forwarder) :
    (s.setForwarder k f).queued k = s.channel.unreadBy f.rx := by
  simp only [queued, setForwarder_same]
  rfl

end PaneCore

section Forward

variable {s s' : PaneCore} {unsent : Bytes} {k : Nat} {idle : Bool}

theorem Handoff.queued_broadcast (h : Handoff s unsent) (update : PaneUpdate) :
    (s.broadcast update).queued k = s.queued k ++ [update] ∨
      (s.forwarders k).rx = none ∧ (s.broadcast update).queued k = s.queued k := by
  cases hr : (s.forwarders k).rx with
  | none =>
    right
    simp only [PaneCore.queued, PaneCore.broadcast, Channel.unreadBy, hr, and_self]
  | some rx =>
    left
    have hn := ((h.accounts k).live rx hr).1
    simp only [PaneCore.queued, PaneCore.broadcast, Channel.unreadBy, hr, Channel.unread_send hn]

/-- The receive loop, by the answer of the channel. A closed channel is ruled out by the sender
that the pane itself holds. -/
theorem ExitOrder.stream (h : ExitOrder (s.forwarders k) (s.queued k) idle)
    (hsend : s.channel.senders ≠ 0) (hp : (s.forwarders k).pc = .streaming)
    (hs : s.stream true k = some s') : ExitOrder (s'.forwarders k) (s'.queued k) idle := by
  obtain ⟨rx, hr, hs⟩ := Option.bind_eq_some_iff.mp hs
  obtain ⟨f', hf, hs⟩ := Option.bind_eq_some_iff.mp hs
  obtain rfl := Option.some.inj hs
  have hearly : (s.forwarders k).pc.early = false := by simp [hp, ForwardPc.early]
  have hopen : (s.forwarders k).pc ≠ .closed := by simp [hp]
  have hq : s.queued k = s.channel.unread rx := by rw [PaneCore.queued, hr]; rfl
  rw [PaneCore.setForwarder_same, PaneCore.queued_setForwarder]
  unfold PaneCore.receive at hf
  split at hf
  next data rx' hrecv =>
    obtain rfl := Option.some.inj hf
    refine h.advance hearly hopen rfl rfl rfl ⟨[.bytes data], ?_⟩
    rw [hq, (Channel.recv_value hrecv).1]
    rfl
  next code rx' hrecv =>
    obtain rfl := Option.some.inj hf
    have hl : (s.forwarders k).listening = true := by simp [Forwarder.listening, hr, hopen]
    have hhead := (Channel.recv_value hrecv).1
    have hlast := h.last hl
    have hwait := h.waiting hl
    rw [hq, hhead] at hlast hwait
    refine h.close hopen rfl rfl rfl (hwait (by simp [PaneUpdate.isExit])) ?_
    simp [Channel.unreadBy, hlast.tail rfl]
  next n rx' hrecv =>
    obtain rfl := Option.some.inj hf
    refine h.advance hearly hopen rfl rfl rfl ?_
    rw [hq, Channel.unreadBy, (Channel.recv_lagged hrecv).1]
    exact List.drop_suffix n _
  next hrecv => exact absurd (Channel.recv_closed hrecv).1 hsend
  next => simp at hf

theorem ExitOrder.forward (h : ExitOrder (s.forwarders k) (s.queued k) idle)
    (hh : Handoff s unsent) (hsend : s.channel.senders ≠ 0)
    (hdead : (s.forwarders k).pc = .opened → s.alive = false →
      idle = true ∧ bytesOf (s.queued k) = [])
    (hs : s.forward true k = some s') : ExitOrder (s'.forwarders k) (s'.queued k) idle := by
  have hearly := (hh.accounts k).early
  have hkeep : ∀ {f : Forwarder} (events : List Event), (s.forwarders k).pc.early = false →
      (s.forwarders k).pc ≠ .closed → f.rx = (s.forwarders k).rx →
      f.emitted = (s.forwarders k).emitted ++ events → events.any Event.isPaneExit = false →
      ExitOrder f (s.channel.unreadBy f.rx) idle := by
    intro f events hp hc hr he hev
    refine h.advance hp hc (by rw [hr]; exact h.attached hp hc) he hev ?_
    rw [hr]
    exact List.suffix_rfl
  unfold PaneCore.forward at hs
  split at hs
  next hp =>
    obtain ⟨t, ht, hs⟩ := Option.bind_eq_some_iff.mp hs
    obtain rfl := Option.some.inj hs
    obtain ⟨-, rfl⟩ := PaneCore.lockBy_some ht
    obtain ⟨hr, he⟩ := hearly (by simp [hp, ForwardPc.early])
    rw [PaneCore.setForwarder_same]
    exact .of_early rfl hr he
  next hp =>
    cases Option.some.inj hs
    obtain ⟨hr, he⟩ := hearly (by simp [hp, ForwardPc.early])
    rw [PaneCore.snap, PaneCore.setForwarder_same]
    exact .of_early rfl hr he
  next hp =>
    cases Option.some.inj hs
    obtain ⟨-, he⟩ := hearly (by simp [hp, ForwardPc.early])
    rw [PaneCore.attach, PaneCore.queued_setForwarder, PaneCore.setForwarder_same]
    simp only [Channel.unreadBy, Channel.unread_subscribe]
    refine ⟨fun _ _ => rfl, by simp, fun _ => final_of_none rfl, ?_, ?_⟩
    · simp only [he]; exact final_of_none rfl
    · intro hx; simp [Forwarder.exited, he] at hx
  next hp =>
    cases Option.some.inj hs
    rw [PaneCore.leave, PaneCore.queued_setForwarder, PaneCore.setForwarder_same]
    exact hkeep [] (by simp [hp, ForwardPc.early]) (by simp [hp]) rfl (by simp) rfl
  next hp =>
    cases Option.some.inj hs
    rw [PaneCore.announce, PaneCore.queued_setForwarder, PaneCore.setForwarder_same]
    exact hkeep _ (by simp [hp, ForwardPc.early]) (by simp [hp]) rfl rfl rfl
  next hp =>
    cases Option.some.inj hs
    rw [PaneCore.check, PaneCore.queued_setForwarder, PaneCore.setForwarder_same]
    split
    next =>
      exact hkeep [] (by simp [hp, ForwardPc.early]) (by simp [hp]) rfl (by simp) rfl
    next ha =>
      obtain ⟨hi, hb⟩ := hdead hp (by simpa using ha)
      exact h.close (by simp [hp]) rfl (h.attached (by simp [hp, ForwardPc.early]) (by simp [hp]))
        rfl hi hb
  next hp => exact h.stream hsend hp hs
  next => simp at hs

end Forward

def ReaderPc.senders : ReaderPc → Nat
  | .ended => 0
  | _ => 1

def WaiterPc.senders : WaiterPc → Nat
  | .finished => 0
  | _ => 1

/-- The invariant of runs in which no exit notice overtakes output. -/
structure ExitInv (k : Nat) (s : LocalPane) : Prop where
  base : s.Inv
  senders : s.core.channel.senders = 1 + s.reader.senders + s.waiter.senders
  once : s.waiter ≠ .finished → s.core.channel.sent.any PaneUpdate.isExit = false
  order : ExitOrder (s.core.forwarders k) (s.core.queued k) s.reader.idle

namespace ExitInv

variable {k : Nat} {s s' : LocalPane}

theorem opened (rows cols : Nat) : ExitInv k (.opened rows cols) where
  base := LocalPane.inv_opened rows cols
  senders := rfl
  once := fun _ => rfl
  order := .of_early rfl rfl rfl

theorem queued_none (h : ExitInv k s) (hw : s.waiter ≠ .finished) :
    (s.core.queued k).any PaneUpdate.isExit = false := by
  have hnone := h.once hw
  rw [List.any_eq_false] at hnone ⊢
  intro u hu
  cases hr : (s.core.forwarders k).rx with
  | none => simp [PaneCore.queued, Channel.unreadBy, hr] at hu
  | some rx =>
    rw [PaneCore.queued, hr] at hu
    exact hnone u (List.mem_of_mem_drop hu)

theorem read {chunk : Bytes} (h : ExitInv k s) (hok : ExitInOrder k [] s (.read chunk))
    (hs : s.next (.read chunk) = some s') : ExitInv k s' := by
  have hbase := h.base.step hs
  simp only [LocalPane.next, Option.ite_none_right_eq_some, Option.some.injEq] at hs
  obtain ⟨⟨hr, -, -⟩, rfl⟩ := hs
  have hsend := h.senders
  rw [hr] at hsend
  exact ⟨hbase, hsend, h.once, h.order.becomesBusy hok.1 hok.2⟩

theorem endOfFile (h : ExitInv k s) (hs : s.next .endOfFile = some s') : ExitInv k s' := by
  have hbase := h.base.step hs
  simp only [LocalPane.next, Option.ite_none_right_eq_some, Option.some.injEq] at hs
  obtain ⟨hr, rfl⟩ := hs
  have hsend := h.senders
  rw [hr] at hsend
  refine ⟨hbase, ?_, h.once, h.order.becomesIdle⟩
  simp only [Channel.dropSender, hsend, ReaderPc.senders]
  omega

theorem readerStep (h : ExitInv k s) (hs : s.readerStep = some s') : ExitInv k s' := by
  have hbase := h.base.readerStep hs
  have hsend := h.senders
  have hord := h.order
  unfold LocalPane.readerStep at hs
  split at hs
  next chunk hr =>
    obtain ⟨core, hc, hs⟩ := Option.bind_eq_some_iff.mp hs
    obtain rfl := Option.some.inj hs
    obtain ⟨-, rfl⟩ := PaneCore.lockBy_some hc
    rw [hr] at hsend hord
    exact ⟨hbase, hsend, h.once, hord⟩
  next chunk hr =>
    obtain rfl := Option.some.inj hs
    rw [hr] at hsend hord
    exact ⟨hbase, hsend, h.once, hord⟩
  next chunk hr =>
    obtain rfl := Option.some.inj hs
    rw [hr] at hsend hord
    refine ⟨hbase, hsend, fun hw => ?_, ?_⟩
    · simp [PaneCore.broadcast, h.once hw, PaneUpdate.isExit]
    · rcases h.base.handoff.queued_broadcast (.bytes chunk) (k := k) with hq | ⟨-, hq⟩
      · simp only [hq]; exact hord.bytes chunk
      · simp only [hq]; exact hord.becomesIdle
  next hr =>
    obtain rfl := Option.some.inj hs
    rw [hr] at hsend hord
    exact ⟨hbase, hsend, h.once, hord⟩
  next => simp at hs
  next => simp at hs

theorem waiterStep (h : ExitInv k s) (hok : ExitInOrder k [] s .waiter)
    (hs : s.waiterStep = some s') : ExitInv k s' := by
  have hbase := h.base.waiterStep hs
  have hsend := h.senders
  unfold LocalPane.waiterStep at hs
  split at hs
  next code hw =>
    obtain rfl := Option.some.inj hs
    rw [hw] at hsend
    exact ⟨hbase, hsend, fun _ => h.once (by simp [hw]), h.order⟩
  next code hw =>
    obtain rfl := Option.some.inj hs
    rw [hw] at hsend
    exact ⟨hbase, hsend, fun _ => h.once (by simp [hw]), h.order⟩
  next code hw =>
    obtain rfl := Option.some.inj hs
    rw [hw] at hsend
    refine ⟨hbase, ?_, by simp, ?_⟩
    · simp only [PaneCore.broadcast, Channel.dropSender, Channel.senders_send, hsend,
        WaiterPc.senders]
      omega
    · have hnone := h.queued_none (by simp [hw])
      have hdrop : ∀ core : PaneCore,
          ({ core with channel := core.channel.dropSender } : PaneCore).queued k = core.queued k :=
        fun core => PaneCore.queued_congr rfl rfl
      rcases h.base.handoff.queued_broadcast (.exit code) (k := k) with hq | ⟨-, hq⟩
      · simp only [hdrop, hq]; exact h.order.exit hnone (hok (by simp [hw, WaiterPc.notifies])) code
      · simp only [hdrop, hq]; exact h.order
  next => simp at hs
  next => simp at hs

theorem forward {j : Nat} (h : ExitInv k s) (hok : ExitInOrder k [] s (.forward j))
    (hs : s.next (.forward j) = some s') : ExitInv k s' := by
  have hbase := h.base.step hs
  obtain ⟨core, hc, hs⟩ := Option.bind_eq_some_iff.mp hs
  cases Option.some.inj hs
  obtain ⟨f, lock, hframe, -⟩ := PaneCore.forward_frame hc
  have hchan : core.channel = s.core.channel := by rw [hframe]; rfl
  refine ⟨hbase, by rw [hchan]; exact h.senders, by rw [hchan]; exact h.once, ?_⟩
  by_cases hjk : j = k
  · subst hjk
    have hsend : s.core.channel.senders ≠ 0 := by rw [h.senders]; omega
    exact h.order.forward h.base.handoff hsend (hok rfl) hc
  · have hf : core.forwarders k = s.core.forwarders k := by
      rw [hframe]; exact PaneCore.setForwarder_other (Ne.symm hjk)
    rw [hf, PaneCore.queued_congr hf (by rw [hchan])]
    exact h.order

theorem abandon {j : Nat} (h : ExitInv k s) (hs : s.next (.abandon j) = some s') :
    ExitInv k s' := by
  have hbase := h.base.step hs
  obtain ⟨core, hc, hs⟩ := Option.bind_eq_some_iff.mp hs
  cases Option.some.inj hs
  obtain rfl := PaneCore.abandon_frame hc
  refine ⟨hbase, h.senders, h.once, ?_⟩
  by_cases hjk : j = k
  · subst hjk
    rw [PaneCore.setForwarder_same, PaneCore.queued_setForwarder]
    exact h.order.abandon
  · have hf := PaneCore.setForwarder_other (s := s.core) (k := j)
      (f := { s.core.forwarders j with pc := .closed }) (Ne.symm hjk)
    rw [hf, PaneCore.queued_congr hf rfl]
    exact h.order

theorem step {a : LocalAct} (h : ExitInv k s) (hok : ExitInOrder k [] s a)
    (hs : s.next a = some s') : ExitInv k s' := by
  cases a with
  | read chunk => exact h.read hok hs
  | endOfFile => exact h.endOfFile hs
  | reader => exact h.readerStep hs
  | reap code =>
    have hbase := h.base.step hs
    simp only [LocalPane.next, Option.ite_none_right_eq_some, Option.some.injEq] at hs
    obtain ⟨hw, rfl⟩ := hs
    have hsend := h.senders
    rw [hw] at hsend
    exact ⟨hbase, hsend, fun _ => h.once (by simp [hw]), h.order⟩
  | waiter => exact h.waiterStep hok hs
  | resize rows cols =>
    have hbase := h.base.step hs
    cases Option.some.inj hs
    exact ⟨hbase, h.senders, h.once, h.order⟩
  | forward j => exact h.forward hok hs
  | abandon j => exact h.abandon hs

theorem of_run {tr : List Empty} (h : Run localPane (ExitInOrder k) tr s) : ExitInv k s := by
  refine h.invariant (I := fun _ s => ExitInv k s) ?_ ?_
  · rintro _ ⟨rows, cols, rfl⟩
    exact opened rows cols
  · intro tr s l s' out _ hi hok hs
    exact hi.step (by cases l <;> exact hok) (System.silent_step.mp hs).1

end ExitInv

/-- In a run in which no exit notice overtakes output on its way to subscriber `k`, the snapshot and
the output sent before the notice are all there is from the start of the snapshot on. -/
theorem paneExit_after_output {k : Nat} {tr : List Empty} {s : LocalPane} {before after : List Event}
    {code : Option Int} (h : Run localPane (ExitInOrder k) tr s)
    (hl : (s.core.forwarders k).lagged = false)
    (he : (s.core.forwarders k).emitted = before ++ .paneExit code :: after) :
    (s.core.forwarders k).snapshot ++ outputOf before =
      s.output.drop (s.core.forwarders k).start := by
  have hi := ExitInv.of_run h
  have hx : (s.core.forwarders k).exited = true := by simp [Forwarder.exited, he, Event.isPaneExit]
  obtain ⟨-, hr, hidle, hq⟩ := hi.order.done hx
  obtain ⟨rx, hr⟩ := Option.isSome_iff_exists.mp hr
  obtain rfl := hi.order.final before (.paneExit code) after he rfl
  have hexact := hi.base.handoff.exact hr hl
  rw [PaneCore.queued, hr, Channel.unreadBy] at hq
  have hnone : s.reader.unsent = [] ∧ s.output = s.core.appended := by
    cases hp : s.reader <;>
      simp_all [ReaderPc.idle, ReaderPc.unsent, LocalPane.output, ReaderPc.unappended]
  rw [hnone.2, ← hexact, he, hq, hnone.1]
  simp

/-- A subscriber of a child that ends after its output was read. -/
theorem paneExit_after_output_orderly : ∃ tr s, Run localPane (ExitInOrder 0) tr s ∧
    s.output = [104, 105] ∧ (s.core.forwarders 0).snapshot ++
      outputOf [.paneSnapshot [] 40 120, .paneOutput [104, 105]] =
        s.output.drop (s.core.forwarders 0).start := by
  obtain ⟨tr, s, hr, ho, hl, he⟩ := Run.of_replay localPane (ExitInOrder 0)
    (fun _ s => s.output = [104, 105] ∧ (s.core.forwarders 0).lagged = false ∧
      (s.core.forwarders 0).emitted =
        [Event.paneSnapshot [] 40 120, .paneOutput [104, 105]] ++ .paneExit (some 0) :: [])
    ⟨40, 120, rfl⟩
    (List.replicate 6 (LocalAct.forward 0) ++ [LocalAct.read [104, 105]] ++
      List.replicate 4 LocalAct.reader ++ [LocalAct.forward 0, .endOfFile, .reap (some 0)] ++
      List.replicate 3 LocalAct.waiter ++ [LocalAct.forward 0])
    (by decide)
  exact ⟨tr, s, hr, ho, paneExit_after_output hr hl he⟩

/-- The child is reaped and its exit broadcast while its last words are still in the pty. -/
theorem paneExit_overtakes_output : ¬ ∀ (k : Nat) (tr : List Empty) (s : LocalPane)
    (before after : List Event) (code : Option Int), Run localPane Free tr s →
    s.reader = .ended → (s.core.forwarders k).lagged = false →
    (s.core.forwarders k).emitted = before ++ .paneExit code :: after →
    (s.core.forwarders k).snapshot ++ outputOf before =
      s.output.drop (s.core.forwarders k).start := by
  intro hall
  obtain ⟨tr, s, hr, hend, hl, he, hne⟩ := Run.of_replay localPane Free
    (fun _ s => s.reader = .ended ∧ (s.core.forwarders 0).lagged = false ∧
      (s.core.forwarders 0).emitted = [Event.paneSnapshot [] 40 120] ++ .paneExit (some 0) :: [] ∧
      (s.core.forwarders 0).snapshot ++ outputOf [.paneSnapshot [] 40 120] ≠
        s.output.drop (s.core.forwarders 0).start)
    ⟨40, 120, rfl⟩
    (List.replicate 6 (LocalAct.forward 0) ++ [LocalAct.reap (some 0)] ++
      List.replicate 3 LocalAct.waiter ++ [LocalAct.forward 0, .read [98, 121, 101]] ++
      List.replicate 4 LocalAct.reader ++ [LocalAct.endOfFile])
    (by decide)
  exact hne (hall 0 tr s _ _ _ hr hend hl he)

end Tepegoz
