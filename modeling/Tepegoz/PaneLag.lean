import Tepegoz.LocalPane
import Tepegoz.RemotePane

namespace Tepegoz

open Transition Broadcast

/-- What an observer of one forwarder notes: where in the log of the channel its receiver began,
and the updates that its receiver skipped. -/
inductive LagNote
  | attached (position : Nat)
  | skipped (updates : List PaneUpdate)
  deriving DecidableEq

def attachedAt (notes : List LagNote) : Nat :=
  (notes.findSome? fun
    | .attached position => some position
    | .skipped _ => none).getD 0

def skippedBy (notes : List LagNote) : List PaneUpdate :=
  notes.flatMap fun
    | .skipped updates => updates
    | .attached _ => []

def Event.droppedBytes : Event → Nat
  | .paneLagged n => n
  | _ => 0

/-- The sum of `dropped_bytes` in a list of events. -/
def droppedBytes : List Event → Nat
  | [] => 0
  | event :: events => event.droppedBytes + droppedBytes events

namespace PaneCore

def skipNotes (s : PaneCore) (rx : Receiver) : List LagNote :=
  match s.channel.recv broadcastChannelSize rx with
  | (.lagged n, _) => [.skipped ((s.channel.unread rx).take n)]
  | _ => []

/-- What the next step of forwarder `k` will give to note. -/
def lagNotes (s : PaneCore) (k : Nat) : List LagNote :=
  match (s.forwarders k).pc, (s.forwarders k).rx with
  | .snapped, _ => [.attached s.channel.sent.length]
  | .streaming, some rx => s.skipNotes rx
  | _, _ => []

/-- The number of bytes broadcast since the receiver began. -/
def broadcastSince (s : PaneCore) (notes : List LagNote) : Nat :=
  (bytesOf (s.channel.sent.drop (attachedAt notes))).length

/-- Delivered bytes and reported losses of forwarder `k` make up what was broadcast. -/
def LossAccounted (s : PaneCore) (k : Nat) (notes : List LagNote) : Prop :=
  (outputOf (s.forwarders k).emitted).length + droppedBytes (s.forwarders k).emitted =
    s.broadcastSince notes

/-- A step of the pane itself: it may broadcast, and leaves the forwarders alone. -/
structure Grows (s s' : PaneCore) : Prop where
  forwarders : s'.forwarders = s.forwarders
  sent : s.channel.sent <+: s'.channel.sent

end PaneCore

def LocalAct.lagNotes (k : Nat) (s : LocalPane) : LocalAct → List LagNote
  | .forward j => if j = k then s.core.lagNotes k else []
  | _ => []

def RemoteAct.lagNotes (k : Nat) (s : RemotePane) : RemoteAct → List LagNote
  | .forward j => if j = k then s.core.lagNotes k else []
  | _ => []

/-- The local pane with the notes on forwarder `k`. -/
def localLag (k : Nat) : System LocalPane LocalAct LagNote where
  init s := ∃ rows cols, s = .opened rows cols
  step s a := (s.next a).map (·, a.lagNotes k s)

def remoteLag (k : Nat) : System RemotePane RemoteAct LagNote where
  init s := ∃ rows cols, s = .spawn rows cols
  step s a := (s.next a).map (·, a.lagNotes k s)

section Notes

@[simp] theorem skippedBy_append (notes notes' : List LagNote) :
    skippedBy (notes ++ notes') = skippedBy notes ++ skippedBy notes' := by
  simp [skippedBy]

@[simp] theorem skippedBy_attached (position : Nat) : skippedBy [.attached position] = [] := rfl

@[simp] theorem skippedBy_skipped (updates : List PaneUpdate) :
    skippedBy [.skipped updates] = updates := List.append_nil _

/-- Where the receiver began does not change with what it skips later. -/
@[simp] theorem attachedAt_skipped (notes : List LagNote) (updates : List PaneUpdate) :
    attachedAt (notes ++ [.skipped updates]) = attachedAt notes := by
  simp [attachedAt, List.findSome?_append]

@[simp] theorem droppedBytes_append (events events' : List Event) :
    droppedBytes (events ++ events') = droppedBytes events + droppedBytes events' := by
  induction events with
  | nil => simp [droppedBytes]
  | cons event events ih => simp [droppedBytes, ih, Nat.add_assoc]

@[simp] theorem droppedBytes_paneOutput (data : Bytes) : droppedBytes [.paneOutput data] = 0 := rfl

@[simp] theorem droppedBytes_paneExit (code : Option Int) : droppedBytes [.paneExit code] = 0 := rfl

@[simp] theorem droppedBytes_paneLagged (n : Nat) : droppedBytes [.paneLagged n] = n := rfl

end Notes

/-- Delivered, skipped and unread bytes make up what was broadcast since the receiver began, and
the losses reported are the number of skipped updates. -/
structure Forwarder.LagAccount (f : Forwarder) (notes : List LagNote) (s : PaneCore) : Prop where
  early : f.pc.early = true → f.rx = none ∧ f.emitted = [] ∧ notes = []
  dropped : droppedBytes f.emitted = (skippedBy notes).length
  live : ∀ rx, f.rx = some rx → rx.next ≤ s.channel.sent.length ∧
    attachedAt notes ≤ s.channel.sent.length ∧
    (outputOf f.emitted).length + (bytesOf (skippedBy notes)).length +
      (bytesOf (s.channel.unread rx)).length = s.broadcastSince notes

namespace Forwarder.LagAccount

variable {f : Forwarder} {notes : List LagNote} {s s' : PaneCore} {k : Nat}

theorem fresh (s : PaneCore) : Forwarder.fresh.LagAccount [] s where
  early := fun _ => ⟨rfl, rfl, rfl⟩
  dropped := rfl
  live := by simp [Forwarder.fresh]

theorem grow (h : f.LagAccount notes s) (hg : s.channel.sent <+: s'.channel.sent) :
    f.LagAccount notes s' where
  early := h.early
  dropped := h.dropped
  live := by
    intro rx hr
    obtain ⟨hn, hp, hsum⟩ := h.live rx hr
    obtain ⟨more, hmore⟩ := hg
    unfold PaneCore.broadcastSince Channel.unread at hsum ⊢
    rw [← hmore, List.drop_append_of_le_length hn, List.drop_append_of_le_length hp,
      bytesOf_append, bytesOf_append, List.length_append, List.length_append, List.length_append]
    omega

/-- A forwarder past its attachment goes on, with events that carry neither output nor losses. -/
theorem emit (h : f.LagAccount notes s) {pc : ForwardPc} (hpc : pc.early = false)
    {events : List Event} (hout : outputOf events = []) (hdrop : droppedBytes events = 0) :
    ({ f with pc := pc, emitted := f.emitted ++ events } : Forwarder).LagAccount notes s where
  early := by intro hp; simp [hpc] at hp
  dropped := by simp [hdrop, h.dropped]
  live := by
    intro rx hr
    have hlive := h.live rx hr
    simpa [hout] using hlive

theorem goto (h : f.LagAccount notes s) {pc : ForwardPc} (hpc : pc.early = false) :
    ({ f with pc := pc } : Forwarder).LagAccount notes s := by
  simpa using h.emit hpc outputOf_nil rfl

theorem of_early (h : f.LagAccount notes s) (hp : f.pc.early = true) {f' : Forwarder}
    (hr : f'.rx = f.rx) (he : f'.emitted = f.emitted) : f'.LagAccount notes s := by
  obtain ⟨hrx, hem, hno⟩ := h.early hp
  refine ⟨fun _ => ⟨hr.trans hrx, he.trans hem, hno⟩, by rw [he]; exact h.dropped, ?_⟩
  intro rx hr'
  rw [hr, hrx] at hr'
  cases hr'

/-- A received update moves from the unread to the delivered ones, a lag moves what it skips. -/
theorem receive {rx : Receiver} {exitOnClosed : Bool} {f' : Forwarder} (h : f.LagAccount notes s)
    (hp : f.pc = .streaming) (hr : f.rx = some rx)
    (hs : s.receive exitOnClosed f rx = some f') : f'.LagAccount (notes ++ s.skipNotes rx) s := by
  have hstream : (ForwardPc.streaming).early = false := rfl
  obtain ⟨hn, hatt, hsum⟩ := h.live rx hr
  unfold PaneCore.receive at hs
  unfold PaneCore.skipNotes
  split at hs
  next data rx' hrecv =>
    obtain rfl := Option.some.inj hs
    obtain ⟨hu, hn'⟩ := Channel.recv_value hrecv
    rw [hrecv, List.append_nil]
    refine ⟨by simp [hp, hstream], by simp [h.dropped], ?_⟩
    rintro _ ⟨rfl⟩
    refine ⟨hn', hatt, ?_⟩
    rw [hu, bytesOf_bytes, List.length_append] at hsum
    simp only [outputOf_append, outputOf_paneOutput, List.length_append]
    omega
  next code rx' hrecv =>
    obtain rfl := Option.some.inj hs
    obtain ⟨hu, hn'⟩ := Channel.recv_value hrecv
    rw [hrecv, List.append_nil]
    refine ⟨by simp [ForwardPc.early], by simp [h.dropped], ?_⟩
    rintro _ ⟨rfl⟩
    refine ⟨hn', hatt, ?_⟩
    rw [hu, bytesOf_exit] at hsum
    simpa using hsum
  next n rx' hrecv =>
    obtain rfl := Option.some.inj hs
    obtain ⟨hu, -, hn'⟩ := Channel.recv_lagged hrecv
    have hlen := Channel.recv_lagged_le hrecv
    rw [hrecv]
    refine ⟨by simp [hp, hstream], ?_, ?_⟩
    · simp [h.dropped, Nat.min_eq_left hlen]
    rintro _ ⟨rfl⟩
    refine ⟨hn', by rwa [attachedAt_skipped], ?_⟩
    have hsplit := congrArg (fun updates => (bytesOf updates).length)
      (List.take_append_drop n (s.channel.unread rx))
    rw [bytesOf_append, List.length_append] at hsplit
    simp only [outputOf_append, outputOf_paneLagged, List.append_nil, skippedBy_append,
      skippedBy_skipped, bytesOf_append, List.length_append, hu, PaneCore.broadcastSince,
      attachedAt_skipped]
    unfold PaneCore.broadcastSince at hsum
    omega
  next rx' hrecv =>
    obtain rfl := Option.some.inj hs
    rw [hrecv, List.append_nil]
    cases exitOnClosed with
    | true => exact h.emit rfl (outputOf_paneExit _) rfl
    | false => exact h.goto rfl
  next => simp at hs

end Forwarder.LagAccount

namespace PaneCore

variable {s s' : PaneCore} {k : Nat} {notes : List LagNote} {exitOnClosed : Bool}

theorem lagAccount_stream (h : (s.forwarders k).LagAccount notes s)
    (hp : (s.forwarders k).pc = .streaming) (hs : s.stream exitOnClosed k = some s') :
    (s'.forwarders k).LagAccount (notes ++ s.lagNotes k) s' := by
  obtain ⟨rx, hr, hs⟩ := Option.bind_eq_some_iff.mp hs
  obtain ⟨f', hf, hs⟩ := Option.bind_eq_some_iff.mp hs
  obtain rfl := Option.some.inj hs
  have hacc := h.receive hp hr hf
  rw [lagNotes, hp, hr, setForwarder_same]
  exact hacc.grow List.prefix_rfl

theorem lagAccount_forward (h : (s.forwarders k).LagAccount notes s)
    (hs : s.forward exitOnClosed k = some s') :
    (s'.forwarders k).LagAccount (notes ++ s.lagNotes k) s' := by
  have hquiet : ∀ {t : PaneCore}, s.lagNotes k = [] →
      t.channel = s.channel → (t.forwarders k).LagAccount notes s →
      (t.forwarders k).LagAccount (notes ++ s.lagNotes k) t := by
    intro t hnone hc hacc
    rw [hnone, List.append_nil]
    exact hacc.grow (by simp [hc])
  unfold forward at hs
  split at hs
  next hp =>
    obtain ⟨t, ht, hs⟩ := Option.bind_eq_some_iff.mp hs
    obtain rfl := Option.some.inj hs
    obtain ⟨-, rfl⟩ := lockBy_some ht
    refine hquiet (by rw [lagNotes, hp]) rfl ?_
    rw [setForwarder_same]
    exact h.of_early (by simp [hp, ForwardPc.early]) rfl rfl
  next hp =>
    cases Option.some.inj hs
    refine hquiet (by rw [lagNotes, hp]) rfl ?_
    rw [snap, setForwarder_same]
    exact h.of_early (by simp [hp, ForwardPc.early]) rfl rfl
  next hp =>
    cases Option.some.inj hs
    obtain ⟨-, he, hno⟩ := h.early (by simp [hp, ForwardPc.early])
    rw [lagNotes, hp, hno, attach, setForwarder_same]
    refine ⟨by simp [ForwardPc.early], by rw [he]; rfl, ?_⟩
    rintro _ ⟨rfl⟩
    refine ⟨Nat.le_refl _, Nat.le_refl _, ?_⟩
    simp [he, broadcastSince, attachedAt, setForwarder]
  next hp =>
    cases Option.some.inj hs
    refine hquiet (by rw [lagNotes, hp]) rfl ?_
    rw [leave, setForwarder_same]
    exact h.goto rfl
  next hp =>
    cases Option.some.inj hs
    refine hquiet (by rw [lagNotes, hp]) rfl ?_
    rw [announce, setForwarder_same]
    exact h.emit rfl (outputOf_paneSnapshot _ _ _) rfl
  next hp =>
    cases Option.some.inj hs
    refine hquiet (by rw [lagNotes, hp]) rfl ?_
    rw [check, setForwarder_same]
    split
    next => exact h.goto rfl
    next => exact h.emit rfl (outputOf_paneExit _) rfl
  next hp => exact lagAccount_stream h hp hs
  next => simp at hs

/-- A step of any forwarder, as it is noted for forwarder `k`. -/
theorem lagAccount_forward_any {j : Nat} (h : (s.forwarders k).LagAccount notes s)
    (hs : s.forward exitOnClosed j = some s') :
    (s'.forwarders k).LagAccount (notes ++ if j = k then s.lagNotes k else []) s' := by
  by_cases hj : j = k
  · subst hj
    rw [if_pos rfl]
    exact lagAccount_forward h hs
  · obtain ⟨f, lock, rfl, -⟩ := forward_frame hs
    have hsame : (s.setForwarder j f).forwarders k = s.forwarders k :=
      setForwarder_other (Ne.symm hj)
    rw [if_neg hj, List.append_nil]
    show ((s.setForwarder j f).forwarders k).LagAccount notes _
    rw [hsame]
    exact h.grow List.prefix_rfl

theorem lagAccount_abandon {j : Nat} (h : (s.forwarders k).LagAccount notes s)
    (hs : s.abandon j = some s') : (s'.forwarders k).LagAccount notes s' := by
  obtain rfl := abandon_frame hs
  by_cases hj : j = k
  · subst hj
    rw [setForwarder_same]
    exact (h.goto rfl).grow List.prefix_rfl
  · rw [setForwarder_other (Ne.symm hj)]
    exact h.grow List.prefix_rfl

theorem lagAccount_grows (h : (s.forwarders k).LagAccount notes s) (hg : s.Grows s') :
    (s'.forwarders k).LagAccount notes s' := by
  rw [hg.forwarders]
  exact h.grow hg.sent

end PaneCore

theorem PaneCore.Grows.of_eq {s s' : PaneCore} (hf : s'.forwarders = s.forwarders)
    (hs : s'.channel.sent = s.channel.sent) : s.Grows s' :=
  ⟨hf, by simp [hs]⟩

theorem PaneCore.Grows.of_broadcast {s s' : PaneCore} {update : PaneUpdate}
    (hf : s'.forwarders = s.forwarders) (hs : s'.channel.sent = s.channel.sent ++ [update]) :
    s.Grows s' :=
  ⟨hf, by rw [hs]; exact List.prefix_append _ _⟩

namespace LocalPane

variable {k : Nat} {s s' : LocalPane} {notes : List LagNote}

theorem grows_reader (hs : s.readerStep = some s') : s.core.Grows s'.core := by
  unfold readerStep at hs
  split at hs
  next =>
    obtain ⟨core, hc, hs⟩ := Option.bind_eq_some_iff.mp hs
    obtain rfl := Option.some.inj hs
    obtain ⟨-, rfl⟩ := PaneCore.lockBy_some hc
    exact .of_eq rfl rfl
  next => cases Option.some.inj hs; exact .of_eq rfl rfl
  next => cases Option.some.inj hs; exact .of_broadcast rfl rfl
  next => cases Option.some.inj hs; exact .of_eq rfl rfl
  next => simp at hs
  next => simp at hs

theorem grows_waiter (hs : s.waiterStep = some s') : s.core.Grows s'.core := by
  unfold waiterStep at hs
  split at hs
  next => cases Option.some.inj hs; exact .of_eq rfl rfl
  next => cases Option.some.inj hs; exact .of_eq rfl rfl
  next => cases Option.some.inj hs; exact .of_broadcast rfl rfl
  next => simp at hs
  next => simp at hs

/-- The steps of the local pane that are not a forwarder's. -/
theorem grows_next {a : LocalAct} (hf : ∀ j, a ≠ .forward j) (ha : ∀ j, a ≠ .abandon j)
    (hs : s.next a = some s') : s.core.Grows s'.core := by
  cases a with
  | read chunk =>
    simp only [LocalPane.next, Option.ite_none_right_eq_some, Option.some.injEq] at hs
    obtain ⟨-, rfl⟩ := hs
    exact .of_eq rfl rfl
  | endOfFile =>
    simp only [LocalPane.next, Option.ite_none_right_eq_some, Option.some.injEq] at hs
    obtain ⟨-, rfl⟩ := hs
    exact .of_eq rfl rfl
  | reader => exact grows_reader hs
  | reap code =>
    simp only [LocalPane.next, Option.ite_none_right_eq_some, Option.some.injEq] at hs
    obtain ⟨-, rfl⟩ := hs
    exact .of_eq rfl rfl
  | waiter => exact grows_waiter hs
  | resize rows cols => cases Option.some.inj hs; exact .of_eq rfl rfl
  | forward j => exact absurd rfl (hf j)
  | abandon j => exact absurd rfl (ha j)

theorem lagAccount_next {a : LocalAct} (h : (s.core.forwarders k).LagAccount notes s.core)
    (hs : s.next a = some s') :
    (s'.core.forwarders k).LagAccount (notes ++ a.lagNotes k s) s'.core := by
  cases a with
  | forward j =>
    obtain ⟨core, hc, hs⟩ := Option.bind_eq_some_iff.mp hs
    cases Option.some.inj hs
    exact PaneCore.lagAccount_forward_any h hc
  | abandon j =>
    obtain ⟨core, hc, hs⟩ := Option.bind_eq_some_iff.mp hs
    cases Option.some.inj hs
    simpa [LocalAct.lagNotes] using PaneCore.lagAccount_abandon h hc
  | _ =>
    have hgrows := grows_next (by simp) (by simp) hs
    simpa [LocalAct.lagNotes] using PaneCore.lagAccount_grows h hgrows

theorem lagAccount_of_run (h : Run (localLag k) Free notes s) :
    (s.core.forwarders k).LagAccount notes s.core := by
  refine h.invariant (I := fun notes s => (s.core.forwarders k).LagAccount notes s.core) ?_ ?_
  · rintro _ ⟨rows, cols, rfl⟩
    exact .fresh _
  · intro notes s a s' out _ hi _ hs
    obtain ⟨t, ht, he⟩ := Option.map_eq_some_iff.mp hs
    obtain ⟨rfl, rfl⟩ := Prod.mk.inj he
    exact lagAccount_next hi ht

end LocalPane

namespace RemotePane

variable {k : Nat} {s s' : RemotePane} {notes : List LagNote}

theorem grows_message (msg : ChannelMsg) : s.core.Grows (s.onMessage msg).core := by
  cases msg <;> exact .of_eq rfl rfl

theorem grows_command (written : Bool) (cmd : RemotePaneCmd) :
    s.core.Grows (s.onCommand written cmd).core := by
  cases cmd <;> cases written <;> exact .of_eq rfl rfl

theorem grows_driver (hs : s.driverStep = some s') : s.core.Grows s'.core := by
  unfold driverStep at hs
  split at hs
  next =>
    obtain ⟨core, hc, hs⟩ := Option.bind_eq_some_iff.mp hs
    obtain rfl := Option.some.inj hs
    obtain ⟨-, rfl⟩ := PaneCore.lockBy_some hc
    exact .of_eq rfl rfl
  next => cases Option.some.inj hs; exact .of_eq rfl rfl
  next => cases Option.some.inj hs; exact .of_eq rfl rfl
  next => cases Option.some.inj hs; exact .of_broadcast rfl rfl
  next => cases Option.some.inj hs; exact .of_eq rfl rfl
  next => cases Option.some.inj hs; exact .of_eq rfl rfl
  next => cases Option.some.inj hs; exact .of_broadcast rfl rfl
  next => simp at hs
  next => simp at hs

/-- The steps of the remote pane that are not a forwarder's. -/
theorem grows_next {a : RemoteAct} (hf : ∀ j, a ≠ .forward j) (ha : ∀ j, a ≠ .abandon j)
    (hs : s.next a = some s') : s.core.Grows s'.core := by
  cases a with
  | message msg =>
    simp only [RemotePane.next, Option.ite_none_right_eq_some, Option.some.injEq] at hs
    obtain ⟨-, rfl⟩ := hs
    exact grows_message msg
  | command written =>
    simp only [RemotePane.next] at hs
    split at hs
    next cmd rest hc =>
      simp only [Option.ite_none_right_eq_some, Option.some.injEq] at hs
      obtain ⟨-, rfl⟩ := hs
      exact grows_command (s := { s with commands := rest }) written cmd
    next => simp at hs
  | hangUp =>
    simp only [RemotePane.next, Option.ite_none_right_eq_some, Option.some.injEq] at hs
    obtain ⟨-, rfl⟩ := hs
    exact .of_eq rfl rfl
  | driver => exact grows_driver hs
  | sendInput data =>
    simp only [RemotePane.next, Option.ite_none_left_eq_some, Option.some.injEq] at hs
    obtain ⟨-, rfl⟩ := hs
    exact .of_eq rfl rfl
  | resize rows cols =>
    simp only [RemotePane.next] at hs
    split at hs
    next => cases Option.some.inj hs; exact .of_eq rfl rfl
    next => cases Option.some.inj hs; exact .of_eq rfl rfl
  | close =>
    simp only [RemotePane.next, Option.ite_none_left_eq_some, Option.some.injEq] at hs
    obtain ⟨-, rfl⟩ := hs
    exact .of_eq rfl rfl
  | forward j => exact absurd rfl (hf j)
  | abandon j => exact absurd rfl (ha j)

theorem lagAccount_next {a : RemoteAct} (h : (s.core.forwarders k).LagAccount notes s.core)
    (hs : s.next a = some s') :
    (s'.core.forwarders k).LagAccount (notes ++ a.lagNotes k s) s'.core := by
  cases a with
  | forward j =>
    obtain ⟨core, hc, hs⟩ := Option.bind_eq_some_iff.mp hs
    cases Option.some.inj hs
    exact PaneCore.lagAccount_forward_any h hc
  | abandon j =>
    obtain ⟨core, hc, hs⟩ := Option.bind_eq_some_iff.mp hs
    cases Option.some.inj hs
    simpa [RemoteAct.lagNotes] using PaneCore.lagAccount_abandon h hc
  | _ =>
    have hgrows := grows_next (by simp) (by simp) hs
    simpa [RemoteAct.lagNotes] using PaneCore.lagAccount_grows h hgrows

theorem lagAccount_of_run (h : Run (remoteLag k) Free notes s) :
    (s.core.forwarders k).LagAccount notes s.core := by
  refine h.invariant (I := fun notes s => (s.core.forwarders k).LagAccount notes s.core) ?_ ?_
  · rintro _ ⟨rows, cols, rfl⟩
    exact .fresh _
  · intro notes s a s' out _ hi _ hs
    obtain ⟨t, ht, he⟩ := Option.map_eq_some_iff.mp hs
    obtain ⟨rfl, rfl⟩ := Prod.mk.inj he
    exact lagAccount_next hi ht

end RemotePane

/-- Where the receiver is caught up, the losses are accounted for exactly if the skipped updates
carried one byte each on average. -/
theorem Forwarder.LagAccount.caught_up {s : PaneCore} {k : Nat} {notes : List LagNote}
    {rx : Receiver} (h : (s.forwarders k).LagAccount notes s) (hr : (s.forwarders k).rx = some rx)
    (hu : s.channel.unread rx = []) : s.LossAccounted k notes ↔
      (bytesOf (skippedBy notes)).length = (skippedBy notes).length := by
  obtain ⟨-, -, hsum⟩ := h.live rx hr
  have hdrop := h.dropped
  rw [hu, bytesOf_nil, List.length_nil] at hsum
  unfold PaneCore.LossAccounted
  omega

section Burst

variable {k : Nat} {notes : List LagNote} {s : LocalPane} {chunk : Bytes}

theorem LocalPane.run_next {s' : LocalPane} {a : LocalAct} (h : Run (localLag k) Free notes s)
    (hs : s.next a = some s') : Run (localLag k) Free (notes ++ a.lagNotes k s) s' :=
  h.next (l := a) trivial (by simp [localLag, hs])

/-- A pane that can read a chunk and pass it on, as often as it likes. -/
theorem LocalPane.run_burst (n : Nat) (h : Run (localLag k) Free notes s)
    (hr : s.reader = .reading) (hl : s.core.lock = none) (hne : chunk ≠ [])
    (hlen : chunk.length ≤ readBufferSize) : ∃ t, Run (localLag k) Free notes t ∧
      t.core.forwarders = s.core.forwarders ∧
      t.core.channel.sent = s.core.channel.sent ++ List.replicate n (.bytes chunk) := by
  induction n generalizing s with
  | zero => exact ⟨s, h, rfl, by simp⟩
  | succ n ih =>
    have hread := LocalPane.run_next (a := .read chunk) h (if_pos ⟨hr, hne, hlen⟩)
    have hlock := LocalPane.run_next (a := .reader) hread
      (by rw [LocalPane.next, readerStep, PaneCore.lockBy, if_pos hl]; rfl)
    have happend := LocalPane.run_next (a := .reader) hlock rfl
    have hsend := LocalPane.run_next (a := .reader) happend rfl
    have hunlock := LocalPane.run_next (a := .reader) hsend rfl
    simp only [LocalAct.lagNotes, List.append_nil] at hunlock
    obtain ⟨t, ht, hf, hsent⟩ := ih hunlock rfl rfl
    refine ⟨t, ht, hf, hsent.trans ?_⟩
    rw [List.replicate_succ]
    exact List.append_assoc _ _ _

/-- The next answer of the channel to a receiver that reads on. -/
theorem LocalPane.run_receive {rx : Receiver} {f : Forwarder} (h : Run (localLag k) Free notes s)
    (hp : (s.core.forwarders k).pc = .streaming) (hr : (s.core.forwarders k).rx = some rx)
    (hf : s.core.receive true (s.core.forwarders k) rx = some f) : ∃ t,
      Run (localLag k) Free (notes ++ s.core.skipNotes rx) t ∧ t.core.forwarders k = f ∧
        t.core.channel = s.core.channel := by
  have hstep : s.next (.forward k) = some { s with core := s.core.setForwarder k f } := by
    simp [LocalPane.next, PaneCore.forward, hp, PaneCore.stream, hr, hf]
  have hrun := LocalPane.run_next h hstep
  rw [LocalAct.lagNotes, if_pos rfl, PaneCore.lagNotes, hp, hr] at hrun
  exact ⟨_, hrun, PaneCore.setForwarder_same .., rfl⟩

/-- A receiver with no more to read than the channel holds comes to the end of it. -/
theorem LocalPane.run_catch_up (n : Nat) {rx : Receiver} (h : Run (localLag k) Free notes s)
    (hp : (s.core.forwarders k).pc = .streaming) (hr : (s.core.forwarders k).rx = some rx)
    (hu : s.core.channel.unread rx = List.replicate n (.bytes chunk))
    (hn : n ≤ broadcastChannelSize) : ∃ t rx', Run (localLag k) Free notes t ∧
      (t.core.forwarders k).rx = some rx' ∧ t.core.channel.unread rx' = [] := by
  induction n generalizing s rx with
  | zero => exact ⟨s, rx, h, hr, hu⟩
  | succ n ih =>
    rw [List.replicate_succ] at hu
    have hlen : (List.replicate n (PaneUpdate.bytes chunk)).length < broadcastChannelSize := by
      rw [List.length_replicate]
      exact hn
    obtain ⟨f, rx', hreceive, -, hrx, hrest, hpc⟩ :=
      s.core.receive_unread true (s.core.forwarders k) hu hlen
    obtain ⟨t, ht, hf, hc⟩ := LocalPane.run_receive h hp hr hreceive
    rw [PaneCore.skipNotes, Channel.recv_of_unread hu hlen, List.append_nil] at ht
    refine ih ht (by rw [hf, hpc chunk rfl, hp]) (by rw [hf, hrx]) ?_ (Nat.le_of_succ_le hn)
    rw [hc]
    exact hrest

/-- The pane broadcasts one chunk more than the channel holds before the subscriber reads. -/
theorem LocalPane.run_overflow (hne : chunk ≠ []) (hlen : chunk.length ≤ readBufferSize) :
    ∃ s rx, Run (localLag 0) Free [.attached 0, .skipped [.bytes chunk]] s ∧
      (s.core.forwarders 0).rx = some rx ∧ s.core.channel.unread rx = [] := by
  obtain ⟨notes, s, hr, hread, hlock, hp, hrx, hsent, rfl⟩ := Run.of_replay (localLag 0) Free
    (fun notes s => s.reader = .reading ∧ s.core.lock = none ∧
      (s.core.forwarders 0).pc = .streaming ∧ (s.core.forwarders 0).rx = some ⟨0⟩ ∧
      s.core.channel.sent = [] ∧ notes = [.attached 0])
    ⟨40, 120, rfl⟩ (List.replicate 6 (LocalAct.forward 0)) (by decide)
  obtain ⟨t, ht, hf, hburst⟩ := LocalPane.run_burst (broadcastChannelSize + 1) hr hread hlock hne hlen
  rw [hsent, List.nil_append] at hburst
  rw [← hf] at hp hrx
  have hunread : t.core.channel.unread ⟨0⟩ =
      List.replicate (broadcastChannelSize + 1) (.bytes chunk) := by
    rw [Channel.unread, List.drop_zero, hburst]
  have hone : t.core.channel.sent.length - broadcastChannelSize - 0 = 1 := by
    rw [hburst, List.length_replicate]
    omega
  -- The receiver is one chunk behind the ring, is told so, and reads the rest.
  have hrecv : t.core.channel.recv broadcastChannelSize ⟨0⟩ =
      (.lagged (t.core.channel.sent.length - broadcastChannelSize - 0),
        ⟨t.core.channel.sent.length - broadcastChannelSize⟩) :=
    Channel.recv_of_behind (by rw [hunread, List.length_replicate]; omega)
  rw [hone] at hrecv
  obtain ⟨u, hu, hfu, hcu⟩ := LocalPane.run_receive ht hp hrx (by rw [PaneCore.receive, hrecv])
  have hskip : t.core.skipNotes ⟨0⟩ = [.skipped [.bytes chunk]] := by
    rw [PaneCore.skipNotes, hrecv, hunread, List.replicate_succ]
    rfl
  rw [hskip] at hu
  obtain ⟨v, rx, hv, hrv, hend⟩ := LocalPane.run_catch_up broadcastChannelSize hu
    (by rw [hfu]; exact hp) (by rw [hfu])
    (by rw [hcu, (Channel.recv_lagged hrecv).1, hunread]; rfl) (Nat.le_refl _)
  exact ⟨v, rx, hv, hrv, hend⟩

end Burst

/-- In every run of a pane, local or remote, wherever the receiver of a forwarder is caught up. -/
theorem lag_in_bytes (k : Nat) :
    (∀ (notes : List LagNote) (s : LocalPane) (rx : Receiver), Run (localLag k) Free notes s →
      (s.core.forwarders k).rx = some rx → s.core.channel.unread rx = [] →
      (s.core.LossAccounted k notes ↔
        (bytesOf (skippedBy notes)).length = (skippedBy notes).length)) ∧
    ∀ (notes : List LagNote) (s : RemotePane) (rx : Receiver), Run (remoteLag k) Free notes s →
      (s.core.forwarders k).rx = some rx → s.core.channel.unread rx = [] →
      (s.core.LossAccounted k notes ↔
        (bytesOf (skippedBy notes)).length = (skippedBy notes).length) := by
  constructor
  · intro notes s rx h hr hu
    exact (LocalPane.lagAccount_of_run h).caught_up hr hu
  · intro notes s rx h hr hu
    exact (RemotePane.lagAccount_of_run h).caught_up hr hu

/-- A subscriber that misses one chunk of one byte is told of that byte. -/
theorem lag_in_bytes_overflow : ∃ notes s, Run (localLag 0) Free notes s ∧
    skippedBy notes = [.bytes [97]] ∧ s.core.LossAccounted 0 notes := by
  obtain ⟨s, rx, hr, hrx, hu⟩ := LocalPane.run_overflow (show ([97] : Bytes) ≠ [] by decide) (by decide)
  exact ⟨_, s, hr, rfl, ((lag_in_bytes 0).1 _ s rx hr hrx hu).mpr rfl⟩

/-- A subscriber that misses one chunk of two bytes is told that one byte was dropped. -/
theorem lag_in_messages : ¬ ∀ (k : Nat) (notes : List LagNote) (s : LocalPane) (rx : Receiver),
    Run (localLag k) Free notes s → (s.core.forwarders k).rx = some rx →
    s.core.channel.unread rx = [] → s.core.LossAccounted k notes := by
  intro hall
  obtain ⟨s, rx, hr, hrx, hu⟩ := LocalPane.run_overflow (show ([97, 98] : Bytes) ≠ [] by decide) (by decide)
  have hcount := ((LocalPane.lagAccount_of_run hr).caught_up hrx hu).mp (hall 0 _ s rx hr hrx hu)
  revert hcount
  decide

end Tepegoz
