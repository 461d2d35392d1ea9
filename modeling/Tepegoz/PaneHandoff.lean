import Tepegoz.PaneCore

namespace Tepegoz

open Broadcast

def ForwardPc.early : ForwardPc → Bool
  | .start | .locked | .snapped => true
  | _ => false

/-- Unless it lagged, what a subscriber has got and has still to read is everything broadcast from
the start of its snapshot on. -/
structure Forwarder.Accounts (f : Forwarder) (s : PaneCore) : Prop where
  early : f.pc.early = true → f.rx = none ∧ f.emitted = []
  snapped : f.pc = .snapped →
    f.start ≤ s.appended.length ∧ f.snapshot = s.appended.drop f.start
  live : ∀ rx, f.rx = some rx → rx.next ≤ s.channel.sent.length ∧
    f.start ≤ (bytesOf s.channel.sent).length ∧
    (f.lagged = false → f.snapshot ++ outputOf f.emitted ++ bytesOf (s.channel.unread rx) =
      (bytesOf s.channel.sent).drop f.start)

/-- The ring and the channel of a pane carry the same bytes, but for `unsent`, which is in the
ring and not yet broadcast. -/
structure Handoff (s : PaneCore) (unsent : Bytes) : Prop where
  ring : s.scrollback.snapshot <:+ s.appended
  sent : bytesOf s.channel.sent ++ unsent = s.appended
  guarded : ∀ k, (s.forwarders k).pc.holdsLock = true → s.lock = some (.subscriber k)
  accounts : ∀ k, (s.forwarders k).Accounts s

theorem handoff_initial (rows cols senders : Nat) :
    Handoff (.initial rows cols senders) [] where
  ring := List.suffix_rfl
  sent := rfl
  guarded := by intro k h; simp [PaneCore.initial, Forwarder.fresh, ForwardPc.holdsLock] at h
  accounts := by
    intro k
    refine ⟨fun _ => ⟨rfl, rfl⟩, ?_, ?_⟩
    · intro h; simp [PaneCore.initial, Forwarder.fresh] at h
    · intro rx h; simp [PaneCore.initial, Forwarder.fresh] at h

theorem Forwarder.Accounts.congr {f : Forwarder} {s t : PaneCore} (h : f.Accounts s)
    (ha : t.appended = s.appended) (hc : t.channel.sent = s.channel.sent) : f.Accounts t where
  early := h.early
  snapped := by rw [ha]; exact h.snapped
  live := by
    intro rx hr
    have hl := h.live rx hr
    simp only [Channel.unread] at hl ⊢
    rwa [hc]

theorem Handoff.congr {s t : PaneCore} {unsent : Bytes} (h : Handoff s unsent)
    (hs : t.scrollback = s.scrollback) (ha : t.appended = s.appended)
    (hc : t.channel.sent = s.channel.sent) (hl : t.lock = s.lock)
    (hf : t.forwarders = s.forwarders) : Handoff t unsent where
  ring := by rw [hs, ha]; exact h.ring
  sent := by rw [hc, ha]; exact h.sent
  guarded := by rw [hf, hl]; exact h.guarded
  accounts := by rw [hf]; exact fun k => (h.accounts k).congr ha hc

theorem Forwarder.Accounts.broadcast {f : Forwarder} {s : PaneCore} (h : f.Accounts s)
    (update : PaneUpdate) : f.Accounts (s.broadcast update) where
  early := h.early
  snapped := h.snapped
  live := by
    intro rx hr
    obtain ⟨hn, hs, hl⟩ := h.live rx hr
    simp only [PaneCore.broadcast, Channel.sent_send, bytesOf_append, List.length_append,
      List.length_singleton, Channel.unread_send hn]
    refine ⟨by omega, by omega, fun hf => ?_⟩
    rw [List.drop_append_of_le_length hs, ← hl hf]
    simp only [List.append_assoc]

/-- Appending does not disturb a subscriber that is not between snapshot and attachment. -/
theorem Forwarder.Accounts.append {f : Forwarder} {s : PaneCore} (h : f.Accounts s)
    (hp : f.pc ≠ .snapped) (data : Bytes) : f.Accounts (s.append data) where
  early := h.early
  snapped := fun hs => absurd hs hp
  live := h.live

section Writer

variable {s s' : PaneCore} {unsent : Bytes}

theorem Handoff.lockWriter (h : Handoff s unsent) (hl : s.lockBy .writer = some s') :
    Handoff s' unsent := by
  obtain ⟨hn, rfl⟩ := PaneCore.lockBy_some hl
  refine ⟨h.ring, h.sent, ?_, fun k => (h.accounts k).congr rfl rfl⟩
  intro k hk
  have := h.guarded k hk
  simp [hn] at this

theorem Handoff.unlockWriter (h : Handoff s unsent) (hw : s.lock = some .writer) :
    Handoff s.unlock unsent := by
  refine ⟨h.ring, h.sent, ?_, fun k => (h.accounts k).congr rfl rfl⟩
  intro k hk
  have := h.guarded k hk
  simp [hw] at this

theorem Handoff.append (h : Handoff s []) (hw : s.lock = some .writer) (data : Bytes) :
    Handoff (s.append data) data := by
  refine ⟨Scrollback.append_snapshot_suffix h.ring data, ?_, h.guarded, ?_⟩
  · have hs := h.sent
    simp only [List.append_nil] at hs
    simp [PaneCore.append, hs]
  · intro k
    refine (h.accounts k).append ?_ data
    intro hp
    have := h.guarded k (by simp [hp, ForwardPc.holdsLock])
    simp [hw] at this

theorem Handoff.broadcastBytes {data : Bytes} (h : Handoff s data) :
    Handoff (s.broadcast (.bytes data)) [] := by
  refine ⟨h.ring, ?_, h.guarded, fun k => (h.accounts k).broadcast _⟩
  have hs := h.sent
  simpa [PaneCore.broadcast] using hs

theorem Handoff.broadcastExit (h : Handoff s unsent) (code : Option Int) :
    Handoff (s.broadcast (.exit code)) unsent := by
  refine ⟨h.ring, ?_, h.guarded, fun k => (h.accounts k).broadcast _⟩
  have hs := h.sent
  simpa [PaneCore.broadcast] using hs

end Writer

section Subscriber

variable {s s' : PaneCore} {unsent : Bytes} {k : Nat} {f f' : Forwarder} {exitOnClosed : Bool}

theorem Handoff.setForwarder (h : Handoff s unsent)
    (hg : f.pc.holdsLock = true → s.lock = some (.subscriber k)) (ha : f.Accounts s) :
    Handoff (s.setForwarder k f) unsent := by
  refine ⟨h.ring, h.sent, ?_, ?_⟩
  · intro j hj
    by_cases hjk : j = k
    · subst hjk; exact hg (by simpa using hj)
    · rw [PaneCore.setForwarder_other hjk] at hj
      exact h.guarded j hj
  · intro j
    by_cases hjk : j = k
    · subst hjk; rw [PaneCore.setForwarder_same]; exact ha.congr rfl rfl
    · rw [PaneCore.setForwarder_other hjk]
      exact (h.accounts j).congr rfl rfl

theorem Forwarder.Accounts.emit (h : f.Accounts s) {pc : ForwardPc} (hpc : pc.early = false)
    {events : List Event} (hev : outputOf events = []) :
    ({ f with pc := pc, emitted := f.emitted ++ events } : Forwarder).Accounts s where
  early := by intro hp; simp [hpc] at hp
  snapped := by intro hp; simp [show pc = .snapped from hp, ForwardPc.early] at hpc
  live := by
    intro rx hr
    obtain ⟨hn, hs, hl⟩ := h.live rx hr
    exact ⟨hn, hs, fun hf => by simpa [hev] using hl hf⟩

/-- A forwarder that is past `subscribe` may go on to any later place without output. -/
theorem Forwarder.Accounts.goto (h : f.Accounts s) {pc : ForwardPc} (hpc : pc.early = false) :
    ({ f with pc := pc } : Forwarder).Accounts s := by
  simpa using h.emit hpc outputOf_nil

/-- What `recv` does to the account, by the four answers of the channel. -/
theorem Forwarder.Accounts.receive {rx : Receiver} (h : f.Accounts s)
    (hp : f.pc = .streaming) (hr : f.rx = some rx)
    (hs : s.receive exitOnClosed f rx = some f') :
    f'.Accounts s ∧ f'.pc.holdsLock = false := by
  have hstream : (ForwardPc.streaming).early = false := rfl
  obtain ⟨hn, hstart, hl⟩ := h.live rx hr
  unfold PaneCore.receive at hs
  split at hs
  next data rx' hrecv =>
    obtain rfl := Option.some.inj hs
    obtain ⟨hu, hn'⟩ := Channel.recv_value hrecv
    refine ⟨⟨by simp [hp, hstream], by simp [hp], ?_⟩, by simp [hp, ForwardPc.holdsLock]⟩
    rintro _ ⟨rfl⟩
    refine ⟨hn', hstart, fun hf => ?_⟩
    have hl := hl hf
    rw [hu] at hl
    simpa using hl
  next code rx' hrecv =>
    obtain rfl := Option.some.inj hs
    obtain ⟨hu, hn'⟩ := Channel.recv_value hrecv
    refine ⟨⟨by simp [ForwardPc.early], by simp, ?_⟩, rfl⟩
    rintro _ ⟨rfl⟩
    refine ⟨hn', hstart, fun hf => ?_⟩
    have hl := hl hf
    rw [hu] at hl
    simpa using hl
  next n rx' hrecv =>
    obtain rfl := Option.some.inj hs
    obtain ⟨-, -, hn'⟩ := Channel.recv_lagged hrecv
    refine ⟨⟨by simp [hp, hstream], by simp [hp], ?_⟩, by simp [hp, ForwardPc.holdsLock]⟩
    rintro _ ⟨rfl⟩
    exact ⟨hn', hstart, fun hf => by simp at hf⟩
  next hrecv =>
    obtain rfl := Option.some.inj hs
    cases exitOnClosed with
    | true => exact ⟨h.emit rfl (outputOf_paneExit _), rfl⟩
    | false => exact ⟨h.goto rfl, rfl⟩
  next => simp at hs

theorem Handoff.enter (h : Handoff s unsent) (hp : (s.forwarders k).pc = .start)
    (hs : s.enter k = some s') : Handoff s' unsent := by
  obtain ⟨t, ht, hs⟩ := Option.bind_eq_some_iff.mp hs
  obtain rfl := Option.some.inj hs
  obtain ⟨hn, rfl⟩ := PaneCore.lockBy_some ht
  have he := (h.accounts k).early (by simp [hp, ForwardPc.early])
  have hheld : Handoff { s with lock := some (.subscriber k) } unsent := by
    refine ⟨h.ring, h.sent, ?_, fun j => (h.accounts j).congr rfl rfl⟩
    intro j hj
    have := h.guarded j hj
    simp [hn] at this
  refine hheld.setForwarder (fun _ => rfl) ⟨fun _ => he, by simp, ?_⟩
  intro rx hr
  simp [he.1] at hr

theorem Handoff.snap (h : Handoff s unsent) (hp : (s.forwarders k).pc = .locked) :
    Handoff (s.snap k) unsent := by
  have he := (h.accounts k).early (by simp [hp, ForwardPc.early])
  have hlock := h.guarded k (by simp [hp, ForwardPc.holdsLock])
  refine h.setForwarder (fun _ => hlock) ⟨fun _ => he, ?_, ?_⟩
  · intro _
    obtain ⟨before, hb⟩ := h.ring
    have hlen : s.appended.length - s.scrollback.snapshot.length = before.length := by
      simp [← hb]
    refine ⟨by simp, ?_⟩
    rw [hlen, ← hb, List.drop_left]
  · intro rx hr
    simp [he.1] at hr

theorem Handoff.attach (h : Handoff s []) (hp : (s.forwarders k).pc = .snapped) :
    Handoff (s.attach k) [] := by
  have he := (h.accounts k).early (by simp [hp, ForwardPc.early])
  have hlock := h.guarded k (by simp [hp, ForwardPc.holdsLock])
  obtain ⟨hle, hsn⟩ := (h.accounts k).snapped hp
  have hsent := h.sent
  rw [List.append_nil] at hsent
  refine h.setForwarder (fun _ => hlock) ⟨by simp [ForwardPc.early], by simp, ?_⟩
  rintro _ ⟨rfl⟩
  refine ⟨Nat.le_refl _, by rw [hsent]; exact hle, fun _ => ?_⟩
  simp [he.2, hsent, hsn]

theorem Handoff.leave (h : Handoff s unsent) (hp : (s.forwarders k).pc = .attached) :
    Handoff (s.leave k) unsent := by
  have hlock := h.guarded k (by simp [hp, ForwardPc.holdsLock])
  have hfree : Handoff (s.setForwarder k { s.forwarders k with pc := .subscribed }) unsent :=
    h.setForwarder (by simp [ForwardPc.holdsLock]) ((h.accounts k).goto rfl)
  refine ⟨h.ring, h.sent, ?_, fun j => (hfree.accounts j).congr rfl rfl⟩
  intro j hj
  have hother := hfree.guarded j hj
  by_cases hjk : j = k
  · subst hjk; simp [PaneCore.leave, ForwardPc.holdsLock] at hj
  · simp only [PaneCore.setForwarder, hlock, Option.some.injEq, Holder.subscriber.injEq] at hother
    exact absurd hother.symm hjk

theorem Handoff.announce (h : Handoff s unsent) : Handoff (s.announce k) unsent :=
  h.setForwarder (by simp [ForwardPc.holdsLock])
    ((h.accounts k).emit rfl (outputOf_paneSnapshot _ _ _))

theorem Handoff.check (h : Handoff s unsent) : Handoff (s.check k) unsent := by
  refine h.setForwarder ?_ ?_
  · split <;> simp [ForwardPc.holdsLock]
  · split
    next => exact (h.accounts k).goto rfl
    next => exact (h.accounts k).emit rfl (outputOf_paneExit _)

theorem Handoff.stream (h : Handoff s unsent) (hp : (s.forwarders k).pc = .streaming)
    (hs : s.stream exitOnClosed k = some s') : Handoff s' unsent := by
  obtain ⟨rx, hr, hs⟩ := Option.bind_eq_some_iff.mp hs
  obtain ⟨f', hf, hs⟩ := Option.bind_eq_some_iff.mp hs
  obtain rfl := Option.some.inj hs
  obtain ⟨hacc, hlock⟩ := (h.accounts k).receive hp hr hf
  exact h.setForwarder (by simp [hlock]) hacc

/-- Every forwarder step keeps the hand-off, provided nothing is unsent when it attaches. -/
theorem Handoff.forward (h : Handoff s unsent)
    (hsnap : (s.forwarders k).pc = .snapped → unsent = [])
    (hs : s.forward exitOnClosed k = some s') : Handoff s' unsent := by
  unfold PaneCore.forward at hs
  split at hs
  next hp => exact h.enter hp hs
  next hp => cases Option.some.inj hs; exact h.snap hp
  next hp =>
    cases Option.some.inj hs
    have hu := hsnap hp
    subst hu
    exact h.attach hp
  next hp => cases Option.some.inj hs; exact h.leave hp
  next hp => cases Option.some.inj hs; exact h.announce
  next hp => cases Option.some.inj hs; exact h.check
  next hp => exact h.stream hp hs
  next => simp at hs

theorem Handoff.abandon (h : Handoff s unsent) (hs : s.abandon k = some s') :
    Handoff s' unsent := by
  obtain rfl := PaneCore.abandon_frame hs
  exact h.setForwarder (by simp [ForwardPc.holdsLock]) ((h.accounts k).goto rfl)

/-- A subscriber cannot take the lock from a writer. -/
theorem Handoff.forward_writer (h : Handoff s unsent) (hw : s.lock = some .writer)
    (hs : s.forward exitOnClosed k = some s') : s'.lock = some .writer := by
  obtain ⟨f, lock, rfl, hl | hl | hp⟩ := PaneCore.forward_frame hs
  · rw [← hw, ← hl]
  · simp [hw] at hl
  · have := h.guarded k (by simp [hp, ForwardPc.holdsLock])
    simp [hw] at this

theorem Handoff.exact (h : Handoff s unsent) {rx : Receiver}
    (hr : (s.forwarders k).rx = some rx) (hl : (s.forwarders k).lagged = false) :
    (s.forwarders k).snapshot ++ outputOf (s.forwarders k).emitted ++
      bytesOf (s.channel.unread rx) ++ unsent = s.appended.drop (s.forwarders k).start := by
  obtain ⟨-, hs, hlive⟩ := (h.accounts k).live rx hr
  rw [hlive hl, ← h.sent, List.drop_append_of_le_length hs]

/-- The conclusion both panes are after, at any moment of a subscription: with the chunk on its way
to the channel, a subscriber accounts for all output from the start of its snapshot on. -/
theorem Handoff.delivered (h : Handoff s unsent) {rx : Receiver} {output inFlight : Bytes}
    (ho : output = bytesOf s.channel.sent ++ inFlight)
    (hr : (s.forwarders k).rx = some rx) (hl : (s.forwarders k).lagged = false) :
    (s.forwarders k).snapshot ++ outputOf (s.forwarders k).emitted ++
        bytesOf (s.channel.unread rx) ++ inFlight = output.drop (s.forwarders k).start ∧
    (s.forwarders k).start + (s.forwarders k).snapshot.length ≤ output.length := by
  obtain ⟨-, hs, hlive⟩ := (h.accounts k).live rx hr
  have hlen := congrArg List.length (hlive hl)
  rw [ho, List.drop_append_of_le_length hs, ← hlive hl]
  refine ⟨rfl, ?_⟩
  simp only [List.length_append, List.length_drop] at hlen ⊢
  omega

end Subscriber

end Tepegoz
