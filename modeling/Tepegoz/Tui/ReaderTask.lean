import Tepegoz.Codec

namespace Tepegoz

open Framing

/-- The task of `spawn_reader_task` with the daemon's end of the socket. `written` are the envelopes that
the daemon has begun to write, `outgoing` is what it has still to write of them, and `lost` what it never
will; `progress` is what the current `read_envelope` has consumed. -/
structure ReaderTask where
  written : List Envelope
  outgoing : Bytes
  socket : Bytes
  shut : Bool
  lost : Bytes
  progress : Bytes
  reading : Bool
  inbox : List (Except ReadError Envelope)

inductive ReaderAct
  | write (env : Envelope)
  | flush (n : Nat)
  | shutdown
  | read (n : Nat)
  | eof
  | recv

namespace ReaderTask

def new : ReaderTask := ⟨[], [], [], false, [], [], true, []⟩

/-- The error goes to the inbox, and the task ends. -/
def fail (s : ReaderTask) (e : ReadError) : ReaderTask :=
  { s with reading := false, inbox := s.inbox ++ [.error e] }

/-- `read_envelope` has all it wanted. -/
def finishRead (rkyv : Rkyv) (s : ReaderTask) : ReaderTask :=
  if oversized s.progress then s.fail .oversizedFrame
  else match rkyv.fromBytes (s.progress.drop 4) with
    | none => s.fail .undecodable
    | some env => { s with progress := [], inbox := s.inbox ++ [.ok env] }

/-- A step, with what the main loop receives by it. The daemon may shut down, or die, in the middle of a
frame. -/
def next (rkyv : Rkyv) (s : ReaderTask) : ReaderAct →
    Option (ReaderTask × List (Except ReadError Envelope))
  | .write env =>
    if s.shut = false ∧ s.outgoing = [] ∧ (rkyv.toBytes env).length < 2 ^ 32 then
      some ({ s with written := s.written ++ [env], outgoing := frame (rkyv.toBytes env) }, [])
    else none
  | .flush n => some ({ s with
      socket := s.socket ++ s.outgoing.take n, outgoing := s.outgoing.drop n }, [])
  | .shutdown =>
    if s.shut = false then some ({ s with shut := true, lost := s.outgoing, outgoing := [] }, []) else none
  | .read n =>
    if s.reading = true ∧ 0 < n ∧ n ≤ s.socket.length ∧
        n ≤ wantedBytes s.progress - s.progress.length then
      let s := { s with progress := s.progress ++ s.socket.take n, socket := s.socket.drop n }
      some (if s.progress.length = wantedBytes s.progress then s.finishRead rkyv else s, [])
    else none
  | .eof =>
    if s.reading = true ∧ s.socket = [] ∧ s.shut = true then
      some (s.fail (if oversized s.progress then .oversizedFrame else .endOfStream), [])
    else none
  | .recv =>
    match s.inbox with
    | [] => none
    | result :: rest => some ({ s with inbox := rest }, [result])

end ReaderTask

def Oversized (rkyv : Rkyv) (envs : List Envelope) : Prop :=
  ∃ env ∈ envs, maxFrameSize < (rkyv.toBytes env).length

/-- The bytes that are not yet read to the end of their frame. -/
def ReaderTask.underway (s : ReaderTask) : Bytes := s.progress ++ s.socket ++ s.outgoing ++ s.lost

/-- What is left of the stream starts where the reader is. -/
structure ReaderTask.Aligned (rkyv : Rkyv) (s : ReaderTask) (rest : List Envelope) : Prop where
  underway : s.underway = stream (rest.map rkyv.toBytes)
  inside : s.progress ≠ [] → ∃ env after, rest = env :: after ∧
    s.progress.length < (frame (rkyv.toBytes env)).length

/-- `sent` went to the inbox, `rest` did not yet. -/
structure ReaderTask.Parted (rkyv : Rkyv) (tr : List (Except ReadError Envelope)) (s : ReaderTask)
    (sent rest : List Envelope) : Prop where
  written : s.written = sent ++ rest
  running : s.reading = true → tr ++ s.inbox = sent.map .ok ∧ s.Aligned rkyv rest
  stopped : s.reading = false → (∃ e, tr ++ s.inbox = sent.map .ok ++ [.error e]) ∧
    (Oversized rkyv s.written ∨ s.shut = true ∧ (s.lost = [] → rest = []))

structure ReaderTask.InOrder (rkyv : Rkyv) (tr : List (Except ReadError Envelope)) (s : ReaderTask) :
    Prop where
  bounded : ∀ env ∈ s.written, (rkyv.toBytes env).length < 2 ^ 32
  flushed : s.shut = true → s.outgoing = []
  kept : s.shut = false → s.lost = []
  parted : ∃ sent rest, s.Parted rkyv tr sent rest

namespace ReaderTask

variable {rkyv : Rkyv} {tr : List (Except ReadError Envelope)} {s s' : ReaderTask}
  {out : List (Except ReadError Envelope)} {sent rest : List Envelope}

theorem inOrder_new (rkyv : Rkyv) : new.InOrder rkyv [] where
  bounded := by simp [new]
  flushed := by simp [new]
  kept := by simp [new]
  parted := ⟨[], [], rfl, fun _ => ⟨rfl, rfl, fun h => absurd rfl h⟩, fun h => nomatch h⟩

/-- A read starts inside of a frame. -/
theorem Aligned.current (h : s.Aligned rkyv rest) (hne : s.socket ≠ []) : ∃ env after,
    rest = env :: after ∧
      s.progress ++ (s.socket ++ (s.outgoing ++ s.lost)) =
        frame (rkyv.toBytes env) ++ stream (after.map rkyv.toBytes) ∧
      s.progress.length < (frame (rkyv.toBytes env)).length := by
  have hstream := h.underway
  simp only [ReaderTask.underway, List.append_assoc] at hstream
  cases rest with
  | nil => simp [hne] at hstream
  | cons env after =>
    refine ⟨env, after, rfl, by simpa using hstream, ?_⟩
    by_cases hp : s.progress = []
    · rw [hp, frame_length, List.length_nil]
      omega
    · obtain ⟨env', after', heq, hlt⟩ := h.inside hp
      cases heq
      exact hlt

/-- A frame that is read to its end is decoded. -/
theorem finishRead_frame {env : Envelope} {socket : Bytes} (hb : (rkyv.toBytes env).length ≤ maxFrameSize)
    (hround : rkyv.fromBytes (rkyv.toBytes env) = some env) :
    { s with progress := frame (rkyv.toBytes env), socket := socket }.finishRead rkyv =
      { s with progress := [], socket := socket, inbox := s.inbox ++ [.ok env] } := by
  have hover : oversized (frame (rkyv.toBytes env)) = false := by
    rw [oversized, announced_of_part (Nat.lt_of_le_of_lt hb (by decide)) List.prefix_rfl (by simp)]
    simpa using hb
  have hbody : (frame (rkyv.toBytes env)).drop 4 = rkyv.toBytes env := List.drop_left' (be32_length _)
  simp only [finishRead, hover, Bool.false_eq_true, if_false, hbody, hround]

/-- What is read of a frame over the limit is an error. -/
theorem finishRead_oversized (hover : oversized s.progress = true) :
    s.finishRead rkyv = s.fail .oversizedFrame := by
  rw [finishRead, if_pos hover]

theorem oversized_of_wanted {env : Envelope} {progress : Bytes} (hb : (rkyv.toBytes env).length < 2 ^ 32)
    (hlimit : maxFrameSize < (rkyv.toBytes env).length) (hp : progress <+: frame (rkyv.toBytes env))
    (hdone : progress.length = wantedBytes progress) : oversized progress = true := by
  have hfour : 4 ≤ progress.length := by
    unfold wantedBytes wanted at hdone
    split at hdone <;> omega
  rw [oversized, announced_of_part hb hp hfour]
  simp [hfour, hlimit]

theorem Parted.failed (h : s.Parted rkyv tr sent rest) (hr : s.reading = true) (e : ReadError)
    {progress socket : Bytes} (hend : Oversized rkyv s.written ∨ s.shut = true ∧ (s.lost = [] → rest = [])) :
    ({ s with progress := progress, socket := socket }.fail e).Parted rkyv tr sent rest where
  written := h.written
  running hr' := nomatch hr'
  stopped _ := by
    refine ⟨⟨e, ?_⟩, hend⟩
    show tr ++ (s.inbox ++ [.error e]) = _
    rw [← List.append_assoc, (h.running hr).1]

/-- A read that stays inside of the frame and leaves it unfinished. -/
theorem Aligned.goesOn {n : Nat} {env : Envelope} {after : List Envelope}
    (h : s.Aligned rkyv (env :: after))
    (hlt : (s.progress ++ s.socket.take n).length < (frame (rkyv.toBytes env)).length) :
    ({ s with progress := s.progress ++ s.socket.take n, socket := s.socket.drop n }).Aligned rkyv
      (env :: after) where
  underway := by
    rw [← h.underway]
    simp only [ReaderTask.underway, List.append_assoc]
    rw [← List.append_assoc (s.socket.take n), List.take_append_drop]
  inside _ := ⟨env, after, rfl, hlt⟩

theorem InOrder.read {n : Nat} (h : s.InOrder rkyv tr)
    (hround : ∀ env ∈ s.written, rkyv.fromBytes (rkyv.toBytes env) = some env)
    (hs : s.next rkyv (.read n) = some (s', out)) : s'.InOrder rkyv tr ∧ out = [] := by
  simp only [next, Option.ite_none_right_eq_some, Option.some.injEq, Prod.mk.injEq] at hs
  obtain ⟨⟨hr, hpos, hle, hw⟩, rfl, rfl⟩ := hs
  refine ⟨?_, rfl⟩
  obtain ⟨sent, rest, hp⟩ := h.parted
  obtain ⟨hsent, haligned⟩ := hp.running hr
  have hne : s.socket ≠ [] := by
    intro he
    simp only [he, List.length_nil] at hle
    omega
  obtain ⟨env, after, rfl, hstream, hlt⟩ := haligned.current hne
  have hmem : env ∈ s.written := by simp [hp.written]
  have hb := h.bounded env hmem
  have htake : (s.socket ++ (s.outgoing ++ s.lost)).take n = s.socket.take n :=
    List.take_append_of_le_length hle
  have hunfinished : (s.progress ++ s.socket.take n).length < (frame (rkyv.toBytes env)).length →
      ({ s with progress := s.progress ++ s.socket.take n, socket := s.socket.drop n }).InOrder rkyv tr :=
    fun hlt' => ⟨h.bounded, h.flushed, h.kept, sent, env :: after, hp.written,
      fun _ => ⟨hsent, haligned.goesOn hlt'⟩, fun hr' => absurd hr (by simpa using hr')⟩
  by_cases hlimit : (rkyv.toBytes env).length ≤ maxFrameSize
  · have hinside := read_inside (by decide) hlimit hstream hlt hw
    rw [htake] at hinside
    split
    next hdone =>
      have hframe := hinside.2.mp hdone
      have hleft : s.socket.drop n ++ (s.outgoing ++ s.lost) = stream (after.map rkyv.toBytes) := by
        refine List.append_cancel_left
          (?_ : frame (rkyv.toBytes env) ++ _ = frame (rkyv.toBytes env) ++ _)
        rw [← hstream, ← hframe, List.append_assoc, ← List.append_assoc (s.socket.take n),
          List.take_append_drop]
      rw [hframe, finishRead_frame hlimit (hround env hmem)]
      refine ⟨h.bounded, h.flushed, h.kept, sent ++ [env], after, by simp [hp.written], fun _ => ⟨?_, ?_, ?_⟩,
        fun hr' => absurd hr (by simpa using hr')⟩
      · rw [List.map_append, ← hsent, List.append_assoc]
        rfl
      · simpa [ReaderTask.underway] using hleft
      · exact fun hne => absurd rfl hne
    next hdone =>
      refine hunfinished (Nat.lt_of_le_of_ne hinside.1.length_le fun heq => ?_)
      exact hdone (hinside.2.mpr (hinside.1.eq_of_length heq))
  · have hinside := read_inside_oversized hb (Nat.lt_of_not_le hlimit) (by decide) hstream hlt hpos hw
    rw [htake] at hinside
    split
    next hdone =>
      have hover : oversized (s.progress ++ s.socket.take n) = true :=
        oversized_of_wanted hb (Nat.lt_of_not_le hlimit) hinside.1 hdone
      rw [finishRead_oversized (by exact hover)]
      exact ⟨h.bounded, h.flushed, h.kept, sent, env :: after,
        hp.failed hr .oversizedFrame (.inl ⟨env, hmem, Nat.lt_of_not_le hlimit⟩)⟩
    next => exact hunfinished hinside.2

theorem InOrder.write {env : Envelope} (h : s.InOrder rkyv tr) (hs : s.next rkyv (.write env) = some (s', out)) :
    s'.InOrder rkyv tr ∧ out = [] := by
  simp only [next, Option.ite_none_right_eq_some, Option.some.injEq, Prod.mk.injEq] at hs
  obtain ⟨⟨hshut, hout, hlen⟩, rfl, rfl⟩ := hs
  obtain ⟨sent, rest, hp⟩ := h.parted
  have hlost := h.kept hshut
  have hbounded : ∀ env' ∈ s.written ++ [env], (rkyv.toBytes env').length < 2 ^ 32 := by
    intro env' hm
    rcases List.mem_append.mp hm with hm | hm
    · exact h.bounded env' hm
    · exact List.mem_singleton.mp hm ▸ hlen
  refine ⟨⟨hbounded, by simp [hshut], h.kept, sent, rest ++ [env], ?_, fun hr => ?_, fun hr => ?_⟩, rfl⟩
  · show s.written ++ [env] = sent ++ (rest ++ [env])
    rw [hp.written, List.append_assoc]
  · obtain ⟨hsent, haligned⟩ := hp.running hr
    refine ⟨hsent, ?_, fun hne => ?_⟩
    · have hstream := haligned.underway
      simp only [ReaderTask.underway, hout, hlost, List.append_nil] at hstream ⊢
      rw [hstream, List.map_append, stream_append]
      simp
    · obtain ⟨env', after, heq, hlt⟩ := haligned.inside hne
      exact ⟨env', after ++ [env], by simp [heq], hlt⟩
  · obtain ⟨herror, ⟨env', hm, hlimit⟩ | ⟨hshut', -⟩⟩ := hp.stopped hr
    · exact ⟨herror, .inl ⟨env', List.mem_append_left _ hm, hlimit⟩⟩
    · rw [hshut] at hshut'
      cases hshut'

theorem InOrder.eof (h : s.InOrder rkyv tr) (hs : s.next rkyv .eof = some (s', out)) :
    s'.InOrder rkyv tr ∧ out = [] := by
  simp only [next, Option.ite_none_right_eq_some, Option.some.injEq, Prod.mk.injEq] at hs
  obtain ⟨⟨hr, hempty, hshut⟩, rfl, rfl⟩ := hs
  obtain ⟨sent, rest, hp⟩ := h.parted
  obtain ⟨-, haligned⟩ := hp.running hr
  -- the reader is at the end of a frame unless the daemon left one unfinished
  have hwhole : s.lost = [] → rest = [] := by
    intro hlost
    have hstream := haligned.underway
    simp only [ReaderTask.underway, hempty, h.flushed hshut, hlost, List.append_nil] at hstream
    by_cases hprogress : s.progress = []
    · rw [hprogress] at hstream
      simpa using stream_eq_nil hstream.symm
    · obtain ⟨env, after, rfl, hlt⟩ := haligned.inside hprogress
      have hlen := congrArg List.length hstream
      simp only [List.map_cons, stream_cons, List.length_append] at hlen
      omega
  exact ⟨⟨h.bounded, h.flushed, h.kept, sent, rest, hp.failed hr _ (.inr ⟨hshut, hwhole⟩)⟩, rfl⟩

theorem InOrder.recv (h : s.InOrder rkyv tr) (hs : s.next rkyv .recv = some (s', out)) :
    s'.InOrder rkyv (tr ++ out) := by
  obtain ⟨sent, rest, hp⟩ := h.parted
  cases hinbox : s.inbox with
  | nil => simp [next, hinbox] at hs
  | cons result results =>
    simp only [next, hinbox, Option.some.injEq, Prod.mk.injEq] at hs
    obtain ⟨rfl, rfl⟩ := hs
    have hall : tr ++ [result] ++ results = tr ++ s.inbox := by rw [hinbox, List.append_assoc]; rfl
    refine ⟨h.bounded, h.flushed, h.kept, sent, rest, hp.written, fun hr => ?_, fun hr => ?_⟩
    · obtain ⟨hsent, haligned⟩ := hp.running hr
      exact ⟨hall.trans hsent, haligned.underway, haligned.inside⟩
    · obtain ⟨⟨e, herror⟩, hend⟩ := hp.stopped hr
      exact ⟨⟨e, hall.trans herror⟩, hend⟩

theorem InOrder.flush {n : Nat} (h : s.InOrder rkyv tr) (hs : s.next rkyv (.flush n) = some (s', out)) :
    s'.InOrder rkyv tr ∧ out = [] := by
  simp only [next, Option.some.injEq, Prod.mk.injEq] at hs
  obtain ⟨rfl, rfl⟩ := hs
  obtain ⟨sent, rest, hp⟩ := h.parted
  refine ⟨⟨h.bounded, fun hshut => by simp [h.flushed hshut], h.kept, sent, rest, hp.written, fun hr => ?_,
    hp.stopped⟩, rfl⟩
  obtain ⟨hsent, haligned⟩ := hp.running hr
  refine ⟨hsent, ?_, haligned.inside⟩
  rw [← haligned.underway]
  simp only [ReaderTask.underway, List.append_assoc]
  rw [← List.append_assoc (s.outgoing.take n), List.take_append_drop]

theorem InOrder.shutdown (h : s.InOrder rkyv tr) (hs : s.next rkyv .shutdown = some (s', out)) :
    s'.InOrder rkyv tr ∧ out = [] := by
  simp only [next, Option.ite_none_right_eq_some, Option.some.injEq, Prod.mk.injEq] at hs
  obtain ⟨hshut, rfl, rfl⟩ := hs
  obtain ⟨sent, rest, hp⟩ := h.parted
  refine ⟨⟨h.bounded, fun _ => rfl, nofun, sent, rest, hp.written, fun hr => ?_, fun hr => ?_⟩, rfl⟩
  · obtain ⟨hsent, haligned⟩ := hp.running hr
    refine ⟨hsent, ?_, haligned.inside⟩
    rw [← haligned.underway]
    simp [ReaderTask.underway, h.kept hshut]
  · obtain ⟨herror, hover | ⟨hshut', -⟩⟩ := hp.stopped hr
    · exact ⟨herror, .inl hover⟩
    · rw [hshut] at hshut'
      cases hshut'

/-- What a step does to the daemon's end: nothing but to move bytes, or the daemon was still there. -/
theorem next_daemon {act : ReaderAct} (hs : s.next rkyv act = some (s', out)) :
    (s'.shut = s.shut ∧ s'.written = s.written ∧ s'.lost = s.lost) ∨
      s.shut = false ∧ s.written <+: s'.written := by
  cases act with
  | write env =>
    simp only [next, Option.ite_none_right_eq_some, Option.some.injEq, Prod.mk.injEq] at hs
    obtain ⟨⟨hshut, -⟩, rfl, -⟩ := hs
    exact .inr ⟨hshut, List.prefix_append _ _⟩
  | flush n =>
    simp only [next, Option.some.injEq, Prod.mk.injEq] at hs
    obtain ⟨rfl, -⟩ := hs
    exact .inl ⟨rfl, rfl, rfl⟩
  | shutdown =>
    simp only [next, Option.ite_none_right_eq_some, Option.some.injEq, Prod.mk.injEq] at hs
    obtain ⟨hshut, rfl, -⟩ := hs
    exact .inr ⟨hshut, List.prefix_rfl⟩
  | read n =>
    simp only [next, Option.ite_none_right_eq_some, Option.some.injEq, Prod.mk.injEq] at hs
    obtain ⟨-, rfl, -⟩ := hs
    unfold finishRead fail
    repeat' split
    all_goals exact .inl ⟨rfl, rfl, rfl⟩
  | eof =>
    simp only [next, Option.ite_none_right_eq_some, Option.some.injEq, Prod.mk.injEq] at hs
    obtain ⟨-, rfl, -⟩ := hs
    exact .inl ⟨rfl, rfl, rfl⟩
  | recv =>
    simp only [next] at hs
    split at hs
    next => cases hs
    next =>
      obtain ⟨rfl, -⟩ := Prod.mk.inj (Option.some.inj hs)
      exact .inl ⟨rfl, rfl, rfl⟩

theorem next_written {act : ReaderAct} (hs : s.next rkyv act = some (s', out)) : s.written <+: s'.written := by
  rcases next_daemon hs with ⟨-, hwritten, -⟩ | ⟨-, hmore⟩
  · exact hwritten ▸ List.prefix_rfl
  · exact hmore

/-- After the shutdown the daemon does nothing more. -/
theorem next_shut {act : ReaderAct} (hs : s.next rkyv act = some (s', out)) (hshut : s.shut = true) :
    s'.shut = true ∧ s'.written = s.written ∧ s'.lost = s.lost := by
  rcases next_daemon hs with ⟨hshut', hrest⟩ | ⟨hopen, -⟩
  · exact ⟨hshut'.trans hshut, hrest⟩
  · rw [hshut] at hopen
    cases hopen

theorem next_silent {act : ReaderAct} (hs : s.next rkyv act = some (s', out)) (hact : act ≠ .recv) :
    out = [] := by
  cases act with
  | recv => exact absurd rfl hact
  | flush n =>
    simp only [next, Option.some.injEq, Prod.mk.injEq] at hs
    exact hs.2.symm
  | write env | shutdown | read n | eof =>
    simp only [next, Option.ite_none_right_eq_some, Option.some.injEq, Prod.mk.injEq] at hs
    exact hs.2.2.symm

theorem InOrder.step {act : ReaderAct} (h : s.InOrder rkyv tr)
    (hround : ∀ env ∈ s.written, rkyv.fromBytes (rkyv.toBytes env) = some env)
    (hs : s.next rkyv act = some (s', out)) : s'.InOrder rkyv (tr ++ out) := by
  have hsilent : s'.InOrder rkyv tr ∧ out = [] → s'.InOrder rkyv (tr ++ out) := fun ⟨h', hout⟩ => by
    rwa [hout, List.append_nil]
  cases act with
  | write env => exact hsilent (h.write hs)
  | flush n => exact hsilent (h.flush hs)
  | shutdown => exact hsilent (h.shutdown hs)
  | read n => exact hsilent (h.read hround hs)
  | eof => exact hsilent (h.eof hs)
  | recv => exact h.recv hs

section Received

variable {heard : List Envelope}

def decoded : Except ReadError Envelope → Option Envelope
  | .ok env => some env
  | .error _ => none

theorem map_ok_inj {heard' : List Envelope}
    (h : (heard.map .ok : List (Except ReadError Envelope)) = heard'.map .ok) : heard = heard' :=
  List.map_injective_iff.mpr (fun _ _ heq => Except.ok.inj heq) h

theorem not_error_of_map_ok {e : ReadError} : .error e ∉ (heard.map .ok : List (Except ReadError Envelope)) := by
  simp

theorem InOrder.heard_prefix (h : s.InOrder rkyv (heard.map .ok)) : heard <+: s.written := by
  obtain ⟨sent, rest, hp⟩ := h.parted
  have hoks : ∀ envs : List Envelope, (envs.map .ok).filterMap decoded = envs := by
    intro envs
    simp [List.filterMap_map, Function.comp_def, decoded]
  have hpart : heard.map .ok <+: heard.map .ok ++ s.inbox := List.prefix_append _ _
  have hsent : heard <+: sent := by
    have hpart' := hpart.filterMap decoded
    rw [hoks] at hpart'
    cases hr : s.reading with
    | true =>
      rw [(hp.running hr).1, hoks] at hpart'
      exact hpart'
    | false =>
      obtain ⟨⟨e, herror⟩, -⟩ := hp.stopped hr
      have hnone : [.error e].filterMap decoded = [] := rfl
      rw [herror, List.filterMap_append, hoks, hnone, List.append_nil] at hpart'
      exact hpart'
  exact hsent.trans (hp.written ▸ List.prefix_append _ _)

/-- Nothing is left behind. -/
theorem InOrder.drained (h : s.InOrder rkyv (heard.map .ok)) (hr : s.reading = true)
    (hinbox : s.inbox = []) (hunderway : s.underway = []) : heard = s.written := by
  obtain ⟨sent, rest, hp⟩ := h.parted
  obtain ⟨hsent, haligned⟩ := hp.running hr
  have hrest : rest = [] := by
    have hstream := haligned.underway
    rw [hunderway] at hstream
    simpa using stream_eq_nil hstream.symm
  rw [hp.written, hrest, List.append_nil]
  rw [hinbox, List.append_nil] at hsent
  exact map_ok_inj hsent

/-- The error comes after the last envelope. -/
theorem InOrder.closed (h : s.InOrder rkyv tr) {e : ReadError} (htr : tr = heard.map .ok ++ [.error e]) :
    Oversized rkyv s.written ∨ s.shut = true ∧ (s.lost = [] → heard = s.written) := by
  obtain ⟨sent, rest, hp⟩ := h.parted
  cases hr : s.reading with
  | true =>
    have hm : .error e ∈ tr ++ s.inbox := by simp [htr]
    exact absurd ((hp.running hr).1 ▸ hm) not_error_of_map_ok
  | false =>
    obtain ⟨⟨e', herror⟩, hover | ⟨hshut, hrest⟩⟩ := hp.stopped hr
    · exact .inl hover
    · refine .inr ⟨hshut, fun hlost => ?_⟩
      rw [hp.written, hrest hlost, List.append_nil]
      rw [htr, List.append_assoc] at herror
      rcases List.append_eq_append_iff.mp herror with ⟨more, hsent, hmore⟩ | ⟨more, hheard, hmore⟩
      · cases more with
        | nil => exact map_ok_inj (by simpa using hsent.symm)
        | cons result more =>
          obtain ⟨rfl, -⟩ := List.cons_eq_cons.mp hmore
          have hm : .error e ∈ (sent.map .ok : List (Except ReadError Envelope)) := by simp [hsent]
          exact absurd hm not_error_of_map_ok
      · cases more with
        | nil => exact map_ok_inj (by simpa using hheard)
        | cons result more =>
          obtain ⟨rfl, -⟩ := List.cons_eq_cons.mp hmore
          have hm : .error e' ∈ (heard.map .ok : List (Except ReadError Envelope)) := by simp [hheard]
          exact absurd hm not_error_of_map_ok

end Received

end ReaderTask

end Tepegoz
