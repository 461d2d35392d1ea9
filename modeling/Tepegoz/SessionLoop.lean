import Tepegoz.Lib.Framing
import Tepegoz.Lib.Transition
import Tepegoz.Proto
import Tepegoz.Scrollback

namespace Tepegoz

open Transition Framing

def maxFrameSize : Nat := 16 * 1024 * 1024

/-- The rkyv serializer and validator. -/
structure Rkyv where
  toBytes : Envelope → Bytes
  fromBytes : Bytes → Option Envelope

inductive SessionEnd
  | endOfStream
  | oversizedFrame
  | undecodable
  | commandFailed
  | clientGone
  deriving DecidableEq

/-- The daemon's session loop after the handshake, with the client's side of the socket.
`progress` is what the current `read_envelope` future has consumed, `handed` what went to
`handle_command`. -/
structure SessionLoop where
  sent : List Envelope
  shut : Bool
  socket : Bytes
  progress : Bytes
  statusSub : Option Nat
  handed : List Envelope
  ended : Option SessionEnd
  deriving DecidableEq

inductive LoopAct
  | send (env : Envelope)
  | shutdown
  | read (n : Nat) (handled : Bool)
  | eof
  | tick (delivered : Bool)
  deriving DecidableEq

/-- What `handle_command` does to `status_sub`. -/
def statusAfter (statusSub : Option Nat) : Payload → Option Nat
  | .subscribe (.status id) => some id
  | .unsubscribe id => if statusSub = some id then none else statusSub
  | _ => statusSub

/-- `read_envelope` reads 32 more bytes for its error message when a frame is too large. -/
def peekSize : Nat := 32

def wantedBytes (progress : Bytes) : Nat := wanted maxFrameSize peekSize progress

def oversized (progress : Bytes) : Bool := 4 ≤ progress.length ∧ maxFrameSize < announced progress

namespace SessionLoop

def handshaken : SessionLoop := ⟨[], false, [], [], none, [], none⟩

/-- `read_envelope` has all it wanted. -/
def finishRead (rkyv : Rkyv) (handled : Bool) (s : SessionLoop) : SessionLoop :=
  if oversized s.progress then { s with ended := some .oversizedFrame }
  else match rkyv.fromBytes (s.progress.drop 4) with
    | none => { s with ended := some .undecodable }
    | some env => { s with
        progress := []
        handed := s.handed ++ [env]
        statusSub := statusAfter s.statusSub env.payload
        ended := if handled then none else some .commandFailed }

/-- One turn of the `select!` loop or a part of one: a read of some bytes of the frame, or a tick,
which drops the read in progress. -/
def next (rkyv : Rkyv) (s : SessionLoop) : LoopAct → Option SessionLoop
  | .send env =>
    if s.shut = false ∧ (rkyv.toBytes env).length ≤ maxFrameSize then
      some { s with sent := s.sent ++ [env], socket := s.socket ++ frame (rkyv.toBytes env) }
    else none
  | .shutdown => some { s with shut := true }
  | .read n handled =>
    if s.ended = none ∧ 0 < n ∧ n ≤ s.socket.length ∧
        n ≤ wantedBytes s.progress - s.progress.length then
      let s := { s with progress := s.progress ++ s.socket.take n, socket := s.socket.drop n }
      some (if s.progress.length = wantedBytes s.progress then s.finishRead rkyv handled else s)
    else none
  | .eof =>
    if s.ended = none ∧ s.socket = [] ∧ s.shut = true then
      some { s with ended := some (if oversized s.progress then .oversizedFrame else .endOfStream) }
    else none
  | .tick delivered =>
    if s.ended = none ∧ s.statusSub.isSome = true then
      some { s with progress := [], ended := if delivered then none else some .clientGone }
    else none

end SessionLoop

def sessionLoop (rkyv : Rkyv) : System SessionLoop LoopAct Empty :=
  .silent (· = .handshaken) (SessionLoop.next rkyv)

/-- No tick is handled while a frame is half read. -/
def TicksBetweenFrames : List Empty → SessionLoop → LoopAct → Prop
  | _, s, .tick _ => s.progress = []
  | _, _, _ => True

instance (tr : List Empty) (s : SessionLoop) : (a : LoopAct) → Decidable (TicksBetweenFrames tr s a)
  | .tick _ => inferInstanceAs (Decidable (_ = _))
  | .send _ | .shutdown | .read _ _ | .eof => .isTrue trivial

/-- What is sent and not yet handed over is exactly what lies in the future and on the socket. -/
structure SessionLoop.InStep (rkyv : Rkyv) (s : SessionLoop) : Prop where
  bounded : ∀ env ∈ s.sent, (rkyv.toBytes env).length ≤ maxFrameSize
  handed : s.handed <+: s.sent
  running : s.ended = none → ∃ rest, s.sent = s.handed ++ rest ∧
    s.progress ++ s.socket = stream (rest.map rkyv.toBytes) ∧
    (s.progress ≠ [] → ∃ env after, rest = env :: after ∧
      s.progress.length < (frame (rkyv.toBytes env)).length)
  closed : s.ended = some .endOfStream → s.shut = true ∧ s.handed = s.sent
  sound : s.ended ≠ some .oversizedFrame ∧ s.ended ≠ some .undecodable

namespace SessionLoop

variable {rkyv : Rkyv} {s s' : SessionLoop}

theorem inStep_handshaken (rkyv : Rkyv) : handshaken.InStep rkyv where
  bounded := by simp [handshaken]
  handed := List.prefix_rfl
  running := fun _ => ⟨[], rfl, rfl, fun h => absurd rfl h⟩
  closed := by simp [handshaken]
  sound := by simp [handshaken]

theorem InStep.send {env : Envelope} (h : s.InStep rkyv) (hs : s.next rkyv (.send env) = some s') :
    s'.InStep rkyv := by
  simp only [next, Option.ite_none_right_eq_some, Option.some.injEq] at hs
  obtain ⟨⟨hshut, hlen⟩, rfl⟩ := hs
  refine ⟨?_, h.handed.trans (List.prefix_append _ _), ?_, ?_, h.sound⟩
  · intro e he
    rcases List.mem_append.mp he with he | he
    · exact h.bounded e he
    · rw [List.mem_singleton.mp he]; exact hlen
  · intro hn
    obtain ⟨rest, hrest, hstream, hpart⟩ := h.running hn
    refine ⟨rest ++ [env], by simp [hrest], ?_, ?_⟩
    · rw [← List.append_assoc, hstream]
      simp [stream_append]
    · intro hp
      obtain ⟨e, after, rfl, hl⟩ := hpart hp
      exact ⟨e, after ++ [env], rfl, hl⟩
  · intro hend
    have := (h.closed hend).1
    simp [hshut] at this

/-- While bytes are left there is a frame that the reader is inside of. -/
theorem InStep.current (h : s.InStep rkyv) (hn : s.ended = none) (hne : s.socket ≠ []) :
    ∃ env after, s.sent = s.handed ++ env :: after ∧
      s.progress ++ s.socket = frame (rkyv.toBytes env) ++ stream (after.map rkyv.toBytes) ∧
      s.progress.length < (frame (rkyv.toBytes env)).length := by
  obtain ⟨rest, hrest, hstream, hpart⟩ := h.running hn
  cases rest with
  | nil =>
    simp only [List.map_nil, stream_nil, List.append_eq_nil_iff] at hstream
    exact absurd hstream.2 hne
  | cons env after =>
    refine ⟨env, after, hrest, by simpa using hstream, ?_⟩
    by_cases hp : s.progress = []
    · rw [hp, frame_length, List.length_nil]; omega
    · obtain ⟨e, rest, he, hl⟩ := hpart hp
      cases he
      exact hl

theorem InStep.read {n : Nat} {handled : Bool} (h : s.InStep rkyv)
    (hround : ∀ env ∈ s.sent, rkyv.fromBytes (rkyv.toBytes env) = some env)
    (hs : s.next rkyv (.read n handled) = some s') : s'.InStep rkyv := by
  simp only [next, Option.ite_none_right_eq_some, Option.some.injEq] at hs
  obtain ⟨⟨hn, hpos, hle, hw⟩, rfl⟩ := hs
  have hne : s.socket ≠ [] := by
    intro he
    simp only [he, List.length_nil] at hle
    omega
  obtain ⟨env, after, hsent, hstream, hlt⟩ := h.current hn hne
  have hmem : env ∈ s.sent := by simp [hsent]
  have hb := h.bounded env hmem
  obtain ⟨hp, hdone⟩ := read_inside (by decide) hb hstream hlt hw
  have hkeep : s.progress ++ s.socket.take n ++ s.socket.drop n =
      frame (rkyv.toBytes env) ++ stream (after.map rkyv.toBytes) := by
    rw [List.append_assoc, List.take_append_drop, hstream]
  split
  next hc =>
    have hframe := hdone.mp hc
    have hrest := List.append_cancel_left (hframe ▸ hkeep)
    have hover : oversized (s.progress ++ s.socket.take n) = false := by
      rw [hframe, oversized, announced_of_part (Nat.lt_of_le_of_lt hb (by decide))
        List.prefix_rfl (by simp)]
      simp only [decide_eq_false_iff_not]
      omega
    have hbody : (s.progress ++ s.socket.take n).drop 4 = rkyv.toBytes env := by
      rw [hframe, frame]
      exact List.drop_left' (be32_length _)
    simp only [finishRead, hover, Bool.false_eq_true, if_false, hbody, hround env hmem]
    have hsent' : s.sent = s.handed ++ [env] ++ after := by simp [hsent]
    refine ⟨h.bounded, ⟨after, hsent'.symm⟩, fun _ => ⟨after, hsent', hrest, fun hh => absurd rfl hh⟩,
      ?_, ?_⟩
    · split <;> simp
    · split <;> simp
  next hc =>
    have hlt' := Nat.lt_of_le_of_ne hp.length_le (fun he => hc (hdone.mpr (hp.eq_of_length he)))
    refine ⟨h.bounded, h.handed, fun _ => ⟨env :: after, hsent, ?_, ?_⟩, ?_, h.sound⟩
    · simpa using hkeep
    · exact fun _ => ⟨env, after, rfl, hlt'⟩
    · simp [hn]

theorem InStep.eof (h : s.InStep rkyv) (hs : s.next rkyv .eof = some s') : s'.InStep rkyv := by
  simp only [next, Option.ite_none_right_eq_some, Option.some.injEq] at hs
  obtain ⟨⟨hn, hempty, hshut⟩, rfl⟩ := hs
  obtain ⟨rest, hrest, hstream, hpart⟩ := h.running hn
  have hp : s.progress = [] := by
    by_contra hp
    obtain ⟨env, after, rfl, hl⟩ := hpart hp
    have hlen := congrArg List.length hstream
    simp only [hempty, List.append_nil, List.map_cons, stream_cons, List.length_append] at hlen
    omega
  rw [hp, hempty] at hstream
  have hnil : rest = [] := by simpa using stream_eq_nil hstream.symm
  have hover : oversized s.progress = false := by simp [hp, oversized]
  refine ⟨h.bounded, h.handed, by simp, fun _ => ⟨hshut, ?_⟩, ?_⟩
  · simp [hrest, hnil]
  · simp [hover]

theorem InStep.tick {delivered : Bool} (h : s.InStep rkyv) (hp : s.progress = [])
    (hs : s.next rkyv (.tick delivered) = some s') : s'.InStep rkyv := by
  simp only [next, Option.ite_none_right_eq_some, Option.some.injEq] at hs
  obtain ⟨⟨hn, -⟩, rfl⟩ := hs
  refine ⟨h.bounded, h.handed, fun _ => ?_, ?_, ?_⟩
  · obtain ⟨rest, hrest, hstream, -⟩ := h.running hn
    rw [hp] at hstream
    exact ⟨rest, hrest, hstream, fun hh => absurd rfl hh⟩
  · split <;> simp
  · split <;> simp

theorem sent_mono {a : LoopAct} (hs : s.next rkyv a = some s') : s.sent <+: s'.sent := by
  cases a with
  | send env =>
    simp only [next, Option.ite_none_right_eq_some, Option.some.injEq] at hs
    obtain ⟨-, rfl⟩ := hs
    exact List.prefix_append _ _
  | shutdown => cases Option.some.inj hs; exact List.prefix_rfl
  | read n handled =>
    simp only [next, Option.ite_none_right_eq_some, Option.some.injEq] at hs
    obtain ⟨-, rfl⟩ := hs
    unfold finishRead
    repeat' split
    all_goals exact List.prefix_rfl
  | eof =>
    simp only [next, Option.ite_none_right_eq_some, Option.some.injEq] at hs
    obtain ⟨-, rfl⟩ := hs
    exact List.prefix_rfl
  | tick delivered =>
    simp only [next, Option.ite_none_right_eq_some, Option.some.injEq] at hs
    obtain ⟨-, rfl⟩ := hs
    exact List.prefix_rfl

theorem inStep_of_run {tr : List Empty} (h : Run (sessionLoop rkyv) TicksBetweenFrames tr s)
    (hround : ∀ env ∈ s.sent, rkyv.fromBytes (rkyv.toBytes env) = some env) : s.InStep rkyv := by
  refine h.invariant (I := fun _ s => (∀ env ∈ s.sent,
    rkyv.fromBytes (rkyv.toBytes env) = some env) → s.InStep rkyv) ?_ ?_ hround
  · rintro _ rfl _
    exact inStep_handshaken rkyv
  · intro tr s l s' out _ hi hok hs hround'
    have hnext := (System.silent_step.mp hs).1
    have hround := fun env he => hround' env ((sent_mono hnext).subset he)
    have h := hi hround
    cases l with
    | send env => exact h.send hnext
    | shutdown =>
      cases Option.some.inj hnext
      exact ⟨h.bounded, h.handed, h.running, fun he => ⟨rfl, (h.closed he).2⟩, h.sound⟩
    | read n handled => exact h.read hround hnext
    | eof => exact h.eof hnext
    | tick delivered => exact h.tick hok hnext

end SessionLoop

/-- If every tick comes between two frames, the commands are handed over as they were sent, none is
left behind once the socket is empty, and the stream never looks malformed. -/
theorem commands_in_order {rkyv : Rkyv} {tr : List Empty} {s : SessionLoop}
    (h : Run (sessionLoop rkyv) TicksBetweenFrames tr s)
    (hround : ∀ env ∈ s.sent, rkyv.fromBytes (rkyv.toBytes env) = some env) :
    s.handed <+: s.sent ∧ (s.ended = none → s.socket = [] → s.handed = s.sent) ∧
      (s.ended = some .endOfStream → s.handed = s.sent) ∧
      s.ended ≠ some .oversizedFrame ∧ s.ended ≠ some .undecodable := by
  have hi := SessionLoop.inStep_of_run h hround
  refine ⟨hi.handed, fun hn he => ?_, fun he => (hi.closed he).2, hi.sound⟩
  obtain ⟨rest, hrest, hstream, hpart⟩ := hi.running hn
  cases rest with
  | nil => simp [hrest]
  | cons env after =>
    have hlen := congrArg List.length hstream
    simp only [he, List.append_nil, List.map_cons, stream_cons, List.length_append,
      frame_length] at hlen
    obtain ⟨e, rest, hcons, hl⟩ := hpart (by intro hp; simp [hp] at hlen; omega)
    cases hcons
    simp only [frame_length] at hl
    omega

section Instances

/-- A serializer for the two commands of the schedules below. -/
def twoCommands : Rkyv where
  toBytes env := if env = envelope .ping then [1] else [2]
  fromBytes bytes :=
    if bytes = [1] then some (envelope .ping)
    else if bytes = [2] then some (envelope (.subscribe (.status 7))) else none

/-- The tick finds the session between the two frames. -/
theorem commands_in_order_ticking : ∃ tr s, Run (sessionLoop twoCommands) TicksBetweenFrames tr s ∧
    s.sent = [envelope (.subscribe (.status 7)), envelope .ping] ∧ s.handed = s.sent := by
  obtain ⟨tr, s, hr, hsent, hend⟩ := Run.of_replay (sessionLoop twoCommands) TicksBetweenFrames
    (fun _ s => s.sent = [envelope (.subscribe (.status 7)), envelope .ping] ∧
      s.ended = some .endOfStream) rfl
    [.send (envelope (.subscribe (.status 7))), .send (envelope .ping), .shutdown,
      .read 2 true, .read 2 true, .read 1 true, .tick true, .read 4 true, .read 1 true, .eof]
    (by decide)
  exact ⟨tr, s, hr, hsent, (commands_in_order hr (by rw [hsent]; decide)).2.2.1 hend⟩

/-- The tick drops a future that has read two bytes of the second frame. -/
theorem command_lost_to_tick : ¬ ∀ (rkyv : Rkyv) (tr : List Empty) (s : SessionLoop),
    Run (sessionLoop rkyv) Free tr s →
    (∀ env ∈ s.sent, rkyv.fromBytes (rkyv.toBytes env) = some env) →
    s.handed <+: s.sent ∧ (s.ended = none → s.socket = [] → s.handed = s.sent) ∧
      (s.ended = some .endOfStream → s.handed = s.sent) ∧
      s.ended ≠ some .oversizedFrame ∧ s.ended ≠ some .undecodable := by
  intro hall
  obtain ⟨tr, s, hr, hsent, hend, hlost⟩ := Run.of_replay (sessionLoop twoCommands) Free
    (fun _ s => s.sent = [envelope (.subscribe (.status 7)), envelope .ping] ∧
      s.ended = some .endOfStream ∧ s.handed ≠ s.sent) rfl
    [.send (envelope (.subscribe (.status 7))), .send (envelope .ping), .shutdown,
      .read 4 true, .read 1 true, .read 2 true, .tick true, .read 3 true, .eof]
    (by decide)
  exact hlost ((hall twoCommands tr s hr (by rw [hsent]; decide)).2.2.1 hend)

end Instances

end Tepegoz
