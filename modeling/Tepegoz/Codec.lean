import Tepegoz.SessionLoop

namespace Tepegoz

open Framing

variable (rkyv : Rkyv)

/-- `write_envelope` on a sink that takes everything; `none` is its error. -/
def writeEnvelope (sink : Bytes) (env : Envelope) : Option Bytes :=
  let bytes := rkyv.toBytes env
  if bytes.length < 2 ^ 32 then some (sink ++ be32 bytes.length ++ bytes) else none

def writeEnvelopes (sink : Bytes) : List Envelope → Option Bytes
  | [] => some sink
  | env :: envs => (writeEnvelope rkyv sink env).bind fun sink => writeEnvelopes sink envs

/-- `serialize_envelope`: the length prefix and the body. -/
def serializeEnvelope (env : Envelope) : Option (Bytes × Bytes) :=
  let body := rkyv.toBytes env
  if body.length < 2 ^ 32 then some (be32 body.length, body) else none

inductive ReadError
  | endOfStream
  | oversizedFrame
  | undecodable
  deriving DecidableEq

/-- `read_envelope`, with the reads that are still to come. -/
def readEnvelope (reads : List Bytes) : Except ReadError (Envelope × List Bytes) :=
  match readExact 4 reads with
  | none => .error .endOfStream
  | some (lenBuf, reads) =>
    let len := be32Value lenBuf
    if maxFrameSize < len then .error .oversizedFrame
    else match readExact len reads with
      | none => .error .endOfStream
      | some (raw, reads) =>
        match rkyv.fromBytes raw with
        | none => .error .undecodable
        | some env => .ok (env, reads)

/-- At most `n` calls of `read_envelope`, until one fails. -/
def readEnvelopes : Nat → List Bytes → List Envelope × Option ReadError
  | 0, _ => ([], none)
  | n + 1, reads =>
    match readEnvelope rkyv reads with
    | .error e => ([], some e)
    | .ok (env, reads) =>
      let rest := readEnvelopes n reads
      (env :: rest.1, rest.2)

/-- Whatever the reads, the envelopes come back in order; when the stream ends inside a frame, those
of the frames before it come back and then there is an error. -/
structure RoundTrip (envs : List Envelope) (output : Bytes) : Prop where
  whole : ∀ reads, reads.flatten = output → readEnvelopes rkyv envs.length reads = (envs, none)
  cut : ∀ before env after part, envs = before ++ env :: after →
    part <+: frame (rkyv.toBytes env) → part ≠ frame (rkyv.toBytes env) →
    ∀ reads, reads.flatten = stream (before.map rkyv.toBytes) ++ part →
      ∃ e, readEnvelopes rkyv (before.length + 1) reads = (before, some e)

section Frames

variable {rkyv} {env : Envelope} {reads : List Bytes} {more part : Bytes}

theorem writeEnvelope_of_lt (sink : Bytes) (h : (rkyv.toBytes env).length < 2 ^ 32) :
    writeEnvelope rkyv sink env = some (sink ++ frame (rkyv.toBytes env)) := by
  unfold writeEnvelope
  dsimp only
  rw [if_pos h, frame, List.append_assoc]

theorem writeEnvelope_eq {sink output : Bytes} (h : writeEnvelope rkyv sink env = some output) :
    (rkyv.toBytes env).length < 2 ^ 32 ∧ output = sink ++ frame (rkyv.toBytes env) := by
  unfold writeEnvelope at h
  dsimp only at h
  split at h
  next hlen => exact ⟨hlen, by rw [← Option.some.inj h, frame, List.append_assoc]⟩
  next => simp at h

theorem writeEnvelopes_eq {sink output : Bytes} {envs : List Envelope}
    (h : writeEnvelopes rkyv sink envs = some output) :
    (∀ env ∈ envs, (rkyv.toBytes env).length < 2 ^ 32) ∧
      output = sink ++ stream (envs.map rkyv.toBytes) := by
  induction envs generalizing sink with
  | nil => exact ⟨by simp, by simpa [writeEnvelopes, eq_comm] using h⟩
  | cons env envs ih =>
    obtain ⟨sink', hfirst, hrest⟩ := Option.bind_eq_some_iff.mp h
    obtain ⟨hlen, rfl⟩ := writeEnvelope_eq hfirst
    obtain ⟨hlens, rfl⟩ := ih hrest
    exact ⟨List.forall_mem_cons.mpr ⟨hlen, hlens⟩, by simp⟩

/-- Once the length prefix is there, it is read and the rest is left. -/
theorem readExact_prefix (hb : (rkyv.toBytes env).length < 2 ^ 32)
    (hs : reads.flatten = be32 (rkyv.toBytes env).length ++ more) :
    ∃ lenBuf rest, readExact 4 reads = some (lenBuf, rest) ∧
      be32Value lenBuf = (rkyv.toBytes env).length ∧ rest.flatten = more := by
  have hlen : (be32 (rkyv.toBytes env).length).length = 4 := be32_length _
  have hle : 4 ≤ reads.flatten.length := by rw [hs, List.length_append, hlen]; omega
  obtain ⟨rest, hread, hrest⟩ := readExact_of_le hle
  refine ⟨_, rest, hread, ?_, ?_⟩
  · rw [hs, List.take_left' hlen, be32Value_be32 hb]
  · rw [hrest, hs, List.drop_left' hlen]

theorem readEnvelope_frame (hb : (rkyv.toBytes env).length ≤ maxFrameSize)
    (hround : rkyv.fromBytes (rkyv.toBytes env) = some env)
    (hs : reads.flatten = frame (rkyv.toBytes env) ++ more) :
    ∃ rest, readEnvelope rkyv reads = .ok (env, rest) ∧ rest.flatten = more := by
  have hlt : (rkyv.toBytes env).length < 2 ^ 32 := by unfold maxFrameSize at hb; omega
  rw [frame, List.append_assoc] at hs
  obtain ⟨lenBuf, body, hprefix, hvalue, hbody⟩ := readExact_prefix hlt hs
  have hle : (rkyv.toBytes env).length ≤ body.flatten.length := by simp [hbody]
  obtain ⟨rest, hread, hrest⟩ := readExact_of_le hle
  refine ⟨rest, ?_, by rw [hrest, hbody, List.drop_left]⟩
  have htake : body.flatten.take (rkyv.toBytes env).length = rkyv.toBytes env := by
    rw [hbody, List.take_left]
  simp only [readEnvelope, hprefix, hvalue, if_neg (Nat.not_lt.mpr hb), hread, htake, hround]

theorem readEnvelope_oversized (hb : (rkyv.toBytes env).length < 2 ^ 32)
    (hlimit : maxFrameSize < (rkyv.toBytes env).length)
    (hs : reads.flatten = frame (rkyv.toBytes env) ++ more) :
    readEnvelope rkyv reads = .error .oversizedFrame := by
  rw [frame, List.append_assoc] at hs
  obtain ⟨lenBuf, body, hprefix, hvalue, -⟩ := readExact_prefix hb hs
  simp only [readEnvelope, hprefix, hvalue, if_pos hlimit]

/-- A frame that ends early is an error, whether its body is within the limit or not. -/
theorem readEnvelope_part (hb : (rkyv.toBytes env).length < 2 ^ 32)
    (hp : part <+: frame (rkyv.toBytes env)) (hne : part ≠ frame (rkyv.toBytes env))
    (hs : reads.flatten = part) : ∃ e, readEnvelope rkyv reads = .error e := by
  have hshort : part.length < 4 + (rkyv.toBytes env).length := by
    have hle := hp.length_le
    have hlen : part.length ≠ (frame (rkyv.toBytes env)).length := fun h => hne (hp.eq_of_length h)
    rw [frame_length] at hle hlen
    omega
  by_cases hl : part.length < 4
  · exact ⟨.endOfStream, by simp only [readEnvelope, readExact_of_lt (hs ▸ hl)]⟩
  · have hpre : be32 (rkyv.toBytes env).length <+: part :=
      List.prefix_of_prefix_length_le (List.prefix_append _ _) hp (by rw [be32_length]; omega)
    obtain ⟨more, rfl⟩ := hpre
    rw [List.length_append, be32_length] at hshort
    obtain ⟨lenBuf, body, hprefix, hvalue, hbody⟩ := readExact_prefix hb hs
    have hlt : body.flatten.length < (rkyv.toBytes env).length := by rw [hbody]; omega
    by_cases hlimit : maxFrameSize < (rkyv.toBytes env).length
    · exact ⟨.oversizedFrame, by simp only [readEnvelope, hprefix, hvalue, if_pos hlimit]⟩
    · refine ⟨.endOfStream, ?_⟩
      simp only [readEnvelope, hprefix, hvalue, if_neg hlimit, readExact_of_lt hlt]

/-- Frames within the limit are read one after the other, and the reads after them are left. -/
theorem readEnvelopes_frames {envs : List Envelope} (n : Nat)
    (hb : ∀ env ∈ envs, (rkyv.toBytes env).length ≤ maxFrameSize)
    (hround : ∀ env ∈ envs, rkyv.fromBytes (rkyv.toBytes env) = some env)
    (hs : reads.flatten = stream (envs.map rkyv.toBytes) ++ more) :
    ∃ rest, rest.flatten = more ∧ readEnvelopes rkyv (envs.length + n) reads =
      (envs ++ (readEnvelopes rkyv n rest).1, (readEnvelopes rkyv n rest).2) := by
  induction envs generalizing reads with
  | nil => exact ⟨reads, hs, by simp⟩
  | cons env envs ih =>
    obtain ⟨hbenv, hbenvs⟩ := List.forall_mem_cons.mp hb
    obtain ⟨hrenv, hrenvs⟩ := List.forall_mem_cons.mp hround
    rw [List.map_cons, stream_cons, List.append_assoc] at hs
    obtain ⟨left, hread, hleft⟩ := readEnvelope_frame hbenv hrenv hs
    obtain ⟨rest, hrest, hreads⟩ := ih hbenvs hrenvs hleft
    refine ⟨rest, hrest, ?_⟩
    have hn : (env :: envs).length + n = envs.length + n + 1 := by simp; omega
    rw [hn, readEnvelopes, hread]
    simp [hreads]

end Frames

theorem exists_first_oversized {envs : List Envelope}
    (h : ¬ ∀ env ∈ envs, (rkyv.toBytes env).length ≤ maxFrameSize) : ∃ before env after,
      envs = before ++ env :: after ∧ maxFrameSize < (rkyv.toBytes env).length ∧
        ∀ env ∈ before, (rkyv.toBytes env).length ≤ maxFrameSize := by
  have hsome : (envs.find? fun env => maxFrameSize < (rkyv.toBytes env).length).isSome := by
    simpa using h
  obtain ⟨env, henv⟩ := Option.isSome_iff_exists.mp hsome
  obtain ⟨hover, before, after, rfl, hbefore⟩ := List.find?_eq_some_iff_append.mp henv
  exact ⟨before, env, after, rfl, by simpa using hover, fun env he => by simpa using hbefore env he⟩

/-- For envelopes that `write_envelope` accepts, the reader gives them back whatever the reads and
wherever the stream ends if and only if no body is over the reader's limit; the agent's serializer
gives the same bytes. -/
theorem framing_round_trip {rkyv : Rkyv} {envs : List Envelope} {output : Bytes}
    (hround : ∀ env ∈ envs, rkyv.fromBytes (rkyv.toBytes env) = some env)
    (hw : writeEnvelopes rkyv [] envs = some output) :
    (RoundTrip rkyv envs output ↔ ∀ env ∈ envs, (rkyv.toBytes env).length ≤ maxFrameSize) ∧
      ∀ env, (serializeEnvelope rkyv env).map (fun framed => framed.1 ++ framed.2) =
        writeEnvelope rkyv [] env := by
  obtain ⟨hlens, houtput⟩ := writeEnvelopes_eq hw
  rw [List.nil_append] at houtput
  refine ⟨⟨fun h => ?_, fun hb => ⟨?_, ?_⟩⟩, fun env => ?_⟩
  · by_contra hover
    obtain ⟨before, env, after, rfl, hlimit, hbefore⟩ := exists_first_oversized rkyv hover
    have hs : [output].flatten = stream (before.map rkyv.toBytes) ++
        (frame (rkyv.toBytes env) ++ stream (after.map rkyv.toBytes)) := by
      simp [houtput, stream_append]
    obtain ⟨rest, hrest, hreads⟩ := readEnvelopes_frames (after.length + 1) hbefore
      (fun env he => hround env (List.mem_append_left _ he)) hs
    have herror := readEnvelope_oversized (hlens env (by simp)) hlimit hrest
    have hwhole := h.whole [output] (by simp)
    rw [List.length_append, List.length_cons, hreads, readEnvelopes, herror] at hwhole
    simp at hwhole
  · intro reads hs
    have hs' : reads.flatten = stream (envs.map rkyv.toBytes) ++ [] := by rw [hs, houtput]; simp
    obtain ⟨rest, -, hreads⟩ := readEnvelopes_frames 0 hb hround hs'
    simpa [readEnvelopes] using hreads
  · rintro before env after part rfl hp hne reads hs
    obtain ⟨rest, hrest, hreads⟩ := readEnvelopes_frames 1
      (fun env he => hb env (List.mem_append_left _ he))
      (fun env he => hround env (List.mem_append_left _ he)) hs
    obtain ⟨e, herror⟩ := readEnvelope_part (hlens env (by simp)) hp hne hrest
    exact ⟨e, by rw [hreads, readEnvelopes, herror]; simp⟩
  · unfold serializeEnvelope writeEnvelope
    dsimp only
    split <;> simp

theorem framing_round_trip_two : readEnvelopes twoCommands 2
    [[0, 0], [0, 1, 1, 0], [0, 0, 1], [2]] =
      ([envelope .ping, envelope (.subscribe (.status 7))], none) := by
  have hw : writeEnvelopes twoCommands [] [envelope .ping, envelope (.subscribe (.status 7))] =
      some [0, 0, 0, 1, 1, 0, 0, 0, 1, 2] := by decide
  exact ((framing_round_trip (by decide) hw).1.mpr (by decide)).whole _ (by decide)

/-- A serializer that writes input for pane 7 as it is. -/
def rawInput : Rkyv where
  toBytes env := match env.payload with
    | .sendInput _ data => data
    | _ => []
  fromBytes bytes := some (envelope (.sendInput 7 bytes))

def paste (data : Bytes) : Envelope := envelope (.sendInput 7 data)

theorem paste_rejected {data : Bytes} (hlimit : maxFrameSize < data.length)
    (hb : data.length < 2 ^ 32) : rawInput.fromBytes (rawInput.toBytes (paste data)) = some (paste data) ∧
      ∃ output, writeEnvelopes rawInput [] [paste data] = some output ∧
        ¬ RoundTrip rawInput [paste data] output := by
  have hwrite : writeEnvelope rawInput [] (paste data) = some (frame data) :=
    writeEnvelope_of_lt [] hb
  refine ⟨rfl, frame data, by rw [writeEnvelopes, hwrite]; rfl, fun h => ?_⟩
  have hread : readEnvelope rawInput [frame data] = .error .oversizedFrame :=
    readEnvelope_oversized (show (rawInput.toBytes (paste data)).length < 2 ^ 32 from hb) hlimit
      (show [frame data].flatten = frame data ++ [] by simp)
  have hwhole := h.whole [frame data] (by simp)
  simp [readEnvelopes, hread] at hwhole

/-- The next length of an archive, which is a multiple of 8, after what the reader takes. -/
theorem huge_paste_rejected : ∃ data : Bytes, data.length = maxFrameSize + 8 ∧
    rawInput.fromBytes (rawInput.toBytes (paste data)) = some (paste data) ∧
      ∃ output, writeEnvelopes rawInput [] [paste data] = some output ∧
        ¬ RoundTrip rawInput [paste data] output := by
  obtain ⟨data, hlen⟩ : ∃ data : Bytes, data.length = maxFrameSize + 8 :=
    ⟨List.replicate _ 0, List.length_replicate⟩
  exact ⟨data, hlen, paste_rejected (by omega) (by unfold maxFrameSize at hlen; omega)⟩

end Tepegoz
