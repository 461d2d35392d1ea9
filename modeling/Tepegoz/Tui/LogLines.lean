import Mathlib.Data.List.DropRight
import Tepegoz.Lib.Utf8
import Tepegoz.Tui.Scopes

namespace Tepegoz

abbrev LogChunk := LogStream × List UInt8

/-- The newest lines, as many as the view keeps. -/
def newestLines (lines : List LogLine) : List LogLine := lines.rtake maxLogLines

/-- What was pushed for a stream. -/
def textsOf (stream : LogStream) (lines : List LogLine) : List String :=
  (lines.filter (·.stream = stream)).map (·.text)

/-- What came on a stream. -/
def streamBytes (stream : LogStream) (chunks : List LogChunk) : List UInt8 :=
  (chunks.filter (·.1 = stream)).flatMap (·.2)

/-- A line without the one carriage return at its end, if there is one there. -/
def withoutCr : List UInt8 → List UInt8
  | [] => []
  | [b] => if b = 0x0d then [] else [b]
  | b :: c :: rest => b :: withoutCr (c :: rest)

/-- The lines of the bytes that a line feed ends, each without a carriage return at its end. -/
def terminatedLines (bytes : List UInt8) : List (List UInt8) :=
  (bytes.splitOn 0x0a).dropLast.map withoutCr

/-- The bytes behind the last line feed. -/
def lineRemainder (bytes : List UInt8) : List UInt8 := (bytes.splitOn 0x0a).getLast?.getD []

theorem withoutCr_append_cr (line : List UInt8) : withoutCr (line ++ [0x0d]) = line := by
  induction line with
  | nil => rfl
  | cons b line ih =>
    cases line with
    | nil => rfl
    | cons c rest => exact congrArg (b :: ·) ih

theorem withoutCr_of_ne {line : List UInt8} (h : line.getLast? ≠ some 0x0d) : withoutCr line = line := by
  induction line with
  | nil => rfl
  | cons b line ih =>
    cases line with
    | nil => exact if_neg fun hb => h (congrArg some hb)
    | cons c rest => exact congrArg (b :: ·) (ih (by rwa [List.getLast?_cons_cons] at h))

namespace LogsView

theorem stripCr_eq (line : List UInt8) : stripCr line = withoutCr line := by
  unfold stripCr
  split
  next h =>
    obtain ⟨front, rfl⟩ := List.getLast?_eq_some_iff.mp h
    rw [List.dropLast_concat, withoutCr_append_cr]
  next h => exact (withoutCr_of_ne h).symm

/-- The lines that `ingest` pushes. -/
def ingestPushes (text : TextOps) (v : LogsView) (stream : LogStream) (data : List UInt8) :
    List LogLine :=
  (drainLines [] (v.pending stream ++ data)).1.map fun line => ⟨stream, text.fromUtf8Lossy line⟩

/-- The lines that `end_stream` pushes. -/
def endPushes (text : TextOps) (v : LogsView) : List LogLine :=
  [LogStream.stdout, .stderr].flatMap fun stream =>
    if v.pending stream = [] then [] else [⟨stream, text.fromUtf8Lossy (v.pending stream)⟩]

def ingestAll (text : TextOps) (v : LogsView) (chunks : List LogChunk) : LogsView :=
  chunks.foldl (fun v chunk => v.ingest text chunk.1 chunk.2) v

/-- All lines that the chunks push, in the order in which they are pushed. -/
def chunkPushes (text : TextOps) : LogsView → List LogChunk → List LogLine
  | _, [] => []
  | v, chunk :: chunks =>
    v.ingestPushes text chunk.1 chunk.2 ++ chunkPushes text (v.ingest text chunk.1 chunk.2) chunks

section Drain

variable {line : List UInt8}

/-- Where the bytes are cut does not matter: what the first part leaves is continued by the second. -/
theorem drainLines_append (line first second : List UInt8) : drainLines line (first ++ second) =
    ((drainLines line first).1 ++ (drainLines (drainLines line first).2 second).1,
      (drainLines (drainLines line first).2 second).2) := by
  induction first generalizing line with
  | nil => rfl
  | cons b first ih =>
    rw [List.cons_append, drainLines, drainLines]
    split
    next => simp only [ih, List.cons_append]
    next => exact ih (line ++ [b])

theorem drainLines_open {bytes : List UInt8} (h : 0x0a ∉ bytes) :
    drainLines line bytes = ([], line ++ bytes) := by
  induction bytes generalizing line with
  | nil => rw [List.append_nil]; rfl
  | cons b bytes ih =>
    obtain ⟨hb, hrest⟩ := List.ne_and_not_mem_of_not_mem_cons h
    rw [drainLines, if_neg (Ne.symm hb), ih hrest, List.append_assoc]
    rfl

/-- What is pending has no line feed, so nothing in it is looked at twice. -/
theorem drainLines_pending {pending : List UInt8} (h : 0x0a ∉ pending) (data : List UInt8) :
    drainLines [] (pending ++ data) = drainLines pending data := by
  rw [drainLines_append, drainLines_open h]
  rfl

theorem drainLines_remainder (h : 0x0a ∉ line) (bytes : List UInt8) :
    0x0a ∉ (drainLines line bytes).2 := by
  induction bytes generalizing line with
  | nil => exact h
  | cons b bytes ih =>
    rw [drainLines]
    split
    next => exact ih List.not_mem_nil
    next hb => exact ih (by simpa [h] using Ne.symm hb)

/-- The lines drained are the pieces between line feeds. -/
theorem drainLines_eq_splitOn (line bytes : List UInt8) : drainLines line bytes =
    ((((bytes.splitOn 0x0a).modifyHead (line ++ ·)).dropLast).map stripCr,
      ((bytes.splitOn 0x0a).modifyHead (line ++ ·)).getLast?.getD []) := by
  induction bytes generalizing line with
  | nil => simp [drainLines]
  | cons b bytes ih =>
    obtain ⟨piece, pieces, hp⟩ := List.exists_cons_of_ne_nil (List.splitOn_ne_nil 0x0a bytes)
    rw [drainLines, List.splitOn_cons_eq_if_modifyHead, hp]
    by_cases hb : b = 0x0a
    · rw [if_pos hb, if_pos (by simpa using hb), ih, hp]
      simp
    · rw [if_neg hb, if_neg (by simpa using hb), ih, hp]
      simp

theorem drainLines_nil (bytes : List UInt8) :
    drainLines [] bytes = (terminatedLines bytes, lineRemainder bytes) := by
  obtain ⟨piece, pieces, hp⟩ := List.exists_cons_of_ne_nil (List.splitOn_ne_nil 0x0a bytes)
  rw [drainLines_eq_splitOn, terminatedLines, lineRemainder, hp, List.map_congr_left fun line _ => stripCr_eq line]
  rfl

end Drain

section Pushes

variable {text : TextOps} {v : LogsView}

/-- A push onto the newest lines keeps the newest. -/
theorem rtake_push {n : Nat} (hn : 0 < n) (lines : List LogLine) (line : LogLine) :
    (if n ≤ (lines.rtake n).length then (lines.rtake n).tail else lines.rtake n) ++ [line] =
      (lines ++ [line]).rtake n := by
  obtain ⟨k, rfl⟩ := Nat.exists_eq_add_one_of_ne_zero (Nat.pos_iff_ne_zero.mp hn)
  rw [List.rtake_concat_succ]
  unfold List.rtake
  rw [List.length_drop, List.tail_drop]
  split
  next hfull => rw [show lines.length - (k + 1) + 1 = lines.length - k by omega]
  next hroom => rw [show lines.length - (k + 1) = lines.length - k by omega]

theorem pushLine_lines {history : List LogLine} (hv : v.lines = newestLines history)
    (line : LogLine) : (v.pushLine line).lines = newestLines (history ++ [line]) := by
  rw [newestLines, ← rtake_push (by decide), ← newestLines, ← hv]
  rfl

/-- Pushing lines changes nothing but the lines. -/
theorem foldl_pushLine_eq (v : LogsView) (pushed : List LogLine) :
    pushed.foldl pushLine v = { v with lines := (pushed.foldl pushLine v).lines } := by
  induction pushed generalizing v with
  | nil => rfl
  | cons line pushed ih =>
    rw [List.foldl_cons, ih]
    rfl

theorem foldl_pushLine_lines {history : List LogLine} (hv : v.lines = newestLines history)
    (pushed : List LogLine) :
    (pushed.foldl pushLine v).lines = newestLines (history ++ pushed) := by
  induction pushed generalizing v history with
  | nil => rw [List.append_nil]; exact hv
  | cons line pushed ih =>
    rw [List.foldl_cons, ih (pushLine_lines hv line), List.append_assoc]
    rfl

@[simp] theorem pending_setPending_self (stream : LogStream) (bytes : List UInt8) :
    (v.setPending stream bytes).pending stream = bytes := by
  cases stream <;> rfl

theorem pending_setPending_other {stream other : LogStream} (h : stream ≠ other)
    (bytes : List UInt8) : (v.setPending stream bytes).pending other = v.pending other := by
  cases stream <;> cases other <;> first | rfl | exact absurd rfl h

@[simp] theorem setPending_lines (stream : LogStream) (bytes : List UInt8) :
    (v.setPending stream bytes).lines = v.lines := by
  cases stream <;> rfl

@[simp] theorem foldl_pushLine_pending (v : LogsView) (pushed : List LogLine) (stream : LogStream) :
    (pushed.foldl pushLine v).pending stream = v.pending stream := by
  rw [foldl_pushLine_eq]
  cases stream <;> rfl

/-- A chunk replaces what is pending on its stream and pushes the lines that it completes. -/
theorem ingest_eq (stream : LogStream) (data : List UInt8) : v.ingest text stream data =
    (v.ingestPushes text stream data).foldl pushLine
      (v.setPending stream (drainLines [] (v.pending stream ++ data)).2) := by
  rw [ingestPushes, List.foldl_map]
  rfl

theorem ingest_pending (text : TextOps) (v : LogsView) (source stream : LogStream) (data : List UInt8) :
    (v.ingest text source data).pending stream =
      if source = stream then (drainLines [] (v.pending stream ++ data)).2 else v.pending stream := by
  rw [ingest_eq, foldl_pushLine_pending]
  by_cases hs : source = stream
  · subst hs
    rw [pending_setPending_self, if_pos rfl]
  · rw [pending_setPending_other hs, if_neg hs]

theorem flushPending_eq (stream : LogStream) : v.flushPending text stream =
    (if v.pending stream = [] then []
      else [⟨stream, text.fromUtf8Lossy (v.pending stream)⟩]).foldl pushLine
      (v.setPending stream []) := by
  unfold flushPending
  split
  next h => rw [if_pos h]; rfl
  next h => rw [if_neg h]; rfl

theorem foldl_pushLine_setPending (v : LogsView) (pushed : List LogLine) (stream : LogStream)
    (bytes : List UInt8) : (pushed.foldl pushLine v).setPending stream bytes =
      pushed.foldl pushLine (v.setPending stream bytes) := by
  induction pushed generalizing v with
  | nil => rfl
  | cons line pushed ih =>
    rw [List.foldl_cons, ih, List.foldl_cons]
    cases stream <;> rfl

/-- The end of the stream empties both buffers and pushes what they held. -/
theorem endStream_eq (reason : String) : v.endStream text reason =
    { (v.endPushes text).foldl pushLine ((v.setPending .stdout []).setPending .stderr []) with
      streamEnded := some reason, atTail := false } := by
  have hflush : (v.flushPending text .stdout).flushPending text .stderr =
      (v.endPushes text).foldl pushLine ((v.setPending .stdout []).setPending .stderr []) := by
    have hout : (v.flushPending text .stdout).pending .stderr = v.pending .stderr := by
      rw [flushPending_eq, foldl_pushLine_pending,
        pending_setPending_other (show LogStream.stdout ≠ .stderr by decide)]
    rw [flushPending_eq, hout, flushPending_eq, foldl_pushLine_setPending, ← List.foldl_append]
    simp [endPushes]
  unfold endStream
  rw [hflush]

theorem endStream_lines {history : List LogLine} (hv : v.lines = newestLines history)
    (reason : String) :
    (v.endStream text reason).lines = newestLines (history ++ v.endPushes text) := by
  rw [endStream_eq]
  exact foldl_pushLine_lines (by rw [setPending_lines, setPending_lines, hv]) _

theorem endStream_pending (reason : String) (stream : LogStream) :
    (v.endStream text reason).pending stream = [] := by
  rw [endStream_eq, foldl_pushLine_eq]
  cases stream <;> rfl

end Pushes

section Runs

variable {text : TextOps} {v : LogsView}

@[simp] theorem textsOf_append (stream : LogStream) (first second : List LogLine) :
    textsOf stream (first ++ second) = textsOf stream first ++ textsOf stream second := by
  simp [textsOf]

theorem textsOf_ingestPushes (stream : LogStream) (data : List UInt8) :
    textsOf stream (v.ingestPushes text stream data) =
      (drainLines [] (v.pending stream ++ data)).1.map text.fromUtf8Lossy := by
  unfold textsOf ingestPushes
  rw [List.filter_eq_self.mpr (by simp), List.map_map]
  rfl

theorem textsOf_ingestPushes_other {stream other : LogStream} (h : stream ≠ other)
    (data : List UInt8) : textsOf other (v.ingestPushes text stream data) = [] := by
  unfold textsOf ingestPushes
  rw [List.filter_eq_nil_iff.mpr (by simp [h]), List.map_nil]

/-- The two buffers are filled from their own streams, and stay without a line feed. -/
theorem chunks_spec (text : TextOps) (stream : LogStream) (hv : 0x0a ∉ v.pending stream) (chunks : List LogChunk) :
    textsOf stream (chunkPushes text v chunks) =
        (drainLines (v.pending stream) (streamBytes stream chunks)).1.map text.fromUtf8Lossy ∧
      (ingestAll text v chunks).pending stream =
        (drainLines (v.pending stream) (streamBytes stream chunks)).2 := by
  induction chunks generalizing v with
  | nil => exact ⟨rfl, rfl⟩
  | cons chunk chunks ih =>
    obtain ⟨source, data⟩ := chunk
    have hpending := v.ingest_pending text source stream data
    rw [drainLines_pending hv] at hpending
    show textsOf stream (v.ingestPushes text source data ++
        chunkPushes text (v.ingest text source data) chunks) = _ ∧
      (ingestAll text (v.ingest text source data) chunks).pending stream = _
    by_cases hs : source = stream
    · subst hs
      rw [if_pos rfl] at hpending
      have hbytes : streamBytes source ((source, data) :: chunks) = data ++ streamBytes source chunks := by
        simp [streamBytes]
      obtain ⟨htexts, hrest⟩ := ih (by rw [hpending]; exact drainLines_remainder hv data)
      rw [hpending] at htexts hrest
      rw [textsOf_append, textsOf_ingestPushes, htexts, hrest, hbytes,
        drainLines_append (v.pending source) data, drainLines_pending hv, List.map_append]
      exact ⟨rfl, rfl⟩
    · rw [if_neg hs] at hpending
      have hbytes : streamBytes stream ((source, data) :: chunks) = streamBytes stream chunks := by
        simp [streamBytes, hs]
      obtain ⟨htexts, hrest⟩ := ih (by rw [hpending]; exact hv)
      rw [hpending] at htexts hrest
      rw [textsOf_append, textsOf_ingestPushes_other hs, htexts, hrest, hbytes]
      exact ⟨rfl, rfl⟩

theorem ingestAll_lines {history : List LogLine} (hv : v.lines = newestLines history)
    (chunks : List LogChunk) :
    (ingestAll text v chunks).lines = newestLines (history ++ chunkPushes text v chunks) := by
  induction chunks generalizing v history with
  | nil => rw [chunkPushes, List.append_nil]; exact hv
  | cons chunk chunks ih =>
    have hnext : (v.ingest text chunk.1 chunk.2).lines =
        newestLines (history ++ v.ingestPushes text chunk.1 chunk.2) := by
      rw [ingest_eq]
      exact foldl_pushLine_lines (by rw [setPending_lines, hv]) _
    rw [chunkPushes, ← List.append_assoc, ← ih hnext]
    rfl

theorem textsOf_endPushes (text : TextOps) (v : LogsView) (stream : LogStream) : textsOf stream (v.endPushes text) =
    if v.pending stream = [] then [] else [text.fromUtf8Lossy (v.pending stream)] := by
  have hone : ∀ source, textsOf stream (if v.pending source = [] then []
        else [⟨source, text.fromUtf8Lossy (v.pending source)⟩]) =
      if source = stream ∧ v.pending source ≠ [] then [text.fromUtf8Lossy (v.pending source)]
      else [] := by
    intro source
    by_cases hp : v.pending source = []
    · simp [textsOf, hp]
    · by_cases hs : source = stream
      · subst hs
        simp [textsOf, hp]
      · simp [textsOf, hp, hs]
  simp only [endPushes, List.flatMap_cons, List.flatMap_nil, List.append_nil, textsOf_append, hone]
  cases stream <;> simp

/-- Each stream of a new view pushes its own lines, and at the end the rest of its bytes. -/
theorem textsOf_new (text : TextOps) (containerId containerName : String) (subId : Nat)
    (chunks : List LogChunk) (stream : LogStream) :
    textsOf stream ((new containerId containerName subId).chunkPushes text chunks) =
        (terminatedLines (streamBytes stream chunks)).map text.fromUtf8Lossy ∧
      textsOf stream (((new containerId containerName subId).ingestAll text chunks).endPushes text) =
        (if lineRemainder (streamBytes stream chunks) = [] then []
          else [text.fromUtf8Lossy (lineRemainder (streamBytes stream chunks))]) := by
  have hempty : (new containerId containerName subId).pending stream = [] := by cases stream <;> rfl
  have hopen : 0x0a ∉ (new containerId containerName subId).pending stream := by
    rw [hempty]
    exact List.not_mem_nil
  obtain ⟨hpushed, hpending⟩ := chunks_spec text stream hopen chunks
  rw [hempty, drainLines_nil] at hpushed hpending
  rw [textsOf_endPushes, hpending]
  exact ⟨hpushed, rfl⟩

end Runs

end LogsView

/-- Whatever order the chunks of the two streams come in and wherever they are cut, each stream pushes
its own lines, the last of them, if nothing ends it, when the stream ends; and the view holds the
newest of all. -/
theorem log_lines_assembled (text : TextOps) (containerId containerName : String) (subId : Nat)
    (chunks : List LogChunk) (reason : String) :
    let start := LogsView.new containerId containerName subId
    let view := start.ingestAll text chunks
    let pushed := start.chunkPushes text chunks
    let flushed := view.endPushes text
    (∀ stream, textsOf stream pushed =
          (terminatedLines (streamBytes stream chunks)).map text.fromUtf8Lossy ∧
        textsOf stream flushed = (if lineRemainder (streamBytes stream chunks) = [] then []
          else [text.fromUtf8Lossy (lineRemainder (streamBytes stream chunks))]) ∧
        (view.endStream text reason).pending stream = []) ∧
      view.lines = newestLines pushed ∧
      (view.endStream text reason).lines = newestLines (pushed ++ flushed) := by
  intro start view pushed flushed
  have hlines : view.lines = newestLines pushed :=
    LogsView.ingestAll_lines (show start.lines = newestLines [] from rfl) chunks
  refine ⟨fun stream => ?_, hlines, LogsView.endStream_lines hlines reason⟩
  obtain ⟨hpushed, hflushed⟩ :=
    LogsView.textsOf_new text containerId containerName subId chunks stream
  exact ⟨hpushed, hflushed, LogsView.endStream_pending reason stream⟩

section Utf8

/-- With bytes that are no UTF-8 replaced. Lower case is not looked at here. -/
def TextOps.utf8 (toLowercase : String → String) : TextOps :=
  ⟨toLowercase, fun bytes => .ofList (Utf8.fromUtf8Lossy bytes)⟩

theorem withoutCr_encode (line : List Char) :
    withoutCr (Utf8.encode line) = Utf8.encode (Lines.dropCr line) :=
  (LogsView.stripCr_eq _).symm.trans (Utf8.encode_dropCr line).symm

theorem terminatedLines_encode (written : List Char) : terminatedLines (Utf8.encode written) =
    (written.splitOn '\n').dropLast.map fun line => Utf8.encode (Lines.dropCr line) := by
  rw [terminatedLines, Utf8.splitOn_encode, ← List.map_dropLast, List.map_map]
  exact List.map_congr_left fun line _ => withoutCr_encode line

theorem lineRemainder_encode (written : List Char) : lineRemainder (Utf8.encode written) =
    Utf8.encode ((written.splitOn '\n').getLast?.getD []) := by
  rw [lineRemainder, Utf8.splitOn_encode, List.getLast?_map]
  cases (written.splitOn '\n').getLast? <;> rfl

/-- Text in UTF-8 is shown as its lines, also where a chunk ends inside a character. -/
theorem utf8_lines_shown (toLowercase : String → String) (containerId containerName : String)
    (subId : Nat) {chunks : List LogChunk} {stream : LogStream} {written : List Char}
    (h : streamBytes stream chunks = Utf8.encode written) :
    let text := TextOps.utf8 toLowercase
    let start := LogsView.new containerId containerName subId
    let rest := (written.splitOn '\n').getLast?.getD []
    textsOf stream (start.chunkPushes text chunks) =
        ((written.splitOn '\n').dropLast.map fun line => .ofList (Lines.dropCr line)) ∧
      textsOf stream ((start.ingestAll text chunks).endPushes text) =
        if rest = [] then [] else [.ofList rest] := by
  intro text start rest
  have hdecode : ∀ line, text.fromUtf8Lossy (Utf8.encode line) = .ofList line := fun line =>
    congrArg String.ofList (Utf8.fromUtf8Lossy_encode line)
  obtain ⟨hpushed, hflushed⟩ :=
    LogsView.textsOf_new text containerId containerName subId chunks stream
  rw [h, terminatedLines_encode, List.map_map] at hpushed
  rw [h, lineRemainder_encode, hdecode] at hflushed
  refine ⟨hpushed.trans (List.map_congr_left fun line _ => hdecode _), hflushed.trans ?_⟩
  simp only [rest, Utf8.encode_eq_nil]

end Utf8

end Tepegoz
