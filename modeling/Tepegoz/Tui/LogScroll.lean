import Tepegoz.Tui.LogLines

namespace Tepegoz

/-- The text of a log line, its colours left out. -/
def lineForLog (log : LogLine) : String :=
  let mark := match log.stream with
    | .stdout => " "
    | .stderr => "!"
  mark ++ " " ++ log.text

namespace LogsView

/-- The rows of the transcript: the lines and the marker of the end. -/
def transcriptTotal (v : LogsView) : Nat := v.lines.length + if v.streamEnded.isSome then 1 else 0

/-- The rows that are drawn, from the first to before the second. -/
def transcriptRange (v : LogsView) (visibleHeight : Nat) : Nat × Nat :=
  let stop := v.transcriptTotal - v.scrollOffset
  (stop - visibleHeight, stop)

/-- `none` stands for the panic of an index. -/
def transcriptRow (v : LogsView) (i : Nat) : Option String :=
  if v.streamEnded.isSome ∧ i = v.lines.length then
    some ("— log stream ended: " ++ v.streamEnded.getD "" ++ " —")
  else v.lines[i]?.map lineForLog

def renderTranscript (v : LogsView) (height : Nat) : Option (List String) :=
  if height = 0 then some []
  else
    let (start, stop) := v.transcriptRange height
    (List.range' start (stop - start)).mapM v.transcriptRow

end LogsView

inductive LogsOp
  | ingest (chunk : LogChunk)
  | scrollUp (n : Nat)
  | scrollDown (n : Nat)
  | jumpToTail
  | endStream (reason : String)

/-- A view and the number of lines that were pushed into it. -/
structure LogsRun where
  view : LogsView
  pushed : Nat

namespace LogsRun

def start (containerId containerName : String) (subId : Nat) : LogsRun :=
  ⟨.new containerId containerName subId, 0⟩

def step (text : TextOps) (r : LogsRun) : LogsOp → LogsRun
  | .ingest (stream, data) =>
    ⟨r.view.ingest text stream data, r.pushed + (r.view.ingestPushes text stream data).length⟩
  | .scrollUp n => { r with view := r.view.scrollUp n }
  | .scrollDown n => { r with view := r.view.scrollDown n }
  | .jumpToTail => { r with view := r.view.jumpToTail }
  | .endStream reason => ⟨r.view.endStream text reason, r.pushed + (r.view.endPushes text).length⟩

def run (text : TextOps) (r : LogsRun) (ops : List LogsOp) : LogsRun := ops.foldl (step text) r

def ingestAll (text : TextOps) (r : LogsRun) (chunks : List LogChunk) : LogsRun :=
  r.run text (chunks.map .ingest)

/-- The number of lines evicted, which is the number of the first line held. -/
def evicted (r : LogsRun) : Nat := r.pushed - r.view.lines.length

/-- The lines that are shown, each with its number among the lines pushed. -/
def shownLines (r : LogsRun) (height : Nat) : List (Nat × LogLine) :=
  if height = 0 then []
  else
    let (start, stop) := r.view.transcriptRange height
    (List.range' start (stop - start)).filterMap fun i =>
      r.view.lines[i]?.map fun line => (r.evicted + i, line)

/-- The lines that were shown are still shown, unless one of them was evicted. -/
def KeepsShown (before after : LogsRun) (height : Nat) : Prop :=
  (∀ line ∈ before.shownLines height, after.evicted ≤ line.1) →
    after.shownLines height = before.shownLines height

/-- What holds in every run: the offset is within the lines, the lines are the newest ones, and no line
is left complete in a buffer. -/
structure Sound (r : LogsRun) : Prop where
  offset_lt : r.view.scrollOffset < max 1 r.view.lines.length
  length_eq : r.view.lines.length = min r.pushed maxLogLines
  pending_open : ∀ stream, 0x0a ∉ r.view.pending stream

section Steps

variable {text : TextOps} {r : LogsRun}

theorem foldl_pushLine_length {v : LogsView} (hv : v.lines.length ≤ maxLogLines)
    (pushed : List LogLine) : (pushed.foldl LogsView.pushLine v).lines.length =
      min (v.lines.length + pushed.length) maxLogLines := by
  have hnewest : v.lines = newestLines v.lines := by
    unfold newestLines List.rtake
    rw [Nat.sub_eq_zero_of_le hv, List.drop_zero]
  rw [LogsView.foldl_pushLine_lines hnewest]
  simp only [newestLines, List.rtake, List.length_drop, List.length_append]
  omega

/-- Lines pushed make the view longer, up to the cap, and leave the offset. -/
theorem Sound.pushed (h : r.Sound) {v : LogsView} (hlines : v.lines = r.view.lines)
    (hoffset : v.scrollOffset = r.view.scrollOffset) (hpending : ∀ stream, 0x0a ∉ v.pending stream)
    (lines : List LogLine) :
    (⟨lines.foldl LogsView.pushLine v, r.pushed + lines.length⟩ : LogsRun).Sound := by
  have hlen := h.length_eq
  have hlt := h.offset_lt
  have hgrown := foldl_pushLine_length (v := v) (by rw [hlines, hlen]; omega) lines
  rw [hlines] at hgrown
  refine ⟨?_, ?_, fun stream => ?_⟩
  · rw [LogsView.foldl_pushLine_eq]
    show v.scrollOffset < max 1 (lines.foldl LogsView.pushLine v).lines.length
    omega
  · show (lines.foldl LogsView.pushLine v).lines.length = min (r.pushed + lines.length) maxLogLines
    omega
  · show 0x0a ∉ (lines.foldl LogsView.pushLine v).pending stream
    rw [LogsView.foldl_pushLine_pending]
    exact hpending stream

theorem Sound.scrolled (h : r.Sound) {v : LogsView} (hlines : v.lines = r.view.lines)
    (hoffset : v.scrollOffset < max 1 r.view.lines.length)
    (hpending : ∀ stream, v.pending stream = r.view.pending stream) :
    (⟨v, r.pushed⟩ : LogsRun).Sound := by
  refine ⟨?_, ?_, fun stream => ?_⟩
  · show v.scrollOffset < max 1 v.lines.length
    rw [hlines]
    exact hoffset
  · show v.lines.length = _
    rw [hlines]
    exact h.length_eq
  · show 0x0a ∉ v.pending stream
    rw [hpending]
    exact h.pending_open stream

theorem Sound.step (h : r.Sound) (op : LogsOp) : (r.step text op).Sound := by
  have hlt := h.offset_lt
  cases op with
  | ingest chunk =>
    obtain ⟨source, data⟩ := chunk
    have hpending : ∀ stream, 0x0a ∉ (r.view.ingest text source data).pending stream := by
      intro stream
      rw [LogsView.ingest_pending]
      split
      next => exact LogsView.drainLines_remainder List.not_mem_nil _
      next => exact h.pending_open stream
    show (⟨r.view.ingest text source data, _⟩ : LogsRun).Sound
    rw [LogsView.ingest_eq] at hpending ⊢
    simp only [LogsView.foldl_pushLine_pending] at hpending
    exact h.pushed (LogsView.setPending_lines ..) (by cases source <;> rfl) hpending _
  | scrollUp n =>
    refine h.scrolled (v := r.view.scrollUp n) rfl ?_ (fun stream => by cases stream <;> rfl)
    show min (r.view.scrollOffset + n) (r.view.lines.length - 1) < _
    omega
  | scrollDown n =>
    refine h.scrolled (v := r.view.scrollDown n) rfl ?_ (fun stream => by cases stream <;> rfl)
    show r.view.scrollOffset - n < _
    omega
  | jumpToTail =>
    refine h.scrolled (v := r.view.jumpToTail) rfl ?_ (fun stream => by cases stream <;> rfl)
    show 0 < _
    omega
  | endStream reason =>
    have hsound := h.pushed (v := (r.view.setPending .stdout []).setPending .stderr []) rfl rfl
      (fun stream => by cases stream <;> exact List.not_mem_nil) (r.view.endPushes text)
    show (⟨r.view.endStream text reason, _⟩ : LogsRun).Sound
    rw [LogsView.endStream_eq]
    exact hsound.scrolled rfl hsound.offset_lt fun stream => by cases stream <;> rfl

theorem Sound.run (h : r.Sound) (ops : List LogsOp) : (r.run text ops).Sound := by
  induction ops generalizing r with
  | nil => exact h
  | cons op ops ih => exact ih (h.step op)

theorem sound_start (containerId containerName : String) (subId : Nat) :
    (start containerId containerName subId).Sound :=
  ⟨Nat.lt_of_lt_of_le Nat.zero_lt_one (Nat.le_max_left ..), rfl,
    fun stream => by cases stream <;> exact List.not_mem_nil⟩

end Steps

section Ingest

variable {text : TextOps} {r : LogsRun}

theorem drainLines_ne_nil {line bytes : List UInt8} (h : 0x0a ∈ bytes) :
    (LogsView.drainLines line bytes).1 ≠ [] := by
  induction bytes generalizing line with
  | nil => cases h
  | cons b bytes ih =>
    rw [LogsView.drainLines]
    split
    next => exact List.cons_ne_nil _ _
    next hb => exact ih ((List.mem_cons.mp h).resolve_left (Ne.symm hb))

/-- Output leaves the place of the window, counted from the end. -/
theorem ingestAll_place (text : TextOps) (r : LogsRun) (chunks : List LogChunk) :
    (r.ingestAll text chunks).view.scrollOffset = r.view.scrollOffset ∧
      (r.ingestAll text chunks).view.streamEnded = r.view.streamEnded := by
  induction chunks generalizing r with
  | nil => exact ⟨rfl, rfl⟩
  | cons chunk chunks ih =>
    obtain ⟨source, data⟩ := chunk
    have hplace : (r.view.ingest text source data).scrollOffset = r.view.scrollOffset ∧
        (r.view.ingest text source data).streamEnded = r.view.streamEnded := by
      rw [LogsView.ingest_eq, LogsView.foldl_pushLine_eq]
      cases source <;> exact ⟨rfl, rfl⟩
    obtain ⟨hoffset, hended⟩ := ih (r.step text (.ingest (source, data)))
    exact ⟨hoffset.trans hplace.1, hended.trans hplace.2⟩

theorem pushed_le_ingestAll (text : TextOps) (r : LogsRun) (chunks : List LogChunk) :
    r.pushed ≤ (r.ingestAll text chunks).pushed := by
  induction chunks generalizing r with
  | nil => exact Nat.le_refl _
  | cons chunk chunks ih =>
    exact Nat.le_trans (Nat.le_add_right _ _) (ih (r.step text (.ingest chunk)))

/-- Chunks without a line feed push nothing. -/
theorem Sound.ingestAll_open (text : TextOps) (h : r.Sound) {chunks : List LogChunk}
    (hopen : ∀ chunk ∈ chunks, 0x0a ∉ chunk.2) :
    (r.ingestAll text chunks).view.lines = r.view.lines ∧
      (r.ingestAll text chunks).pushed = r.pushed := by
  induction chunks generalizing r with
  | nil => exact ⟨rfl, rfl⟩
  | cons chunk chunks ih =>
    obtain ⟨source, data⟩ := chunk
    obtain ⟨hdata, hrest⟩ := List.forall_mem_cons.mp hopen
    have hpushes : r.view.ingestPushes text source data = [] := by
      rw [LogsView.ingestPushes, LogsView.drainLines_pending (h.pending_open source),
        LogsView.drainLines_open hdata, List.map_nil]
    have hlines : (r.view.ingest text source data).lines = r.view.lines := by
      rw [LogsView.ingest_eq, hpushes]
      exact LogsView.setPending_lines ..
    obtain ⟨hl, hp⟩ := ih (h.step (.ingest (source, data))) hrest
    refine ⟨hl.trans hlines, hp.trans ?_⟩
    show r.pushed + (r.view.ingestPushes text source data).length = r.pushed
    rw [hpushes]
    rfl

theorem pushed_lt_ingestAll (text : TextOps) (r : LogsRun) {chunks : List LogChunk}
    (hfeed : ∃ chunk ∈ chunks, 0x0a ∈ chunk.2) :
    r.pushed < (r.ingestAll text chunks).pushed := by
  induction chunks generalizing r with
  | nil => simp at hfeed
  | cons chunk chunks ih =>
    obtain ⟨source, data⟩ := chunk
    have hle := pushed_le_ingestAll text (r.step text (.ingest (source, data))) chunks
    rcases (List.exists_mem_cons_iff ..).mp hfeed with hdata | hrest
    · have hpushes : (r.view.ingestPushes text source data).length ≠ 0 := by
        rw [LogsView.ingestPushes, List.length_map, Ne, List.length_eq_zero_iff]
        exact drainLines_ne_nil (List.mem_append_right _ hdata)
      refine Nat.lt_of_lt_of_le ?_ hle
      show r.pushed < r.pushed + (r.view.ingestPushes text source data).length
      omega
    · exact Nat.lt_of_le_of_lt (Nat.le_add_right _ _) (ih (r.step text (.ingest (source, data))) hrest)

end Ingest

section Shown

variable {text : TextOps} {r : LogsRun} {height : Nat}

/-- Away from the tail the last row shown is a line, and its place among the lines pushed is counted
from the last of them. -/
theorem Sound.getLast?_shownLines (h : r.Sound) (hscrolled : 0 < r.view.scrollOffset)
    (hheight : height ≠ 0) : (r.shownLines height).getLast?.map Prod.fst =
      some (r.pushed + (if r.view.streamEnded.isSome then 1 else 0) - r.view.scrollOffset - 1) := by
  have hlt := h.offset_lt
  have hlen := h.length_eq
  have htotal : r.view.transcriptTotal =
      r.view.lines.length + if r.view.streamEnded.isSome then 1 else 0 := rfl
  have hmarker : (if r.view.streamEnded.isSome then 1 else 0) ≤ 1 := by split <;> decide
  generalize (if r.view.streamEnded.isSome then 1 else 0) = marker at *
  obtain ⟨last, hlast⟩ := Nat.exists_eq_add_one_of_ne_zero
    (show r.view.transcriptTotal - r.view.scrollOffset ≠ 0 by omega)
  obtain ⟨count, hcount⟩ := Nat.exists_eq_add_one_of_ne_zero
    (show last + 1 - (last + 1 - height) ≠ 0 by omega)
  have hline : last < r.view.lines.length := by omega
  rw [shownLines, if_neg hheight]
  simp only [LogsView.transcriptRange]
  rw [hlast, hcount, List.range'_1_concat, List.filterMap_append,
    show last + 1 - height + count = last by omega]
  simp only [List.filterMap_cons, List.getElem?_eq_getElem hline, Option.map_some, List.filterMap_nil,
    List.getLast?_append, List.getLast?_singleton, Option.some_or, Option.some.injEq, evicted]
  omega

/-- The rows drawn away from the tail are the texts of the lines shown. -/
theorem Sound.renderTranscript_eq (h : r.Sound) (hscrolled : 0 < r.view.scrollOffset) :
    r.view.renderTranscript height = some ((r.shownLines height).map fun line => lineForLog line.2) := by
  have hrows : ∀ rows : List Nat, (∀ i ∈ rows, i < r.view.lines.length) →
      rows.mapM r.view.transcriptRow = some ((rows.filterMap fun i =>
        r.view.lines[i]?.map fun line => (r.evicted + i, line)).map fun line => lineForLog line.2) := by
    intro rows hlt
    induction rows with
    | nil => rfl
    | cons i rows ih =>
      obtain ⟨hi, hrest⟩ := List.forall_mem_cons.mp hlt
      have hrow : r.view.transcriptRow i = some (lineForLog r.view.lines[i]) := by
        rw [LogsView.transcriptRow, if_neg (by omega), List.getElem?_eq_getElem hi]
        rfl
      rw [List.mapM_cons, hrow, ih hrest]
      simp [List.getElem?_eq_getElem hi]
  unfold LogsView.renderTranscript shownLines
  by_cases hheight : height = 0
  · rw [if_pos hheight, if_pos hheight]
    rfl
  · rw [if_neg hheight, if_neg hheight]
    refine hrows _ fun i hi => ?_
    have hstop := (List.mem_range'_1.mp hi).2
    have hmarker : (if r.view.streamEnded.isSome then 1 else 0) ≤ 1 := by split <;> decide
    have hlt := h.offset_lt
    simp only [LogsView.transcriptTotal] at hstop
    omega

/-- Output leaves the lines shown as they are exactly when it completes no line. -/
theorem Sound.shownLines_ingestAll (h : r.Sound) (hscrolled : 0 < r.view.scrollOffset)
    (chunks : List LogChunk) : (r.ingestAll text chunks).shownLines height = r.shownLines height ↔
      height = 0 ∨ ∀ chunk ∈ chunks, 0x0a ∉ chunk.2 := by
  obtain ⟨hoffset, hended⟩ := ingestAll_place text r chunks
  constructor
  · intro hshown
    by_contra hother
    obtain ⟨hheight, hfeed⟩ := not_or.mp hother
    have hlt := pushed_lt_ingestAll text r (by simpa using hfeed)
    have hlast := h.getLast?_shownLines hscrolled hheight
    have hsound : (r.ingestAll text chunks).Sound := h.run _
    have hlast' := hsound.getLast?_shownLines (by rw [hoffset]; exact hscrolled) hheight
    rw [hshown, hlast, hoffset, hended, Option.some.injEq] at hlast'
    have := h.offset_lt
    have := h.length_eq
    omega
  · rintro (rfl | hopen)
    · rfl
    · obtain ⟨hlines, hpushed⟩ := h.ingestAll_open text hopen
      unfold shownLines evicted LogsView.transcriptRange LogsView.transcriptTotal
      rw [hlines, hpushed, hoffset, hended]

end Shown

end LogsRun

/-- In every run the offset is within the lines; and a view scrolled away from the tail keeps showing
its lines, as long as none is evicted, exactly when the output completes no line. -/
theorem log_scroll_stable (text : TextOps) (containerId containerName : String) (subId : Nat)
    (ops : List LogsOp) :
    let r := (LogsRun.start containerId containerName subId).run text ops
    r.view.scrollOffset < max 1 r.view.lines.length ∧
      ∀ height chunks, 0 < r.view.scrollOffset →
        r.view.renderTranscript height =
          some ((r.shownLines height).map fun line => lineForLog line.2) ∧
        (r.KeepsShown (r.ingestAll text chunks) height ↔ height = 0 ∨
          (∀ chunk ∈ chunks, 0x0a ∉ chunk.2) ∨
          ∃ line ∈ r.shownLines height, line.1 < (r.ingestAll text chunks).evicted) := by
  intro r
  have hsound : r.Sound := (LogsRun.sound_start containerId containerName subId).run ops
  refine ⟨hsound.offset_lt, fun height chunks hscrolled =>
    ⟨hsound.renderTranscript_eq hscrolled, ?_⟩⟩
  rw [LogsRun.KeepsShown, hsound.shownLines_ingestAll hscrolled, imp_iff_not_or, or_comm, or_assoc]
  simp only [not_forall, Nat.not_le, exists_prop]

theorem log_scroll_stable_partial :
    let r := (LogsRun.start "id" "web" 3).run .ascii
      [.ingest (.stdout, [97, 10, 98, 10, 99, 10]), .scrollUp 1]
    r.KeepsShown (r.ingestAll .ascii [(.stderr, [100])]) 1 :=
  ((log_scroll_stable .ascii "id" "web" 3
    [.ingest (.stdout, [97, 10, 98, 10, 99, 10]), .scrollUp 1]).2 1 [(.stderr, [100])]
      (by decide)).2.mpr (.inr (.inl (by decide)))

/-- Three lines, the second of them shown: a fourth line moves the window to the third. -/
theorem scrolled_view_drifts : ¬ ∀ (text : TextOps) (ops : List LogsOp) (height : Nat)
    (chunks : List LogChunk),
    let r := (LogsRun.start "id" "web" 3).run text ops
    let grown := r.ingestAll text chunks
    0 < r.view.scrollOffset → r.view.atTail = false →
      (∀ line ∈ r.shownLines height, grown.evicted ≤ line.1) →
      grown.view.renderTranscript height = r.view.renderTranscript height := by
  intro h
  have hdrift := h .ascii [.ingest (.stdout, [97, 10, 98, 10, 99, 10]), .scrollUp 1] 1
    [(.stdout, [100, 10])] (by decide) (by decide) (by decide)
  revert hdrift
  decide

end Tepegoz
