import Tepegoz.Tui.Mouse
import Tepegoz.Tui.PaneStack

namespace Tepegoz

/-- What one read of stdin hands to the app: the mouse events, then the text as one chunk. -/
def stdinEvents (parsed : MouseParsed) : List AppEvent :=
  parsed.events ++ if parsed.remaining = [] then [] else [.stdinChunk parsed.remaining]

/-- The runtime handles a batch of events; after a detach or a panic it handles nothing more. -/
def TuiState.handle (text : TextOps) (m : Moment) (s : TuiState) :
    List AppEvent → TuiState × List AppAction
  | [] => (s, [])
  | event :: events =>
    match (tui text).step s (m, event) with
    | some (s', out) =>
      let rest := s'.handle text m events
      (rest.1, out ++ rest.2)
    | none => (s, [])

structure AppRuntime where
  mouseParser : MouseState
  tui : TuiState

namespace AppRuntime

/-- The stdin branch of `AppRuntime::run` for one read. -/
def read (text : TextOps) (m : Moment) (r : AppRuntime) (bytes : List UInt8) :
    AppRuntime × List AppAction :=
  let parsed := MouseParser.parse r.mouseParser bytes
  let handled := r.tui.handle text m (stdinEvents parsed)
  (⟨parsed.state, handled.1⟩, handled.2)

def reads (text : TextOps) (m : Moment) (r : AppRuntime) :
    List (List UInt8) → AppRuntime × List AppAction
  | [] => (r, [])
  | bytes :: rest =>
    let first := r.read text m bytes
    let others := first.1.reads text m rest
    (others.1, first.2 ++ others.2)

end AppRuntime

/-- The keyboard runs and the mouse sequences of a read, in their order. -/
def MouseStream.parts (s : MouseStream) : List (List UInt8) :=
  (s.items.flatMap fun item => [item.1.bytes, item.2.bytes]) ++ [s.last.bytes]

/-- The events of some reads in the order of the stream. -/
def streamEvents : MouseState → List (List UInt8) → List AppEvent
  | _, [] => []
  | state, part :: parts =>
    stdinEvents (MouseParser.parse state part) ++
      streamEvents (MouseParser.parse state part).state parts

def AppEvent.isMouse : AppEvent → Bool
  | .mouseClick _ _ | .mouseHover _ _ => true
  | _ => false

def AppEvent.typedText : AppEvent → List UInt8
  | .stdinChunk bytes => bytes
  | _ => []

/-- All the text comes in one run, after all the mouse events. -/
def InOrder : List AppEvent → Bool
  | [] => true
  | [.stdinChunk _] => true
  | event :: events => event.isMouse && InOrder events

/-- The mouse events of a list, then its text in one chunk. -/
def batched (events : List AppEvent) : List AppEvent :=
  let text := events.flatMap (·.typedText)
  events.filter (·.isMouse) ++ if text = [] then [] else [.stdinChunk text]

/-- An event that a read of stdin can give. -/
def AppEvent.fromStdin : AppEvent → Bool
  | .stdinChunk bytes => bytes ≠ []
  | event => event.isMouse

theorem inOrder_cons_mouse {event : AppEvent} (h : event.isMouse = true) (events : List AppEvent) :
    InOrder (event :: events) = InOrder events := by
  cases event with
  | mouseClick | mouseHover => cases events <;> simp [InOrder, AppEvent.isMouse]
  | _ => simp [AppEvent.isMouse] at h

theorem batched_cons_mouse {event : AppEvent} (h : event.isMouse = true) (events : List AppEvent) :
    batched (event :: events) = event :: batched events := by
  have htext : event.typedText = [] := by
    cases event with
    | stdinChunk => simp [AppEvent.isMouse] at h
    | _ => rfl
  simp [batched, h, htext]

/-- Text with something after it is not where the batch puts it. -/
theorem batched_cons_chunk_ne {bytes : List UInt8} {event : AppEvent} {events : List AppEvent} :
    batched (.stdinChunk bytes :: event :: events) ≠ .stdinChunk bytes :: event :: events := by
  intro h
  have hfilter : (AppEvent.stdinChunk bytes :: event :: events).filter (·.isMouse) =
      (event :: events).filter (·.isMouse) := by simp [AppEvent.isMouse]
  rw [batched, hfilter] at h
  cases hmouse : (event :: events).filter (·.isMouse) with
  | nil =>
    rw [hmouse] at h
    have hlen := congrArg List.length h
    split at hlen <;> simp at hlen
  | cons first mouse =>
    rw [hmouse] at h
    have hfirst : first = .stdinChunk bytes := (List.cons_eq_cons.mp h).1
    have hmem : first ∈ (event :: events).filter (·.isMouse) := by simp [hmouse]
    have hm := (List.mem_filter.mp hmem).2
    simp [hfirst, AppEvent.isMouse] at hm

theorem batched_eq_self_iff {events : List AppEvent} (h : ∀ event ∈ events, event.fromStdin = true) :
    batched events = events ↔ InOrder events = true := by
  induction events with
  | nil => simp [batched, InOrder]
  | cons event events ih =>
    obtain ⟨hevent, hevents⟩ := List.forall_mem_cons.mp h
    by_cases hmouse : event.isMouse = true
    · rw [inOrder_cons_mouse hmouse, batched_cons_mouse hmouse, List.cons_inj_right, ih hevents]
    · cases event with
      | stdinChunk bytes =>
        have hne : bytes ≠ [] := by simpa [AppEvent.fromStdin] using hevent
        cases events with
        | nil => simp [batched, InOrder, AppEvent.isMouse, AppEvent.typedText, hne]
        | cons next others =>
          refine ⟨fun heq => absurd heq batched_cons_chunk_ne, fun hin => ?_⟩
          simp [InOrder, AppEvent.isMouse] at hin
      | _ => exact absurd hevent hmouse

theorem mouseEvent_isMouse {cb cx cy : Nat} {isPress : Bool} :
    ∀ event ∈ mouseEvent cb cx cy isPress, event.isMouse = true := by
  unfold mouseEvent
  dsimp only
  split_ifs <;> simp [AppEvent.isMouse]

theorem parseSgrParams_isMouse {params : List UInt8} {isPress : Bool} :
    ∀ event ∈ parseSgrParams params isPress, event.isMouse = true := by
  unfold parseSgrParams
  split
  next => exact mouseEvent_isMouse
  next => simp

namespace MouseParser

theorem step_events {state : MouseState} {b : UInt8} :
    ∀ event ∈ (step state b).events, event.isMouse = true := by
  unfold step
  split
  next => split_ifs <;> simp
  next => split_ifs <;> simp
  next => split_ifs <;> simp
  next buf =>
    split_ifs
    · exact fun event h => parseSgrParams_isMouse event (Option.mem_toList.mp h)
    · simp

theorem parse_events (state : MouseState) (bytes : List UInt8) :
    ∀ event ∈ (parse state bytes).events, event.isMouse = true := by
  induction bytes generalizing state with
  | nil => simp [parse]
  | cons b bytes ih =>
    intro event h
    rcases List.mem_append.mp h with h | h
    · exact step_events event h
    · exact ih _ event h

end MouseParser

section Events

variable (state : MouseState) (bytes : List UInt8) (parts : List (List UInt8))

theorem stdinEvents_fromStdin :
    ∀ event ∈ stdinEvents (MouseParser.parse state bytes), event.fromStdin = true := by
  intro event h
  rcases List.mem_append.mp h with h | h
  · have hmouse := MouseParser.parse_events _ _ event h
    cases event with
    | stdinChunk => simp [AppEvent.isMouse] at hmouse
    | _ => exact hmouse
  · split at h
    next => simp at h
    next hne =>
      obtain rfl := List.mem_singleton.mp h
      simpa [AppEvent.fromStdin] using hne

theorem streamEvents_fromStdin : ∀ event ∈ streamEvents state parts, event.fromStdin = true := by
  induction parts generalizing state with
  | nil => simp [streamEvents]
  | cons part parts ih =>
    intro event h
    exact (List.mem_append.mp h).elim (stdinEvents_fromStdin state part event) (ih _ event)

theorem stdinEvents_parts : (stdinEvents (MouseParser.parse state bytes)).filter (·.isMouse) =
      (MouseParser.parse state bytes).events ∧
    (stdinEvents (MouseParser.parse state bytes)).flatMap (·.typedText) =
      (MouseParser.parse state bytes).remaining := by
  have hmouse := MouseParser.parse_events state bytes
  generalize MouseParser.parse state bytes = parsed at hmouse ⊢
  have hnone : parsed.events.flatMap (·.typedText) = [] := by
    refine List.flatMap_eq_nil_iff.mpr fun event h => ?_
    have hm := hmouse event h
    cases event with
    | stdinChunk => simp [AppEvent.isMouse] at hm
    | _ => rfl
  unfold stdinEvents
  rw [List.filter_append, List.flatMap_append, List.filter_eq_self.mpr hmouse, hnone]
  split <;> simp_all [AppEvent.isMouse, AppEvent.typedText]

theorem streamEvents_parts : (streamEvents state parts).filter (·.isMouse) =
      (MouseParser.parse state parts.flatten).events ∧
    (streamEvents state parts).flatMap (·.typedText) =
      (MouseParser.parse state parts.flatten).remaining := by
  induction parts generalizing state with
  | nil => exact ⟨rfl, rfl⟩
  | cons part parts ih =>
    obtain ⟨hevents, htext⟩ := stdinEvents_parts state part
    rw [streamEvents, List.filter_append, List.flatMap_append, hevents, htext, (ih _).1, (ih _).2,
      List.flatten_cons, MouseParser.parse_append]
    exact ⟨rfl, rfl⟩

/-- A read of several parts at once handles their events batched. -/
theorem stdinEvents_flatten :
    stdinEvents (MouseParser.parse state parts.flatten) = batched (streamEvents state parts) := by
  obtain ⟨hevents, htext⟩ := streamEvents_parts state parts
  rw [stdinEvents, batched, hevents, htext]

end Events

section Handling

variable {text : TextOps} {m : Moment}

theorem TuiState.handle_ended {s : TuiState} (h : ∀ a, s ≠ .running a) (events : List AppEvent) :
    s.handle text m events = (s, []) := by
  cases events with
  | nil => rfl
  | cons event events =>
    cases s with
    | running a => exact absurd rfl (h a)
    | detached | panicked => rfl

theorem TuiState.handle_append (s : TuiState) (xs ys : List AppEvent) :
    s.handle text m (xs ++ ys) = (((s.handle text m xs).1.handle text m ys).1,
      (s.handle text m xs).2 ++ ((s.handle text m xs).1.handle text m ys).2) := by
  induction xs generalizing s with
  | nil => rfl
  | cons x xs ih =>
    cases s with
    | running a =>
      obtain ⟨s', out, hstep⟩ : ∃ s' out, (tui text).step (.running a) (m, x) = some (s', out) := by
        simp only [tui]
        split <;> exact ⟨_, _, rfl⟩
      simp only [List.cons_append, handle, hstep, ih, List.append_assoc]
    | detached | panicked =>
      simp only [List.cons_append, handle, tui]
      rw [handle_ended (fun _ => by simp)]
      rfl

theorem AppRuntime.reads_eq (r : AppRuntime) (parts : List (List UInt8)) :
    r.reads text m parts =
      (⟨(MouseParser.parse r.mouseParser parts.flatten).state,
        (r.tui.handle text m (streamEvents r.mouseParser parts)).1⟩,
        (r.tui.handle text m (streamEvents r.mouseParser parts)).2) := by
  induction parts generalizing r with
  | nil => rfl
  | cons part parts ih =>
    rw [reads, ih]
    simp only [read, streamEvents, TuiState.handle_append, List.flatten_cons,
      MouseParser.parse_append]

end Handling

theorem MouseStream.parts_flatten (s : MouseStream) : s.parts.flatten = s.bytes := by
  simp [parts, bytes, List.flatMap, List.flatten_flatten, Function.comp_def]

/-- Of one read the app gets the events in the order of the stream if and only if all the text comes
in one run after all the mouse events; then the read is handled as its keyboard runs and its mouse
sequences one after the other. -/
theorem stdin_in_order (text : TextOps) (m : Moment) (r : AppRuntime) (s : MouseStream) :
    let events := streamEvents r.mouseParser s.parts
    (stdinEvents (MouseParser.parse r.mouseParser s.bytes) = events ↔ InOrder events = true) ∧
      (InOrder events = true → r.read text m s.bytes = r.reads text m s.parts) := by
  have hbatched := stdinEvents_flatten r.mouseParser s.parts
  have hself := batched_eq_self_iff (streamEvents_fromStdin r.mouseParser s.parts)
  rw [s.parts_flatten] at hbatched
  refine ⟨by rw [hbatched, hself], fun h => ?_⟩
  rw [AppRuntime.reads_eq, AppRuntime.read, hbatched, hself.mpr h, s.parts_flatten]

def sampleRuntime : AppRuntime := ⟨.idle, .running sampleApp⟩

/-- A click into the docker tile. -/
def dockerClick : SgrReport :=
  ⟨leftButton, ⟨[key '6'], by decide, by decide⟩, ⟨[key '3', key '1'], by decide, by decide⟩, true⟩

def letterA : Segment := ⟨[key 'a'], by decide⟩

/-- A click and then a letter in one read. -/
theorem stdin_in_order_typed :
    sampleRuntime.read .ascii (.at 0) (MouseStream.mk [(noBytes, dockerClick)] letterA).bytes =
      sampleRuntime.reads .ascii (.at 0) (MouseStream.mk [(noBytes, dockerClick)] letterA).parts :=
  (stdin_in_order .ascii (.at 0) sampleRuntime ⟨[(noBytes, dockerClick)], letterA⟩).2 (by decide)

/-- A letter and then a click in one read: the letter goes to the docker tile instead of the pane. -/
theorem letter_overtaken_by_click :
    (sampleRuntime.read .ascii (.at 0) (MouseStream.mk [(letterA, dockerClick)] noBytes).bytes).2 ≠
      (sampleRuntime.reads .ascii (.at 0) (MouseStream.mk [(letterA, dockerClick)] noBytes).parts).2 := by
  decide

end Tepegoz
