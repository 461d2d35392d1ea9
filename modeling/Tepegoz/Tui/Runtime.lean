import Tepegoz.Tui.Dialogue
import Tepegoz.Tui.ReaderTask
import Tepegoz.Tui.StdinOrder

namespace Tepegoz

open Transition Framing

/-- How `AppRuntime::run` ends; `panicked` stands for a handler that does not return. -/
inductive ExitReason
  | userDetach
  | paneExited (exitCode : Option Int)
  | daemonClosed (e : Option ReadError)
  | daemonError
  | stdinClosed
  | stdinError
  | appError
  | panicked
  deriving DecidableEq

/-- A writer task that has failed still holds its channel until it ends. -/
inductive WriterTask
  | writing
  | failed
  | ended
  deriving DecidableEq

/-- The whole client: the reader task, the main loop with the app, and the writer task. `commands` are in
the channel to the writer task, and `toDaemon` is what that task has written. -/
structure TuiRuntime where
  reader : ReaderTask
  app : Option App
  mouseParser : MouseState
  exit : Option ExitReason
  commands : List Envelope
  writer : WriterTask
  toDaemon : Bytes

/-- `draws` is how many frames can be drawn until the terminal fails, at each event. -/
inductive RuntimeAct
  | reader (act : ReaderAct)
  | start (now : Nat) (pane : PaneId) (shell : String) (rows cols draws : Nat)
  | stdin (clock : Nat → Moment) (draws : Nat → Nat) (bytes : Bytes)
  | stdinEnds (failed : Bool)
  | recv (m : Moment) (draws : Nat)
  | winch (m : Moment) (draws rows cols : Nat)
  | tick (m : Moment) (draws : Nat)
  | writeCommand
  | writeFails (n : Nat)
  | writerEnds

/-- What of some actions is done, and how the run ends with it. -/
structure Dispatched where
  done : List AppAction
  exit : Option ExitReason

def DetachReason.exitReason : DetachReason → ExitReason
  | .user => .userDetach
  | .paneExited exitCode => .paneExited exitCode

/-- `AppRuntime::dispatch`. -/
def dispatch (writer : WriterTask) : Nat → List AppAction → Dispatched
  | _, [] => ⟨[], none⟩
  | draws, action :: actions =>
    match action, draws with
    | .sendEnvelope _, _ =>
      if writer = .ended then ⟨[], some .daemonError⟩
      else
        let rest := dispatch writer draws actions
        ⟨action :: rest.done, rest.exit⟩
    | .drawFrame, 0 => ⟨[], some .appError⟩
    | .drawFrame, draws + 1 =>
      let rest := dispatch writer draws actions
      ⟨action :: rest.done, rest.exit⟩
    | .detach reason, _ => ⟨[action], some reason.exitReason⟩
    | .focusTile _, _ | .showToast _ _, _ =>
      let rest := dispatch writer draws actions
      ⟨action :: rest.done, rest.exit⟩

def Exchange.heardEnvelope : Exchange → Option Envelope
  | .heard _ (.daemonEnvelope env) => some env
  | _ => none

def Exchange.sentEnvelope : Exchange → Option Envelope
  | .did _ (.sendEnvelope env) => some env
  | _ => none

namespace TuiRuntime

def new : TuiRuntime := ⟨.new, none, .idle, none, [], .writing, []⟩

/-- Some actions are dispatched at a time. -/
def perform (s : TuiRuntime) (now draws : Nat) (actions : List AppAction) : TuiRuntime × List Exchange :=
  let dispatched := dispatch s.writer draws actions
  let log := dispatched.done.map (Exchange.did now)
  ({ s with exit := dispatched.exit, commands := s.commands ++ log.filterMap Exchange.sentEnvelope }, log)

/-- An event is handled, and its actions are dispatched. -/
def react (text : TextOps) (s : TuiRuntime) (a : App) (m : Moment) (draws : Nat) (event : AppEvent) :
    TuiRuntime × List Exchange :=
  match a.handleEvent text m event with
  | none => ({ s with exit := some .panicked }, [])
  | some t =>
    let performed := { s with app := some t.app }.perform m.now draws t.actions
    (performed.1, .heard m.now event :: performed.2)

/-- The events of one turn of the loop, each at its own time. -/
def reactAll (text : TextOps) (clock : Nat → Moment) (draws : Nat → Nat) (s : TuiRuntime) :
    Nat → List AppEvent → TuiRuntime × List Exchange
  | _, [] => (s, [])
  | i, event :: events =>
    match s.exit, s.app with
    | none, some a =>
      let first := s.react text a (clock i) (draws i) event
      let rest := first.1.reactAll text clock draws (i + 1) events
      (rest.1, first.2 ++ rest.2)
    | _, _ => (s, [])

/-- The branch of `select!` for the inbox. -/
def recv (text : TextOps) (s : TuiRuntime) (a : App) (m : Moment) (draws : Nat) :
    Option (TuiRuntime × List Exchange) :=
  match s.reader.inbox with
  | .ok env :: rest =>
    some ({ s with reader := { s.reader with inbox := rest } }.react text a m draws (.daemonEnvelope env))
  | .error e :: rest =>
    some ({ s with reader := { s.reader with inbox := rest }, exit := some (.daemonClosed (some e)) }, [])
  | [] => if s.reader.reading then none else some ({ s with exit := some (.daemonClosed none) }, [])

/-- A turn of the loop of `run`. -/
def turn (text : TextOps) (s : TuiRuntime) (a : App) : RuntimeAct → Option (TuiRuntime × List Exchange)
  | .stdin clock draws bytes =>
    let parsed := MouseParser.parse s.mouseParser bytes
    if bytes = [] then none
    else some ({ s with mouseParser := parsed.state }.reactAll text clock draws 0 (stdinEvents parsed))
  | .stdinEnds failed =>
    some ({ s with exit := some (if failed then .stdinError else .stdinClosed) }, [])
  | .recv m draws => s.recv text a m draws
  | .winch m draws rows cols => some (s.react text a m draws (.resize rows cols))
  | .tick m draws => some (s.react text a m draws .tick)
  | _ => none

/-- The writer task takes a command, and writes it or fails; at last it lets go of its channel. -/
def write (rkyv : Rkyv) (s : TuiRuntime) : RuntimeAct → Option TuiRuntime
  | .writeCommand =>
    match s.commands with
    | env :: rest =>
      if s.writer = .writing ∧ (rkyv.toBytes env).length < 2 ^ 32 then
        some { s with commands := rest, toDaemon := s.toDaemon ++ frame (rkyv.toBytes env) }
      else none
    | [] => none
  | .writeFails n =>
    match s.commands with
    | env :: rest =>
      if s.writer = .writing then
        some { s with
          commands := rest, writer := .failed
          toDaemon := s.toDaemon ++
            if (rkyv.toBytes env).length < 2 ^ 32 then (frame (rkyv.toBytes env)).take n else [] }
      else none
    | [] => none
  | .writerEnds => if s.writer = .failed then some { s with writer := .ended } else none
  | _ => none

/-- The main loop: `run` dispatches the first actions, and takes turns until it returns. -/
def main (text : TextOps) (s : TuiRuntime) (act : RuntimeAct) : Option (TuiRuntime × List Exchange) :=
  match s.exit, s.app, act with
  | none, none, .start now pane shell rows cols draws => do
    let a ← App.new pane shell rows cols
    let actions ← a.initialActions
    some ({ s with app := some a }.perform now draws actions)
  | none, some a, act => s.turn text a act
  | _, _, _ => none

/-- The tasks may go on for a while when the main loop has returned. -/
def next (text : TextOps) (rkyv : Rkyv) (s : TuiRuntime) : RuntimeAct →
    Option (TuiRuntime × List Exchange)
  | .reader .recv => none
  | .reader act => (s.reader.next rkyv act).map fun r => ({ s with reader := r.1 }, [])
  | .writeCommand => (s.write rkyv .writeCommand).map fun s' => (s', [])
  | .writeFails n => (s.write rkyv (.writeFails n)).map fun s' => (s', [])
  | .writerEnds => (s.write rkyv .writerEnds).map fun s' => (s', [])
  | act => s.main text act

end TuiRuntime

def tuiRuntime (text : TextOps) (rkyv : Rkyv) : System TuiRuntime RuntimeAct Exchange where
  init s := s = .new
  step := TuiRuntime.next text rkyv

def heardEnvelopes (log : List Exchange) : List Envelope := log.filterMap Exchange.heardEnvelope

def sentEnvelopes (log : List Exchange) : List Envelope := log.filterMap Exchange.sentEnvelope

/-- Every envelope that was written is handled, unless the reader task gave up. -/
def TuiRuntime.HeardAll (rkyv : Rkyv) (log : List Exchange) (s : TuiRuntime) : Prop :=
  Oversized rkyv s.reader.written ∨
    s.reader.shut = true ∧ (s.reader.lost = [] → heardEnvelopes log = s.reader.written)

/-- The client does what the dialogue says, up to where it ends; it hears what the daemon writes, in order,
and the daemon gets what it says. -/
structure TuiRuntime.Faithful (text : TextOps) (rkyv : Rkyv) (log : List Exchange) (s : TuiRuntime) :
    Prop where
  dialogue : ∃ log' app, Run (dialogue text) Free log' app ∧ log <+: log' ∧
    (s.exit = none → log' = log ∧ app = s.app)
  heard : heardEnvelopes log <+: s.reader.written
  caughtUp : s.exit = none → s.reader.reading = true → s.reader.inbox = [] → s.reader.underway = [] →
    heardEnvelopes log = s.reader.written
  closed : ∀ e, s.exit = some (.daemonClosed e) → s.HeardAll rkyv log
  sent : s.toDaemon <+: stream ((sentEnvelopes log).map rkyv.toBytes)
  written : s.writer = .writing → s.commands = [] →
    s.toDaemon = stream ((sentEnvelopes log).map rkyv.toBytes)

/-- All the actions are done and the loop goes on, or some of them and the run ends. -/
def Dispatched.Does (d : Dispatched) (actions : List AppAction) : Prop :=
  (d.exit = none ∧ d.done = actions) ∨
    ∃ reason, d.exit = some reason ∧ (∀ e, reason ≠ .daemonClosed e) ∧ d.done <+: actions

section Dispatch

variable {d : Dispatched} {writer : WriterTask} {draws : Nat} {actions : List AppAction}

theorem Dispatched.Does.cons (h : d.Does actions) (action : AppAction) :
    Dispatched.Does ⟨action :: d.done, d.exit⟩ (action :: actions) := by
  rcases h with ⟨hexit, hdone⟩ | ⟨reason, hexit, hreason, hdone⟩
  · exact .inl ⟨hexit, congrArg _ hdone⟩
  · exact .inr ⟨reason, hexit, hreason, (List.prefix_cons_inj _).mpr hdone⟩

theorem Dispatched.Does.ends {reason : ExitReason} {done : List AppAction}
    (hreason : ∀ e, reason ≠ .daemonClosed e) (hdone : done <+: actions) :
    Dispatched.Does ⟨done, some reason⟩ actions := .inr ⟨reason, rfl, hreason, hdone⟩

theorem dispatch_does (writer : WriterTask) (draws : Nat) (actions : List AppAction) :
    (dispatch writer draws actions).Does actions := by
  induction actions generalizing draws with
  | nil => exact .inl ⟨rfl, rfl⟩
  | cons action actions ih =>
    unfold dispatch
    split
    next =>
      split
      next => exact .ends (fun _ => nofun) List.nil_prefix
      next => exact (ih _).cons _
    next => exact .ends (fun _ => nofun) List.nil_prefix
    next => exact (ih _).cons _
    next reason =>
      refine .ends (fun _ => ?_) ((List.prefix_cons_inj _).mpr List.nil_prefix)
      cases reason <;> exact nofun
    next => exact (ih _).cons _
    next => exact (ih _).cons _

theorem dispatch_prefix : (dispatch writer draws actions).done <+: actions := by
  rcases dispatch_does writer draws actions with ⟨-, hdone⟩ | ⟨reason, -, -, hdone⟩
  · exact ⟨[], by rw [List.append_nil, hdone]⟩
  · exact hdone

/-- The loop goes on only when all is done. -/
theorem dispatch_done (h : (dispatch writer draws actions).exit = none) :
    (dispatch writer draws actions).done = actions := by
  rcases dispatch_does writer draws actions with ⟨-, hdone⟩ | ⟨reason, hexit, -⟩
  · exact hdone
  · rw [h] at hexit
    cases hexit

theorem dispatch_exit (e : Option ReadError) :
    (dispatch writer draws actions).exit ≠ some (.daemonClosed e) := by
  intro h
  rcases dispatch_does writer draws actions with ⟨hexit, -⟩ | ⟨reason, hexit, hreason, -⟩
  · rw [h] at hexit
    cases hexit
  · rw [h] at hexit
    exact hreason e (Option.some.inj hexit).symm

end Dispatch

def AppEvent.envelopes : AppEvent → List Envelope
  | .daemonEnvelope env => [env]
  | _ => []

theorem AppEvent.fromStdin_envelopes {event : AppEvent} (h : event.fromStdin = true) :
    event.envelopes = [] := by
  cases event with
  | daemonEnvelope => cases h
  | _ => rfl

namespace TuiRuntime

/-- What the main loop keeps: it is where the dialogue is. -/
def InDialogue (text : TextOps) (log : List Exchange) (s : TuiRuntime) : Prop :=
  ∃ log' app, Run (dialogue text) Free log' app ∧ log <+: log' ∧
    (s.exit = none → log' = log ∧ app = s.app)

/-- What is kept on the side of the reader task. -/
structure Hears (rkyv : Rkyv) (log : List Exchange) (s : TuiRuntime) : Prop where
  reader : s.exit = none → s.reader.InOrder rkyv ((heardEnvelopes log).map .ok)
  heard : heardEnvelopes log <+: s.reader.written
  closed : ∀ e, s.exit = some (.daemonClosed e) → s.HeardAll rkyv log

/-- What is kept on the side of the writer task, which has `taken` some of the commands. -/
def Speaks (rkyv : Rkyv) (log : List Exchange) (s : TuiRuntime) : Prop :=
  ∃ taken, sentEnvelopes log = taken ++ s.commands ∧ s.toDaemon <+: stream (taken.map rkyv.toBytes) ∧
    (s.writer = .writing → s.toDaemon = stream (taken.map rkyv.toBytes))

structure Keeps (text : TextOps) (rkyv : Rkyv) (log : List Exchange) (s : TuiRuntime) : Prop where
  inDialogue : s.InDialogue text log
  hears : s.Hears rkyv log
  speaks : s.Speaks rkyv log

section Main

variable {text : TextOps} {rkyv : Rkyv} {log : List Exchange} {s : TuiRuntime} {now draws : Nat}
  {actions : List AppAction}

theorem perform_log_prefix :
    (s.perform now draws actions).2 <+: actions.map (Exchange.did now) := dispatch_prefix.map _

theorem perform_log (h : (s.perform now draws actions).1.exit = none) :
    (s.perform now draws actions).2 = actions.map (Exchange.did now) :=
  congrArg (List.map (Exchange.did now)) (dispatch_done h)

theorem heardEnvelopes_did : heardEnvelopes (actions.map (Exchange.did now)) = [] := by
  refine List.filterMap_eq_nil_iff.mpr fun exchange h => ?_
  obtain ⟨action, -, rfl⟩ := List.mem_map.mp h
  rfl

theorem Speaks.perform (h : s.Speaks rkyv log) (now draws : Nat) (actions : List AppAction) :
    (s.perform now draws actions).1.Speaks rkyv (log ++ (s.perform now draws actions).2) := by
  obtain ⟨taken, hsent, htoDaemon, hwriting⟩ := h
  refine ⟨taken, ?_, htoDaemon, hwriting⟩
  rw [sentEnvelopes, List.filterMap_append]
  show sentEnvelopes log ++ _ = taken ++ (s.commands ++ _)
  rw [hsent, List.append_assoc]
  rfl

/-- The dialogue is ahead when the actions are not all done. -/
theorem inDialogue_perform (said : List Exchange)
    (hrun : Run (dialogue text) Free (log ++ said ++ actions.map (Exchange.did now)) s.app) :
    (s.perform now draws actions).1.InDialogue text (log ++ (said ++ (s.perform now draws actions).2)) := by
  refine ⟨_, s.app, hrun, ?_, fun hexit => ⟨?_, rfl⟩⟩
  · rw [← List.append_assoc]
    exact List.prefix_append_right_inj _ |>.mpr perform_log_prefix
  · rw [perform_log hexit, List.append_assoc]

variable {a : App} {m : Moment} {event : AppEvent}

theorem react_inDialogue (happ : s.app = some a) (hrun : Run (dialogue text) Free log s.app) :
    (s.react text a m draws event).1.InDialogue text (log ++ (s.react text a m draws event).2) := by
  unfold react
  split
  next => exact ⟨log, s.app, hrun, by simp, nofun⟩
  next t ht =>
    refine inDialogue_perform [.heard m.now event] ?_
    have hstep : (dialogue text).step s.app (.event m event) =
        some (some t.app, .heard m.now event :: t.actions.map (.did m.now)) := by
      rw [happ]
      show (a.handleEvent text m event).map _ = _
      rw [ht]
      rfl
    have hrun' := hrun.next trivial hstep
    rwa [List.append_assoc, List.singleton_append]

theorem react_reader : (s.react text a m draws event).1.reader = s.reader := by
  unfold react
  split <;> rfl

theorem react_exit (e : Option ReadError) :
    (s.react text a m draws event).1.exit ≠ some (.daemonClosed e) := by
  unfold react
  split
  next => exact nofun
  next => exact dispatch_exit e

theorem heardEnvelopes_performed (now' : Nat) :
    heardEnvelopes (.heard now' event :: (s.perform now draws actions).2) = event.envelopes := by
  have hone : heardEnvelopes [.heard now' event] = event.envelopes := by cases event <;> rfl
  rw [← List.singleton_append, heardEnvelopes, List.filterMap_append]
  show heardEnvelopes [.heard now' event] ++ heardEnvelopes (List.map _ _) = _
  rw [heardEnvelopes_did, hone, List.append_nil]

theorem react_heard : heardEnvelopes (s.react text a m draws event).2 <+: event.envelopes := by
  unfold react
  split
  next => exact List.nil_prefix
  next t _ => rw [heardEnvelopes_performed]

theorem react_heard_all (h : (s.react text a m draws event).1.exit = none) :
    heardEnvelopes (s.react text a m draws event).2 = event.envelopes := by
  unfold react at h ⊢
  split at h
  next => cases h
  next t _ => exact heardEnvelopes_performed m.now

theorem heardEnvelopes_append (log out : List Exchange) :
    heardEnvelopes (log ++ out) = heardEnvelopes log ++ heardEnvelopes out := List.filterMap_append

/-- The envelope of the event is out of the inbox. -/
theorem react_hears (hreader : s.reader.InOrder rkyv ((heardEnvelopes log ++ event.envelopes).map .ok)) :
    (s.react text a m draws event).1.Hears rkyv (log ++ (s.react text a m draws event).2) where
  reader hexit := by
    rw [heardEnvelopes_append, react_heard_all hexit, react_reader]
    exact hreader
  heard := by
    rw [heardEnvelopes_append, react_reader]
    exact ((List.prefix_append_right_inj _).mpr react_heard).trans hreader.heard_prefix
  closed e hexit := absurd hexit (react_exit e)

theorem Speaks.react (h : s.Speaks rkyv log) :
    (s.react text a m draws event).1.Speaks rkyv (log ++ (s.react text a m draws event).2) := by
  unfold TuiRuntime.react
  split
  next =>
    obtain ⟨taken, hsent, hto⟩ := h
    exact ⟨taken, by simpa using hsent, hto⟩
  next t _ =>
    have hone : sentEnvelopes [.heard m.now event] = [] := rfl
    have h' : Speaks rkyv (log ++ [.heard m.now event]) { s with app := some t.app } := by
      obtain ⟨taken, hsent, hto⟩ := h
      refine ⟨taken, ?_, hto⟩
      rw [sentEnvelopes, List.filterMap_append]
      show sentEnvelopes log ++ sentEnvelopes [.heard m.now event] = _
      rw [hone, List.append_nil, hsent]
    have hperformed := h'.perform m.now draws t.actions
    rwa [List.append_assoc] at hperformed

theorem Keeps.react (h : s.Keeps text rkyv log) (hexit : s.exit = none) (happ : s.app = some a)
    (m : Moment) (draws : Nat) (event : AppEvent) (hevent : event.envelopes = []) :
    (s.react text a m draws event).1.Keeps text rkyv (log ++ (s.react text a m draws event).2) := by
  obtain ⟨log', app, hrun, -, hlast⟩ := h.inDialogue
  obtain ⟨rfl, rfl⟩ := hlast hexit
  refine ⟨react_inDialogue happ hrun, react_hears ?_, h.speaks.react⟩
  rw [hevent, List.append_nil]
  exact h.hears.reader hexit

theorem Keeps.reactAll {clock : Nat → Moment} {draws : Nat → Nat} {events : List AppEvent} {i : Nat}
    (h : s.Keeps text rkyv log) (hevents : ∀ event ∈ events, event.envelopes = []) :
    (s.reactAll text clock draws i events).1.Keeps text rkyv
      (log ++ (s.reactAll text clock draws i events).2) := by
  induction events generalizing s log i with
  | nil => simpa [TuiRuntime.reactAll] using h
  | cons event events ih =>
    obtain ⟨hevent, hevents⟩ := List.forall_mem_cons.mp hevents
    unfold TuiRuntime.reactAll
    split
    next a hexit happ =>
      have hfirst := h.react hexit happ (clock i) (draws i) event hevent
      have hrest := ih hfirst hevents (i := i + 1)
      rwa [List.append_assoc] at hrest
    next => simpa using h

/-- The run is over, and nothing is said any more. -/
theorem Keeps.ends (h : s.Keeps text rkyv log) {reason : ExitReason} (reader : ReaderTask)
    (hreader : reader.written = s.reader.written)
    (hclosed : ∀ e, reason = .daemonClosed e → HeardAll rkyv log { s with reader := reader }) :
    Keeps text rkyv log { s with reader := reader, exit := some reason } := by
  obtain ⟨log', app, hrun, hlog, -⟩ := h.inDialogue
  refine ⟨⟨log', app, hrun, hlog, nofun⟩, ⟨nofun, ?_, fun e he => ?_⟩, h.speaks⟩
  · show heardEnvelopes log <+: reader.written
    rw [hreader]
    exact h.hears.heard
  · exact hclosed e (Option.some.inj he)

/-- Taking the head of the inbox is a step of the reader task. -/
theorem recv_inOrder {tr : List (Except ReadError Envelope)} {result : Except ReadError Envelope}
    {rest : List (Except ReadError Envelope)} (h : s.reader.InOrder rkyv tr)
    (hinbox : s.reader.inbox = result :: rest) :
    { s.reader with inbox := rest }.InOrder rkyv (tr ++ [result]) := by
  refine h.recv (s := s.reader) ?_
  simp only [ReaderTask.next, hinbox]

theorem Keeps.recv {s' : TuiRuntime} {out : List Exchange} (h : s.Keeps text rkyv log)
    (hexit : s.exit = none) (happ : s.app = some a) (hs : s.recv text a m draws = some (s', out)) :
    s'.Keeps text rkyv (log ++ out) := by
  have hreader := h.hears.reader hexit
  unfold TuiRuntime.recv at hs
  split at hs
  next env rest hinbox =>
    obtain ⟨rfl, rfl⟩ := Prod.mk.inj (Option.some.inj hs)
    obtain ⟨log', app, hrun, -, hlast⟩ := h.inDialogue
    obtain ⟨rfl, rfl⟩ := hlast hexit
    refine ⟨react_inDialogue happ hrun, react_hears ?_, Speaks.react h.speaks⟩
    have hpopped := recv_inOrder hreader hinbox
    rw [List.map_append]
    exact hpopped
  next e rest hinbox =>
    obtain ⟨rfl, rfl⟩ := Prod.mk.inj (Option.some.inj hs)
    rw [List.append_nil]
    exact h.ends { s.reader with inbox := rest } rfl
      fun _ _ => (recv_inOrder hreader hinbox).closed rfl
  next hinbox =>
    split at hs
    next => cases hs
    next hr =>
      -- the error comes before the channel is closed
      obtain ⟨sent, rest, hp⟩ := hreader.parted
      obtain ⟨⟨e, herror⟩, -⟩ := hp.stopped (by simpa using hr)
      rw [hinbox, List.append_nil] at herror
      have hm : .error e ∈ ((heardEnvelopes log).map .ok : List (Except ReadError Envelope)) := by
        simp [herror]
      exact absurd hm ReaderTask.not_error_of_map_ok

theorem Keeps.turn {act : RuntimeAct} {s' : TuiRuntime} {out : List Exchange} (h : s.Keeps text rkyv log)
    (hexit : s.exit = none) (happ : s.app = some a) (hs : s.turn text a act = some (s', out)) :
    s'.Keeps text rkyv (log ++ out) := by
  cases act with
  | stdin clock draws bytes =>
    simp only [TuiRuntime.turn, Option.ite_none_left_eq_some, Option.some.injEq] at hs
    obtain ⟨-, hs⟩ := hs
    obtain ⟨rfl, rfl⟩ := Prod.mk.inj hs
    have h' : Keeps text rkyv log
        { s with mouseParser := (MouseParser.parse s.mouseParser bytes).state } :=
      ⟨h.inDialogue, ⟨h.hears.reader, h.hears.heard, h.hears.closed⟩, h.speaks⟩
    exact h'.reactAll fun event hevent => AppEvent.fromStdin_envelopes (stdinEvents_fromStdin _ _ event hevent)
  | stdinEnds failed =>
    obtain ⟨rfl, rfl⟩ := Prod.mk.inj (Option.some.inj hs)
    rw [List.append_nil]
    refine h.ends s.reader rfl fun e he => ?_
    cases failed <;> cases he
  | recv m draws => exact h.recv hexit happ hs
  | winch m draws rows cols =>
    obtain ⟨rfl, rfl⟩ := Prod.mk.inj (Option.some.inj hs)
    exact h.react hexit happ m draws (.resize rows cols) rfl
  | tick m draws =>
    obtain ⟨rfl, rfl⟩ := Prod.mk.inj (Option.some.inj hs)
    exact h.react hexit happ m draws .tick rfl
  | _ => cases hs

theorem Keeps.main {act : RuntimeAct} {s' : TuiRuntime} {out : List Exchange} (h : s.Keeps text rkyv log)
    (hs : s.main text act = some (s', out)) : s'.Keeps text rkyv (log ++ out) := by
  unfold TuiRuntime.main at hs
  split at hs
  next now pane shell rows cols draws hexit happ =>
    obtain ⟨a, ha, hs⟩ := Option.bind_eq_some_iff.mp hs
    obtain ⟨actions, hactions, hs⟩ := Option.bind_eq_some_iff.mp hs
    obtain ⟨rfl, rfl⟩ := Prod.mk.inj (Option.some.inj hs)
    obtain ⟨log', app, hrun, -, hlast⟩ := h.inDialogue
    obtain ⟨rfl, rfl⟩ := hlast hexit
    have hstep : (dialogue text).step s.app (.start now pane shell rows cols) =
        some (some a, actions.map (.did now)) := by
      rw [happ]
      show (App.new pane shell rows cols).bind _ = _
      rw [ha]
      show a.initialActions.bind _ = _
      rw [hactions]
      rfl
    have h' : Speaks rkyv log' { s with app := some a } := h.speaks
    refine ⟨inDialogue_perform [] ?_, ⟨fun _ => ?_, ?_, fun e he => ?_⟩,
      h'.perform now draws actions⟩
    · rw [List.append_nil]
      exact hrun.next trivial hstep
    · rw [heardEnvelopes_append, heardEnvelopes_did, List.append_nil]
      exact h.hears.reader hexit
    · rw [heardEnvelopes_append, heardEnvelopes_did, List.append_nil]
      exact h.hears.heard
    · exact absurd he (dispatch_exit e)
  next a hexit happ => exact h.turn hexit happ hs
  next => cases hs

end Main

section Tasks

variable {text : TextOps} {rkyv : Rkyv} {log : List Exchange} {s s' : TuiRuntime}

theorem Speaks.write {act : RuntimeAct} (h : s.Speaks rkyv log) (hs : s.write rkyv act = some s') :
    s'.Speaks rkyv log := by
  obtain ⟨taken, hsent, htoDaemon, hwriting⟩ := h
  have hone : ∀ env, stream ((taken ++ [env]).map rkyv.toBytes) =
      stream (taken.map rkyv.toBytes) ++ frame (rkyv.toBytes env) := by
    intro env
    simp [stream_append]
  unfold TuiRuntime.write at hs
  split at hs
  next =>
    split at hs
    next env rest hcommands =>
      obtain ⟨⟨hw, -⟩, rfl⟩ := Option.ite_none_right_eq_some.mp hs |>.imp_right Option.some.inj
      have hall : s.toDaemon ++ frame (rkyv.toBytes env) = stream ((taken ++ [env]).map rkyv.toBytes) := by
        rw [hone, hwriting hw]
      exact ⟨taken ++ [env], by simp [hsent, hcommands], hall ▸ List.prefix_rfl, fun _ => hall⟩
    next => cases hs
  next n =>
    split at hs
    next env rest hcommands =>
      obtain ⟨hw, rfl⟩ := Option.ite_none_right_eq_some.mp hs |>.imp_right Option.some.inj
      refine ⟨taken ++ [env], by simp [hsent, hcommands], ?_, nofun⟩
      rw [hone, hwriting hw]
      refine (List.prefix_append_right_inj _).mpr ?_
      split
      next => exact List.take_prefix _ _
      next => exact List.nil_prefix
    next => cases hs
  next =>
    obtain ⟨hw, rfl⟩ := Option.ite_none_right_eq_some.mp hs |>.imp_right Option.some.inj
    exact ⟨taken, hsent, htoDaemon, nofun⟩
  next => cases hs

theorem write_others {act : RuntimeAct} (hs : s.write rkyv act = some s') :
    s'.reader = s.reader ∧ s'.app = s.app ∧ s'.exit = s.exit := by
  unfold TuiRuntime.write at hs
  repeat' split at hs
  all_goals cases hs
  all_goals exact ⟨rfl, rfl, rfl⟩

theorem Keeps.write {act : RuntimeAct} (h : s.Keeps text rkyv log) (hs : s.write rkyv act = some s') :
    s'.Keeps text rkyv log := by
  obtain ⟨hreader, happ, hexit⟩ := write_others hs
  obtain ⟨hrun, hhears, hspeaks⟩ := h
  refine ⟨?_, ⟨?_, ?_, ?_⟩, hspeaks.write hs⟩
  · rwa [InDialogue, happ, hexit]
  · rw [hreader, hexit]
    exact hhears.reader
  · rw [hreader]
    exact hhears.heard
  · rw [HeardAll, hreader, hexit]
    exact hhears.closed

theorem HeardAll.read {act : ReaderAct} {reader : ReaderTask} {out : List (Except ReadError Envelope)}
    (h : s.HeardAll rkyv log) (hs : s.reader.next rkyv act = some (reader, out)) :
    HeardAll rkyv log { s with reader := reader } := by
  rcases h with ⟨env, hm, hlimit⟩ | ⟨hshut, hall⟩
  · exact .inl ⟨env, (ReaderTask.next_written hs).subset hm, hlimit⟩
  · obtain ⟨hshut', hwritten, hlost⟩ := ReaderTask.next_shut hs hshut
    refine .inr ⟨hshut', fun hl => ?_⟩
    show heardEnvelopes log = reader.written
    rw [hwritten]
    exact hall (hlost ▸ hl)

theorem Keeps.read {act : ReaderAct} {reader : ReaderTask} {out : List (Except ReadError Envelope)}
    (h : s.Keeps text rkyv log) (hround : ∀ env ∈ s.reader.written, rkyv.fromBytes (rkyv.toBytes env) = some env)
    (hact : act ≠ .recv) (hs : s.reader.next rkyv act = some (reader, out)) :
    Keeps text rkyv log { s with reader := reader } := by
  obtain ⟨hrun, hhears, hspeaks⟩ := h
  refine ⟨hrun, ⟨fun hexit => ?_, hhears.heard.trans (ReaderTask.next_written hs),
    fun e he => (hhears.closed e he).read hs⟩, hspeaks⟩
  have hstep := (hhears.reader hexit).step hround hs
  rwa [ReaderTask.next_silent hs hact, List.append_nil] at hstep

theorem reactAll_reader {clock : Nat → Moment} {draws : Nat → Nat} {events : List AppEvent} {i : Nat} :
    (s.reactAll text clock draws i events).1.reader = s.reader := by
  induction events generalizing s i with
  | nil => rfl
  | cons event events ih =>
    unfold reactAll
    split
    next a _ _ => exact ih.trans react_reader
    next => rfl

theorem main_written {act : RuntimeAct} {out : List Exchange} (hs : s.main text act = some (s', out)) :
    s'.reader.written = s.reader.written := by
  have hfst : ∀ {r : TuiRuntime × List Exchange}, some r = some (s', out) → s' = r.1 :=
    fun h => (congrArg Prod.fst (Option.some.inj h)).symm
  unfold main at hs
  split at hs
  next =>
    obtain ⟨a, -, hs⟩ := Option.bind_eq_some_iff.mp hs
    obtain ⟨actions, -, hs⟩ := Option.bind_eq_some_iff.mp hs
    rw [hfst hs]
    rfl
  next a hexit _ =>
    unfold turn at hs
    split at hs
    next => rw [hfst (Option.ite_none_left_eq_some.mp hs).2, reactAll_reader]
    next => rw [hfst hs]
    next m draws =>
      unfold recv at hs
      split at hs
      next => rw [hfst hs, react_reader]
      next => rw [hfst hs]
      next => rw [hfst (Option.ite_none_left_eq_some.mp hs).2]
    next => rw [hfst hs, react_reader]
    next => rw [hfst hs, react_reader]
    next => cases hs
  next => cases hs

/-- A step of one of the three tasks. -/
theorem next_cases {act : RuntimeAct} {out : List Exchange} (hs : s.next text rkyv act = some (s', out)) :
    (∃ readerAct reader out', readerAct ≠ .recv ∧ s.reader.next rkyv readerAct = some (reader, out') ∧
      s' = { s with reader := reader } ∧ out = []) ∨
    (∃ act, s.write rkyv act = some s' ∧ out = []) ∨ s.main text act = some (s', out) := by
  have hwrite : ∀ {act}, (s.write rkyv act).map (fun s' => (s', ([] : List Exchange))) = some (s', out) →
      ∃ act, s.write rkyv act = some s' ∧ out = [] := by
    intro act h
    obtain ⟨s'', hw, heq⟩ := Option.map_eq_some_iff.mp h
    obtain ⟨rfl, rfl⟩ := Prod.mk.inj heq
    exact ⟨act, hw, rfl⟩
  unfold next at hs
  split at hs
  next => cases hs
  next readerAct hact =>
    obtain ⟨⟨reader, out'⟩, hr, heq⟩ := Option.map_eq_some_iff.mp hs
    obtain ⟨rfl, rfl⟩ := Prod.mk.inj heq
    exact .inl ⟨readerAct, reader, out', hact, hr, rfl, rfl⟩
  next => exact .inr (.inl (hwrite hs))
  next => exact .inr (.inl (hwrite hs))
  next => exact .inr (.inl (hwrite hs))
  next => exact .inr (.inr hs)

theorem next_written {act : RuntimeAct} {out : List Exchange} (hs : s.next text rkyv act = some (s', out)) :
    s.reader.written <+: s'.reader.written := by
  rcases next_cases hs with ⟨_, _, _, -, hr, rfl, -⟩ | ⟨_, hw, -⟩ | hmain
  · exact ReaderTask.next_written hr
  · rw [(write_others hw).1]
  · rw [main_written hmain]

theorem keeps_new (text : TextOps) (rkyv : Rkyv) : new.Keeps text rkyv [] where
  inDialogue := ⟨[], none, .start rfl, List.prefix_rfl, fun _ => ⟨rfl, rfl⟩⟩
  hears := ⟨fun _ => ReaderTask.inOrder_new rkyv, List.nil_prefix, nofun⟩
  speaks := ⟨[], rfl, List.prefix_rfl, fun _ => rfl⟩

theorem keeps_of_run (h : Run (tuiRuntime text rkyv) Free log s)
    (hround : ∀ env ∈ s.reader.written, rkyv.fromBytes (rkyv.toBytes env) = some env) :
    s.Keeps text rkyv log := by
  refine h.invariant (I := fun log s => (∀ env ∈ s.reader.written,
    rkyv.fromBytes (rkyv.toBytes env) = some env) → s.Keeps text rkyv log) ?_ ?_ hround
  · rintro s rfl -
    exact keeps_new text rkyv
  · intro log s act s' out _ hI _ hs hround'
    have hround := fun env he => hround' env ((next_written hs).subset he)
    have h := hI hround
    rcases next_cases hs with ⟨_, _, _, hact, hr, rfl, rfl⟩ | ⟨_, hw, rfl⟩ | hmain
    · rw [List.append_nil]
      exact h.read hround hact hr
    · rw [List.append_nil]
      exact h.write hw
    · exact h.main hmain

end Tasks

end TuiRuntime

/-- Whatever the pieces are in which the socket yields its bytes, and whatever else the main loop waits for,
the client is the dialogue with the daemon. -/
theorem tui_runtime_faithful {text : TextOps} {rkyv : Rkyv} {log : List Exchange} {s : TuiRuntime}
    (h : Run (tuiRuntime text rkyv) Free log s)
    (hround : ∀ env ∈ s.reader.written, rkyv.fromBytes (rkyv.toBytes env) = some env) :
    s.Faithful text rkyv log := by
  obtain ⟨hdialogue, hhears, taken, hsent, htoDaemon, hwriting⟩ := TuiRuntime.keeps_of_run h hround
  refine ⟨hdialogue, hhears.heard, fun hexit => (hhears.reader hexit).drained, hhears.closed, ?_, ?_⟩
  · refine htoDaemon.trans ?_
    rw [hsent, List.map_append, stream_append]
    exact List.prefix_append _ _
  · intro hw hcommands
    rw [hcommands, List.append_nil] at hsent
    rw [hsent]
    exact hwriting hw

section Instances

/-- A serializer for the two envelopes of the schedule below. -/
def twoReplies : Rkyv where
  toBytes env := if env = envelope .pong then [1] else [2]
  fromBytes bytes :=
    if bytes = [1] then some (envelope .pong)
    else if bytes = [2] then some (eventFrame 5 (.agentCapabilities "h" ["docker"])) else none

/-- The daemon shuts down when all is written; the second frame is read in three pieces. -/
def repliesInPieces : List RuntimeAct :=
  [.start 0 7 "sh" 40 120 1, .writeCommand, .reader (.write (envelope .pong)), .reader (.flush 5),
    .reader (.write (eventFrame 5 (.agentCapabilities "h" ["docker"]))), .reader (.read 4),
    .tick (.at 1) 1, .reader (.read 1), .reader (.flush 3), .reader (.read 2), .recv (.at 2) 1,
    .reader (.flush 2), .reader (.read 2), .stdin .at (fun _ => 1) [key 'j'], .reader .shutdown, .writeCommand,
    .reader (.read 1), .reader .eof, .recv (.at 3) 1, .recv (.at 4) 1]

theorem tui_runtime_faithful_pieces : ∃ log s, Run (tuiRuntime .ascii twoReplies) Free log s ∧
    s.exit = some (.daemonClosed (some .endOfStream)) ∧
      heardEnvelopes log = [envelope .pong, eventFrame 5 (.agentCapabilities "h" ["docker"])] := by
  obtain ⟨log, s, hr, hwritten, hexit, hlost, hfits⟩ := Run.of_replay (tuiRuntime .ascii twoReplies) Free
    (fun _ s => s.reader.written = [envelope .pong, eventFrame 5 (.agentCapabilities "h" ["docker"])] ∧
      s.exit = some (.daemonClosed (some .endOfStream)) ∧ s.reader.lost = [] ∧
        ∀ env ∈ s.reader.written, (twoReplies.toBytes env).length ≤ maxFrameSize)
    rfl repliesInPieces (by decide +kernel)
  refine ⟨log, s, hr, hexit, ?_⟩
  rcases (tui_runtime_faithful hr (by rw [hwritten]; decide)).closed _ hexit with ⟨env, hm, hlimit⟩ | ⟨-, hall⟩
  · exact absurd (hfits env hm) (Nat.not_le_of_lt hlimit)
  · rw [hall hlost, hwritten]

end Instances

end Tepegoz
