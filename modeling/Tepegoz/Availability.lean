import Tepegoz.Lib.EdgeTrigger
import Tepegoz.Proto

namespace Tepegoz

open Transition Runs EdgeTrigger

/-- How a call ends that a forwarder awaits. -/
inductive CallAnswer (α : Type)
  | ok (value : α)
  | error (reason : String)
  | panicked (message : String)
  deriving DecidableEq

/-- What the forwarder tasks have in common; `closed` says that nobody receives from `event_tx`. -/
structure Poller where
  lastWasUnavailable : Option Bool
  closed : Bool
  ended : Bool
  deriving DecidableEq

namespace Poller

def fresh : Poller := ⟨none, false, false⟩

/-- A send, with the return when it fails and the flag that is set when it does not. -/
def send (p : Poller) (event : Event) (unavailable : Bool) : Poller × List Event :=
  if p.closed then ({ p with ended := true }, [])
  else ({ p with lastWasUnavailable := some unavailable }, [event])

def listed (p : Poller) (event : Event) : Poller × List Event := p.send event false

def unavailable (p : Poller) (event : Event) : Poller × List Event :=
  if p.lastWasUnavailable = some true then (p, []) else p.send event true

/-- A panic in the task itself ends it. -/
def panic (p : Poller) : Poller × List Event := ({ p with ended := true }, [])

end Poller

def keeping {σ : Type} (own : σ) (r : Poller × List Event) : (Poller × σ) × List Event :=
  ((r.1, own), r.2)

/-- An answer of `Engine::connect`, with the engine's source, or of that engine's
`list_containers`. -/
inductive DockerAnswer
  | connect (engine : CallAnswer String)
  | list (source : String) (containers : CallAnswer (List DockerContainer))
  deriving DecidableEq

/-- The loops of `forward_docker`; the inner one is where there is an engine. -/
def dockerLoop (s : Poller × Option String) :
    DockerAnswer → Option ((Poller × Option String) × List Event)
  | .connect engine =>
    if s.2 = none then
      match engine with
      | .ok source => some ((s.1, some source), [])
      | .error reason => some (keeping none (s.1.unavailable (.dockerUnavailable reason)))
      | .panicked _ => some (keeping none s.1.panic)
    else none
  | .list source containers =>
    if s.2 = some source then
      match containers with
      | .ok containers => some (keeping s.2 (s.1.listed (.containerList containers source)))
      | .error reason => some (keeping none (s.1.unavailable (.dockerUnavailable reason)))
      | .panicked _ => some (keeping none s.1.panic)
    else none

inductive Platform
  | linux
  | macos
  | other
  deriving DecidableEq

/-- `SOURCE_LABEL` of the ports probe. -/
def Platform.sourceLabel : Platform → String
  | .linux => "linux-procfs"
  | .macos => "macos-libproc"
  | .other => "unsupported"

/-- What correlation uses of a container: its id and its public ports. -/
abbrev PublicPorts := String × List Nat

/-- The engine calls of one poll, with the engine kept from an earlier poll or with a new one. -/
inductive Correlation
  | cached (containers : CallAnswer (List PublicPorts))
  | connected (containers : CallAnswer (List PublicPorts))
  | refused (reason : String)
  | panicked (message : String)
  deriving DecidableEq

def needsCorrelation (ports : List ProbePort) : Bool :=
  ports.any fun p => p.containerId.isNone && p.pid != 0

def correlatePort (containers : List PublicPorts) (port : ProbePort) : ProbePort :=
  if port.containerId.isSome then port
  else
    match containers.find? fun c => c.2.any fun p => p == port.localPort && p != 0 with
    | some c => { port with containerId := some c.1 }
    | none => port

def correlatePortsToContainers (ports : List ProbePort) (containers : List PublicPorts) :
    List ProbePort :=
  ports.map (correlatePort containers)

namespace Correlation

/-- A poll connects only when it has no engine. -/
def fits (engine : Bool) : Correlation → Bool
  | .cached _ => engine
  | _ => !engine

/-- The rows to send, and whether the engine is kept; none when a call panics. -/
def rows (ports : List ProbePort) : Correlation → Option (List ProbePort × Bool)
  | .cached (.ok containers) | .connected (.ok containers) =>
    some (correlatePortsToContainers ports containers, true)
  | .cached (.error _) | .connected (.error _) | .refused _ => some (ports, false)
  | .cached (.panicked _) | .connected (.panicked _) | .panicked _ => none

end Correlation

/-- The answer of the blocking probe task, and on macOS those of the engine. -/
structure PortsAnswer where
  probe : CallAnswer (List ProbePort)
  correlation : Option Correlation
  deriving DecidableEq

/-- The loop of `forward_ports`; the state of its own is whether it has an engine. -/
def portsLoop (platform : Platform) (panicText : String) (s : Poller × Bool) (a : PortsAnswer) :
    Option ((Poller × Bool) × List Event) :=
  match a.probe, a.correlation with
  | .ok ports, none =>
    if platform = .macos ∧ needsCorrelation ports = true then none
    else some (keeping s.2 (s.1.listed (.portList ports platform.sourceLabel)))
  | .ok ports, some c =>
    if platform = .macos ∧ needsCorrelation ports = true ∧ c.fits s.2 = true then
      match c.rows ports with
      | some (rows, engine) =>
        some (keeping engine (s.1.listed (.portList rows platform.sourceLabel)))
      | none => some (keeping s.2 s.1.panic)
    else none
  | .error reason, none => some (keeping s.2 (s.1.unavailable (.portsUnavailable reason)))
  | .panicked e, none => some (keeping s.2 (s.1.unavailable (.portsUnavailable (panicText ++ e))))
  | _, some _ => none

/-- How `ProcessesError::Backend` is displayed. -/
def processesBackendText (reason : String) : String := "processes probe failed: " ++ reason

/-- The loop of `forward_processes`. The probe's own state shows in the rows only. -/
def processesLoop (panicText : String) (s : Poller × Unit) :
    CallAnswer (List ProbeProcess) → Option ((Poller × Unit) × List Event)
  | .ok rows => some (keeping () (s.1.listed (.processList rows "sysinfo")))
  | .error reason => some (keeping () (s.1.unavailable (.processesUnavailable reason)))
  | .panicked e => some (keeping ()
      (s.1.unavailable (.processesUnavailable (processesBackendText (panicText ++ e)))))

inductive ForwardAct (α : Type)
  | answer (a : α)
  | hangUp

def ForwardAct.poll {α : Type} (poll : α → Option Event) : ForwardAct α → Option Event
  | .answer a => poll a
  | .hangUp => none

def forwarder {σ α : Type} (own : σ)
    (loop : Poller × σ → α → Option ((Poller × σ) × List Event)) :
    System (Poller × σ) (ForwardAct α) Event where
  init s := s = (.fresh, own)
  step s
    | .answer a => if s.1.ended then none else loop s a
    | .hangUp => some (({ s.1 with closed := true }, s.2), [])

namespace Client

def forwardDocker := forwarder none dockerLoop

def forwardPorts (platform : Platform) :=
  forwarder false (portsLoop platform "ports probe task panicked: ")

def forwardProcesses := forwarder () (processesLoop "processes probe task panicked: ")

end Client

namespace Agent

def forwardDocker := forwarder none dockerLoop

def forwardPorts (platform : Platform) :=
  forwarder false (portsLoop platform "agent ports probe task panicked: ")

def forwardProcesses := forwarder () (processesLoop "agent processes probe task panicked: ")

end Agent

def Event.isUnavailable : Event → Bool
  | .dockerUnavailable _ | .portsUnavailable _ | .processesUnavailable _ => true
  | _ => false

/-- An event without the text of its reason. -/
def Event.withoutReason : Event → Event
  | .dockerUnavailable _ => .dockerUnavailable ""
  | .portsUnavailable _ => .portsUnavailable ""
  | .processesUnavailable _ => .processesUnavailable ""
  | event => event

/-- What an answer has to say on the availability of docker: nothing if the engine was only found,
and nothing if the call panicked. -/
def DockerAnswer.poll : DockerAnswer → Option Event
  | .connect (.error reason) | .list _ (.error reason) => some (.dockerUnavailable reason)
  | .list source (.ok containers) => some (.containerList containers source)
  | .connect (.ok _) | .connect (.panicked _) | .list _ (.panicked _) => none

def PortsAnswer.poll (platform : Platform) (panicText : String) (a : PortsAnswer) : Option Event :=
  match a.probe with
  | .ok ports =>
    if a.correlation.all fun c => (c.rows ports).isSome then
      some (.portList ports platform.sourceLabel)
    else none
  | .error reason => some (.portsUnavailable reason)
  | .panicked e => some (.portsUnavailable (panicText ++ e))

def processesPoll (panicText : String) : CallAnswer (List ProbeProcess) → Option Event
  | .ok rows => some (.processList rows "sysinfo")
  | .error reason => some (.processesUnavailable reason)
  | .panicked e => some (.processesUnavailable (processesBackendText (panicText ++ e)))

/-- The same port, with a container if the probe knew none. -/
def ProbePort.Completes (p p' : ProbePort) : Prop :=
  p' = { p with containerId := p'.containerId } ∧ (p.containerId.isSome = true → p' = p)

/-- On macOS the rows of a port list may have got their containers. -/
def Event.Correlated (platform : Platform) (e e' : Event) : Prop :=
  e' = e ∨ platform = .macos ∧ ∃ ports ports' source, e = .portList ports source ∧
    e' = .portList ports' source ∧ List.Forall₂ ProbePort.Completes ports ports'

section Tracking

variable {σ α : Type}

/-- Whatever the answers, the events are those of all polls, less each poll that failed right after
another one that failed. -/
structure Tracks (M : System (Poller × σ) (ForwardAct α) Event) (own : σ)
    (poll : α → Option Event) (sent : Event → Event → Prop) : Prop where
  edges : ∀ (answers : List α) events s,
    M.replay Free [] (.fresh, own) (answers.map .answer) = some (events, s) →
      List.Forall₂ sent (Runs.edges Event.isUnavailable (answers.filterMap poll)) events
  apart : ∀ (answers : List α) events s,
    M.replay Free [] (.fresh, own) (answers.map .answer) = some (events, s) →
      events.IsChain fun e e' => ¬ (e.isUnavailable = true ∧ e'.isUnavailable = true)
  first : ∀ (answers : List α) events s e,
    M.replay Free [] (.fresh, own) (answers.map .answer) = some (events, s) →
      (answers.filterMap poll).head? = some e → ∃ e', events.head? = some e' ∧ sent e e'

/-- The same events but for the reasons, whatever happens. -/
def SendAlike (M N : System (Poller × σ) (ForwardAct α) Event) (own : σ) : Prop :=
  ∀ acts, (M.replay Free [] (.fresh, own) acts).map (fun r => (r.1.map Event.withoutReason, r.2)) =
    (N.replay Free [] (.fresh, own) acts).map fun r => (r.1.map Event.withoutReason, r.2)

/-- One turn of a loop, as long as the client is there. -/
def Turns (loop : Poller × σ → α → Option ((Poller × σ) × List Event)) (poll : α → Option Event)
    (sent : Event → Event → Prop) : Prop :=
  ∀ s a s' out, s.1.closed = false → loop s a = some (s', out) → s'.1.closed = false ∧
    Announces poll Event.isUnavailable (fun s : Poller × σ => s.1.lastWasUnavailable) sent s a s' out

variable {own : σ} {loop : Poller × σ → α → Option ((Poller × σ) × List Event)}
  {poll : α → Option Event} {sent : Event → Event → Prop}

theorem tracks_of_turns (h : Turns loop poll sent)
    (hsent : ∀ e e', sent e e' → e'.isUnavailable = e.isUnavailable) :
    Tracks (forwarder own loop) own poll sent := by
  have hedges : ∀ (answers : List α) events s,
      (forwarder own loop).replay Free [] (.fresh, own) (answers.map .answer) = some (events, s) →
      List.Forall₂ sent (Runs.edges Event.isUnavailable (answers.filterMap poll)) events := by
    intro answers events s hr
    have hstep : ∀ s l s' out, s.1.closed = false → (∃ a, l = .answer a) →
        (forwarder own loop).step s l = some (s', out) → s'.1.closed = false ∧
          Announces (ForwardAct.poll poll) Event.isUnavailable
            (fun s : Poller × σ => s.1.lastWasUnavailable) sent s l s' out := by
      rintro s _ s' out hc ⟨a, rfl⟩ hs
      simp only [forwarder, Option.ite_none_left_eq_some] at hs
      exact h s a s' out hc hs.2
    have hpolls : (answers.map .answer).filterMap (ForwardAct.poll poll) = answers.filterMap poll := by
      rw [List.filterMap_map]
      rfl
    rw [← hpolls]
    refine replay_edges_fresh hstep rfl rfl ?_ hr
    intro l hl
    obtain ⟨a, -, rfl⟩ := List.mem_map.mp hl
    exact ⟨a, rfl⟩
  refine ⟨hedges, ?_, ?_⟩
  · intro answers events s hr
    have hsame : (Runs.edges Event.isUnavailable (answers.filterMap poll)).map Event.isUnavailable =
        events.map Event.isUnavailable := by
      rw [← List.forall₂_eq_eq_eq, List.forall₂_map_left_iff, List.forall₂_map_right_iff]
      exact (hedges answers events s hr).imp fun e e' he => (hsent e e' he).symm
    have hchain : (Runs.edges Event.isUnavailable (answers.filterMap poll)).IsChain
        fun e e' => ¬ (e.isUnavailable = true ∧ e'.isUnavailable = true) := Runs.edges_isChain _
    have hmap : ∀ l : List Event,
        l.IsChain (fun e e' => ¬ (e.isUnavailable = true ∧ e'.isUnavailable = true)) ↔
          (l.map Event.isUnavailable).IsChain fun b b' => ¬ (b = true ∧ b' = true) :=
      fun l => (List.isChain_map (R := fun b b' => ¬ (b = true ∧ b' = true)) _).symm
    rwa [hmap, ← hsame, ← hmap]
  · intro answers events s e hr hfirst
    have hall := hedges answers events s hr
    have hhead : (Runs.edges Event.isUnavailable (answers.filterMap poll)).head? = some e :=
      (Runs.head?_edges _).trans hfirst
    generalize Runs.edges Event.isUnavailable (answers.filterMap poll) = polled at hall hhead
    cases hall with
    | nil => cases hhead
    | cons he _ =>
      cases hhead
      exact ⟨_, rfl, he⟩

/-- What a turn does, but for the reasons it gives. -/
def outcome (r : (Poller × σ) × List Event) : (Poller × σ) × List Event :=
  (r.1, r.2.map Event.withoutReason)

theorem alike_of_loops {loop' : Poller × σ → α → Option ((Poller × σ) × List Event)}
    (h : ∀ s a, (loop s a).map outcome = (loop' s a).map outcome) :
    SendAlike (forwarder own loop) (forwarder own loop') own := by
  refine fun acts => System.replay_view (fun s l => ?_) rfl
  cases l with
  | answer a =>
    simp only [forwarder]
    split
    next => rfl
    next => exact h s a
  | hangUp => rfl

theorem outcome_unavailable {p : Poller} {e e' : Event} (h : e.withoutReason = e'.withoutReason) :
    outcome (keeping own (p.unavailable e)) = outcome (keeping own (p.unavailable e')) := by
  unfold Poller.unavailable
  split
  next => rfl
  next =>
    unfold Poller.send
    split
    next => rfl
    next => simp [outcome, keeping, h]

section Turn

variable {s s' : Poller × σ} {a : α} {own' : σ} {e e' : Event} {out : List Event}

/-- A turn that has taken the answer `a`. -/
def TurnOn (poll : α → Option Event) (sent : Event → Event → Prop) (s : Poller × σ) (a : α)
    (s' : Poller × σ) (out : List Event) : Prop :=
  s'.1.closed = false ∧
    Announces poll Event.isUnavailable (fun s : Poller × σ => s.1.lastWasUnavailable) sent s a s' out

theorem turnOn_listed (h : keeping own' (s.1.listed e') = (s', out)) (hc : s.1.closed = false)
    (hp : poll a = some e) (hup : e.isUnavailable = false) (he : sent e e') :
    TurnOn poll sent s a s' out := by
  cases h
  simp only [TurnOn, Announces, hp, hup, Poller.listed, Poller.send, hc]
  exact ⟨rfl, rfl, e', rfl, he⟩

theorem turnOn_unavailable (h : keeping own' (s.1.unavailable e) = (s', out))
    (hc : s.1.closed = false) (hp : poll a = some e) (hdown : e.isUnavailable = true)
    (he : sent e e) : TurnOn poll sent s a s' out := by
  cases h
  simp only [TurnOn, Announces, hp, hdown, Poller.unavailable]
  split
  next hlast => exact ⟨hc, hlast, by simp [hlast]⟩
  next hlast =>
    simp only [Poller.send, hc]
    exact ⟨rfl, rfl, by simpa [hlast] using he⟩

theorem turnOn_panic (h : keeping own' s.1.panic = (s', out)) (hc : s.1.closed = false)
    (hp : poll a = none) : TurnOn poll sent s a s' out := by
  cases h
  simp only [TurnOn, Announces, hp]
  exact ⟨hc, rfl, rfl⟩

end Turn

end Tracking

theorem dockerLoop_turns : Turns dockerLoop DockerAnswer.poll fun e e' => e' = e := by
  intro s a s' out hc h
  cases a with
  | connect engine =>
    simp only [dockerLoop, Option.ite_none_right_eq_some] at h
    obtain ⟨-, h⟩ := h
    cases engine with
    | ok source => cases h; exact ⟨hc, rfl, rfl⟩
    | error reason => exact turnOn_unavailable (Option.some.inj h) hc rfl rfl rfl
    | panicked message => exact turnOn_panic (Option.some.inj h) hc rfl
  | list source containers =>
    simp only [dockerLoop, Option.ite_none_right_eq_some] at h
    obtain ⟨-, h⟩ := h
    cases containers with
    | ok containers => exact turnOn_listed (Option.some.inj h) hc rfl rfl rfl
    | error reason => exact turnOn_unavailable (Option.some.inj h) hc rfl rfl rfl
    | panicked message => exact turnOn_panic (Option.some.inj h) hc rfl

theorem processesLoop_turns (panicText : String) :
    Turns (processesLoop panicText) (processesPoll panicText) fun e e' => e' = e := by
  intro s a s' out hc h
  cases a with
  | ok rows => exact turnOn_listed (Option.some.inj h) hc rfl rfl rfl
  | error reason => exact turnOn_unavailable (Option.some.inj h) hc rfl rfl rfl
  | panicked message => exact turnOn_unavailable (Option.some.inj h) hc rfl rfl rfl

theorem correlatePort_completes (containers : List PublicPorts) (p : ProbePort) :
    p.Completes (correlatePort containers p) := by
  unfold correlatePort
  split
  next => exact ⟨rfl, fun _ => rfl⟩
  next hnone =>
    split
    next => exact ⟨rfl, fun hsome => absurd hsome hnone⟩
    next => exact ⟨rfl, fun _ => rfl⟩

theorem completes_rfl (ports : List ProbePort) :
    List.Forall₂ ProbePort.Completes ports ports :=
  List.forall₂_same.mpr fun _ _ => ⟨rfl, fun _ => rfl⟩

theorem Correlation.rows_complete {c : Correlation} {ports rows : List ProbePort} {engine : Bool}
    (h : c.rows ports = some (rows, engine)) : List.Forall₂ ProbePort.Completes ports rows := by
  have hall : ∀ containers, List.Forall₂ ProbePort.Completes ports
      (correlatePortsToContainers ports containers) := by
    intro containers
    rw [correlatePortsToContainers, List.forall₂_map_right_iff]
    exact List.forall₂_same.mpr fun p _ => correlatePort_completes containers p
  unfold Correlation.rows at h
  split at h
  all_goals cases h
  all_goals first | exact hall _ | exact completes_rfl ports

theorem portsLoop_turns (platform : Platform) (panicText : String) :
    Turns (portsLoop platform panicText) (PortsAnswer.poll platform panicText)
      (Event.Correlated platform) := by
  intro s a s' out hc h
  unfold portsLoop at h
  split at h
  next ports hprobe hcorr =>
    simp only [Option.ite_none_left_eq_some] at h
    refine turnOn_listed (Option.some.inj h.2) hc ?_ rfl (.inl rfl)
    simp [PortsAnswer.poll, hprobe, hcorr]
  next ports c hprobe hcorr =>
    simp only [Option.ite_none_right_eq_some] at h
    obtain ⟨⟨hmac, -, -⟩, h⟩ := h
    split at h
    next rows engine hrows =>
      refine turnOn_listed (Option.some.inj h) hc ?_ rfl
        (.inr ⟨hmac, ports, rows, _, rfl, rfl, Correlation.rows_complete hrows⟩)
      simp [PortsAnswer.poll, hprobe, hcorr, hrows]
    next hrows =>
      refine turnOn_panic (Option.some.inj h) hc ?_
      simp [PortsAnswer.poll, hprobe, hcorr, hrows]
  next reason hprobe hcorr =>
    refine turnOn_unavailable (Option.some.inj h) hc ?_ rfl (.inl rfl)
    simp [PortsAnswer.poll, hprobe]
  next e hprobe hcorr =>
    refine turnOn_unavailable (Option.some.inj h) hc ?_ rfl (.inl rfl)
    simp [PortsAnswer.poll, hprobe]
  next => cases h

theorem Event.Correlated.isUnavailable {platform : Platform} {e e' : Event}
    (h : e.Correlated platform e') : e'.isUnavailable = e.isUnavailable := by
  rcases h with rfl | ⟨-, ports, ports', source, rfl, rfl, -⟩
  · rfl
  · rfl

theorem portsLoop_alike (platform : Platform) (text text' : String) (s : Poller × Bool)
    (a : PortsAnswer) : (portsLoop platform text s a).map outcome =
      (portsLoop platform text' s a).map outcome := by
  unfold portsLoop
  split
  next => rfl
  next => rfl
  next => rfl
  next e _ _ => exact congrArg some (outcome_unavailable (e := .portsUnavailable (text ++ e)) rfl)
  next => rfl

theorem processesLoop_alike (text text' : String) (s : Poller × Unit)
    (a : CallAnswer (List ProbeProcess)) :
    (processesLoop text s a).map outcome = (processesLoop text' s a).map outcome := by
  cases a with
  | ok rows => rfl
  | error reason => rfl
  | panicked e =>
    exact congrArg some (outcome_unavailable
      (e := .processesUnavailable (processesBackendText (text ++ e))) rfl)

/-- All six forwarders send a list for each poll that works and one notice for each run of polls
that fail, and the agent's send what the daemon's send but for the reasons. A panic of the probe is
a failed poll; a panic of the engine ends the forwarder. -/
theorem availability_forwarders (platform : Platform) :
    Tracks Client.forwardDocker none DockerAnswer.poll (fun e e' => e' = e) ∧
    Tracks Agent.forwardDocker none DockerAnswer.poll (fun e e' => e' = e) ∧
    SendAlike Client.forwardDocker Agent.forwardDocker none ∧
    Tracks (Client.forwardPorts platform) false
      (PortsAnswer.poll platform "ports probe task panicked: ") (Event.Correlated platform) ∧
    Tracks (Agent.forwardPorts platform) false
      (PortsAnswer.poll platform "agent ports probe task panicked: ") (Event.Correlated platform) ∧
    SendAlike (Client.forwardPorts platform) (Agent.forwardPorts platform) false ∧
    Tracks Client.forwardProcesses () (processesPoll "processes probe task panicked: ")
      (fun e e' => e' = e) ∧
    Tracks Agent.forwardProcesses () (processesPoll "agent processes probe task panicked: ")
      (fun e e' => e' = e) ∧
    SendAlike Client.forwardProcesses Agent.forwardProcesses () := by
  have hdocker : Tracks Client.forwardDocker none DockerAnswer.poll (fun e e' => e' = e) :=
    tracks_of_turns dockerLoop_turns fun _ _ h => by rw [h]
  have hports : ∀ text, Tracks (forwarder false (portsLoop platform text)) false
      (PortsAnswer.poll platform text) (Event.Correlated platform) := fun text =>
    tracks_of_turns (portsLoop_turns platform text) fun _ _ => Event.Correlated.isUnavailable
  have hprocesses : ∀ text, Tracks (forwarder () (processesLoop text)) ()
      (processesPoll text) fun e e' => e' = e := fun text =>
    tracks_of_turns (processesLoop_turns text) fun _ _ h => by rw [h]
  exact ⟨hdocker, hdocker, alike_of_loops fun _ _ => rfl, hports _, hports _,
    alike_of_loops (portsLoop_alike platform _ _), hprocesses _, hprocesses _,
    alike_of_loops (processesLoop_alike _ _)⟩

/-- An engine that comes and goes. -/
example : (Client.forwardDocker.replay Free [] (.fresh, none) ([.connect (.error "no socket"),
    .connect (.error "no socket"), .connect (.ok "unix"), .list "unix" (.ok []),
    .list "unix" (.error "gone"), .connect (.error "no socket")].map .answer)).map Prod.fst =
      some [.dockerUnavailable "no socket", .containerList [] "unix", .dockerUnavailable "gone"] :=
  rfl

/-- A panic of the engine's client is never reported. -/
theorem docker_panic_unreported : ¬ ∀ (answers : List DockerAnswer) (events : List Event)
    (s : Poller × Option String) (a : DockerAnswer),
    Client.forwardDocker.replay Free [] (.fresh, none) (answers.map .answer) = some (events, s) →
    answers.head? = some a → (∀ source, a ≠ .connect (.ok source)) →
    ∃ e, events.head? = some e := by
  intro hall
  obtain ⟨e, he⟩ := hall [.connect (.panicked "index out of bounds")] _ _ _ rfl rfl (by simp)
  cases he

end Tepegoz
