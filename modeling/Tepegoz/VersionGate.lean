import Tepegoz.Daemon

namespace Tepegoz

open Transition

/-- What happens at a peer that reads envelopes from a connection: it reads one, with the answer of
its surroundings to it, the reads end, or something goes on beside them. -/
inductive PeerAct (Answer Beside : Type)
  | received (env : Envelope) (answer : Answer)
  | closed
  | beside (act : Beside)

/-- `executed` is an envelope whose payload was dispatched. -/
inductive PeerObs (Seen : Type)
  | executed (env : Envelope)
  | seen (obs : Seen)
  deriving DecidableEq

section Gate

variable {State Answer Beside Seen : Type}

def received (acts : List (PeerAct Answer Beside)) : List Envelope :=
  acts.filterMap fun
    | .received env _ => some env
    | _ => none

@[simp] theorem received_received {env : Envelope} {answer : Answer}
    {acts : List (PeerAct Answer Beside)} :
    received (.received env answer :: acts) = env :: received acts := rfl

@[simp] theorem received_closed {acts : List (PeerAct Answer Beside)} :
    received (.closed :: acts) = received acts := rfl

@[simp] theorem received_beside {act : Beside} {acts : List (PeerAct Answer Beside)} :
    received (.beside act :: acts) = received acts := rfl

/-- At most the payload differs, and that only under a version other than the peer's. -/
inductive SameUpToRejected : PeerAct Answer Beside → PeerAct Answer Beside → Prop
  | same (act) : SameUpToRejected act act
  | payload {version payload payload' answer answer'} : version ≠ protocolVersion →
      SameUpToRejected (.received ⟨version, payload⟩ answer) (.received ⟨version, payload'⟩ answer')

/-- No command of a wrong version was executed in what a peer was played from `s` to `t`, and the
payloads of such envelopes had no part in it. -/
structure VersionGated (M : System State (PeerAct Answer Beside) (PeerObs Seen)) (s : State)
    (acts : List (PeerAct Answer Beside)) (tr : List (PeerObs Seen)) (t : State) : Prop where
  executed : ∀ env, .executed env ∈ tr → env.version = protocolVersion
  payloads : ∀ acts', List.Forall₂ SameUpToRejected acts acts' →
    M.replay Free [] s acts' = some (tr, t)

end Gate

/-! The daemon's client session. -/

/-- What `session` makes of the first envelope. -/
inductive Handshake
  | refused (info : ErrorInfo)
  | unexpected
  | welcomed
  deriving DecidableEq

def handshake (hello : Envelope) : Handshake :=
  if hello.version ≠ protocolVersion then
    .refused ⟨.versionMismatch, "envelope protocol v" ++ toString hello.version ++
      " is not supported (daemon speaks v" ++ toString protocolVersion ++
      "); upgrade your client"⟩
  else match hello.payload with
    | .hello clientVersion _ =>
      if clientVersion ≠ protocolVersion then
        .refused ⟨.versionMismatch, "client v" ++ toString clientVersion ++
          " not supported (daemon speaks v" ++ toString protocolVersion ++
          "); upgrade your client"⟩
      else .welcomed
    | _ => .unexpected

inductive SessionStage
  | handshake
  | commands
  | returned
  deriving DecidableEq

/-- One connection of a client, in the daemon that serves it. -/
structure ClientLink where
  stage : SessionStage
  world : World

/-- The acts of the daemon that its session for `c` takes at its own reads. -/
def Act.readBy (c : ClientId) : Act → Bool
  | .connect c' | .command c' _ _ | .disconnect c' => c' = c
  | _ => false

namespace ClientLink

def inWorld (s : ClientLink) (stage : SessionStage) (act : Act) (first : List (PeerObs Obs)) :
    Option (ClientLink × List (PeerObs Obs)) :=
  (s.world.step act).map fun r => (⟨stage, r.1⟩, first ++ r.2.map .seen)

/-- `session` for client `c`. The version of an envelope is looked at in the handshake only. -/
def step (c : ClientId) (s : ClientLink) :
    PeerAct PaneAnswers Act → Option (ClientLink × List (PeerObs Obs))
  | .received env panes =>
    match s.stage with
    | .handshake =>
      match Tepegoz.handshake env with
      | .refused info => some ({ s with stage := .returned },
          [.seen (.toClient c (envelope (.error info)) .session)])
      | .unexpected => some ({ s with stage := .returned }, [])
      | .welcomed =>
        s.inWorld .commands (.connect c) [.seen (.toClient c (envelope .welcome) .session)]
    | .commands => s.inWorld .commands (.command c env.payload panes) [.executed env]
    | .returned => none
  | .closed =>
    match s.stage with
    | .handshake => some ({ s with stage := .returned }, [])
    | .commands => s.inWorld .returned (.disconnect c) []
    | .returned => none
  | .beside act => if act.readBy c then none else s.inWorld s.stage act []

theorem inWorld_eq_some {s s' : ClientLink} {stage : SessionStage} {act : Act}
    {first out : List (PeerObs Obs)} (h : s.inWorld stage act first = some (s', out)) :
    s'.stage = stage ∧ ∃ seen : List Obs, out = first ++ seen.map .seen := by
  obtain ⟨r, -, hr⟩ := Option.map_eq_some_iff.mp h
  cases hr
  exact ⟨rfl, r.2, rfl⟩

end ClientLink

def clientSession (c : ClientId) (w : World) :
    System ClientLink (PeerAct PaneAnswers Act) (PeerObs Obs) :=
  ⟨(· = ⟨.handshake, w⟩), ClientLink.step c⟩

/-- Once the first envelope is welcomed as a `Hello`, all that follow it are of this version. -/
def CurrentAfterHello : List Envelope → Prop
  | [] => True
  | hello :: rest => handshake hello = .welcomed → ∀ env ∈ rest, env.version = protocolVersion

namespace ClientLink

/-- What is still to be read has no envelope that the loop must not dispatch. -/
def Cleared (s : ClientLink) (acts : List (PeerAct PaneAnswers Act)) : Prop :=
  match s.stage with
  | .handshake => CurrentAfterHello (received acts)
  | .commands => ∀ env ∈ received acts, env.version = protocolVersion
  | .returned => True

variable {c : ClientId}

/-- What one step does to the stage, and what it executes. -/
inductive StepEffect (s : ClientLink) :
    PeerAct PaneAnswers Act → ClientLink → List (PeerObs Obs) → Prop
  | refused {env panes s'} (seen) : s.stage = .handshake → handshake env ≠ .welcomed →
      s'.stage = .returned → StepEffect s (.received env panes) s' (List.map .seen seen)
  | welcomed {env panes s'} (seen) : s.stage = .handshake → handshake env = .welcomed →
      s'.stage = .commands → StepEffect s (.received env panes) s' (List.map .seen seen)
  | dispatched {env panes s'} (seen) : s.stage = .commands → s'.stage = .commands →
      StepEffect s (.received env panes) s' (.executed env :: List.map .seen seen)
  | closed {s'} (seen) : s'.stage = .returned → StepEffect s .closed s' (List.map .seen seen)
  | beside {act s'} (seen) : s'.stage = s.stage → StepEffect s (.beside act) s' (List.map .seen seen)

theorem stepEffect {s s' : ClientLink} {act : PeerAct PaneAnswers Act} {out : List (PeerObs Obs)}
    (h : s.step c act = some (s', out)) : StepEffect s act s' out := by
  cases act with
  | received env panes =>
    simp only [step] at h
    split at h
    next hs =>
      split at h
      next info hw =>
        cases h
        exact .refused [_] hs (by simp [hw]) rfl
      next hw =>
        cases h
        exact .refused [] hs (by simp [hw]) rfl
      next hw =>
        obtain ⟨hs', seen, rfl⟩ := inWorld_eq_some h
        exact .welcomed (_ :: seen) hs hw hs'
    next hs =>
      obtain ⟨hs', seen, rfl⟩ := inWorld_eq_some h
      exact .dispatched seen hs hs'
    next => cases h
  | closed =>
    simp only [step] at h
    split at h
    next =>
      cases h
      exact .closed [] rfl
    next =>
      obtain ⟨hs', seen, rfl⟩ := inWorld_eq_some h
      exact .closed seen hs'
    next => cases h
  | beside act =>
    simp only [step] at h
    split at h
    next => cases h
    next =>
      obtain ⟨hs', seen, rfl⟩ := inWorld_eq_some h
      exact .beside seen hs'

theorem cleared_step {s s' : ClientLink} {act : PeerAct PaneAnswers Act}
    {acts : List (PeerAct PaneAnswers Act)} {out : List (PeerObs Obs)}
    (hc : s.Cleared (act :: acts)) (h : s.step c act = some (s', out)) : s'.Cleared acts := by
  unfold Cleared at hc ⊢
  cases stepEffect h with
  | refused _ _ _ hs' => rw [hs']; trivial
  | welcomed _ hs hw hs' =>
    rw [hs] at hc
    rw [hs']
    exact hc hw
  | dispatched _ hs hs' =>
    rw [hs] at hc
    rw [hs']
    exact fun env henv => hc env (List.mem_cons_of_mem _ henv)
  | closed _ hs' => rw [hs']; trivial
  | beside _ hs' => rwa [hs']

theorem executed_step {s s' : ClientLink} {act : PeerAct PaneAnswers Act}
    {acts : List (PeerAct PaneAnswers Act)} {out : List (PeerObs Obs)}
    (hc : s.Cleared (act :: acts)) (h : s.step c act = some (s', out)) :
    ∀ o ∈ out, ∀ env, o = .executed env → env.version = protocolVersion := by
  rintro o ho env rfl
  cases stepEffect h with
  | refused | welcomed | closed | beside => simp at ho
  | @dispatched env' _ _ _ hs =>
    have henv : env = env' := by simpa using ho
    subst henv
    simp only [Cleared, hs] at hc
    exact hc env (by simp)

theorem handshake_of_version {version : Nat} (h : version ≠ protocolVersion)
    (payload payload' : Payload) :
    handshake ⟨version, payload⟩ = handshake ⟨version, payload'⟩ := by
  rw [handshake, if_pos h, handshake, if_pos h]

theorem step_alike {s : ClientLink} {act act' : PeerAct PaneAnswers Act}
    {acts : List (PeerAct PaneAnswers Act)} (hc : s.Cleared (act :: acts))
    (h : SameUpToRejected act act') : s.step c act' = s.step c act := by
  cases h with
  | same => rfl
  | @payload version payload payload' answer answer' hv =>
    simp only [step]
    split
    next => rw [handshake_of_version hv payload' payload]
    next hs =>
      simp only [Cleared, hs] at hc
      exact absurd (hc ⟨version, payload⟩ (by simp)) hv
    next => rfl

/-- In the loop every envelope that is read is executed. -/
theorem executed_of_received {s : ClientLink} {acts : List (PeerAct PaneAnswers Act)}
    {tr tr' : List (PeerObs Obs)} {t : ClientLink} {w : World} (hs : s.stage ≠ .handshake)
    (h : (clientSession c w).replay Free tr s acts = some (tr', t)) :
    ∀ env ∈ received acts, .executed env ∈ tr' := by
  induction acts generalizing tr s with
  | nil => simp [received]
  | cons act acts ih =>
    rw [System.replay_cons] at h
    split at h
    next s' out hstep =>
      cases stepEffect hstep with
      | refused _ hs₀ | welcomed _ hs₀ => exact absurd hs₀ hs
      | dispatched _ _ hs' =>
        intro env henv
        rcases List.mem_cons.mp henv with rfl | henv
        · exact System.mem_of_replay h (by simp)
        · exact ih (by simp [hs']) h env henv
      | closed _ hs' => exact ih (by simp [hs']) h
      | beside _ hs' => exact ih (by rwa [hs']) h
    next => cases h

/-- The first envelope is welcomed and a later one has another version: that one is executed. -/
theorem currentAfterHello_of_executed {s : ClientLink} {acts : List (PeerAct PaneAnswers Act)}
    {tr tr' : List (PeerObs Obs)} {t : ClientLink} {w : World} (hs : s.stage = .handshake)
    (h : (clientSession c w).replay Free tr s acts = some (tr', t))
    (hex : ∀ env, .executed env ∈ tr' → env.version = protocolVersion) :
    CurrentAfterHello (received acts) := by
  induction acts generalizing tr s with
  | nil => trivial
  | cons act acts ih =>
    rw [System.replay_cons] at h
    split at h
    next s' out hstep =>
      cases stepEffect hstep with
      | refused _ _ hw => exact fun hw' => absurd hw' hw
      | welcomed _ _ _ hs' =>
        exact fun _ env henv => hex env (executed_of_received (by simp [hs']) h env henv)
      | dispatched _ hs₀ => simp [hs] at hs₀
      | closed _ hs' =>
        have hrest := executed_of_received (by simp [hs']) h
        rw [received_closed]
        cases hacts : received acts with
        | nil => trivial
        | cons hello rest =>
          rw [hacts] at hrest
          exact fun _ env henv => hex env (hrest env (List.mem_cons_of_mem _ henv))
      | beside _ hs' => exact ih (by rw [hs', hs]) h
    next => cases h

theorem versionGated_iff {w : World} {acts : List (PeerAct PaneAnswers Act)}
    {tr : List (PeerObs Obs)} {t : ClientLink}
    (h : (clientSession c w).replay Free [] ⟨.handshake, w⟩ acts = some (tr, t)) :
    VersionGated (clientSession c w) ⟨.handshake, w⟩ acts tr t ↔
      CurrentAfterHello (received acts) := by
  constructor
  · intro hg
    exact currentAfterHello_of_executed rfl h hg.executed
  · intro hc
    have hI : (⟨.handshake, w⟩ : ClientLink).Cleared acts := hc
    constructor
    · intro env henv
      exact System.replay_observed (M := clientSession c w) (fun _ _ _ _ _ => cleared_step)
        (fun _ _ _ _ _ => executed_step) hI h (by simp) _ henv env rfl
    · intro acts' halike
      rw [System.replay_alike (fun _ _ _ _ _ => cleared_step) (fun _ _ _ _ => step_alike) hI
        halike, h]

end ClientLink

/-! The agent. -/

/-- `std::env::consts` of the build. -/
structure AgentBuild where
  os : String
  arch : String

/-- `probe_capabilities`, with whether the Docker engine can be reached. -/
def probeCapabilities (docker : Bool) : List String :=
  (if docker then ["docker"] else []) ++ ["ports", "processes"]

/-- The locals of `serve`. A forwarder runs as long as it is in `agentSubs`; `actions` are the tasks
spawned for Docker actions, which nothing aborts. -/
structure AgentServe where
  reading : Bool
  agentSubs : IdMap Subscription
  actions : List DockerActionRequest

inductive AgentAct
  | emit (sub : Subscription) (event : Event)
  | acted (req : DockerActionRequest) (outcome : DockerActionOutcome)

namespace AgentServe

def fresh : AgentServe := ⟨true, ∅, []⟩

def unhandled : Envelope :=
  envelope (.error ⟨.invalidRequest, "agent v" ++ toString protocolVersion ++
    " does not handle this payload in Slice 6c-proper"⟩)

def handleEnvelope (build : AgentBuild) (docker : Bool) (s : AgentServe) :
    Payload → AgentServe × List Envelope
  | .agentHandshake requestId =>
    (s, [envelope (.agentHandshakeResponse requestId protocolVersion build.os build.arch
      (probeCapabilities docker))])
  | .ping => (s, [envelope .pong])
  | .subscribe sub =>
    match sub with
    | .docker id _ | .dockerLogs id _ _ _ _ | .dockerStats id _ _ | .ports id _ | .processes id _ =>
      ({ s with agentSubs := s.agentSubs.insert id sub }, [])
    | .status _ | .fleet _ => (s, [unhandled])
  | .unsubscribe id => ({ s with agentSubs := s.agentSubs.erase id }, [])
  | .dockerAction req => ({ s with actions := req :: s.actions }, [])
  | _ => (s, [unhandled])

def versionMismatch (version : Nat) : Envelope :=
  envelope (.error ⟨.versionMismatch, "agent built for wire v" ++ toString protocolVersion ++
    ", controller sent v" ++ toString version⟩)

/-- The loop of `serve` was left and every forwarder is aborted. -/
def close (s : AgentServe) : AgentServe := { s with reading := false, agentSubs := ∅ }

def step (build : AgentBuild) (s : AgentServe) :
    PeerAct Bool AgentAct → Option (AgentServe × List (PeerObs Envelope))
  | .received env docker =>
    if s.reading then
      if env.version ≠ protocolVersion then some (s.close, [.seen (versionMismatch env.version)])
      else
        let handled := s.handleEnvelope build docker env.payload
        some (handled.1, .executed env :: handled.2.map .seen)
    else none
  | .closed => if s.reading then some (s.close, []) else none
  | .beside (.emit sub event) =>
    if s.agentSubs.lookup sub.id = some sub ∧ sub.mayEmit event then
      some (s, [.seen (eventFrame sub.id event)])
    else none
  | .beside (.acted req outcome) =>
    if req ∈ s.actions then
      some ({ s with actions := s.actions.erase req }, [.seen (World.runDockerAction req outcome)])
    else none

end AgentServe

def agentServe (build : AgentBuild) : System AgentServe (PeerAct Bool AgentAct) (PeerObs Envelope) :=
  ⟨(· = .fresh), AgentServe.step build⟩

namespace AgentServe

variable {build : AgentBuild}

theorem executed_step {s s' : AgentServe} {act : PeerAct Bool AgentAct}
    {out : List (PeerObs Envelope)} (h : s.step build act = some (s', out)) :
    ∀ o ∈ out, ∀ env, o = .executed env → env.version = protocolVersion := by
  rintro o ho env rfl
  unfold step at h
  split at h
  next env' docker =>
    split at h
    next =>
      split at h
      next => cases h; simp at ho
      next hv =>
        cases h
        have henv : env = env' := by simpa using ho
        rw [henv]
        exact not_not.mp hv
    next => cases h
  all_goals
    split at h
    next => cases h; simp at ho
    next => cases h

theorem step_alike {s : AgentServe} {act act' : PeerAct Bool AgentAct}
    (h : SameUpToRejected act act') : s.step build act' = s.step build act := by
  cases h with
  | same => rfl
  | payload hv => simp only [step, if_pos hv]

theorem versionGated {acts : List (PeerAct Bool AgentAct)} {tr : List (PeerObs Envelope)}
    {t : AgentServe} (h : (agentServe build).replay Free [] .fresh acts = some (tr, t)) :
    VersionGated (agentServe build) .fresh acts tr t := by
  constructor
  · intro env henv
    exact System.replay_observed (M := agentServe build) (I := fun _ _ => True)
      (fun _ _ _ _ _ _ _ => trivial) (fun _ _ _ _ _ _ => executed_step) trivial h (by simp)
      _ henv env rfl
  · intro acts' halike
    rw [System.replay_alike (I := fun _ _ => True) (fun _ _ _ _ _ _ _ => trivial)
      (fun _ _ _ _ _ => step_alike) trivial halike, h]

end AgentServe

/-- The agent keeps the version policy on every envelope. The daemon checks it at the handshake
only, and keeps it exactly on the connections whose later envelopes all carry its version. -/
theorem version_gate (build : AgentBuild) (c : ClientId) (w : World) :
    (∀ acts tr t, (agentServe build).replay Free [] .fresh acts = some (tr, t) →
      VersionGated (agentServe build) .fresh acts tr t) ∧
    ∀ acts tr t, (clientSession c w).replay Free [] ⟨.handshake, w⟩ acts = some (tr, t) →
      (VersionGated (clientSession c w) ⟨.handshake, w⟩ acts tr t ↔
        CurrentAfterHello (received acts)) :=
  ⟨fun _ _ _ => AgentServe.versionGated, fun _ _ _ => ClientLink.versionGated_iff⟩

theorem version_gate_refused :
    (∃ tr t, VersionGated (agentServe ⟨"linux", "x86_64"⟩) .fresh
      [.received ⟨11, .dockerAction ⟨1, "db", .stop, .localTarget⟩⟩ true] tr t) ∧
    ∃ tr t, VersionGated (clientSession 0 .initial) ⟨.handshake, .initial⟩
      [.received (envelope (.hello protocolVersion "tui")) .none,
        .received (envelope .ping) .none] tr t := by
  have hgate := version_gate ⟨"linux", "x86_64"⟩ 0 .initial
  exact ⟨⟨_, _, hgate.1 _ _ _ rfl⟩, ⟨_, _, (hgate.2 _ _ _ rfl).mpr fun _ => by simp [envelope]⟩⟩

/-- A client that said hello in this version goes on in another, and its subscription is made. -/
theorem later_version_executed :
    ∃ acts tr t, (clientSession 0 .initial).replay Free [] ⟨.handshake, .initial⟩ acts =
        some (tr, t) ∧
      .executed ⟨11, .subscribe (.status 1)⟩ ∈ tr ∧
      ¬ VersionGated (clientSession 0 .initial) ⟨.handshake, .initial⟩ acts tr t := by
  refine ⟨[.received (envelope (.hello protocolVersion "tui")) .none,
    .received ⟨11, .subscribe (.status 1)⟩ .none], _, _, rfl, by decide, ?_⟩
  intro h
  have hversion := h.executed ⟨11, .subscribe (.status 1)⟩ (by decide)
  exact absurd hversion (by decide)

end Tepegoz
