import Tepegoz.Solicited
import Tepegoz.VersionGate

namespace Tepegoz

open Transition

/-- How the TUI is started: `run` takes over a pane that is alive if there is one, `run_connect` opens
its own. -/
structure Launch where
  target : PaneTarget
  reuseAlive : Bool
  cwd : Option String
  rows : Nat
  cols : Nat

def Launch.run (cwd : Option String) (rows cols : Nat) : Launch := ⟨.localTarget, true, cwd, rows, cols⟩

def Launch.runConnect (hostAlias : String) (cwd : Option String) (rows cols : Nat) : Launch :=
  ⟨.remote hostAlias, false, cwd, rows, cols⟩

def Launch.spec (l : Launch) : OpenPaneSpec := ⟨none, l.cwd, [], l.rows, l.cols, l.target⟩

/-- The read that `handshake` and `ensure_pane` wait at, or how they have ended. -/
inductive StartupPhase
  | greeting
  | listing
  | opening
  | attached (info : PaneInfo)
  | refused (error : ErrorInfo)
  | unexpected (other : Payload)
  deriving DecidableEq

def StartupPhase.waits : StartupPhase → Bool
  | .greeting | .listing | .opening => true
  | _ => false

def tuiHello : Envelope := envelope (.hello protocolVersion "tepegoz-tui")

/-- What a reply leads to, with the next request. -/
def Launch.hear (l : Launch) : StartupPhase → Payload → StartupPhase × Option Payload
  | .greeting, .welcome =>
    if l.reuseAlive then (.listing, some .listPanes) else (.opening, some (.openPane l.spec))
  | .listing, .paneList panes =>
    match panes.find? (·.alive) with
    | some info => (.attached info, none)
    | none => (.opening, some (.openPane l.spec))
  | .opening, .paneOpened info => (.attached info, none)
  | .greeting, .error error | .opening, .error error => (.refused error, none)
  | _, other => (.unexpected other, none)

/-- A TUI that starts, the session that serves it, and what is on its way between the two. -/
structure Startup where
  phase : StartupPhase
  requests : List Envelope
  link : ClientLink
  replies : List Envelope

inductive StartupAct
  | serve (panes : PaneAnswers)
  | hear
  | beside (act : Act)

/-- The session read a request, and this is what the pane managers told it. -/
structure ServedRequest where
  request : Payload
  panes : PaneAnswers

def PeerObs.envelopeTo (c : ClientId) : PeerObs Obs → Option Envelope
  | .seen (.toClient c' env _) => if c' = c then some env else none
  | _ => none

namespace Startup

def served (c : ClientId) (s : Startup) (requests : List Envelope) (out : ClientLink × List (PeerObs Obs)) :
    Startup :=
  { s with requests := requests, link := out.1, replies := s.replies ++ out.2.filterMap (·.envelopeTo c) }

/-- `beside` is anything else that goes on in the daemon. -/
def step (l : Launch) (c : ClientId) (s : Startup) : StartupAct → Option (Startup × List ServedRequest)
  | .serve panes =>
    match s.requests with
    | env :: rest => (s.link.step c (.received env panes)).map fun out =>
        (s.served c rest out, [⟨env.payload, panes⟩])
    | [] => none
  | .beside act => (s.link.step c (.beside act)).map fun out => (s.served c s.requests out, [])
  | .hear =>
    if s.phase.waits then
      match s.replies with
      | env :: rest =>
        let (phase, request) := l.hear s.phase env.payload
        some ({ s with
          phase := phase, requests := s.requests ++ request.toList.map envelope, replies := rest }, [])
      | [] => none
    else none

end Startup

/-- The TUI connects to a daemon that starts, or has been serving others. -/
def startup (l : Launch) (c : ClientId) : System Startup StartupAct ServedRequest where
  init s := s = ⟨.greeting, [tuiHello], ⟨.handshake, .initial⟩, []⟩
  step := Startup.step l c

/-- The requests of a TUI that starts. They ask for nothing that lasts. -/
def Payload.passing : Payload → Bool
  | .listPanes | .openPane _ => true
  | _ => false

/-- The client has a session only, and nothing that would send to it by itself. -/
structure Unserved (c : ClientId) (link : ClientLink) : Prop where
  run : ∃ log, Run daemon Free log link.world ∧ ∀ payload, .commanded c payload ∈ log → payload.passing = true
  phase : link.stage ≠ .returned ∧
    (link.world.sessions c).phase = if link.stage = .commands then .ready else .absent

section Unserved

variable {c : ClientId} {link : ClientLink} {w w' : World} {a : Act} {log out : List Obs} {env : Envelope}
  {source : Source}

theorem daemon_next (hr : Run daemon Free log w) (hs : w.step a = some (w', out)) :
    Run daemon Free (log ++ out) w' := hr.next trivial hs

theorem Payload.passing_routed {payload : Payload} (h : payload.passing = true) : payload.routed = none := by
  cases payload <;> first | rfl | cases h

/-- Only the answers to its own commands reach a client that asked for nothing that lasts. -/
theorem Sends.of_passing (hr : Run daemon Free log w)
    (hlog : ∀ payload, .commanded c payload ∈ log → payload.passing = true) (h : Sends w a c env source) :
    ∃ payload panes, a = .command c payload panes := by
  have hcommanded := commanded_of_run hr
  have hl := idLedger_of_run hr
  have hissued : ∀ call, ¬ Issued log c call := by
    rintro call ⟨payload, hm, hrouted⟩
    rw [Payload.passing_routed (hlog payload hm)] at hrouted
    cases hrouted
  have hcalls := callsIssued_of_run hr
  have hentry : ∀ k d entry, (w.conns k).routing.lookup d = some entry → entry.client ≠ c := by
    rintro k d entry he rfl
    obtain ⟨call, hcall, -⟩ := hcalls.entry k d entry (hl.entry _ _ _ he)
    exact hissued call hcall
  have hsub : ∀ sub, .commanded c (.subscribe sub) ∉ log := fun sub hm => by cases hlog _ hm
  cases h with
  | replied => exact ⟨_, _, rfl⟩
  | refused hp | failed hp => exact absurd (hcalls.call _ _ _ hp).1 (hissued _)
  | drained _ he | relayed _ he | answered _ he => exact absurd rfl (hentry _ _ _ he)
  | announced hb => exact absurd (hcommanded.supervisors _ hb) (hsub _)
  | emitted htask => exact absurd (hcommanded.tasks _ _ _ htask) (hsub _)
  | acted hm => cases hlog _ (hcommanded.actions _ _ hm)

theorem envelopeTo_eq_nil {out : List Obs} (h : ∀ env source, .toClient c env source ∉ out) :
    (out.map PeerObs.seen).filterMap (·.envelopeTo c) = [] := by
  rw [List.filterMap_map]
  refine List.filterMap_eq_nil_iff.mpr fun o ho => ?_
  cases o with
  | toClient c' env source =>
    simp only [Function.comp_def, PeerObs.envelopeTo]
    refine if_neg fun hc => ?_
    subst hc
    exact h env source ho
  | _ => rfl

namespace Unserved

variable {link' : ClientLink} {seen : List (PeerObs Obs)}

theorem beside (h : Unserved c link) (hs : link.step c (.beside a) = some (link', seen)) :
    Unserved c link' ∧ link'.stage = link.stage ∧ seen.filterMap (·.envelopeTo c) = [] := by
  obtain ⟨⟨log, hr, hlog⟩, hreturned, hphase⟩ := h
  have hs : (if a.readBy c then none else link.inWorld link.stage a []) = some (link', seen) := hs
  obtain ⟨hread, hs⟩ := Option.ite_none_left_eq_some.mp hs
  obtain ⟨⟨w, out⟩, hstep, heq⟩ := Option.map_eq_some_iff.mp hs
  obtain ⟨rfl, rfl⟩ := Prod.mk.inj heq
  have hrouting := World.routingStep_of_step hstep
  have hcommand : ∀ payload panes, a ≠ .command c payload panes := by
    rintro payload panes rfl
    exact hread (decide_eq_true rfl)
  have hquiet : ∀ payload, .commanded c payload ∉ out := by
    intro payload hm
    obtain ⟨panes, rfl⟩ := hrouting.commanded_cases hm
    exact hcommand _ _ rfl
  have hsession : w.sessions c = link.world.sessions c := by
    by_cases hc : a.client = some c
    · -- Only a call, an unsubscribe or a teardown is left, and the session is at none of these.
      have hidle : (link.world.sessions c).phase = .ready ∨ (link.world.sessions c).phase = .absent := by
        rw [hphase]
        split
        next => exact .inl rfl
        next => exact .inr rfl
      cases a with
      | connect c' | disconnect c' | command c' =>
        exact absurd (decide_eq_true (Option.some.inj hc)) hread
      | route c' | unsubscribe c' | teardown c' =>
        obtain rfl := Option.some.inj hc
        rcases hidle with hp | hp <;> simp [World.step, World.teardownStep, hp] at hstep
      | _ => cases hc
    · exact hrouting.sessions_other hc
  refine ⟨⟨⟨log ++ out, daemon_next hr hstep, fun payload hm => ?_⟩, hreturned, ?_⟩, rfl, ?_⟩
  · rcases List.mem_append.mp hm with hm | hm
    · exact hlog payload hm
    · exact absurd hm (hquiet payload)
  · exact (congrArg Session.phase hsession).trans hphase
  · refine envelopeTo_eq_nil fun env source hm => ?_
    obtain ⟨payload, panes, rfl⟩ := (World.sends_of_step hstep hm).of_passing hr hlog
    exact hcommand _ _ rfl

theorem welcomed (panes : PaneAnswers) (h : Unserved c link) (hstage : link.stage = .handshake) :
    ∃ link' seen, link.step c (.received tuiHello panes) = some (link', seen) ∧ Unserved c link' ∧
      link'.stage = .commands ∧ seen.filterMap (·.envelopeTo c) = [envelope .welcome] := by
  obtain ⟨⟨log, hr, hlog⟩, -, hphase⟩ := h
  have habsent : (link.world.sessions c).phase = .absent := by simpa [hstage] using hphase
  have hstep : link.world.step (.connect c) = some (link.world.setSession c .fresh, []) := if_pos habsent
  have hnext : Run daemon Free (log ++ []) (link.world.setSession c .fresh) :=
    daemon_next hr hstep
  refine ⟨⟨.commands, link.world.setSession c .fresh⟩,
    [.seen (.toClient c (envelope .welcome) .session)], ?_, ⟨⟨_, hnext, ?_⟩, by simp, ?_⟩, rfl, ?_⟩
  · have hwelcomed : handshake tuiHello = .welcomed := by decide
    simp [ClientLink.step, hstage, hwelcomed, ClientLink.inWorld, hstep]
  · rwa [List.append_nil]
  · simp [Session.fresh]
  · simp [PeerObs.envelopeTo]

/-- The session answers a request at once, and is ready for the next. -/
theorem answered (payload : Payload) (panes : PaneAnswers) {reply : Envelope} (h : Unserved c link)
    (hstage : link.stage = .commands) (hpassing : payload.passing = true)
    (hreply : ∀ s task, Session.handleCommand s task panes payload = ⟨s, [reply], none, none⟩) :
    ∃ link' seen, link.step c (.received (envelope payload) panes) = some (link', seen) ∧
      Unserved c link' ∧ link'.stage = .commands ∧ seen.filterMap (·.envelopeTo c) = [reply] := by
  obtain ⟨⟨log, hr, hlog⟩, -, hphase⟩ := h
  have hready : (link.world.sessions c).phase = .ready := by simpa [hstage] using hphase
  have hstep : link.world.step (.command c payload panes) = some
      (((link.world.addTask c none).addAction c none).setSession c (link.world.sessions c),
        [.commanded c payload, .toClient c reply .session]) := by
    simp only [World.step, hready, if_true, hreply]
    rfl
  generalize hw : ((link.world.addTask c none).addAction c none).setSession c (link.world.sessions c) = w
    at hstep
  have hnext : Run daemon Free (log ++ [.commanded c payload, .toClient c reply .session]) w :=
    daemon_next hr hstep
  refine ⟨⟨.commands, w⟩, [.executed (envelope payload), .seen (.commanded c payload),
    .seen (.toClient c reply .session)], ?_, ⟨⟨_, hnext, fun payload' hm => ?_⟩, by simp, ?_⟩, rfl, ?_⟩
  · simp [ClientLink.step, hstage, ClientLink.inWorld, envelope, hstep]
  · rcases List.mem_append.mp hm with hm | hm
    · exact hlog payload' hm
    · simp only [List.mem_cons, Obs.commanded.injEq, true_and, reduceCtorEq, List.not_mem_nil,
        or_false] at hm
      exact hm ▸ hpassing
  · simp [← hw, hready]
  · simp [PeerObs.envelopeTo]

end Unserved

end Unserved

/-- The pane was looked for among those that are alive, where that was wanted, and not found. -/
def Sought (l : Launch) (tr : List ServedRequest) : Prop :=
  l.reuseAlive = false ∧ (∃ panes, tr = [⟨tuiHello.payload, panes⟩]) ∨
    l.reuseAlive = true ∧ ∃ first panes, tr = [⟨tuiHello.payload, first⟩, ⟨.listPanes, panes⟩] ∧
      panes.listed.find? (·.alive) = none

/-- The daemon found a pane that is alive, or opened one as the TUI asked for. -/
def Granted (l : Launch) (tr : List ServedRequest) (info : PaneInfo) : Prop :=
  l.reuseAlive = true ∧ (∃ first panes, tr = [⟨tuiHello.payload, first⟩, ⟨.listPanes, panes⟩] ∧
      panes.listed.find? (·.alive) = some info) ∨
    ∃ before panes, tr = before ++ [⟨.openPane l.spec, panes⟩] ∧ Sought l before ∧ panes.opened = .ok info

def Denied (l : Launch) (tr : List ServedRequest) (error : ErrorInfo) : Prop :=
  ∃ before panes reason, tr = before ++ [⟨.openPane l.spec, panes⟩] ∧ Sought l before ∧
    panes.opened = .error reason ∧ Session.openPaneReply l.spec (.error reason) = envelope (.error error)

/-- The TUI and the session take turns: one request or reply at most is on its way, and it is the one
that is waited for. -/
inductive InStep (l : Launch) : List ServedRequest → StartupPhase → List Envelope → List Envelope →
    SessionStage → Prop
  | hello : InStep l [] .greeting [tuiHello] [] .handshake
  | welcomed (panes : PaneAnswers) :
      InStep l [⟨tuiHello.payload, panes⟩] .greeting [] [envelope .welcome] .commands
  | list (panes : PaneAnswers) : l.reuseAlive = true →
      InStep l [⟨tuiHello.payload, panes⟩] .listing [envelope .listPanes] [] .commands
  | listed (first panes : PaneAnswers) : l.reuseAlive = true →
      InStep l [⟨tuiHello.payload, first⟩, ⟨.listPanes, panes⟩] .listing []
        [envelope (.paneList panes.listed)] .commands
  | ask {tr : List ServedRequest} : Sought l tr →
      InStep l tr .opening [envelope (.openPane l.spec)] [] .commands
  | asked {before : List ServedRequest} (panes : PaneAnswers) : Sought l before →
      InStep l (before ++ [⟨.openPane l.spec, panes⟩]) .opening []
        [Session.openPaneReply l.spec panes.opened] .commands
  | attached {tr : List ServedRequest} {info : PaneInfo} : Granted l tr info →
      InStep l tr (.attached info) [] [] .commands
  | refused {tr : List ServedRequest} {error : ErrorInfo} : Denied l tr error →
      InStep l tr (.refused error) [] [] .commands

structure Startup.Sound (l : Launch) (c : ClientId) (tr : List ServedRequest) (s : Startup) : Prop where
  unserved : Unserved c s.link
  inStep : InStep l tr s.phase s.requests s.replies s.link.stage

section Sound

variable {l : Launch} {c : ClientId} {tr : List ServedRequest} {s s' : Startup} {out : List ServedRequest}

theorem Startup.served_eq (c : ClientId) {phase : StartupPhase} {env reply : Envelope}
    {link link' : ClientLink} {seen : List (PeerObs Obs)} {panes : PaneAnswers}
    (hlink : link.step c (.received env panes) = some (link', seen))
    (hreply : seen.filterMap (·.envelopeTo c) = [reply]) :
    (startup l c).step ⟨phase, [env], link, []⟩ (.serve panes) =
      some (⟨phase, [], link', [reply]⟩, [⟨env.payload, panes⟩]) := by
  simp [startup, Startup.step, hlink, Startup.served, hreply]

/-- A request finds the session ready for it. -/
theorem Startup.Sound.serve (h : s.Sound l c tr) (panes : PaneAnswers) (hne : s.requests ≠ []) :
    ∃ s' out, (startup l c).step s (.serve panes) = some (s', out) ∧ s'.Sound l c (tr ++ out) := by
  obtain ⟨phase, requests, link, replies⟩ := s
  obtain ⟨hunserved, hin⟩ := h
  dsimp only at hunserved hin hne
  generalize hstage : link.stage = stage at hin
  cases hin with
  | hello =>
    obtain ⟨link', seen, hlink, hun, hstage', hreply⟩ := hunserved.welcomed panes hstage
    exact ⟨_, _, Startup.served_eq c hlink hreply, hun, hstage' ▸ .welcomed panes⟩
  | list first hreuse =>
    obtain ⟨link', seen, hlink, hun, hstage', hreply⟩ := hunserved.answered .listPanes
      panes hstage rfl fun _ _ => rfl
    exact ⟨_, _, Startup.served_eq c hlink hreply, hun, hstage' ▸ .listed first panes hreuse⟩
  | ask hsought =>
    obtain ⟨link', seen, hlink, hun, hstage', hreply⟩ := hunserved.answered
      (.openPane l.spec) panes hstage rfl fun _ _ => rfl
    exact ⟨_, _, Startup.served_eq c hlink hreply, hun, hstage' ▸ .asked panes hsought⟩
  | welcomed | listed | asked | attached | refused => exact absurd rfl hne

/-- A reply is the one that is waited for, and asks for the next request or ends the wait. -/
theorem Startup.Sound.hear (h : s.Sound l c tr) (hne : s.replies ≠ []) :
    ∃ s', (startup l c).step s .hear = some (s', []) ∧ s'.Sound l c tr := by
  obtain ⟨phase, requests, link, replies⟩ := s
  obtain ⟨hunserved, hin⟩ := h
  dsimp only at hunserved hin hne
  generalize hstage : link.stage = stage at hin
  cases hin with
  | welcomed first =>
    by_cases hreuse : l.reuseAlive = true
    · refine ⟨⟨.listing, [envelope .listPanes], link, []⟩, ?_, hunserved, hstage ▸ .list first hreuse⟩
      simp [startup, Startup.step, StartupPhase.waits, Launch.hear, envelope, hreuse]
    · rw [Bool.not_eq_true] at hreuse
      refine ⟨⟨.opening, [envelope (.openPane l.spec)], link, []⟩, ?_, hunserved,
        hstage ▸ .ask (.inl ⟨hreuse, first, rfl⟩)⟩
      simp [startup, Startup.step, StartupPhase.waits, Launch.hear, envelope, hreuse]
  | listed first panes hreuse =>
    cases hfound : panes.listed.find? (·.alive) with
    | some info =>
      refine ⟨⟨.attached info, [], link, []⟩, ?_, hunserved,
        hstage ▸ .attached (.inl ⟨hreuse, first, panes, rfl, hfound⟩)⟩
      simp [startup, Startup.step, StartupPhase.waits, Launch.hear, envelope, hfound]
    | none =>
      refine ⟨⟨.opening, [envelope (.openPane l.spec)], link, []⟩, ?_, hunserved,
        hstage ▸ .ask (.inr ⟨hreuse, first, panes, rfl, hfound⟩)⟩
      simp [startup, Startup.step, StartupPhase.waits, Launch.hear, envelope, hfound]
  | @asked before panes hsought =>
    cases hopened : panes.opened with
    | ok info =>
      refine ⟨⟨.attached info, [], link, []⟩, ?_, hunserved,
        hstage ▸ .attached (.inr ⟨before, panes, rfl, hsought, hopened⟩)⟩
      simp [startup, Startup.step, StartupPhase.waits, Launch.hear, envelope, Session.openPaneReply]
    | error reason =>
      obtain ⟨error, herror⟩ : ∃ error, Session.openPaneReply l.spec (.error reason) =
          envelope (.error error) := by
        unfold Session.openPaneReply
        cases l.spec.target <;> exact ⟨_, rfl⟩
      refine ⟨⟨.refused error, [], link, []⟩, ?_, hunserved,
        hstage ▸ .refused ⟨before, panes, reason, rfl, hsought, hopened, herror⟩⟩
      simp [startup, Startup.step, StartupPhase.waits, Launch.hear, herror, envelope]
  | hello | list | ask | attached | refused => exact absurd rfl hne

theorem Startup.Sound.beside {act : Act} (h : s.Sound l c tr)
    (hstep : (startup l c).step s (.beside act) = some (s', out)) : s'.Sound l c (tr ++ out) := by
  obtain ⟨⟨link, seen⟩, hlink, heq⟩ := Option.map_eq_some_iff.mp hstep
  obtain ⟨rfl, rfl⟩ := Prod.mk.inj heq
  obtain ⟨hunserved, hstage, hnone⟩ := h.unserved.beside hlink
  refine ⟨hunserved, ?_⟩
  simpa [Startup.served, hstage, hnone] using h.inStep

theorem startup_sound (h : Run (startup l c) Free tr s) : s.Sound l c tr := by
  refine h.invariant (I := fun tr s => s.Sound l c tr) ?_ ?_
  · rintro s rfl
    exact ⟨⟨⟨[], .start rfl, by simp⟩, by simp, rfl⟩, .hello⟩
  · rintro tr s act s' out - hsound - hstep
    cases act with
    | serve panes =>
      have hne : s.requests ≠ [] := by
        intro hnil
        simp [startup, Startup.step, hnil] at hstep
      obtain ⟨s₁, out₁, hstep₁, hsound₁⟩ := hsound.serve panes hne
      obtain ⟨rfl, rfl⟩ := Prod.mk.inj (Option.some.inj (hstep₁.symm.trans hstep))
      exact hsound₁
    | hear =>
      have hne : s.replies ≠ [] := by
        intro hnil
        simp [startup, Startup.step, hnil] at hstep
      obtain ⟨s₁, hstep₁, hsound₁⟩ := hsound.hear hne
      obtain ⟨rfl, rfl⟩ := Prod.mk.inj (Option.some.inj (hstep₁.symm.trans hstep))
      rwa [List.append_nil]
    | beside act => exact hsound.beside hstep

end Sound

/-- Whatever else the daemon does, a TUI that starts hears only the reply it waits for. It ends with a
pane that the daemon granted it and a session that is ready with nothing in flight, or with the reason why
no pane was opened. Until then the session has a request of it to serve, or it has a reply to hear. -/
theorem startup_granted {l : Launch} {c : ClientId} {tr : List ServedRequest} {s : Startup}
    (h : Run (startup l c) Free tr s) :
    (∀ other, s.phase ≠ .unexpected other) ∧
    (∀ info, s.phase = .attached info → Granted l tr info ∧ s.requests = [] ∧ s.replies = [] ∧
      s.link.stage = .commands ∧ (s.link.world.sessions c).phase = .ready) ∧
    (∀ error, s.phase = .refused error → Denied l tr error) ∧
    (s.phase.waits = true → (∀ panes, ((startup l c).step s (.serve panes)).isSome) ∨
      ((startup l c).step s .hear).isSome) := by
  have hsound := startup_sound h
  obtain ⟨-, hphase⟩ := hsound.unserved.phase
  have hserve : s.requests ≠ [] → ∀ panes, ((startup l c).step s (.serve panes)).isSome := by
    intro hne panes
    obtain ⟨s', out, hstep, -⟩ := hsound.serve panes hne
    rw [hstep]
    rfl
  have hhear : s.replies ≠ [] → ((startup l c).step s .hear).isSome := by
    intro hne
    obtain ⟨s', hstep, -⟩ := hsound.hear hne
    rw [hstep]
    rfl
  have hin := hsound.inStep
  generalize s.phase = phase at hin
  generalize hrequests : s.requests = requests at hin
  generalize hreplies : s.replies = replies at hin
  generalize hstage : s.link.stage = stage at hin
  rw [hstage] at hphase
  refine ⟨?_, ?_, ?_, fun hwaits => ?_⟩
  · rintro other rfl
    cases hin
  · rintro info rfl
    cases hin with
    | attached hgranted => exact ⟨hgranted, rfl, rfl, rfl, hphase⟩
  · rintro error rfl
    cases hin with
    | refused hdenied => exact hdenied
  · cases hin with
    | hello | list | ask => exact .inl (hserve (by simp [hrequests]))
    | welcomed | listed | asked => exact .inr (hhear (by simp [hreplies]))
    | attached | refused => cases hwaits

/-- Another client is there, and the pane it has closed is still listed. -/
theorem startup_granted_opened : ∃ tr s, Run (startup (.run none 40 120) 0) Free tr s ∧
    s.phase = .attached ⟨2, 40, 120, "/bin/zsh", true⟩ ∧
      Granted (.run none 40 120) tr ⟨2, 40, 120, "/bin/zsh", true⟩ ∧ s.replies = [] := by
  obtain ⟨tr, s, hr, hs⟩ := Run.of_replay (startup (.run none 40 120) 0) Free
    (fun _ s => s.phase = .attached ⟨2, 40, 120, "/bin/zsh", true⟩) rfl
    [.beside (.connect 1), .serve .none, .beside (.command 1 (.subscribe (.fleet 1)) .none), .hear,
      .serve { PaneAnswers.none with listed := [⟨1, 40, 120, "/bin/zsh", false⟩] }, .hear,
      .serve { PaneAnswers.none with opened := .ok ⟨2, 40, 120, "/bin/zsh", true⟩ },
      .beside (.command 1 (.unsubscribe 1) .none), .hear] (by decide +kernel)
  obtain ⟨hgranted, -, hreplies, -⟩ := (startup_granted hr).2.1 _ hs
  exact ⟨tr, s, hr, hs, hgranted, hreplies⟩

end Tepegoz
