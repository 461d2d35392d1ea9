import Tepegoz.Deliveries
import Tepegoz.Tui.Moves
import Tepegoz.Tui.PaneStack

namespace Tepegoz

open Transition

/-- A command on its way to the daemon; an `OpenPane` with the entry that was pushed for it. -/
structure Request where
  payload : Payload
  opener : Option PendingOpen
  deriving DecidableEq

/-- An envelope on its way to the app, with the `OpenPane` that it answers. -/
structure Reply where
  env : Envelope
  cause : Option (OpenPaneSpec × PendingOpen)
  deriving DecidableEq

def Request.cause (r : Request) : Option (OpenPaneSpec × PendingOpen) :=
  match r.payload, r.opener with
  | .openPane spec, some pending => some (spec, pending)
  | _, _ => none

/-- The commands of a turn, each `OpenPane` with its own entry: a handler pushes the entry right before
it sends the command. -/
def tagOpens : List PendingOpen → List Payload → List Request
  | pending :: others, .openPane spec :: rest => ⟨.openPane spec, some pending⟩ :: tagOpens others rest
  | pendings, payload :: rest => ⟨payload, none⟩ :: tagOpens pendings rest
  | _, [] => []

/-- The app, the daemon that serves it and what is in flight between them, oldest first. -/
structure Wire where
  app : App
  requests : List Request
  world : World
  replies : List Reply

inductive WireAct
  | user (m : Moment) (event : AppEvent)
  | receive (m : Moment)
  | daemon (a : Act)
  | other (env : Envelope)

/-- A reply was handled. -/
structure Received where
  reply : Reply
  before : App
  after : Turn

/-- Answers of forwarders and of the tasks that carry out actions. -/
def Payload.fromTask : Payload → Bool
  | .event _ _ | .dockerActionResult _ | .fleetActionResult _ => true
  | _ => false

def envelopesTo (c : ClientId) (out : List Obs) : List Envelope :=
  out.filterMap fun
    | .toClient c' env _ => if c' = c then some env else none
    | _ => none

namespace Wire

def handle (s : Wire) (t : Turn) : Wire := { s with
  app := t.app
  requests := s.requests ++ tagOpens (t.app.pendingOpens.drop s.app.pendingOpens.length)
    (t.actions.filterMap (·.command)) }

/-- The session of the app takes the commands in order. -/
def take (c : ClientId) (s : Wire) : Act → Option (List Request × Option (OpenPaneSpec × PendingOpen))
  | .command c' payload _ =>
    if c' = c then
      match s.requests with
      | r :: rest => if r.payload = payload then some (rest, r.cause) else none
      | [] => none
    else some (s.requests, none)
  | _ => some (s.requests, none)

def step (text : TextOps) (c : ClientId) (s : Wire) : WireAct → Option (Wire × List Received)
  | .user _ (.daemonEnvelope _) => none
  | .user m event => (s.app.handleEvent text m event).map fun t => (s.handle t, [])
  | .receive m =>
    match s.replies with
    | r :: rest => (s.app.handleEvent text m (.daemonEnvelope r.env)).map fun t =>
        ({ s.handle t with replies := rest }, [⟨r, s.app, t⟩])
    | [] => none
  | .daemon a => do
    let taken ← s.take c a
    let next ← s.world.step a
    some ({ s with
      requests := taken.1, world := next.1
      replies := s.replies ++ (envelopesTo c next.2).map (⟨·, taken.2⟩) }, [])
  | .other env =>
    if env.payload.fromTask then some ({ s with replies := s.replies ++ [⟨env, none⟩] }, []) else none

end Wire

/-- Client `c` of a daemon that was just started is a fresh app. -/
def wire (text : TextOps) (c : ClientId) : System Wire WireAct Received where
  init s := s.world = .initial ∧ s.replies = [] ∧ (∃ pane shell rows cols,
    App.new pane shell rows cols = some s.app) ∧ ∃ actions, s.app.initialActions = some actions ∧
      s.requests = tagOpens [] (actions.filterMap (·.command))
  step := Wire.step text c

/-- The answers to an `OpenPane`, as the app tells them. -/
def Envelope.answersOpen (env : Envelope) : Bool :=
  match env.payload with
  | .paneOpened _ => true
  | .error info => Turn.isOpenFailure info
  | _ => false

/-- How a toast calls the host of a pane. -/
def PaneTarget.name : PaneTarget → String
  | .localTarget => "local"
  | .remote hostAlias => hostAlias

namespace Received

/-- A reply to an `OpenPane` consumed the entry of that very command, for its pane or its toast; another
envelope consumed none. -/
def Matched (o : Received) : Prop :=
  match o.reply.cause with
  | some (spec, pending) =>
    spec.target = pending.target ∧ o.before.pendingOpens = pending :: o.after.app.pendingOpens ∧
      match o.reply.env.payload with
      | .paneOpened info =>
        o.after.app.core.panes = o.before.core.panes ++ [(info.id, pending.subId)] ∧
          .sendEnvelope (envelope (.attachPane info.id pending.subId)) ∈ o.after.actions
      | .error info =>
        o.after.app.core.panes = o.before.core.panes ∧ .showToast .error
          ("open pane " ++ spec.target.name ++ " failed: " ++ info.message) ∈ o.after.actions
      | _ => False
  | none =>
    o.after.app.pendingOpens = o.before.pendingOpens ∧
      (∀ p ∈ o.after.app.core.panes, p ∈ o.before.core.panes) ∧ o.reply.env.answersOpen = false

/-- The reply opened the pane, under the sub id of the request. -/
def Attached (pane : PaneId × Nat) (o : Received) : Prop :=
  ∃ spec pending info, o.reply.cause = some (spec, pending) ∧
    o.reply.env.payload = .paneOpened info ∧ pane = (info.id, pending.subId)

end Received

/-- The targets of the panes that commands ask for. -/
def openTargets (payloads : List Payload) : List PaneTarget :=
  payloads.filterMap fun
    | .openPane spec => some spec.target
    | _ => none

theorem Core.Move.keeps_pending {causes : Set Cause} {c c' : Core} (ha : .answer ∉ causes)
    (h : Move causes c c') : c'.pendingOpens = c.pendingOpens := by
  cases h with
  | paneAnswered _ hc => exact absurd hc ha
  | openFailed hc => exact absurd hc ha
  | _ => rfl

theorem Core.Move.old_panes {causes : Set Cause} {c c' : Core} (ha : .answer ∉ causes)
    (h : Move causes c c') : ∀ p ∈ c'.panes, p ∈ c.panes := by
  cases h with
  | paneDropped idx => exact fun p hp => List.mem_of_mem_eraseIdx hp
  | paneAnswered _ hc => exact absurd hc ha
  | _ => exact fun p hp => hp

namespace Turn

variable {text : TextOps} {m : Moment} {causes : Set Cause} {t u : Turn}

theorem openTargets_quiet {action : AppAction} (h : action.asks = false) :
    openTargets ([action].filterMap (·.command)) = [] := by
  cases action with
  | sendEnvelope env =>
    obtain ⟨version, payload⟩ := env
    cases payload with
    | openPane spec => cases h
    | _ => rfl
  | _ => rfl

/-- Every `OpenPane` comes with an entry for it, in order. -/
theorem Moves.opens (ha : .answer ∉ causes) (h : Moves causes t u) : ∃ new out,
    u.app.core.pendingOpens = t.app.core.pendingOpens ++ new ∧ u.actions = t.actions ++ out ∧
      openTargets (out.filterMap (·.command)) = new.map (·.target) ∧
        (.input ∉ causes → new = []) := by
  induction h with
  | refl => exact ⟨[], [], by simp, by simp, rfl, fun _ => rfl⟩
  | @emit u action _ hq ih =>
    obtain ⟨new, out, hnew, hout, htargets, hnone⟩ := ih
    refine ⟨new, out ++ [action], hnew, by simp [Turn.emit, hout], ?_, hnone⟩
    unfold openTargets at htargets ⊢
    rw [List.filterMap_append, List.filterMap_append, htargets]
    have hquiet := openTargets_quiet hq
    unfold openTargets at hquiet
    rw [hquiet, List.append_nil]
  | edit _ hf ih =>
    rw [app_edit, hf]
    exact ih
  | @step u f _ hf ih =>
    obtain ⟨new, out, hnew, hout, htargets, hnone⟩ := ih
    exact ⟨new, out, (hf.keeps_pending ha).trans hnew, hout, htargets, hnone⟩
  | @opened u hostAlias spec _ hc hspec ih =>
    obtain ⟨new, out, hnew, hout, htargets, -⟩ := ih
    refine ⟨new ++ [⟨u.app.nextSubId, hostAlias⟩],
      out ++ [.sendEnvelope (envelope (.openPane spec))], ?_, ?_, ?_, fun hi => absurd hc hi⟩
    · rw [← List.append_assoc, ← hnew]
      rfl
    · rw [← List.append_assoc, ← hout]
      rfl
    · unfold openTargets at htargets ⊢
      rw [List.filterMap_append, List.filterMap_append, htargets, List.map_append]
      exact congrArg (new.map (·.target) ++ [·]) hspec
  | @acted u req _ _ ih =>
    obtain ⟨new, out, hnew, hout, htargets, hnone⟩ := ih
    refine ⟨new, out ++ [.sendEnvelope (envelope (.dockerAction req))], hnew, ?_, ?_, hnone⟩
    · rw [← List.append_assoc, ← hout]
      rfl
    · unfold openTargets at htargets ⊢
      rw [List.filterMap_append, List.filterMap_append, htargets]
      exact List.append_nil _

/-- Only an answer adds a pane. -/
theorem Moves.old_panes (ha : .answer ∉ causes) (h : Moves causes t u) :
    ∀ p ∈ u.app.core.panes, p ∈ t.app.core.panes := by
  induction h with
  | refl => exact fun p hp => hp
  | emit _ _ ih => exact ih
  | edit _ hf ih =>
    rw [app_edit, hf]
    exact ih
  | step _ hf ih => exact fun p hp => ih p (hf.old_panes ha p hp)
  | opened _ _ _ ih => exact ih
  | acted _ _ ih => exact ih

end Turn

/-- An `OpenPane` has an entry for its target, and no other command has one. -/
def Request.Fits (r : Request) : Prop :=
  match r.payload with
  | .openPane spec => ∃ pending, r.opener = some pending ∧ spec.target = pending.target
  | _ => r.opener = none

theorem tagOpens_fits (new : List PendingOpen) {payloads : List Payload}
    (h : openTargets payloads = new.map (·.target)) :
    (tagOpens new payloads).filterMap (·.opener) = new ∧
      ∀ r ∈ tagOpens new payloads, r.Fits := by
  induction payloads generalizing new with
  | nil =>
    cases new with
    | nil => exact ⟨rfl, by simp [tagOpens]⟩
    | cons => cases h
  | cons payload rest ih =>
    have hother : (∀ spec, payload ≠ .openPane spec) →
        (tagOpens new (payload :: rest)).filterMap (·.opener) = new ∧
          ∀ r ∈ tagOpens new (payload :: rest), r.Fits := by
      intro hne
      have htag : tagOpens new (payload :: rest) = ⟨payload, none⟩ :: tagOpens new rest := by
        cases payload <;> cases new <;> first | rfl | exact absurd rfl (hne _)
      have hrest : openTargets rest = new.map (·.target) := by
        rw [← h]
        cases payload <;> first | rfl | exact absurd rfl (hne _)
      obtain ⟨hopeners, hfits⟩ := ih _ hrest
      rw [htag]
      refine ⟨hopeners, fun r hr => ?_⟩
      rcases List.mem_cons.mp hr with rfl | hr
      · cases payload <;> first | rfl | exact absurd rfl (hne _)
      · exact hfits r hr
    cases payload with
    | openPane spec =>
      cases new with
      | nil => cases h
      | cons pending others =>
        obtain ⟨htarget, hrest⟩ : spec.target = pending.target ∧
          openTargets rest = others.map (·.target) := List.cons_eq_cons.mp h
        obtain ⟨hopeners, hfits⟩ := ih _ hrest
        refine ⟨congrArg (pending :: ·) hopeners, fun r hr => ?_⟩
        rcases List.mem_cons.mp hr with rfl | hr
        · exact ⟨pending, rfl, htarget⟩
        · exact hfits r hr
    | _ => exact hother (fun spec heq => by cases heq)

section Daemon

variable {w w' : World} {c : ClientId} {env : Envelope}

theorem openPaneReply_answers (spec : OpenPaneSpec) (opened : Except String PaneInfo) :
    (Session.openPaneReply spec opened).answersOpen = true := by
  have hlocal : ∀ e, Turn.isOpenFailure ⟨.internal, "open pane: " ++ e⟩ = true := fun e => by
    simp [Turn.isOpenFailure, startsWith, List.isPrefixOf]
  have hremote : ∀ h e, Turn.isOpenFailure
      ⟨.internal, "open remote pane (" ++ h ++ "): " ++ e⟩ = true := fun h e => by
    simp [Turn.isOpenFailure, startsWith, List.isPrefixOf]
  unfold Session.openPaneReply
  split
  next => rfl
  next e =>
    split
    next => exact hlocal e
    next hostAlias _ => exact hremote hostAlias e

theorem unknownPane_answers (paneId : PaneId) :
    (envelope (.error ⟨.unknownPane, "no pane " ++ toString paneId⟩)).answersOpen = false := by
  simp [Envelope.answersOpen, envelope, Turn.isOpenFailure, startsWith, List.isPrefixOf]

/-- The replies to other commands are no answers to an `OpenPane`. -/
theorem Session.handleCommand_answers {s : Session} {task : TaskId} {panes : PaneAnswers}
    {payload : Payload} (hne : ∀ spec, payload ≠ .openPane spec)
    (h : env ∈ (s.handleCommand task panes payload).replies) : env.answersOpen = false := by
  unfold handleCommand at h
  split at h
  next => cases List.mem_singleton.mp h; rfl
  next sub =>
    cases sub with
    | status id => cases List.mem_singleton.mp h; rfl
    | fleet id => cases h
    | docker id target => cases target <;> cases h
    | dockerLogs id containerId follow tailLines target => cases target <;> cases h
    | dockerStats id containerId target => cases target <;> cases h
    | ports id target => cases target <;> cases h
    | processes id target => cases target <;> cases h
  next =>
    split at h
    next => cases List.mem_singleton.mp h; rfl
    next => cases h
  next => split at h <;> cases h
  next => cases h
  next spec => exact absurd rfl (hne spec)
  next => cases List.mem_singleton.mp h; rfl
  next paneId _ =>
    split at h
    next => cases h
    next =>
      cases List.mem_singleton.mp h
      exact unknownPane_answers paneId
  next => cases h

theorem RouteCall.failure_answers (call : RouteCall) (reason : String) :
    (call.failure reason).answersOpen = false := by
  unfold failure
  split <;> rfl

theorem disconnectNotice_answers (hostAlias : String) (entry : RoutedSub) :
    (disconnectNotice hostAlias entry).answersOpen = false := by
  unfold disconnectNotice
  dsimp only
  split <;> rfl

/-- Only a handled `OpenPane` is answered as such. -/
theorem Sends.answersOpen {a : Act} {source : Source} (h : Sends w a c env source)
    (hne : ∀ spec panes, a ≠ .command c (.openPane spec) panes) : env.answersOpen = false := by
  cases h with
  | @replied c payload panes env _ henv =>
    exact Session.handleCommand_answers (fun spec hp => hne spec panes (by rw [hp])) henv
  | @refused c call env _ henv =>
    rcases henv with rfl | rfl <;> exact call.failure_answers _
  | @failed c call k d _ => exact call.failure_answers _
  | drained => exact disconnectNotice_answers _ _
  | relayed | answered | announced | emitted | acted => rfl

theorem mem_envelopesTo {out : List Obs} (h : env ∈ envelopesTo c out) :
    ∃ source, .toClient c env source ∈ out := by
  obtain ⟨o, ho, heq⟩ := List.mem_filterMap.mp h
  cases o with
  | toClient c' env' source =>
    dsimp only at heq
    split at heq
    next hc =>
      cases Option.some.inj heq
      exact ⟨source, hc ▸ ho⟩
    next => cases heq
  | _ => cases heq

/-- An `OpenPane` gets one reply, its answer. -/
theorem World.openPane_replies {spec : OpenPaneSpec} {panes : PaneAnswers} {out : List Obs}
    (h : w.step (.command c (.openPane spec) panes) = some (w', out)) :
    envelopesTo c out = [Session.openPaneReply spec panes.opened] := by
  simp only [step, Option.ite_none_right_eq_some] at h
  cases Option.some.inj h.2
  simp [envelopesTo, Session.handleCommand, replies]

theorem World.other_replies {a : Act} {out : List Obs}
    (hne : ∀ spec panes, a ≠ .command c (.openPane spec) panes) (h : w.step a = some (w', out)) :
    ∀ env ∈ envelopesTo c out, env.answersOpen = false := by
  intro env henv
  obtain ⟨source, ho⟩ := mem_envelopesTo henv
  exact (sends_of_step h ho).answersOpen hne

end Daemon

namespace Turn

variable {text : TextOps} {m : Moment} {causes : Set Cause} {t u : Turn}

theorem Moves.no_opens (hi : .input ∉ causes) (h : Moves causes t u) : ∃ out,
    u.actions = t.actions ++ out ∧ openTargets (out.filterMap (·.command)) = [] := by
  have hsnoc : ∀ {out : List AppAction} {action : AppAction},
      openTargets (out.filterMap (·.command)) = [] →
        openTargets ([action].filterMap (·.command)) = [] →
          openTargets ((out ++ [action]).filterMap (·.command)) = [] := by
    intro out action hout haction
    unfold openTargets at *
    rw [List.filterMap_append, List.filterMap_append, hout, haction]
    rfl
  induction h with
  | refl => exact ⟨[], by simp, rfl⟩
  | @emit u action _ hq ih =>
    obtain ⟨out, hout, htargets⟩ := ih
    exact ⟨out ++ [action], by simp [Turn.emit, hout], hsnoc htargets (openTargets_quiet hq)⟩
  | edit _ _ ih => exact ih
  | step _ _ ih => exact ih
  | opened _ hc _ _ => exact absurd hc hi
  | @acted u req _ _ ih =>
    obtain ⟨out, hout, htargets⟩ := ih
    refine ⟨out ++ [.sendEnvelope (envelope (.dockerAction req))], ?_, hsnoc htargets rfl⟩
    rw [← List.append_assoc, ← hout]
    rfl

theorem handlePaneOpened_takes (info : PaneInfo) {pending : PendingOpen} {others : List PendingOpen}
    (hp : t.app.pendingOpens = pending :: others) :
    (t.handlePaneOpened info).app.pendingOpens = others ∧
      (t.handlePaneOpened info).app.core.panes = t.app.core.panes ++ [(info.id, pending.subId)] ∧
        .sendEnvelope (envelope (.attachPane info.id pending.subId)) ∈
          (t.handlePaneOpened info).actions := by
  have hfocus : ∀ u : Turn, u.focusPty.app.pendingOpens = u.app.pendingOpens ∧
      u.focusPty.app.core.panes = u.app.core.panes := by
    intro u
    unfold focusPty
    split <;> exact ⟨rfl, rfl⟩
  unfold handlePaneOpened
  split
  next hnone => cases hnone.symm.trans hp
  next hp' =>
    cases hp'.symm.trans hp
    refine ⟨(hfocus _).1, ((hfocus _).2).trans ?_, ?_⟩
    · exact List.map_append
    · simp [draw, send, emit]

theorem handleError_takes {info : ErrorInfo} {pending : PendingOpen} {others : List PendingOpen}
    (hf : isOpenFailure info = true) (hp : t.app.pendingOpens = pending :: others) :
    (t.handleError m info).app.pendingOpens = others ∧
      (t.handleError m info).app.core.panes = t.app.core.panes ∧
        .showToast .error ("open pane " ++ pending.target.name ++ " failed: " ++ info.message) ∈
          (t.handleError m info).actions := by
  have hname : pending.hostAlias.getD "local" = pending.target.name := by
    unfold PendingOpen.target
    cases pending.hostAlias <;> rfl
  unfold handleError
  split
  next hp' =>
    cases hp'.symm.trans hp
    refine ⟨rfl, rfl, ?_⟩
    rw [hname]
    simp [pushToast, draw, emit, edit]
  next hne => exact absurd hp (hne pending others hf)

/-- An envelope that answers no `OpenPane` leaves the entries alone. -/
theorem handleDaemonEnvelope_unasked {env : Envelope} (hq : env.answersOpen = false)
    (h : t.handleDaemonEnvelope text m env = some u) : Moves ∅ t u := by
  obtain ⟨version, payload⟩ := env
  cases payload with
  | event id event => exact handleEventFrame_moves h
  | paneOpened info => cases hq
  | error info =>
    cases Option.some.inj h
    have hf : isOpenFailure info = false := hq
    unfold handleError
    split
    next hf' _ => cases hf'.symm.trans hf
    next => exact pushToast_moves _ _
  | dockerActionResult result => cases Option.some.inj h; exact handleDockerActionResult_moves result
  | fleetActionResult result => cases Option.some.inj h; exact handleFleetActionResult_moves result
  | _ => cases Option.some.inj h; exact .refl

end Turn

/-- A reply to an `OpenPane` answers it, for the target of its entry; the others answer none. -/
def Reply.Fits (r : Reply) : Prop :=
  match r.cause with
  | some (spec, pending) => r.env.answersOpen = true ∧ spec.target = pending.target
  | none => r.env.answersOpen = false

/-- The entries of the app are those of the requests that are unanswered, in order: the answered ones
whose reply is on its way, and then the ones that the daemon has not handled. -/
structure Wire.Paired (s : Wire) : Prop where
  queue : s.app.pendingOpens =
    s.replies.filterMap (·.cause.map (·.2)) ++ s.requests.filterMap (·.opener)
  requests : ∀ r ∈ s.requests, r.Fits
  replies : ∀ r ∈ s.replies, r.Fits

namespace Wire

variable {text : TextOps} {m : Moment} {c : ClientId} {s s' : Wire} {out : List Received}

/-- What a turn asks for goes out with its own entries. -/
theorem handle_requests {t : Turn} {new : List PendingOpen}
    (hnew : t.app.pendingOpens.drop s.app.pendingOpens.length = new)
    (htargets : openTargets (t.actions.filterMap (·.command)) = new.map (·.target)) :
    (s.handle t).requests.filterMap (·.opener) = s.requests.filterMap (·.opener) ++ new ∧
      ((∀ r ∈ s.requests, r.Fits) → ∀ r ∈ (s.handle t).requests, r.Fits) := by
  obtain ⟨hopeners, hfits⟩ := tagOpens_fits _ htargets
  have htagged : (s.handle t).requests =
      s.requests ++ tagOpens new (t.actions.filterMap (·.command)) := by
    rw [← hnew]
    rfl
  rw [htagged]
  refine ⟨?_, fun hold r hr => ?_⟩
  · rw [List.filterMap_append, hopeners]
  · rcases List.mem_append.mp hr with hr | hr
    · exact hold r hr
    · exact hfits r hr

theorem handle_sent {causes : Set Cause} {t : Turn} (ha : .answer ∉ causes)
    (h : Turn.Moves causes ⟨s.app, []⟩ t) : ∃ new,
      t.app.pendingOpens = s.app.pendingOpens ++ new ∧ (.input ∉ causes → new = []) ∧
        (s.handle t).requests.filterMap (·.opener) = s.requests.filterMap (·.opener) ++ new ∧
          ((∀ r ∈ s.requests, r.Fits) → ∀ r ∈ (s.handle t).requests, r.Fits) := by
  obtain ⟨new, sent, hnew, hsent, htargets, hnone⟩ := h.opens ha
  have hpending : t.app.pendingOpens = s.app.pendingOpens ++ new := hnew
  have hactions : t.actions = sent := hsent
  refine ⟨new, hpending, hnone, handle_requests ?_ ?_⟩
  · rw [hpending, List.drop_left]
  · rw [hactions]
    exact htargets

/-- An answer is handled without asking for another pane. -/
theorem handle_answered {causes : Set Cause} {t : Turn} {pending : PendingOpen}
    {others : List PendingOpen} (hi : .input ∉ causes) (h : Turn.Moves causes ⟨s.app, []⟩ t)
    (hbefore : s.app.pendingOpens = pending :: others) (hafter : t.app.pendingOpens = others) :
    (s.handle t).requests.filterMap (·.opener) = s.requests.filterMap (·.opener) ∧
      ((∀ r ∈ s.requests, r.Fits) → ∀ r ∈ (s.handle t).requests, r.Fits) := by
  obtain ⟨sent, hsent, htargets⟩ := h.no_opens hi
  have hactions : t.actions = sent := hsent
  have hdrop : t.app.pendingOpens.drop s.app.pendingOpens.length = [] := by
    rw [hbefore, hafter]
    exact List.drop_eq_nil_of_le (Nat.le_succ _)
  have hsame := handle_requests (s := s) hdrop (by rw [hactions]; exact htargets)
  rwa [List.append_nil] at hsame

theorem Paired.user {event : AppEvent} {t : Turn} (h : s.Paired) (ha : .answer ∉ event.causes)
    (ht : s.app.handleEvent text m event = some t) : (s.handle t).Paired := by
  obtain ⟨new, hpending, -, hopeners, hfits⟩ := handle_sent ha (App.handleEvent_moves ht)
  refine ⟨?_, hfits h.requests, h.replies⟩
  show t.app.pendingOpens = s.replies.filterMap _ ++ (s.handle t).requests.filterMap _
  rw [hpending, hopeners, h.queue, List.append_assoc]

theorem Paired.receive {r : Reply} {rest : List Reply} {t : Turn} (h : s.Paired)
    (hr : s.replies = r :: rest)
    (ht : s.app.handleEvent text m (.daemonEnvelope r.env) = some t) :
    ({ s.handle t with replies := rest } : Wire).Paired ∧ Received.Matched ⟨r, s.app, t⟩ := by
  have hrest : ∀ r ∈ rest, r.Fits := fun r' hr' => h.replies r' (hr ▸ List.mem_cons_of_mem r hr')
  have hfits : r.Fits := h.replies r (hr ▸ List.mem_cons_self)
  have hqueue := h.queue
  obtain ⟨⟨version, payload⟩, cause⟩ := r
  cases cause with
  | none =>
    have hmoves : Turn.Moves ∅ ⟨s.app, []⟩ t := Turn.handleDaemonEnvelope_unasked hfits ht
    obtain ⟨new, hpending, hnone, hopeners, hkept⟩ := handle_sent (Set.notMem_empty _) hmoves
    obtain rfl := hnone (Set.notMem_empty _)
    rw [List.append_nil] at hpending hopeners
    rw [hr] at hqueue
    refine ⟨⟨?_, hkept h.requests, hrest⟩, hpending, hmoves.old_panes (Set.notMem_empty _), hfits⟩
    show t.app.pendingOpens = rest.filterMap _ ++ (s.handle t).requests.filterMap _
    rw [hpending, hopeners]
    exact hqueue
  | some asked =>
    obtain ⟨spec, pending⟩ := asked
    obtain ⟨hanswers, htarget⟩ := hfits
    rw [hr] at hqueue
    have hhead : s.app.pendingOpens = pending ::
        (rest.filterMap (·.cause.map (·.2)) ++ s.requests.filterMap (·.opener)) := hqueue
    have hstays : t.app.pendingOpens =
        rest.filterMap (·.cause.map (·.2)) ++ s.requests.filterMap (·.opener) →
          ({ s.handle t with replies := rest } : Wire).Paired := by
      intro hafter
      obtain ⟨hopeners, hkept⟩ :=
        handle_answered (by simp [AppEvent.causes]) (App.handleEvent_moves ht) hhead hafter
      refine ⟨?_, hkept h.requests, hrest⟩
      show t.app.pendingOpens = rest.filterMap _ ++ (s.handle t).requests.filterMap _
      rw [hafter, hopeners]
    cases payload with
    | paneOpened info =>
      cases Option.some.inj ht
      obtain ⟨hafter, hpanes, hattached⟩ :=
        Turn.handlePaneOpened_takes (t := ⟨s.app, []⟩) info hhead
      refine ⟨hstays hafter, htarget, ?_, hpanes, hattached⟩
      rw [hhead, hafter]
    | error info =>
      cases Option.some.inj ht
      obtain ⟨hafter, hpanes, htoast⟩ :=
        Turn.handleError_takes (t := ⟨s.app, []⟩) (m := m) hanswers hhead
      refine ⟨hstays hafter, htarget, ?_, hpanes, htarget ▸ htoast⟩
      rw [hhead, hafter]
    | _ => cases hanswers

theorem take_cases {a : Act} {rest : List Request} {cause : Option (OpenPaneSpec × PendingOpen)}
    (h : s.take c a = some (rest, cause)) :
    (∃ r panes, s.requests = r :: rest ∧ a = .command c r.payload panes ∧ cause = r.cause) ∨
      rest = s.requests ∧ cause = none ∧ ∀ payload panes, a ≠ .command c payload panes := by
  unfold take at h
  split at h
  next c' payload panes =>
    split at h
    next hc =>
      subst hc
      split at h
      next r rest' hr =>
        simp only [Option.ite_none_right_eq_some] at h
        obtain ⟨hpayload, h⟩ := h
        cases Option.some.inj h
        exact .inl ⟨r, panes, hr, by rw [hpayload], rfl⟩
      next => cases h
    next hc =>
      cases Option.some.inj h
      refine .inr ⟨rfl, rfl, fun payload' panes' heq => ?_⟩
      cases heq
      exact hc rfl
  next hne =>
    cases Option.some.inj h
    exact .inr ⟨rfl, rfl, fun payload panes heq => hne c payload panes heq⟩

theorem Paired.quiet {envs : List Envelope} (h : s.Paired)
    (hquiet : ∀ env ∈ envs, env.answersOpen = false) :
    (s.replies ++ envs.map (Reply.mk · none)).filterMap (·.cause.map (·.2)) =
        s.replies.filterMap (·.cause.map (·.2)) ∧
      ∀ r ∈ s.replies ++ envs.map (Reply.mk · none), r.Fits := by
  constructor
  · rw [List.filterMap_append, List.filterMap_map]
    simp
  · intro r hr
    rcases List.mem_append.mp hr with hr | hr
    · exact h.replies r hr
    · obtain ⟨env, henv, rfl⟩ := List.mem_map.mp hr
      exact hquiet env henv

theorem Paired.daemon {a : Act} {rest : List Request} {cause : Option (OpenPaneSpec × PendingOpen)}
    {w' : World} {sent : List Obs} (h : s.Paired) (htake : s.take c a = some (rest, cause))
    (hstep : s.world.step a = some (w', sent)) :
    ({ s with
      requests := rest, world := w'
      replies := s.replies ++ (envelopesTo c sent).map (Reply.mk · cause) } : Wire).Paired := by
  rcases take_cases htake with ⟨⟨payload, opener⟩, panes, hr, rfl, rfl⟩ | ⟨rfl, rfl, hne⟩
  · have hfits : Request.Fits ⟨payload, opener⟩ := h.requests _ (hr ▸ List.mem_cons_self)
    have hrest : ∀ r ∈ rest, r.Fits := fun r hm => h.requests r (hr ▸ List.mem_cons_of_mem _ hm)
    have hqueue := h.queue
    rw [hr] at hqueue
    by_cases hopen : ∃ spec, payload = .openPane spec
    · obtain ⟨spec, rfl⟩ := hopen
      obtain ⟨pending, rfl, htarget⟩ := hfits
      rw [World.openPane_replies hstep]
      refine ⟨?_, hrest, fun r hm => ?_⟩
      · show s.app.pendingOpens = List.filterMap _ (s.replies ++ [_]) ++ _
        rw [hqueue, List.filterMap_append, List.append_assoc]
        rfl
      · rcases List.mem_append.mp hm with hm | hm
        · exact h.replies r hm
        · cases List.mem_singleton.mp hm
          exact ⟨openPaneReply_answers spec panes.opened, htarget⟩
    · have hplain : opener = none ∧ Request.cause ⟨payload, opener⟩ = none := by
        cases payload <;> first | exact ⟨hfits, rfl⟩ | exact absurd ⟨_, rfl⟩ hopen
      have hquiet := World.other_replies (c := c) (fun spec panes' heq => by
        cases heq
        exact hopen ⟨spec, rfl⟩) hstep
      rw [hplain.2]
      obtain ⟨hsame, hreplies⟩ := h.quiet hquiet
      refine ⟨?_, hrest, hreplies⟩
      show s.app.pendingOpens = List.filterMap _ (s.replies ++ _) ++ rest.filterMap _
      rw [hsame, hqueue, hplain.1]
      rfl
  · have hquiet := World.other_replies (c := c) (fun spec panes' => hne _ panes') hstep
    obtain ⟨hsame, hreplies⟩ := h.quiet hquiet
    refine ⟨?_, h.requests, hreplies⟩
    show s.app.pendingOpens = List.filterMap _ (s.replies ++ _) ++ _
    rw [hsame]
    exact h.queue

/-- What a step of the wire is: the app handles an event of its own or the oldest reply, the daemon takes
a step, or a task speaks. -/
inductive Traffic (text : TextOps) (c : ClientId) (s : Wire) : Wire → List Received → Prop
  | user {m : Moment} {event : AppEvent} {t : Turn} : .answer ∉ event.causes →
      s.app.handleEvent text m event = some t → Traffic text c s (s.handle t) []
  | received {m : Moment} {r : Reply} {rest : List Reply} {t : Turn} : s.replies = r :: rest →
      s.app.handleEvent text m (.daemonEnvelope r.env) = some t →
      Traffic text c s { s.handle t with replies := rest } [⟨r, s.app, t⟩]
  | daemon {a : Act} {rest : List Request} {cause : Option (OpenPaneSpec × PendingOpen)}
      {w' : World} {sent : List Obs} : s.take c a = some (rest, cause) →
      s.world.step a = some (w', sent) → Traffic text c s { s with
        requests := rest, world := w'
        replies := s.replies ++ (envelopesTo c sent).map (Reply.mk · cause) } []
  | other {env : Envelope} : env.payload.fromTask = true →
      Traffic text c s { s with replies := s.replies ++ [⟨env, none⟩] } []

theorem traffic_of_step {act : WireAct} (hs : s.step text c act = some (s', out)) :
    Traffic text c s s' out := by
  unfold Wire.step at hs
  split at hs
  next => cases hs
  next m event hne =>
    obtain ⟨t, ht, heq⟩ := Option.map_eq_some_iff.mp hs
    cases heq
    refine .user ?_ ht
    cases event <;> first | exact absurd rfl (hne _) | simp [AppEvent.causes]
  next m =>
    split at hs
    next r rest hr =>
      obtain ⟨t, ht, heq⟩ := Option.map_eq_some_iff.mp hs
      cases heq
      exact .received hr ht
    next => cases hs
  next a =>
    obtain ⟨⟨rest, cause⟩, htake, hs⟩ := Option.bind_eq_some_iff.mp hs
    obtain ⟨⟨w', sent⟩, hstep, hs⟩ := Option.bind_eq_some_iff.mp hs
    cases Option.some.inj hs
    exact .daemon htake hstep
  next env =>
    simp only [Option.ite_none_right_eq_some] at hs
    cases Option.some.inj hs.2
    exact .other hs.1

/-- Each step keeps the pairing, and a reply that is handled takes the entry of its own command. -/
theorem Paired.step {act : WireAct} (h : s.Paired) (hs : s.step text c act = some (s', out)) :
    s'.Paired ∧ ∀ o ∈ out, o.Matched := by
  cases traffic_of_step hs with
  | user ha ht => exact ⟨h.user ha ht, by simp⟩
  | received hr ht =>
    obtain ⟨hpaired, hmatched⟩ := h.receive hr ht
    refine ⟨hpaired, fun o ho => ?_⟩
    cases List.mem_singleton.mp ho
    exact hmatched
  | daemon htake hstep => exact ⟨h.daemon htake hstep, by simp⟩
  | @other env htask =>
    have hquiet : ∀ env' ∈ [env], env'.answersOpen = false := by
      intro env' henv
      cases List.mem_singleton.mp henv
      obtain ⟨version, payload⟩ := env
      cases payload <;> first | rfl | cases htask
    obtain ⟨hsame, hreplies⟩ := h.quiet hquiet
    refine ⟨⟨?_, h.requests, hreplies⟩, by simp⟩
    exact h.queue.trans (congrArg (· ++ s.requests.filterMap (·.opener)) hsame.symm)

theorem init_paired (h : (wire text c).init s) : s.Paired := by
  obtain ⟨-, hreplies, ⟨pane, shell, rows, cols, hnew⟩, actions, hactions, hrequests⟩ := h
  have hpending : s.app.pendingOpens = [] := by
    obtain ⟨layout, -, happ⟩ := Option.bind_eq_some_iff.mp hnew
    rw [← Option.some.inj happ]
  have htargets : openTargets (actions.filterMap (·.command)) = [] := by
    obtain ⟨entry, -, hsent⟩ := Option.bind_eq_some_iff.mp hactions
    rw [← Option.some.inj hsent]
    rfl
  obtain ⟨hopeners, hfits⟩ := tagOpens_fits [] htargets
  refine ⟨?_, ?_, by simp [hreplies]⟩
  · rw [hpending, hreplies, hrequests, hopeners]
    rfl
  · rw [hrequests]
    exact hfits

theorem paired_of_run {ok : List Received → Wire → WireAct → Prop} {tr : List Received}
    (h : Run (wire text c) ok tr s) : s.Paired :=
  h.invariant (I := fun _ s => s.Paired) (fun _ hi => init_paired hi)
    fun _ _ _ _ _ _ hp _ hs => (hp.step hs).1

/-- A pane that is there after a step was there before it, or a reply of the step opened it. -/
theorem step_panes {act : WireAct} (h : s.Paired) (hs : s.step text c act = some (s', out)) :
    ∀ p ∈ s'.app.core.panes, p ∈ s.app.core.panes ∨ ∃ o ∈ out, o.Attached p := by
  have hsame := (h.step hs).2
  cases traffic_of_step hs with
  | user ha ht => exact fun p hp => .inl ((App.handleEvent_moves ht).old_panes ha p hp)
  | @received m r rest t hr ht =>
    intro p hp
    have hmatched : Received.Matched ⟨r, s.app, t⟩ := hsame _ (List.mem_singleton.mpr rfl)
    obtain ⟨⟨version, payload⟩, cause⟩ := r
    cases cause with
    | none => exact .inl (hmatched.2.1 p hp)
    | some asked =>
      obtain ⟨spec, pending⟩ := asked
      obtain ⟨-, -, hmatched⟩ := hmatched
      cases payload with
      | paneOpened info =>
        have hpanes : t.app.core.panes = s.app.core.panes ++ [(info.id, pending.subId)] :=
          hmatched.1
        rcases List.mem_append.mp (hpanes ▸ hp) with hp | hp
        · exact .inl hp
        · exact .inr ⟨_, List.mem_singleton.mpr rfl, spec, pending, info, rfl, rfl,
            List.mem_singleton.mp hp⟩
      | error info =>
        have hpanes : t.app.core.panes = s.app.core.panes := hmatched.1
        exact .inl (hpanes ▸ hp)
      | _ => cases hmatched
  | daemon htake hstep => exact fun p hp => .inl hp
  | other htask => exact fun p hp => .inl hp

end Wire

/-- In every run of the app and its daemon, each reply takes the entry of the command that caused it,
so that every pane but the first is attached under the sub id of its own request. -/
theorem open_replies_matched {text : TextOps} {c : ClientId} {tr : List Received} {s : Wire}
    (h : Run (wire text c) Free tr s) : (∀ o ∈ tr, o.Matched) ∧
      ∀ p ∈ s.app.core.panes, p.2 = 1 ∨ ∃ o ∈ tr, o.Attached p := by
  constructor
  · exact h.observed fun _ _ _ _ _ hr _ hs => ((Wire.paired_of_run hr).step hs).2
  · refine h.invariant (I := fun tr s => ∀ p ∈ s.app.core.panes, p.2 = 1 ∨ ∃ o ∈ tr, o.Attached p) ?_ ?_
    · rintro s ⟨-, -, ⟨pane, shell, rows, cols, hnew⟩, -⟩ p hp
      obtain ⟨layout, -, happ⟩ := Option.bind_eq_some_iff.mp hnew
      rw [← Option.some.inj happ] at hp
      cases List.mem_singleton.mp hp
      exact .inl rfl
    · intro tr s act s' out hr ih _ hs p hp
      rcases Wire.step_panes (Wire.paired_of_run hr) hs p hp with hp | ⟨o, ho, ha⟩
      · rcases ih p hp with hone | ⟨o, ho, ha⟩
        · exact .inl hone
        · exact .inr ⟨o, List.mem_append_left _ ho, ha⟩
      · exact .inr ⟨o, List.mem_append_right _ ho, ha⟩

def sampleWire : Wire :=
  ⟨sampleApp, tagOpens [] ((sampleApp.initialActions.get (by decide)).filterMap (·.command)),
    .initial, []⟩

theorem sampleWire_fresh (c : ClientId) : (wire .ascii c).init sampleWire :=
  ⟨rfl, rfl, ⟨_, _, _, _, sampleApp_new⟩,
    sampleApp.initialActions.get (by decide), (Option.some_get _).symm, rfl⟩

/-- The daemon opens the pane that the app asks for when its last one was closed. -/
theorem open_replies_matched_reopened : ∃ tr s, Run (wire .ascii 0) Free tr s ∧
    s.app.core.panes = [(8, 6)] ∧ ∃ o ∈ tr, o.Attached (8, 6) := by
  obtain ⟨tr, s, hr, hpanes⟩ := Run.of_replay (wire .ascii 0) Free
    (fun _ s => s.app.core.panes = [(8, 6)]) (sampleWire_fresh 0)
    (WireAct.daemon (.connect 0) ::
        (sampleWire.requests.map fun r => WireAct.daemon (.command 0 r.payload .none)) ++
      [WireAct.receive (.at 0), .user (.at 1) closeKeys, .daemon (.command 0 (.closePane 7) .none),
        .daemon (.command 0 (.unsubscribe 1) .none),
        .daemon (.command 0 (.openPane ⟨none, none, [], 21, 120, .localTarget⟩)
          ⟨.ok ⟨8, 21, 120, "/bin/zsh", true⟩, [], false⟩), .receive (.at 2)]) (by decide)
  refine ⟨tr, s, hr, hpanes, ?_⟩
  rcases (open_replies_matched hr).2 (8, 6) (hpanes ▸ List.mem_singleton.mpr rfl) with hone | hopened
  · cases hone
  · exact hopened

end Tepegoz
