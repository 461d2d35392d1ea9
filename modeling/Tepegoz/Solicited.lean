import Tepegoz.AgentTunnel
import Tepegoz.StreamEnds

namespace Tepegoz

open Transition

/-- The events that a subscription can bring its client. -/
def Subscription.mayTell : Subscription → Event → Bool
  | .status _, .status => true
  | .fleet _, .agentCapabilities _ _ => true
  | sub, event => sub.mayEmit event

/-- The client asked for what it gets. -/
inductive Solicited (tr : List Obs) (c : ClientId) : Payload → Prop
  | event {sub event} : .commanded c (.subscribe sub) ∈ tr → sub.mayTell event = true →
      Solicited tr c (.event sub.id event)
  | dockerAction {req outcome target} : .commanded c (.dockerAction req) ∈ tr →
      Solicited tr c (.dockerActionResult ⟨req.requestId, req.containerId, req.kind, outcome, target⟩)
  | fleetAction {req outcome} : .commanded c (.fleetAction req) ∈ tr →
      Solicited tr c (.fleetActionResult ⟨req.requestId, req.hostAlias, req.kind, outcome⟩)
  | pong : .commanded c .ping ∈ tr → Solicited tr c .pong
  | paneOpened {spec info} : .commanded c (.openPane spec) ∈ tr → Solicited tr c (.paneOpened info)
  | openFailed {spec message} : .commanded c (.openPane spec) ∈ tr →
      Solicited tr c (.error ⟨.internal, message⟩)
  | paneList {panes} : .commanded c .listPanes ∈ tr → Solicited tr c (.paneList panes)
  | unknownPane {paneId id} : .commanded c (.attachPane paneId id) ∈ tr →
      Solicited tr c (.error ⟨.unknownPane, "no pane " ++ toString paneId⟩)

/-- Everything that sends by itself was started by a command of its client. -/
structure Commanded (tr : List Obs) (w : World) : Prop where
  tasks : ∀ task c sub, w.tasks task = some (c, sub) → .commanded c (.subscribe sub) ∈ tr
  fleets : ∀ c id task, (w.sessions c).fleetSubs.lookup id = some task →
    .commanded c (.subscribe (.fleet id)) ∈ tr
  supervisors : ∀ j, (w.supervisors j).phase ≠ .unborn →
    .commanded (w.supervisors j).client (.subscribe (.fleet (w.supervisors j).fleetId)) ∈ tr
  actions : ∀ c req, (c, req) ∈ w.actions → .commanded c (.dockerAction req) ∈ tr

section Commanded

variable {tr out : List Obs} {w w' : World} {a : Act} {c : ClientId}

theorem Session.handleCommand_spawned {s : Session} {task : TaskId} {panes : PaneAnswers}
    {payload : Payload} {sub : Subscription}
    (h : (s.handleCommand task panes payload).spawned = some sub) : payload = .subscribe sub := by
  cases payload with
  | subscribe sub' =>
    cases sub' with
    | status id | fleet id => cases h
    | docker _ target | dockerLogs _ _ _ _ target | dockerStats _ _ target | ports _ target
    | processes _ target =>
      cases target with
      | localTarget =>
        cases h
        rfl
      | remote => cases h
  | fleetAction req' =>
    simp only [handleCommand] at h
    split at h <;> cases h
  | dockerAction req =>
    simp only [handleCommand] at h
    split at h <;> cases h
  | attachPane paneId id =>
    simp only [handleCommand] at h
    split at h <;> cases h
  | _ => cases h

theorem Session.handleCommand_fleet {s : Session} {task task' : TaskId} {panes : PaneAnswers}
    {payload : Payload} {id : Nat}
    (h : (s.handleCommand task panes payload).session.fleetSubs.lookup id = some task') :
    s.fleetSubs.lookup id = some task' ∨ payload = .subscribe (.fleet id) := by
  generalize hs : (s.handleCommand task panes payload).session = s' at h
  have heffect := s.commandEffect task panes payload
  rw [hs] at heffect
  cases heffect with
  | spawned sub map => left; cases map <;> exact h
  | @fleet id' =>
    by_cases hid : id = id'
    · subst hid
      exact .inr rfl
    · exact .inl (by rwa [AList.lookup_insert_ne hid] at h)
  | unsubscribed => exact .inl (World.lookup_of_erase h).1
  | routed | status | action | attached | unknownPane | unchanged => exact .inl h

/-- A fleet subscription of a session was there before the step, or the step was its command. -/
theorem RoutingStep.fleet_cases (h : RoutingStep w a w' out) {id : Nat} {task : TaskId}
    (hl : (w'.sessions c).fleetSubs.lookup id = some task) :
    (w.sessions c).fleetSubs.lookup id = some task ∨ .commanded c (.subscribe (.fleet id)) ∈ out := by
  by_cases hc : a.client = some c
  · cases h with
    | quiet _ _ hs => exact .inl (hs ▸ hl)
    | born _ _ hs => exact .inl (hs ▸ hl)
    | drained _ _ _ _ _ _ _ _ hs => exact .inl (hs ▸ hl)
    | driverEnd | answered => cases hc
    | connected =>
      obtain rfl := Option.some.inj hc
      simp [Session.fresh, Session.absent] at hl
    | disconnected =>
      obtain rfl := Option.some.inj hc
      simp [Session.close, Session.absent] at hl
    | @commanded _ payload panes handled _ heq =>
      obtain rfl := Option.some.inj hc
      subst heq
      rw [World.sessions_setSession, Function.update_self] at hl
      rcases Session.handleCommand_fleet hl with hold | rfl
      · exact .inl hold
      · exact .inr List.mem_cons_self
    | refused | allocated | inserted | sendFailed | rolledBack | teardownLocked | teardownDone =>
      obtain rfl := Option.some.inj hc
      rw [World.sessions_setPhase_same] at hl
      exact .inl hl
    | sent =>
      obtain rfl := Option.some.inj hc
      rw [World.sessions_setSession, Function.update_self] at hl
      exact .inl hl
    | unsubscribed | teardownNext =>
      obtain rfl := Option.some.inj hc
      rw [World.sessions_setPhase_release, World.sessions_setPhase_same] at hl
      exact .inl hl
  · rw [h.sessions_other hc] at hl
    exact .inl hl

namespace World

theorem tasks_release (c : ClientId) (id : Nat) (handle : AgentSubHandle) :
    (w.release c id handle).1.tasks = w.tasks := by
  unfold release
  split <;> rfl

theorem tasks_routeStep {call : RouteCall} {stage : CallStage}
    (h : w.routeStep c call stage = some (w', out)) : w'.tasks = w.tasks := by
  cases stage with
  | lookup =>
    simp only [routeStep, Option.ite_none_right_eq_some] at h
    obtain ⟨-, h⟩ := h
    split at h
    next => cases Option.some.inj h; rfl
    next => split at h <;> (cases Option.some.inj h; rfl)
  | allocated k d => cases Option.some.inj h; rfl
  | inserted k d =>
    simp only [routeStep] at h
    split at h <;> (cases Option.some.inj h; rfl)
  | rollback k d => cases Option.some.inj h; rfl

theorem tasks_supervisorStep {j : SupId} {event : SupEvent}
    (h : w.supervisorStep j event = some (w', out)) : w'.tasks = w.tasks := by
  unfold supervisorStep at h
  split at h
  case h_4 | h_7 =>
    simp only [Option.ite_none_right_eq_some] at h
    obtain ⟨-, h⟩ := h
    split at h <;> (cases Option.some.inj h; rfl)
  case h_10 =>
    split at h
    next => cases h
    next => split at h <;> (cases Option.some.inj h; rfl)
  case h_11 => cases h
  all_goals
    cases Option.some.inj h
    rfl

/-- A forwarder was there before the step, or the step was its command. -/
theorem tasks_cases {task : TaskId} {owner : ClientId × Subscription}
    (h : w.step a = some (w', out)) (ht : w'.tasks task = some owner) :
    w.tasks task = some owner ∨ .commanded owner.1 (.subscribe owner.2) ∈ out := by
  have hkept : w'.tasks = w.tasks →
      w.tasks task = some owner ∨ .commanded owner.1 (.subscribe owner.2) ∈ out :=
    fun hsame => .inl (hsame ▸ ht)
  cases a with
  | command c payload panes =>
    simp only [step, Option.ite_none_right_eq_some] at h
    cases Option.some.inj h.2
    change Function.update w.tasks w.taskCount _ task = some owner at ht
    by_cases htask : task = w.taskCount
    · subst htask
      rw [Function.update_self] at ht
      obtain ⟨sub, hspawned, rfl⟩ := Option.map_eq_some_iff.mp ht
      obtain rfl := Session.handleCommand_spawned hspawned
      exact .inr List.mem_cons_self
    · rw [Function.update_of_ne htask] at ht
      exact .inl ht
  | finish task' =>
    simp only [step] at h
    split at h
    next =>
      cases Option.some.inj h
      by_cases htask : task = task'
      · subst htask
        simp at ht
      · simp only [Function.update_of_ne htask] at ht
        exact .inl ht
    next => cases h
  | route c =>
    simp only [step] at h
    split at h
    next => exact hkept (tasks_routeStep h)
    next => cases h
  | unsubscribe c =>
    simp only [step] at h
    split at h
    next =>
      simp only [Option.ite_none_right_eq_some] at h
      cases Option.some.inj h.2
      exact hkept (tasks_release _ _ _)
    next => cases h
  | teardown c =>
    simp only [step, teardownStep] at h
    split at h
    next =>
      simp only [Option.ite_none_right_eq_some] at h
      cases Option.some.inj h.2
      exact hkept rfl
    next => cases Option.some.inj h; exact hkept rfl
    next => cases Option.some.inj h; exact hkept (tasks_release _ _ _)
    next => cases h
  | supervisor j event => exact hkept (tasks_supervisorStep h)
  | agentFrame k env =>
    simp only [step, Option.ite_none_right_eq_some] at h
    have hw : (w.routeAgentEnvelope k env).1 = w' := congrArg Prod.fst (Option.some.inj h.2)
    rcases (w.routeAgentEnvelope_cases k env).1 with hsame | ⟨d, hsame⟩
    · exact hkept (by rw [← hw, hsame])
    · exact hkept (by rw [← hw, hsame]; rfl)
  | spawn j c fleetId hostAlias =>
    simp only [step] at h
    split at h
    next => cases Option.some.inj h; exact hkept rfl
    next => cases h
  | emit task' event =>
    simp only [step] at h
    split at h
    next =>
      simp only [Option.ite_none_right_eq_some] at h
      cases Option.some.inj h.2
      exact hkept rfl
    next => cases h
  | connect | disconnect | parserEnd | driverEnd | acted =>
    simp only [step, Option.ite_none_right_eq_some] at h
    cases Option.some.inj h.2
    exact hkept rfl

theorem actions_cases {req : DockerActionRequest} (h : w.step a = some (w', out))
    (hm : (c, req) ∈ w'.actions) : (c, req) ∈ w.actions ∨ .commanded c (.dockerAction req) ∈ out := by
  cases a with
  | command c' payload panes =>
    rcases actions_commanded h with hsame | ⟨req', rfl, hnew, -, rfl⟩
    · exact .inl (hsame ▸ hm)
    · rw [hnew] at hm
      rcases List.mem_cons.mp hm with heq | hm
      · cases heq
        exact .inr List.mem_cons_self
      · exact .inl hm
  | acted c' req' outcome =>
    simp only [step, Option.ite_none_right_eq_some] at h
    cases Option.some.inj h.2
    exact .inl (List.mem_of_mem_erase hm)
  | _ => exact .inl (actions_kept h (by simp) (by simp) ▸ hm)

end World

theorem Commanded.step (h : Commanded tr w) (hs : w.step a = some (w', out)) :
    Commanded (tr ++ out) w' where
  tasks task c sub ht := by
    rcases World.tasks_cases hs ht with hold | hnew
    · exact List.mem_append_left _ (h.tasks task c sub hold)
    · exact List.mem_append_right _ hnew
  fleets c id task hl := by
    rcases (World.routingStep_of_step hs).fleet_cases hl with hold | hnew
    · exact List.mem_append_left _ (h.fleets c id task hold)
    · exact List.mem_append_right _ hnew
  supervisors j hb := by
    rcases World.supervisor_origin hs hb with ⟨hb', hc, hid⟩ | ⟨task, htask⟩
    · rw [hc, hid]
      exact List.mem_append_left _ (h.supervisors j hb')
    · exact List.mem_append_left _ (h.fleets _ _ task htask)
  actions c req hm := by
    rcases World.actions_cases hs hm with hold | hnew
    · exact List.mem_append_left _ (h.actions c req hold)
    · exact List.mem_append_right _ hnew

theorem commanded_of_run {ok : List Obs → World → Act → Prop} (h : Run daemon ok tr w) :
    Commanded tr w := by
  refine h.invariant ?_ ?_
  · rintro _ rfl
    constructor <;> simp [World.initial, Session.absent, Supervisor.unborn]
  · intro tr w a w' out _ ih _ hs
    exact ih.step hs

end Commanded

theorem Subscription.mayTell_of_mayEmit {sub : Subscription} {event : Event}
    (h : sub.mayEmit event = true) : sub.mayTell event = true := by
  unfold mayTell
  split
  next => rfl
  next => rfl
  next => exact h

theorem Subscription.mayTell_unavailable {sub : Subscription} {scope : RoutedScope} {capability : String}
    (h : sub.routedScope = some (scope, capability)) (reason : String) :
    sub.mayTell (unavailableEventForScope scope reason) = true := by
  cases sub <;> cases h <;> rfl

section Solicited

variable {tr out : List Obs} {w w' : World} {a : Act} {c : ClientId} {call : RouteCall}

theorem Solicited.old {payload : Payload} (h : Solicited tr c payload) :
    Solicited (tr ++ out) c payload := by
  cases h with
  | event hm htell => exact .event (List.mem_append_left _ hm) htell
  | dockerAction hm => exact .dockerAction (List.mem_append_left _ hm)
  | fleetAction hm => exact .fleetAction (List.mem_append_left _ hm)
  | pong hm => exact .pong (List.mem_append_left _ hm)
  | paneOpened hm => exact .paneOpened (List.mem_append_left _ hm)
  | openFailed hm => exact .openFailed (List.mem_append_left _ hm)
  | paneList hm => exact .paneList (List.mem_append_left _ hm)
  | unknownPane hm => exact .unknownPane (List.mem_append_left _ hm)

/-- What a call was made for: a subscription of its scope, or an action. -/
theorem Payload.routed_cases {payload : Payload} (h : payload.routed = some call) :
    (∃ sub capability, payload = .subscribe sub ∧ call.request = .subscribe sub ∧
      sub.routedScope = some (call.scope, capability)) ∨
    ∃ req, payload = .dockerAction req ∧ call.request = .dockerAction req ∧
      call.scope = .dockerAction req.containerId req.kind := by
  unfold routed at h
  split at h
  next sub =>
    split at h
    next hscope =>
      cases Option.some.inj h
      exact .inl ⟨sub, _, rfl, rfl, hscope⟩
    next => cases h
  next req =>
    split at h
    next =>
      cases Option.some.inj h
      exact .inr ⟨req, rfl, rfl, rfl⟩
    next => cases h
  next => cases h

theorem Issued.failure_solicited (h : Issued tr c call) (reason : String) :
    Solicited tr c (call.failure reason).payload := by
  obtain ⟨payload, hm, hrouted⟩ := h
  unfold RouteCall.failure
  rcases Payload.routed_cases hrouted with ⟨sub, capability, rfl, hcall, hscope⟩ | ⟨req, rfl, hcall, -⟩
  · rw [hcall]
    exact .event hm (Subscription.mayTell_unavailable hscope reason)
  · rw [hcall]
    exact .dockerAction hm

theorem Issued.notice_solicited (h : Issued tr c call) (hostAlias : String) :
    Solicited tr c (disconnectNotice hostAlias (call.entry c)).payload := by
  obtain ⟨payload, hm, hrouted⟩ := h
  rcases Payload.routed_cases hrouted with ⟨sub, capability, rfl, hcall, hscope⟩ |
    ⟨req, rfl, hcall, hscope⟩
  · have hid : (call.entry c).clientId = sub.id := by simp [RouteCall.entry, RouteCall.clientId, hcall]
    have htell := Subscription.mayTell_unavailable hscope ("agent disconnected: " ++ hostAlias)
    unfold disconnectNotice
    dsimp only
    split
    next containerId kind heq =>
      rw [show call.scope = .dockerAction containerId kind from heq] at hscope
      cases sub <;> cases hscope
    next =>
      rw [hid]
      exact .event hm htell
  · have hid : (call.entry c).clientId = req.requestId := by
      simp [RouteCall.entry, RouteCall.clientId, hcall]
    have hentry : (call.entry c).scope = .dockerAction req.containerId req.kind := hscope
    unfold disconnectNotice
    simp only [hentry, hid]
    exact .dockerAction hm

/-- What a session answers at once answers the command. -/
theorem Session.replies_solicited {s : Session} {task : TaskId} {panes : PaneAnswers}
    {payload : Payload} {env : Envelope} (h : env ∈ (s.handleCommand task panes payload).replies)
    (hm : .commanded c payload ∈ tr) : Solicited tr c env.payload := by
  cases payload with
  | ping =>
    obtain rfl := List.mem_singleton.mp h
    exact .pong hm
  | subscribe sub =>
    cases sub with
    | status id =>
      obtain rfl := List.mem_singleton.mp h
      exact .event hm rfl
    | fleet id => cases h
    | docker _ target | dockerLogs _ _ _ _ target | dockerStats _ _ target | ports _ target
    | processes _ target => cases target <;> cases h
  | fleetAction req =>
    simp only [handleCommand] at h
    split at h
    next =>
      obtain rfl := List.mem_singleton.mp h
      exact .fleetAction hm
    next => cases h
  | dockerAction req =>
    simp only [handleCommand] at h
    split at h <;> cases h
  | openPane spec =>
    obtain rfl := List.mem_singleton.mp h
    unfold openPaneReply
    split
    next => exact .paneOpened hm
    next => split <;> exact .openFailed hm
  | listPanes =>
    obtain rfl := List.mem_singleton.mp h
    exact .paneList hm
  | attachPane paneId id =>
    simp only [handleCommand] at h
    split at h
    next => cases h
    next =>
      obtain rfl := List.mem_singleton.mp h
      exact .unknownPane hm
  | _ => cases h

theorem OwnAnswer.solicited {hostAlias : String} {env : Envelope} (h : OwnAnswer tr c hostAlias env) :
    Solicited tr c env.payload := by
  cases h with
  | event hm _ hemit => exact .event hm (Subscription.mayTell_of_mayEmit hemit)
  | @result req outcome hm _ => exact @Solicited.dockerAction _ _ req outcome .localTarget hm

/-- Every source sends its client what the client asked for. -/
theorem Sends.solicited {env : Envelope} {source : Source} (h : Run daemon AgentsAnswer tr w)
    (hs : Sends w a c env source) (hok : AgentsAnswer tr w a)
    (hcommand : ∀ payload panes, a = .command c payload panes → .commanded c payload ∈ out) :
    Solicited (tr ++ out) c env.payload := by
  have hcommanded := commanded_of_run h
  have hcalls := callsIssued_of_run h
  have hl := idLedger_of_run h
  cases hs with
  | replied _ henv =>
    exact Session.replies_solicited henv (List.mem_append_right _ (hcommand _ _ rfl))
  | @refused c call env hp henv =>
    obtain ⟨hissued, -⟩ := hcalls.call c call _ hp
    rcases henv with rfl | rfl
    · exact (hissued.failure_solicited _).old
    · exact (hissued.failure_solicited _).old
  | @failed c call k d hp => exact ((hcalls.call c call _ hp).1.failure_solicited _).old
  | @drained a k d entry _ he =>
    obtain ⟨call, hissued, heq, -⟩ := hcalls.entry k d entry (hl.entry _ _ _ he)
    rw [heq]
    exact (hissued.notice_solicited _).old
  | relayed hp he => exact (Sends.ownAnswer h (.relayed hp he) hok).solicited.old
  | answered hp he hkind => exact (Sends.ownAnswer h (.answered hp he hkind) hok).solicited.old
  | @announced j event capabilities hb =>
    exact @Solicited.event _ _ (.fleet _) _ (List.mem_append_left _ (hcommanded.supervisors j hb)) rfl
  | @emitted task c sub event htask hemit =>
    exact .event (List.mem_append_left _ (hcommanded.tasks task c sub htask))
      (Subscription.mayTell_of_mayEmit hemit)
  | @acted c req outcome hm => exact .dockerAction (List.mem_append_left _ (hcommanded.actions c req hm))

theorem commanded_first {panes : PaneAnswers} {payload : Payload} {pre post : List Obs} {env : Envelope}
    {source : Source} (h : w.step (.command c payload panes) = some (w', out))
    (hout : out = pre ++ .toClient c env source :: post) : .commanded c payload ∈ pre := by
  simp only [World.step, Option.ite_none_right_eq_some] at h
  cases Option.some.inj h.2
  cases pre with
  | nil => cases hout
  | cons o pre =>
    obtain ⟨rfl, -⟩ := List.cons_eq_cons.mp hout
    exact List.mem_cons_self

end Solicited

/-- With agents that run `serve` at the far ends, no client is sent anything by the sources here that it
did not ask for before: neither an event of another kind than its subscription's, nor a result or an
error of a command that it did not make. The greeting, status ticks, host lists, host states and the
answers to fleet actions have no source here. -/
theorem clients_hear_answers {build : ConnId → AgentBuild} {tr : List TunnelObs} {s : Tunnel}
    (h : Run (tunnel build) Free tr s) {pre post : List Obs} {c : ClientId} {env : Envelope}
    {source : Source} (htr : daemonTrace tr = pre ++ .toClient c env source :: post) :
    Solicited pre c env.payload := by
  refine (faithful_of_run h).2.observed_after (P := fun pre o => ∀ c env source,
    o = .toClient c env source → Solicited pre c env.payload) ?_ pre _ post htr c env source rfl
  rintro tr w a w' out hr hok hs pre _ post hout c env source rfl
  refine Sends.solicited hr (World.sends_of_step hs (hout ▸ List.mem_append_right _ List.mem_cons_self))
    hok fun payload panes ha => ?_
  subst ha
  exact commanded_first hs hout

theorem clients_hear_answers_refused : ∃ tr s, Run (tunnel fun _ => ⟨"linux", "x86_64"⟩) Free tr s ∧
    ∃ pre post, daemonTrace tr = pre ++ .toClient 0 (eventFrame 4 (.portsUnavailable
        "agent not connected: h")) .session :: post ∧
      Solicited pre 0 (.event 4 (.portsUnavailable "agent not connected: h")) := by
  obtain ⟨tr, s, hr, hm⟩ := Run.of_replay (tunnel fun _ => ⟨"linux", "x86_64"⟩) Free
    (fun tr _ => Obs.toClient 0 (eventFrame 4 (.portsUnavailable "agent not connected: h")) .session ∈
      daemonTrace tr) rfl
    [.daemon (.connect 0), .daemon (.command 0 (.subscribe (.ports 4 (.remote "h"))) .none),
      .daemon (.route 0)] (by decide)
  obtain ⟨pre, post, htr⟩ := List.append_of_mem hm
  exact ⟨tr, s, hr, pre, post, htr, clients_hear_answers hr htr⟩

end Tepegoz
