import Tepegoz.Deliveries
import Tepegoz.RoutedRequests

namespace Tepegoz

open Transition

/-- The agent-side id under which a frame opens a subscription or asks for an action. -/
def Payload.opens : Payload → Option Nat
  | .subscribe sub => some sub.id
  | .dockerAction req => some req.requestId
  | _ => none

/-- An agent was sent the id that its frame bears. -/
def AgentsKeepToIds (tr : List Obs) (_ : World) : Act → Prop
  | .agentFrame k env => ∀ d ∈ env.payload.subject, ∃ o ∈ tr, match o with
      | .toAgent _ k' payload => k' = k ∧ payload.opens = some d
      | _ => False
  | _ => True

instance (tr : List Obs) (w : World) (a : Act) : Decidable (AgentsKeepToIds tr w a) := by
  unfold AgentsKeepToIds
  split
  next k env =>
    have (d : Nat) (o : Obs) : Decidable (match o with
        | .toAgent _ k' payload => k' = k ∧ payload.opens = some d
        | _ => False) := by
      cases o <;> dsimp only <;> infer_instance
    infer_instance
  next => exact .isTrue trivial

/-- The routing entry on whose behalf an envelope is sent. -/
def Source.routed : Source → Option (ConnId × Nat)
  | .agent k d | .drain k d | .failedCall k d => some (k, d)
  | _ => none

theorem Subscription.forwarded_id (sub : Subscription) (d : Nat) : (sub.forwarded d).id = d := by
  cases sub <;> rfl

theorem RouteCall.forwarded_opens (call : RouteCall) (d : Nat) :
    (call.forwarded d).opens = some d := by
  unfold forwarded
  cases call.request with
  | subscribe sub => exact congrArg some (sub.forwarded_id d)
  | dockerAction req => rfl

section Requests

variable {ok : List Obs → World → Act → Prop} {tr out : List Obs} {w w' : World} {c : ClientId}
  {k : ConnId} {d : Nat} {payload : Payload}

/-- A frame that opens something at an agent is that of a routed call, which is done then. -/
theorem RoutingStep.sent_cases {a : Act} (h : RoutingStep w a w' out)
    (ho : .toAgent c k payload ∈ out) (hopens : payload.opens = some d) :
    ∃ call, (w.sessions c).phase = .routing call (.inserted k d) ∧ payload = call.forwarded d ∧
      (w'.sessions c).phase = .ready ∧ out = [.toAgent c k payload] := by
  have hquiet : (∀ o ∈ out, o.quiet = true) → .toAgent c k payload ∉ out := by
    intro hq hm
    simpa [Obs.quiet] using hq _ hm
  have hreleased : ∀ {c' id handle}, .toAgent c k payload ∉ (w.release c' id handle).2 := by
    intro c' id handle hm
    rcases w.release_cases c' id handle with hr | ⟨k', -, -, hcases⟩
    · rw [hr] at hm
      cases hm
    · rcases hcases _ hm with ⟨e, -, heq⟩ | heq
      · cases heq
      · cases heq
        cases hopens
  cases h with
  | quiet _ _ _ hq => exact absurd ho (hquiet hq)
  | drained _ _ _ _ _ _ _ _ _ hq _ => exact absurd ho (hquiet hq)
  | @answered k' env _ => exact absurd ho (hquiet (w.routeAgentEnvelope_cases k' env).2)
  | born | driverEnd | connected | sendFailed | disconnected | teardownLocked | teardownDone =>
    cases ho
  | refused | allocated | inserted | rolledBack => cases List.mem_singleton.mp ho
  | commanded =>
    rcases List.mem_cons.mp ho with heq | ho
    · cases heq
    · simpa [Obs.quiet] using World.replies_quiet _ ho
  | @sent c' call k' d' _ hp _ _ =>
    cases List.mem_singleton.mp ho
    obtain rfl : d' = d := Option.some.inj ((call.forwarded_opens d').symm.trans hopens)
    exact ⟨call, hp, rfl, by simp, rfl⟩
  | unsubscribed => exact absurd ho hreleased
  | teardownNext => exact absurd ho hreleased

/-- A request at an agent was made by the client for whom its id was inserted. -/
theorem request_recorded (h : Run daemon ok tr w) (hm : .toAgent c k payload ∈ tr)
    (hopens : payload.opens = some d) :
    ∃ call : RouteCall, payload = call.forwarded d ∧ .inserted k d (call.entry c) ∈ tr := by
  refine h.invariant (I := fun tr _ => .toAgent c k payload ∈ tr →
    ∃ call : RouteCall, payload = call.forwarded d ∧ .inserted k d (call.entry c) ∈ tr)
    (fun _ _ hm => by cases hm) ?_ hm
  intro tr w a w' out hr ih _ hs hm
  rcases List.mem_append.mp hm with hm | hm
  · obtain ⟨call, heq, hins⟩ := ih hm
    exact ⟨call, heq, List.mem_append_left _ hins⟩
  · obtain ⟨call, hp, heq, -⟩ := (World.routingStep_of_step hs).sent_cases hm hopens
    exact ⟨call, heq, List.mem_append_left _ ((idLedger_of_run hr).stage c call _ hp)⟩

end Requests

section Answers

variable {tr out : List Obs} {w : World} {a : Act} {c : ClientId} {env : Envelope} {source : Source}
  {k : ConnId} {d : Nat}

/-- What is sent on behalf of an entry goes to the client of the entry, under its id. -/
theorem Sends.entry (h : Sends w a c env source) (hl : IdLedger tr w)
    (hsource : source.routed = some (k, d)) :
    ∃ e, .inserted k d e ∈ tr ∧ e.client = c ∧ env.payload.subject = some e.clientId := by
  cases h with
  | @failed c call k' d' hp =>
    cases hsource
    exact ⟨call.entry c, hl.stage c call _ hp, rfl, call.subject_failure _⟩
  | @drained a k' d' entry _ he =>
    cases hsource
    exact ⟨entry, hl.entry _ _ _ he, rfl, subject_disconnectNotice _ _⟩
  | relayed _ he =>
    cases hsource
    exact ⟨_, hl.entry _ _ _ he, rfl, rfl⟩
  | answered _ he _ =>
    cases hsource
    exact ⟨_, hl.entry _ _ _ he, rfl, rfl⟩
  | replied | refused | announced | emitted | acted => cases hsource

/-- The agent that an envelope comes from was asked for it. -/
theorem Sends.asked (h : Sends w a c env (.agent k d)) (hok : AgentsKeepToIds tr w a) :
    ∃ c' payload, .toAgent c' k payload ∈ tr ∧ payload.opens = some d := by
  have hsent : ∀ {frame : Envelope}, AgentsKeepToIds tr w (.agentFrame k frame) →
      frame.payload.subject = some d →
        ∃ c' payload, .toAgent c' k payload ∈ tr ∧ payload.opens = some d := by
    intro frame hok hsubject
    obtain ⟨o, ho, hmatch⟩ := hok d hsubject
    cases o with
    | toAgent c' k' payload =>
      obtain ⟨rfl, hopens⟩ := hmatch
      exact ⟨c', payload, ho, hopens⟩
    | _ => cases hmatch
  cases h with
  | relayed _ _ => exact hsent hok rfl
  | answered _ _ _ => exact hsent hok rfl

/-- What is sent for an agent-side id goes back to its entry and, when the agent speaks, to a request of
the entry's client. -/
def GoesBack (tr : List Obs) (k : ConnId) (d : Nat) (o : Obs) : Prop :=
  ∀ c env source, o = Obs.toClient c env source → source.routed = some (k, d) →
    ∃ e, Obs.inserted k d e ∈ tr ∧ e.client = c ∧ env.payload.subject = some e.clientId ∧
      (source = .agent k d → ∃ payload, Obs.toAgent c k payload ∈ tr ∧ payload.opens = some d)

theorem goesBack_of_run (h : Run daemon AgentsKeepToIds tr w) :
    ∀ pre o post, tr = pre ++ o :: post → GoesBack pre k d o := by
  refine h.observed_after ?_
  rintro tr w a w' out hr hok hs pre _ post hout c env source rfl hsource
  have hl := idLedger_of_run hr
  have hsends : Sends w a c env source :=
    World.sends_of_step hs (hout ▸ List.mem_append_right _ List.mem_cons_self)
  obtain ⟨e, hins, hc, hsubject⟩ := hsends.entry hl hsource
  refine ⟨e, List.mem_append_left _ hins, hc, hsubject, ?_⟩
  rintro rfl
  obtain ⟨c', payload, hsent, hopens⟩ := hsends.asked hok
  obtain ⟨call, -, hins'⟩ := request_recorded hr hsent hopens
  have he : call.entry c' = e := hl.unique _ _ _ _ hins' hins
  obtain rfl : c' = c := (congrArg RoutedSub.client he).trans hc
  exact ⟨payload, List.mem_append_left _ hsent, hopens⟩

end Answers

/-- In every run in which agents keep to the ids that they were sent, an envelope from an agent
connection goes to the client that inserted the entry, under the id it chose; an agent's envelope answers
a request of that client; and no other request ever bears the same agent-side id. -/
theorem answers_own_request {tr : List Obs} {w : World} (h : Run daemon AgentsKeepToIds tr w)
    {pre post : List Obs} {c : ClientId} {env : Envelope} {source : Source} {k : ConnId} {d : Nat}
    (htr : tr = pre ++ .toClient c env source :: post) (hsource : source.routed = some (k, d)) :
    ∃ e, .inserted k d e ∈ pre ∧ e.client = c ∧ env.payload.subject = some e.clientId ∧
      (source = .agent k d → ∃ payload, .toAgent c k payload ∈ pre ∧ payload.opens = some d) ∧
        (∀ e', .inserted k d e' ∈ tr → e' = e) ∧
          ∀ c' payload, .toAgent c' k payload ∈ tr → payload.opens = some d →
            c' = c ∧ ∃ call : RouteCall, payload = call.forwarded d ∧ call.entry c = e := by
  have hunique := (idLedger_of_run h).unique
  obtain ⟨e, hins, hc, hsubject, hasked⟩ :=
    goesBack_of_run h pre _ post htr c env source rfl hsource
  have hins' : .inserted k d e ∈ tr := htr ▸ List.mem_append_left _ hins
  refine ⟨e, hins, hc, hsubject, hasked, fun e' he' => hunique _ _ _ _ he' hins', ?_⟩
  intro c' payload hsent hopens
  obtain ⟨call, hpayload, hcall⟩ := request_recorded h hsent hopens
  have he : call.entry c' = e := hunique _ _ _ _ hcall hins'
  obtain rfl : c' = c := (congrArg RoutedSub.client he).trans hc
  exact ⟨rfl, call, hpayload, he⟩

/-- Two clients use the same id; the agent's event goes to the one that it was asked by. -/
theorem answers_own_request_shared : ∃ tr w, Run daemon AgentsKeepToIds tr w ∧
    .toAgent 0 0 (.subscribe (.docker 1 .localTarget)) ∈ tr ∧
    .toClient 1 (eventFrame 5 (.containerList [] "")) (.agent 0 2) ∈ tr ∧
    ∃ payload, .toAgent 1 0 payload ∈ tr ∧ payload.opens = some 2 := by
  obtain ⟨tr, w, hr, hother, hsent⟩ := Run.of_replay daemon AgentsKeepToIds
    (fun tr _ => Obs.toAgent 0 0 (.subscribe (.docker 1 .localTarget)) ∈ tr ∧
      Obs.toClient 1 (eventFrame 5 (.containerList [] "")) (.agent 0 2) ∈ tr) rfl
    (registerBy 0 0 ++ routeBy 0 5 ++ [Act.connect 1] ++ routeBy 1 5 ++
      [Act.agentFrame 0 (eventFrame 2 (.containerList [] ""))]) (by decide)
  obtain ⟨pre, post, htr⟩ := List.append_of_mem hsent
  obtain ⟨e, -, -, -, hasked, -⟩ := answers_own_request hr htr rfl
  obtain ⟨payload, hpayload, hopens⟩ := hasked rfl
  exact ⟨tr, w, hr, hother, hsent, payload, htr ▸ List.mem_append_left _ hpayload, hopens⟩

end Tepegoz
