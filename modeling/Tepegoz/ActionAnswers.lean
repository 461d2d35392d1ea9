import Tepegoz.Deliveries
import Tepegoz.RoutedCalls

namespace Tepegoz

open Transition

/-- The request that a result claims to answer. -/
def DockerActionResult.request (result : DockerActionResult) : DockerActionRequest :=
  ⟨result.requestId, result.containerId, result.kind, result.target⟩

/-- The action that waits behind a routing entry. -/
def RoutedSub.action (e : RoutedSub) (hostAlias : String) : Option DockerActionRequest :=
  match e.scope with
  | .dockerAction containerId kind => some ⟨e.clientId, containerId, kind, .remote hostAlias⟩
  | _ => none

def Envelope.results (env : Envelope) (req : DockerActionRequest) : Bool :=
  match env.payload with
  | .dockerActionResult result => result.request = req
  | _ => false

/-- The client asks for the action. -/
def Obs.issues (c : ClientId) (req : DockerActionRequest) : Obs → Bool
  | .commanded c' payload => c' = c ∧ payload = .dockerAction req
  | _ => false

def Obs.results (c : ClientId) (req : DockerActionRequest) : Obs → Bool
  | .toClient c' env _ => c' = c ∧ env.results req
  | _ => false

def Act.answering : Act → Option (ConnId × DockerActionResult)
  | .agentFrame k ⟨_, .dockerActionResult result⟩ => some (k, result)
  | _ => none

/-- Agents answer a pending action with the request that it came from, up to the id, no drain finds a
pending action, and a send fails only for one that is still pending. -/
def ActionsEchoed (_ : List Obs) (w : World) (a : Act) : Prop :=
  (∀ s ∈ a.answering, ∀ e ∈ (w.conns s.1).routing.lookup s.2.requestId, e.kind = .oneShot →
    e.action (w.conns s.1).hostAlias = some { s.2.request with requestId := e.clientId }) ∧
  (∀ k ∈ a.draining w, ∀ entry ∈ (w.conns k).routing.entries,
    entry.2.action (w.conns k).hostAlias = none) ∧
  ∀ s ∈ a.failing w, s.2.1.kind = .oneShot →
    (w.conns s.2.2.1).routing.lookup s.2.2.2 = some (s.2.1.entry s.1)

instance (tr : List Obs) (w : World) (a : Act) : Decidable (ActionsEchoed tr w a) :=
  inferInstanceAs (Decidable (_ ∧ _ ∧ _))

/-- The client's call for the action has no routing entry yet. -/
def Session.asks (s : Session) (req : DockerActionRequest) : Bool :=
  match s.phase with
  | .routing call .lookup | .routing call (.allocated _ _) => call.request = .dockerAction req
  | _ => false

/-- The entry of the action is still there. -/
def Obs.waits (w : World) (c : ClientId) (req : DockerActionRequest) : Obs → Bool
  | .inserted k d e => e.client = c ∧ (w.conns k).routing.lookup d = some e ∧
      e.action (w.conns k).hostAlias = some req
  | _ => false

section Calls

variable {payload : Payload} {call : RouteCall} {req : DockerActionRequest} {c : ClientId}

theorem RouteCall.failure_results {reason : String} (h : (call.failure reason).results req = true) :
    call.request = .dockerAction req := by
  unfold failure at h
  split at h
  next req' heq =>
    have hreq : req' = req := of_decide_eq_true h
    rw [heq, hreq]
  next => cases h

theorem Payload.routed_action (h : payload.routed = some call)
    (hcall : call.request = .dockerAction req) :
    payload = .dockerAction req ∧ call.kind = .oneShot ∧
      (call.entry c).action call.hostAlias = some req := by
  unfold routed at h
  split at h
  next =>
    split at h
    next =>
      cases Option.some.inj h
      cases hcall
    next => cases h
  next req' =>
    split at h
    next hostAlias htarget =>
      cases Option.some.inj h
      cases hcall
      refine ⟨rfl, rfl, ?_⟩
      show some (DockerActionRequest.mk _ _ _ (.remote hostAlias)) = some req
      rw [← htarget]
      rfl
    next => cases h
  next => cases h

/-- Only an action's entry waits for an action. -/
theorem Payload.routed_entry (h : payload.routed = some call) {hostAlias : String}
    (hentry : (call.entry c).action hostAlias = some req) (halias : hostAlias = call.hostAlias) :
    call.request = .dockerAction req := by
  subst halias
  unfold routed at h
  split at h
  next sub =>
    split at h
    next hostAlias scope capability _ hscope =>
      cases Option.some.inj h
      cases sub <;> cases hscope <;> cases hentry
    next => cases h
  next req' =>
    split at h
    next hostAlias htarget =>
      cases Option.some.inj h
      have hreq : DockerActionRequest.mk req'.requestId req'.containerId req'.kind (.remote hostAlias) =
        req := Option.some.inj hentry
      rw [← htarget] at hreq
      exact congrArg RouteRequest.dockerAction hreq
    next => cases h
  next => cases h

end Calls

section Step

variable {tr out : List Obs} {w w' : World} {a : Act} {c : ClientId} {req : DockerActionRequest}

/-- Where a result comes from. -/
theorem Sends.results {env : Envelope} {source : Source} (h : Sends w a c env source)
    (hr : env.results req = true) :
    (∃ call, (w.sessions c).phase = .routing call .lookup ∧ a = .route c ∧
      call.request = .dockerAction req) ∨
    (∃ call k d, (w.sessions c).phase = .routing call (.rollback k d) ∧ a = .route c ∧
      call.request = .dockerAction req) ∨
    (∃ k, a.draining w = some k ∧ ∃ entry ∈ (w.conns k).routing.entries,
      entry.2.action (w.conns k).hostAlias ≠ none) ∨
    (∃ outcome, a = .acted c req outcome ∧ (c, req) ∈ w.actions) ∨
    ∃ k version result e, a = .agentFrame k ⟨version, .dockerActionResult result⟩ ∧
      (w.conns k).routing.lookup result.requestId = some e ∧ e.client = c ∧ e.kind = .oneShot ∧
        { result.request with requestId := e.clientId } = req := by
  cases h with
  | replied _ henv =>
    have hplain := (Session.replies_own henv).1
    obtain ⟨version, payload⟩ := env
    cases payload <;> first | cases hr | exact absurd rfl (hplain _)
  | @refused c call env hp henv =>
    have hcall : call.request = .dockerAction req := by
      rcases henv with rfl | rfl
      · exact RouteCall.failure_results hr
      · exact RouteCall.failure_results hr
    exact .inl ⟨call, hp, rfl, hcall⟩
  | @failed c call k d hp => exact .inr (.inl ⟨call, k, d, hp, rfl, RouteCall.failure_results hr⟩)
  | @drained a k d entry ha hl =>
    refine .inr (.inr (.inl ⟨k, ha, ⟨d, entry⟩, AList.mem_lookup_iff.mp hl, ?_⟩))
    unfold disconnectNotice at hr
    dsimp only at hr
    split at hr
    next containerId kind hscope =>
      unfold RoutedSub.action
      rw [hscope]
      exact Option.some_ne_none _
    next => cases hr
  | relayed => cases hr
  | @answered k version result entry _ hl hkind =>
    exact .inr (.inr (.inr (.inr
      ⟨k, version, result, entry, rfl, hl, rfl, hkind, of_decide_eq_true hr⟩)))
  | announced => cases hr
  | emitted => cases hr
  | @acted c req' outcome hm =>
    obtain rfl : req' = req := of_decide_eq_true hr
    exact .inr (.inr (.inr (.inl ⟨outcome, rfl, hm⟩)))

namespace World

theorem actions_release (c : ClientId) (id : Nat) (handle : AgentSubHandle) :
    (w.release c id handle).1.actions = w.actions := by
  unfold release
  split <;> rfl

theorem actions_routeAgentEnvelope (k : ConnId) (env : Envelope) :
    (w.routeAgentEnvelope k env).1.actions = w.actions := by
  rcases (w.routeAgentEnvelope_cases k env).1 with hw | ⟨d, hw⟩ <;> rw [hw]
  rfl

theorem actions_routeStep {call : RouteCall} {stage : CallStage}
    (h : w.routeStep c call stage = some (w', out)) : w'.actions = w.actions := by
  cases stage with
  | lookup =>
    simp only [routeStep, Option.ite_none_right_eq_some] at h
    obtain ⟨-, h⟩ := h
    split at h
    next => cases Option.some.inj h; rfl
    next => split at h <;> (cases Option.some.inj h; rfl)
  | allocated k d => cases Option.some.inj h; rfl
  | inserted k d =>
    simp only [routeStep] at h
    split at h <;> (cases Option.some.inj h; rfl)
  | rollback k d => cases Option.some.inj h; rfl

theorem actions_teardownStep (h : w.teardownStep c = some (w', out)) : w'.actions = w.actions := by
  unfold teardownStep at h
  split at h
  next =>
    simp only [Option.ite_none_right_eq_some] at h
    cases Option.some.inj h.2
    rfl
  next => cases Option.some.inj h; rfl
  next => cases Option.some.inj h; exact actions_release _ _ _
  next => cases h

theorem actions_supervisorStep {j : SupId} {event : SupEvent}
    (h : w.supervisorStep j event = some (w', out)) : w'.actions = w.actions := by
  unfold supervisorStep at h
  split at h
  case h_4 | h_7 =>
    simp only [Option.ite_none_right_eq_some] at h
    obtain ⟨-, h⟩ := h
    split at h <;> (cases Option.some.inj h; rfl)
  case h_10 =>
    split at h
    next => cases h
    next => split at h <;> (cases Option.some.inj h; rfl)
  case h_11 => cases h
  all_goals
    cases Option.some.inj h
    rfl

/-- Only commands, and the tasks themselves, change which local actions are in progress. -/
theorem actions_kept (h : w.step a = some (w', out))
    (hcommand : ∀ c payload panes, a ≠ .command c payload panes)
    (hacted : ∀ c req outcome, a ≠ .acted c req outcome) : w'.actions = w.actions := by
  cases a with
  | command c payload panes => exact absurd rfl (hcommand c payload panes)
  | acted c req outcome => exact absurd rfl (hacted c req outcome)
  | teardown c => exact actions_teardownStep h
  | supervisor j event => exact actions_supervisorStep h
  | route c =>
    simp only [step] at h
    split at h
    next => exact actions_routeStep h
    next => cases h
  | unsubscribe c =>
    simp only [step] at h
    split at h
    next =>
      simp only [Option.ite_none_right_eq_some] at h
      cases Option.some.inj h.2
      exact actions_release _ _ _
    next => cases h
  | agentFrame k env =>
    simp only [step, Option.ite_none_right_eq_some] at h
    have hw : (w.routeAgentEnvelope k env).1 = w' := congrArg Prod.fst (Option.some.inj h.2)
    rw [← hw]
    exact actions_routeAgentEnvelope k env
  | spawn j c fleetId hostAlias =>
    simp only [step] at h
    split at h
    next => cases Option.some.inj h; rfl
    next => cases h
  | emit task event =>
    simp only [step] at h
    split at h
    next =>
      simp only [Option.ite_none_right_eq_some] at h
      cases Option.some.inj h.2
      rfl
    next => cases h
  | finish task =>
    simp only [step] at h
    split at h
    next => cases Option.some.inj h; rfl
    next => cases h
  | connect | disconnect | parserEnd | driverEnd =>
    simp only [step, Option.ite_none_right_eq_some] at h
    cases Option.some.inj h.2
    rfl

end World

theorem countP_lt_countP {α : Type} {p q : α → Bool} {l : List α} {x : α}
    (hpq : ∀ y ∈ l, p y = true → q y = true) (hx : x ∈ l) (hp : p x = false) (hq : q x = true) :
    l.countP p < l.countP q := by
  obtain ⟨s, t, rfl⟩ := List.append_of_mem hx
  have hs : s.countP p ≤ s.countP q :=
    List.countP_mono_left fun y hy => hpq y (List.mem_append_left _ hy)
  have ht : t.countP p ≤ t.countP q :=
    List.countP_mono_left fun y hy => hpq y (List.mem_append_right _ (List.mem_cons_of_mem x hy))
  simp only [List.countP_append, List.countP_cons, hp, hq, if_true, Bool.false_eq_true, if_false]
  omega

variable (c req) in
/-- Entries only go away, so fewer of the old ones wait. -/
theorem RoutingStep.waits_old (h : RoutingStep w a w' out) (hl : IdLedger tr w) :
    ∀ o ∈ tr, o.waits w' c req = true → o.waits w c req = true := by
  intro o ho hw
  cases o with
  | inserted k d e =>
    obtain ⟨hc, he, haction⟩ := of_decide_eq_true hw
    have hborn : k < w.connCount := hl.born _ _ _ (hl.inserted _ _ _ ho)
    rcases h.lookup_old he with hold | hm
    · rw [h.hostAlias_kept hborn] at haction
      exact decide_eq_true ⟨hc, hold, haction⟩
    · obtain ⟨c', call, -, hp, -⟩ := h.inserted_call hm
      exact absurd ho ((hl.stage c' call _ hp).2 e)
  | _ => cases hw

variable (c req) in
/-- What a call has not put into routing yet goes there, or the step is the command that asks for it. -/
theorem RoutingStep.asks_step (h : RoutingStep w a w' out) (hl : IdLedger tr w)
    (hcalls : CallsIssued tr w) :
    ((w'.sessions c).asks req).toNat + out.countP (Obs.waits w' c req) ≤
      ((w.sessions c).asks req).toNat + out.countP (Obs.issues c req) := by
  by_cases hnew : ∃ o ∈ out, o.waits w' c req = true
  · obtain ⟨o, ho, hw⟩ := hnew
    cases o with
    | inserted k d e =>
      obtain ⟨hc, -, haction⟩ := of_decide_eq_true hw
      obtain ⟨c', call, -, hp, rfl, rfl, -, hafter⟩ := h.inserted_call ho
      obtain rfl : c' = c := hc
      obtain ⟨⟨payload, -, hrouted⟩, halias⟩ := hcalls.call c' call _ hp
      have hcall : call.request = .dockerAction req := by
        refine Payload.routed_entry hrouted haction ?_
        rw [h.hostAlias_kept (hl.stage_born hp rfl)]
        exact halias k rfl
      have hbefore : (w.sessions c').asks req = true := by
        simp [Session.asks, hp, hcall]
      have hdone : (w'.sessions c').asks req = false := by
        simp [Session.asks, hafter]
      have hone := List.countP_le_length (p := Obs.waits w' c' req)
        (l := [Obs.inserted k d (call.entry c')])
      rw [List.length_singleton] at hone
      rw [hbefore, hdone, Bool.toNat_true, Bool.toNat_false]
      omega
    | _ => cases hw
  · have hzero : out.countP (Obs.waits w' c req) = 0 :=
      List.countP_eq_zero.mpr fun o ho hw => hnew ⟨o, ho, hw⟩
    rw [hzero, Nat.add_zero]
    cases hasks : (w'.sessions c).asks req with
    | false => exact Nat.zero_le _
    | true =>
      obtain ⟨call, stage, hp, hcall, hearly⟩ : ∃ call stage,
          (w'.sessions c).phase = .routing call stage ∧ call.request = .dockerAction req ∧
            (stage = .lookup ∨ ∃ k d, stage = .allocated k d) := by
        unfold Session.asks at hasks
        split at hasks
        next call hp => exact ⟨call, _, hp, of_decide_eq_true hasks, .inl rfl⟩
        next call k d hp => exact ⟨call, _, hp, of_decide_eq_true hasks, .inr ⟨k, d, rfl⟩⟩
        next => cases hasks
      rcases h.call_cases hp with ⟨-, payload, hm, hrouted⟩ | ⟨stage', hp', hnext⟩
      · obtain ⟨rfl, -⟩ := Payload.routed_action (c := c) hrouted hcall
        have hissued : 0 < out.countP (Obs.issues c req) :=
          List.countP_pos_iff.mpr ⟨_, hm, decide_eq_true ⟨rfl, rfl⟩⟩
        rw [Bool.toNat_true]
        omega
      · have hbefore : (w.sessions c).asks req = true := by
          cases hnext with
          | same => rcases hearly with rfl | ⟨k, d, rfl⟩ <;> simp [Session.asks, hp', hcall]
          | allocated => simp [Session.asks, hp', hcall]
          | inserted => rcases hearly with heq | ⟨k, d, heq⟩ <;> cases heq
          | sendFailed => rcases hearly with heq | ⟨k, d, heq⟩ <;> cases heq
        rw [hbefore]
        exact Nat.le_add_right _ _

/-- A task is spawned for an action in answer to its own command, and nothing else. -/
theorem Session.handleCommand_acting {s : Session} {task : TaskId} {panes : PaneAnswers}
    {payload : Payload} (h : (s.handleCommand task panes payload).acting = some req) :
    payload = .dockerAction req ∧
      s.handleCommand task panes payload = ⟨s, [], none, some req⟩ := by
  cases payload with
  | dockerAction req' =>
    cases htarget : req'.target with
    | localTarget =>
      simp only [handleCommand, htarget, Option.some.injEq] at h ⊢
      subst h
      exact ⟨rfl, rfl⟩
    | remote hostAlias => simp [handleCommand, htarget, startCall] at h
  | subscribe sub =>
    cases sub with
    | status id | fleet id => cases h
    | docker _ target | dockerLogs _ _ _ _ target | dockerStats _ _ target | ports _ target
    | processes _ target => cases target <;> cases h
  | fleetAction req' =>
    simp only [handleCommand] at h
    split at h <;> cases h
  | attachPane paneId id =>
    simp only [handleCommand] at h
    split at h <;> cases h
  | _ => cases h

/-- A command leaves the actions in progress alone, or asks for one and is not answered yet. -/
theorem World.actions_commanded {payload : Payload} {panes : PaneAnswers}
    (h : w.step (.command c payload panes) = some (w', out)) :
    w'.actions = w.actions ∨ ∃ req, payload = .dockerAction req ∧
      w'.actions = (c, req) :: w.actions ∧ (w'.sessions c).phase = .ready ∧
        out = [.commanded c payload] := by
  simp only [step, Option.ite_none_right_eq_some] at h
  obtain ⟨hp, h⟩ := h
  cases Option.some.inj h
  cases hacting : ((w.sessions c).handleCommand w.taskCount panes payload).acting with
  | none =>
    left
    simp
  | some req =>
    obtain ⟨rfl, hhandled⟩ := Session.handleCommand_acting hacting
    exact .inr ⟨req, rfl, by simp, by simpa [hhandled] using hp, by simp [hhandled, replies]⟩

variable (c req) in
/-- The same for the actions that are run for the client: a local action is run for its own command. -/
theorem World.progress_step (h : w.step a = some (w', out)) (hl : IdLedger tr w)
    (hcalls : CallsIssued tr w) :
    ((w'.sessions c).asks req).toNat + w'.actions.count (c, req) + out.countP (Obs.waits w' c req) ≤
      ((w.sessions c).asks req).toNat + w.actions.count (c, req) +
        out.countP (Obs.issues c req) := by
  have hasks := (routingStep_of_step h).asks_step c req hl hcalls
  by_cases hrun : w'.actions.count (c, req) ≤ w.actions.count (c, req)
  · omega
  · cases a with
    | command c' payload panes =>
      rcases actions_commanded h with hsame | ⟨req', rfl, hnew, hready, rfl⟩
      · exact absurd (Nat.le_of_eq (hsame ▸ rfl)) hrun
      · by_cases hown : (c', req') = (c, req)
        · cases hown
          have hnone : (w'.sessions c).asks req = false := by simp [Session.asks, hready]
          rw [hnew, hnone]
          simp [Obs.waits, Obs.issues]
        · rw [hnew, List.count_cons_of_ne hown] at hrun
          exact absurd (Nat.le_refl _) hrun
    | acted c' req' outcome =>
      simp only [step, Option.ite_none_right_eq_some] at h
      cases Option.some.inj h.2
      exact absurd (List.erase_sublist.count_le _) hrun
    | _ =>
      rw [actions_kept h (by simp) (by simp)] at hrun
      exact absurd (Nat.le_refl _) hrun

/-- An answer that is delivered for an entry takes the entry with it. -/
theorem World.answered_gone {k : ConnId} {d : Nat} {version : Nat} {result : DockerActionResult}
    {e : RoutedSub} (h : w.step (.agentFrame k ⟨version, .dockerActionResult result⟩) = some (w', out))
    (he : (w.conns k).routing.lookup result.requestId = some e) (hd : d = result.requestId) :
    out.length ≤ 1 ∧ (w'.conns k).routing.lookup d = none := by
  subst hd
  simp only [step, Option.ite_none_right_eq_some] at h
  obtain ⟨-, h⟩ := h
  have hw := congrArg Prod.fst (Option.some.inj h)
  have hout := congrArg Prod.snd (Option.some.inj h)
  simp only [routeAgentEnvelope, he] at hw hout
  subst hw hout
  refine ⟨?_, ?_⟩
  · split <;> simp
  · rw [conns_setRouting_same]
    exact AList.lookup_erase _ _

variable (req) in
/-- An answer to a local action ends its task. -/
theorem World.acted_once {outcome : DockerActionOutcome}
    (h : w.step (.acted c req outcome) = some (w', out)) (hrun : (c, req) ∈ w.actions) :
    Obs.waits w' = Obs.waits w ∧ (w'.sessions c).asks req = (w.sessions c).asks req ∧
      w'.actions.count (c, req) + 1 = w.actions.count (c, req) ∧
        out.countP (Obs.waits w c req) = 0 ∧ out.length = 1 := by
  simp only [step, Option.ite_none_right_eq_some] at h
  cases Option.some.inj h.2
  have hpos : 0 < w.actions.count (c, req) := List.count_pos_iff.mpr hrun
  refine ⟨?_, rfl, ?_, rfl, rfl⟩
  · funext c' req' o
    cases o <;> rfl
  · rw [List.count_erase_self]
    omega

/-- Answers, calls that have no entry yet, local actions that run and entries that wait do not outnumber
the requests. -/
def Balanced (tr : List Obs) (w : World) (c : ClientId) (req : DockerActionRequest) : Prop :=
  tr.countP (Obs.results c req) + ((w.sessions c).asks req).toNat + w.actions.count (c, req) +
      tr.countP (Obs.waits w c req) ≤ tr.countP (Obs.issues c req)

variable (c req) in
/-- A result that is delivered uses up a call without an entry, a local action or an entry. -/
theorem World.result_paid (h : w.step a = some (w', out)) (hl : IdLedger tr w)
    (hcalls : CallsIssued tr w) (hok : ActionsEchoed tr w a) :
    out.countP (Obs.results c req) + ((w'.sessions c).asks req).toNat + w'.actions.count (c, req) +
        out.countP (Obs.waits w' c req) + tr.countP (Obs.waits w' c req) ≤
      ((w.sessions c).asks req).toNat + w.actions.count (c, req) + tr.countP (Obs.waits w c req) +
        out.countP (Obs.issues c req) := by
  have hs := routingStep_of_step h
  have hold := hs.waits_old c req hl
  have hprogress := progress_step c req h hl hcalls
  have hle : tr.countP (Obs.waits w' c req) ≤ tr.countP (Obs.waits w c req) :=
    List.countP_mono_left hold
  -- an entry that waited and is gone pays for one result
  have hpaid : ∀ k d e, .inserted k d e ∈ tr → (Obs.inserted k d e).waits w c req = true →
      (w'.conns k).routing.lookup d = none → out.length ≤ 1 →
        out.countP (Obs.results c req) + ((w'.sessions c).asks req).toNat +
            w'.actions.count (c, req) + out.countP (Obs.waits w' c req) +
              tr.countP (Obs.waits w' c req) ≤
          ((w.sessions c).asks req).toNat + w.actions.count (c, req) +
            tr.countP (Obs.waits w c req) + out.countP (Obs.issues c req) := by
    intro k d e hm hw hgone hone
    have hlost : (Obs.inserted k d e).waits w' c req = false := by
      simp [Obs.waits, hgone]
    have hlt := countP_lt_countP hold hm hlost hw
    have hresults := List.countP_le_length (p := Obs.results c req) (l := out)
    omega
  by_cases hres : ∃ o ∈ out, o.results c req = true
  · obtain ⟨o, ho, hr⟩ := hres
    cases o with
    | toClient c' env source =>
      obtain ⟨rfl, hresult⟩ := of_decide_eq_true hr
      rcases (sends_of_step h ho).results hresult with ⟨call, hp, rfl, hcall⟩ |
        ⟨call, k, d, hp, rfl, hcall⟩ | ⟨k, hk, entry, hentry, haction⟩ | ⟨outcome, rfl, hrun⟩ |
        ⟨k, version, result, e, rfl, he, hc, hkind, hreq⟩
      · obtain ⟨hone, hready⟩ := route_refused h hp
        have hafter := hready ⟨_, _, _, ho⟩
        have hbefore : (w.sessions c').asks req = true := by simp [Session.asks, hp, hcall]
        have hdone : (w'.sessions c').asks req = false := by simp [Session.asks, hafter]
        have hnone : out.countP (Obs.waits w' c' req) = 0 := by
          refine List.countP_eq_zero.mpr fun o ho' hw => ?_
          cases o with
          | inserted k d e =>
            obtain ⟨-, -, -, -, -, rfl, -⟩ := hs.inserted_call ho'
            cases List.mem_singleton.mp ho
          | _ => cases hw
        have hresults := List.countP_le_length (p := Obs.results c' req) (l := out)
        rw [actions_kept h (by simp) (by simp), hbefore, hdone, hnone, Bool.toNat_true,
          Bool.toNat_false]
        omega
      · obtain ⟨hone, hgone, -⟩ := failed_gone h hp
        obtain ⟨⟨payload, -, hrouted⟩, halias⟩ := hcalls.call c' call _ hp
        obtain ⟨-, hkind, haction⟩ := Payload.routed_action (c := c') hrouted hcall
        have hpending := hok.2.2 (c', call, k, d) (by simp [Act.failing, hp]) hkind
        refine hpaid k d _ (hl.entry _ _ _ hpending) (decide_eq_true ⟨rfl, hpending, ?_⟩) hgone hone
        rw [halias k rfl]
        exact haction
      · exact absurd (hok.2.1 k hk entry hentry) haction
      · obtain ⟨hwaits, hasks, hfewer, hnone, hone⟩ := acted_once req h hrun
        have hresults := List.countP_le_length (p := Obs.results c' req) (l := out)
        rw [hwaits, hasks]
        omega
      · obtain ⟨hone, hgone⟩ := answered_gone h he rfl
        have haction := hok.1 (k, result) rfl e he hkind
        refine hpaid k _ e (hl.entry _ _ _ he) (decide_eq_true ⟨hc, he, ?_⟩) hgone hone
        rw [haction, hreq]
    | _ => cases hr
  · have hzero : out.countP (Obs.results c req) = 0 :=
      List.countP_eq_zero.mpr fun o ho hr => hres ⟨o, ho, hr⟩
    omega

end Step

/-- In every run in which pending actions are answered by their agents, with the request that the client
made, the results that a client gets for a request do not outnumber the requests. -/
theorem actions_answered_once {tr : List Obs} {w : World} (h : Run daemon ActionsEchoed tr w)
    (c : ClientId) (req : DockerActionRequest) :
    tr.countP (Obs.results c req) ≤ tr.countP (Obs.issues c req) := by
  have hbalanced : Balanced tr w c req := by
    refine h.invariant (I := fun tr w => Balanced tr w c req) ?_ ?_
    · rintro _ rfl
      exact Nat.le_refl 0
    · intro tr w a w' out hr ih hok hs
      have hpaid := World.result_paid c req hs (idLedger_of_run hr)
        (callsIssued_of_run hr) hok
      unfold Balanced at ih ⊢
      simp only [List.countP_append]
      omega
  unfold Balanced at hbalanced
  omega

/-- Client `c` kills a container of `hostAlias`. -/
def killBy (c : ClientId) (hostAlias : String) : Act :=
  .command c (.dockerAction ⟨9, "db", .kill, .remote hostAlias⟩) .none

theorem actions_answered_once_missing : ∃ tr w, Run daemon ActionsEchoed tr w ∧
    tr.countP (Obs.results 0 ⟨9, "db", .kill, .remote "g"⟩) = 1 ∧
      1 ≤ tr.countP (Obs.issues 0 ⟨9, "db", .kill, .remote "g"⟩) := by
  obtain ⟨tr, w, hr, hone⟩ := Run.of_replay daemon ActionsEchoed
    (fun tr _ => tr.countP (Obs.results 0 ⟨9, "db", .kill, .remote "g"⟩) = 1) rfl
    (registerBy 0 0 ++ [killBy 0 "h", .route 0, .route 0, .route 0, .agentFrame 0 (envelope
      (.dockerActionResult ⟨1, "db", .kill, .success, .remote "h"⟩)), killBy 0 "g", .route 0])
    (by decide)
  have hle := actions_answered_once hr 0 ⟨9, "db", .kill, .remote "g"⟩
  rw [hone] at hle
  exact ⟨tr, w, hr, hone, hle⟩

/-- The agent answers what it was sent, an action on its own engine, and the client hears of an action
that it never asked for. -/
theorem action_answered_local : ¬ ∀ (tr : List Obs) (w : World), Run daemon Free tr w →
    ∀ c req, tr.countP (Obs.results c req) ≤ tr.countP (Obs.issues c req) := by
  intro hall
  obtain ⟨tr, w, hr, hone, hnone⟩ := Run.of_replay daemon Free
    (fun tr _ => tr.countP (Obs.results 0 ⟨9, "db", .kill, .localTarget⟩) = 1 ∧
      tr.countP (Obs.issues 0 ⟨9, "db", .kill, .localTarget⟩) = 0) rfl
    (registerBy 0 0 ++ [killBy 0 "h", .route 0, .route 0, .route 0, .agentFrame 0 (envelope
      (.dockerActionResult ⟨1, "db", .kill, .success, .localTarget⟩))]) (by decide)
  have hle := hall tr w hr 0 ⟨9, "db", .kill, .localTarget⟩
  omega

end Tepegoz
