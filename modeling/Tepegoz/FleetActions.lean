import Tepegoz.ForwardFleet
import Tepegoz.HandleCommand

namespace Tepegoz

open Transition

/-- The request that a result claims to answer. -/
def FleetActionResult.request (result : FleetActionResult) : FleetActionRequest :=
  ⟨result.requestId, result.hostAlias, result.kind⟩

def Envelope.fleetAnswer (env : Envelope) : Option FleetActionRequest :=
  match env.payload with
  | .fleetActionResult result => some result.request
  | _ => none

/-- The task of a Fleet subscription with the actions that wait in its channel. -/
structure FleetForwarder where
  fleet : ForwardFleet
  actions : List FleetActionRequest

/-- A client session with the one Fleet subscription it opens. -/
structure FleetSession where
  session : Session
  forwarder : Option FleetForwarder

inductive FleetSessionAct
  | command (task : TaskId) (panes : PaneAnswers) (payload : Payload)
  | coordinator (act : FleetAct)

inductive FleetObs
  | asked (req : FleetActionRequest)
  | sent (env : Envelope)

def FleetObs.request : FleetObs → Option FleetActionRequest
  | .asked req => some req
  | .sent _ => none

def FleetObs.answer : FleetObs → Option FleetActionRequest
  | .asked _ => none
  | .sent env => env.fleetAnswer

/-- The actions that the session handled, in order. -/
def askedIn (tr : List FleetObs) : List FleetActionRequest := tr.filterMap (·.request)

/-- The requests that the results sent claim to answer. -/
def answeredIn (tr : List FleetObs) : List FleetActionRequest := tr.filterMap (·.answer)

/-- The discovery gives a list of hosts, perhaps an empty one. -/
def Discovery.lists : Discovery → Bool
  | .found _ _ _ => true
  | .failed _ | .panicked => false

def Discovery.findsHosts : Discovery → Bool
  | .found hosts _ _ => !hosts.isEmpty
  | .failed _ | .panicked => false

namespace FleetForwarder

variable (f : FleetForwarder)

def spawned (id : Nat) : FleetForwarder := ⟨.new id, []⟩

/-- The coordinator is in its dispatch loop or may still come to it. -/
def Reads : Prop := f.fleet.coordinator = .discovering ∨ f.fleet.coordinator = .dispatching

/-- A coordinator that has returned has dropped its receiver, and nobody looks at the error. -/
def send (req : FleetActionRequest) : FleetForwarder :=
  if f.fleet.coordinator = .returned then f else { f with actions := f.actions ++ [req] }

/-- The coordinator goes on with `actions` in its channel. -/
def advance (act : FleetAct) (actions : List FleetActionRequest) :
    Option (FleetForwarder × List Envelope) :=
  (f.fleet.step act).map fun r => (⟨r.1, actions⟩, r.2)

/-- The select is biased: `join_next` is polled only when no action waits. -/
def step : FleetAct → Option (FleetForwarder × List Envelope)
  | .dispatch req =>
    match f.actions with
    | next :: rest => if req = next then f.advance (.dispatch req) rest else none
    | [] => none
  | .park => if f.actions = [] then f.advance .park [] else none
  | .discovered .panicked => f.advance (.discovered .panicked) []
  | act => f.advance act f.actions

end FleetForwarder

namespace FleetSession

variable (s : FleetSession)

def waiting : List FleetActionRequest :=
  match s.forwarder with
  | some f => f.actions
  | none => []

/-- Actions find somebody to answer them: without a subscription that is the session itself. -/
def Reads : Prop := ∀ f ∈ s.forwarder, f.Reads

/-- The coordinator has consumed what it will consume. -/
def Settled : Prop := s.Reads → s.waiting = []

/-- The commands that neither open a second Fleet subscription nor end the first. -/
def admits : Payload → Bool
  | .subscribe (.fleet _) => s.forwarder.isNone
  | .unsubscribe id => (s.session.fleetSubs.lookup id).isNone
  | _ => true

/-- What a routed command still awaits is not followed: it leaves `fleet_subs` alone. -/
def command (task : TaskId) (panes : PaneAnswers) (payload : Payload) :
    FleetSession × List FleetObs :=
  let handled := s.session.handleCommand task panes payload
  let sent := handled.replies.map .sent
  match payload with
  | .subscribe (.fleet id) => (⟨handled.session, some (.spawned id)⟩, sent)
  | .fleetAction req => (⟨handled.session, s.forwarder.map (·.send req)⟩, .asked req :: sent)
  | _ => (⟨handled.session, s.forwarder⟩, sent)

def step : FleetSessionAct → Option (FleetSession × List FleetObs)
  | .command task panes payload =>
    if s.admits payload then some (s.command task panes payload) else none
  | .coordinator act =>
    match s.forwarder with
    | some f => (f.step act).map fun r => ({ s with forwarder := some r.1 }, r.2.map .sent)
    | none => none

/-- No action reaches a coordinator that has stopped reading, and none waits for one that stops. -/
def Heeded : FleetSessionAct → Prop
  | .command _ _ (.fleetAction _) => s.Reads
  | .coordinator (.discovered result) => result.lists = true ∨ s.waiting = []
  | _ => True

end FleetSession

def fleetSession : System FleetSession FleetSessionAct FleetObs :=
  ⟨fun s => s.session.fleetSubs = ∅ ∧ s.forwarder = none, FleetSession.step⟩

/-- Wherever the discovery comes to an end it has found a host. -/
def FindsHosts (acts : List FleetSessionAct) : Prop :=
  ∀ result, .coordinator (.discovered result) ∈ acts → result.findsHosts = true

/-- The steps in which the coordinator takes what it will, once its discovery gives `result`. -/
def FleetSessionAct.Consumes (result : Discovery) (act : FleetSessionAct) : Prop :=
  act = .coordinator (.discovered result) ∨ ∃ req, act = .coordinator (.dispatch req)

section Observed

@[simp] theorem askedIn_append (tr tr' : List FleetObs) :
    askedIn (tr ++ tr') = askedIn tr ++ askedIn tr' :=
  List.filterMap_append

@[simp] theorem answeredIn_append (tr tr' : List FleetObs) :
    answeredIn (tr ++ tr') = answeredIn tr ++ answeredIn tr' :=
  List.filterMap_append

theorem askedIn_sent (envs : List Envelope) : askedIn (envs.map .sent) = [] := by
  rw [askedIn, List.filterMap_map]
  exact List.filterMap_eq_nil_iff.mpr fun _ _ => rfl

theorem answeredIn_sent (envs : List Envelope) :
    answeredIn (envs.map .sent) = envs.filterMap (·.fleetAnswer) := by
  rw [answeredIn, List.filterMap_map]
  rfl

end Observed

namespace ForwardFleet

variable {s s' : ForwardFleet} {out : List Envelope}

/-- The index that the sender of an alias belongs to. -/
theorem senderOf_some {hostAlias : String} {i : Nat} (h : s.senderOf hostAlias = some i) :
    ∃ host, s.hosts[i]? = some host ∧ host.hostAlias = hostAlias := by
  have hmem := (List.mem_filter.mp (List.mem_of_getLast? h)).2
  obtain ⟨host, hi, heq⟩ := Option.any_eq_true _ _ |>.mp hmem
  exact ⟨host, hi, of_decide_eq_true heq⟩

/-- Every dispatched action is answered once, whatever becomes of it. -/
theorem dispatch_answers (s : ForwardFleet) (req : FleetActionRequest) :
    (s.dispatch req).1.coordinator = s.coordinator ∧
      (s.dispatch req).2.filterMap (·.fleetAnswer) = [req] := by
  unfold dispatch
  split
  next i hsender =>
    obtain ⟨host, hi, -⟩ := senderOf_some hsender
    rw [hi]
    dsimp only
    split
    next => exact ⟨rfl, rfl⟩
    next => exact ⟨rfl, rfl⟩
  next => exact ⟨rfl, rfl⟩

theorem supervisor_silent {i : Nat} {input : HostInput}
    (h : s.step (.supervisor i input) = some (s', out)) :
    s'.coordinator = s.coordinator ∧ out.filterMap (·.fleetAnswer) = [] := by
  simp only [step] at h
  split at h
  next host hi =>
    obtain ⟨r, hr, heq⟩ := Option.map_eq_some_iff.mp h
    cases heq
    refine ⟨rfl, ?_⟩
    rw [List.filterMap_eq_nil_iff]
    intro env henv
    obtain ⟨o, ho, hsent⟩ := List.mem_filterMap.mp henv
    cases o with
    | sent env' =>
      cases hsent
      cases (FleetHost.step_speaking hr).sends env ho with
      | state => rfl
      | capabilities => rfl
    | attempt | handled | heartbeat | sessionEnded | sessionHeld | backingOff | slept => cases hsent
  next => cases h

end ForwardFleet

/-- What a step of the coordinator or of a supervisor does to the actions in the channel. -/
inductive FleetForwarder.Effect (f : FleetForwarder) :
    FleetAct → FleetForwarder → List Envelope → Prop
  | supervised {i input f' out} : out.filterMap (·.fleetAnswer) = [] → f'.actions = f.actions →
      (f'.Reads ↔ f.Reads) → Effect f (.supervisor i input) f' out
  | found {result f' out} : result.lists = true → out.filterMap (·.fleetAnswer) = [] →
      f'.actions = f.actions → f.Reads → f'.Reads → Effect f (.discovered result) f' out
  | lost {result f' out} : result.lists = false → out.filterMap (·.fleetAnswer) = [] →
      f.Reads → ¬ f'.Reads → Effect f (.discovered result) f' out
  | dispatched {req f' out} : f.actions = req :: f'.actions →
      out.filterMap (·.fleetAnswer) = [req] → f.Reads → f'.Reads → Effect f (.dispatch req) f' out
  | parked {f' out} : out.filterMap (·.fleetAnswer) = [] → f.actions = [] → f'.actions = [] →
      f.Reads → ¬ f'.Reads → Effect f .park f' out

@[simp] theorem FleetForwarder.reads_send (f : FleetForwarder) {req : FleetActionRequest} :
    (f.send req).Reads ↔ f.Reads := by
  unfold send
  split <;> rfl

theorem FleetForwarder.actions_send (f : FleetForwarder) {req : FleetActionRequest} (h : f.Reads) :
    (f.send req).actions = f.actions ++ [req] := by
  unfold send
  split
  next hreturned => simp [Reads, hreturned] at h
  next => rfl

theorem FleetForwarder.effect_of_step {f f' : FleetForwarder} {act : FleetAct}
    {out : List Envelope} (h : f.step act = some (f', out)) : f.Effect act f' out := by
  cases act with
  | discovered result =>
    cases result
    all_goals
      obtain ⟨r, hr, heq⟩ := Option.map_eq_some_iff.mp h
      obtain ⟨hd, hr⟩ := Option.ite_none_right_eq_some.mp hr
      cases hr
      cases heq
    · exact .found rfl rfl rfl (.inl hd) (.inr rfl)
    · exact .lost rfl rfl (.inl hd) (by simp [Reads, ForwardFleet.discovered])
    · exact .lost rfl rfl (.inl hd) (by simp [Reads, ForwardFleet.discovered])
  | dispatch req =>
    simp only [step] at h
    split at h
    next next rest hactions =>
      obtain ⟨rfl, hstep⟩ := Option.ite_none_right_eq_some.mp h
      obtain ⟨r, hr, heq⟩ := Option.map_eq_some_iff.mp hstep
      obtain ⟨hd, hr⟩ := Option.ite_none_right_eq_some.mp hr
      cases hr
      cases heq
      obtain ⟨hcoord, hanswer⟩ := f.fleet.dispatch_answers req
      exact .dispatched hactions hanswer (.inr hd) (.inr (hcoord.trans hd))
    next => cases h
  | park =>
    obtain ⟨hactions, h⟩ := Option.ite_none_right_eq_some.mp h
    obtain ⟨r, hr, heq⟩ := Option.map_eq_some_iff.mp h
    obtain ⟨⟨hd, -⟩, hr⟩ := Option.ite_none_right_eq_some.mp hr
    cases hr
    cases heq
    exact .parked rfl hactions rfl (.inr hd) (by simp [Reads])
  | supervisor i input =>
    obtain ⟨r, hr, heq⟩ := Option.map_eq_some_iff.mp h
    cases heq
    obtain ⟨hcoord, hanswer⟩ := ForwardFleet.supervisor_silent hr
    exact .supervised hanswer rfl (by rw [Reads, Reads, hcoord])

namespace Session

variable (s : Session) (task : TaskId) (panes : PaneAnswers)

/-- Only a `FleetAction` is answered with a result. -/
theorem replies_no_answer {payload : Payload} (h : ∀ req, payload ≠ .fleetAction req) :
    (s.handleCommand task panes payload).replies.filterMap (·.fleetAnswer) = [] := by
  unfold handleCommand
  split
  next => rfl
  next sub =>
    cases sub with
    | status id => rfl
    | fleet id => rfl
    | docker id target => cases target <;> rfl
    | dockerLogs id containerId follow tailLines target => cases target <;> rfl
    | dockerStats id containerId target => cases target <;> rfl
    | ports id target => cases target <;> rfl
    | processes id target => cases target <;> rfl
  next req => exact absurd rfl (h req)
  next => split <;> rfl
  next => rfl
  next spec =>
    unfold openPaneReply
    split
    next => rfl
    next => split <;> rfl
  next => rfl
  next => split <;> rfl
  next => rfl

theorem fleetSubs_command {payload : Payload} (hsub : ∀ id, payload ≠ .subscribe (.fleet id))
    (hun : ∀ id, payload = .unsubscribe id → s.fleetSubs.lookup id = none) :
    (s.handleCommand task panes payload).session.fleetSubs = s.fleetSubs := by
  have heffect := s.commandEffect task panes payload
  generalize (s.handleCommand task panes payload).session = s' at heffect ⊢
  cases heffect with
  | spawned sub map => cases map <;> rfl
  | routed | status | action | attached | unknownPane | unchanged => rfl
  | fleet => exact absurd rfl (hsub _)
  | unsubscribed =>
    have habsent := AList.lookup_eq_none.mp (hun _ rfl)
    exact AList.ext (List.kerase_of_notMem_keys habsent)

end Session

namespace FleetSession

variable {s s' : FleetSession} {act : FleetSessionAct} {tr out : List FleetObs}

theorem reads_of_none (h : s.forwarder = none) : s.Reads := by
  intro f hf
  rw [h] at hf
  cases hf

theorem reads_some {f : FleetForwarder} (h : s.forwarder = some f) : s.Reads ↔ f.Reads := by
  simp [Reads, h]

theorem waiting_some {f : FleetForwarder} (h : s.forwarder = some f) : s.waiting = f.actions := by
  simp [waiting, h]

theorem waiting_none (h : s.forwarder = none) : s.waiting = [] := by
  simp [waiting, h]

/-- What a step does to the actions asked for and not answered yet. -/
inductive Effect (s : FleetSession) (act : FleetSessionAct) (s' : FleetSession)
    (out : List FleetObs) : Prop
  | quiet : askedIn out = [] → answeredIn out = [] → s'.waiting = s.waiting →
      (s'.Reads ↔ s.Reads) → s.Heeded act → Effect s act s' out
  | served {req} : askedIn out = [req] → answeredIn out = [req] → s.forwarder = none →
      s'.forwarder = none → s.Heeded act → Effect s act s' out
  | queued {req} : askedIn out = [req] → answeredIn out = [] → s.Reads → s'.Reads →
      s'.waiting = s.waiting ++ [req] → s.Heeded act → Effect s act s' out
  | ignored {req} : askedIn out = [req] → answeredIn out = [] → ¬ s.Reads → ¬ s'.Reads →
      ¬ s.Heeded act → Effect s act s' out
  | dispatched {req} : askedIn out = [] → answeredIn out = [req] → s.Reads → s'.Reads →
      s.waiting = req :: s'.waiting → s.Heeded act → Effect s act s' out
  | stopped : askedIn out = [] → answeredIn out = [] → s.Reads → ¬ s'.Reads →
      (s.Heeded act ↔ s.waiting = []) → Effect s act s' out

/-- `fleet_subs` is empty as long as there is no coordinator. -/
def Held (s : FleetSession) : Prop := s.session.fleetSubs.entries = [] ↔ s.forwarder = none

/-- The commands that the subscription does not notice. -/
theorem command_other (task : TaskId) (panes : PaneAnswers) {payload : Payload}
    (hsub : ∀ id, payload ≠ .subscribe (.fleet id)) (haction : ∀ req, payload ≠ .fleetAction req) :
    s.command task panes payload =
      (⟨(s.session.handleCommand task panes payload).session, s.forwarder⟩,
        (s.session.handleCommand task panes payload).replies.map .sent) := by
  unfold command
  split
  next id => exact absurd rfl (hsub id)
  next req => exact absurd rfl (haction req)
  next => rfl

theorem held_command (task : TaskId) (panes : PaneAnswers) {payload : Payload} (h : s.Held)
    (hadmits : s.admits payload = true) : (s.command task panes payload).1.Held := by
  by_cases hopens : ∃ id, payload = .subscribe (.fleet id)
  · obtain ⟨id, rfl⟩ := hopens
    have hfull : (s.session.fleetSubs.insert id task).entries ≠ [] := by
      rw [AList.entries_insert]
      exact List.cons_ne_nil _ _
    exact iff_of_false hfull (by simp [command])
  by_cases haction : ∃ req, payload = .fleetAction req
  · obtain ⟨req, rfl⟩ := haction
    have hsame : (s.session.handleCommand task panes (.fleetAction req)).session.fleetSubs =
        s.session.fleetSubs := s.session.fleetSubs_command task panes (by simp) (by simp)
    show _ ↔ _
    simp only [command, hsame, Option.map_eq_none_iff]
    exact h
  · have hsame := s.session.fleetSubs_command task panes (not_exists.mp hopens) (by
      rintro id rfl
      exact Option.isNone_iff_eq_none.mp hadmits)
    rw [command_other task panes (not_exists.mp hopens) (not_exists.mp haction)]
    show _ ↔ _
    rw [hsame]
    exact h

theorem effect_command {task : TaskId} {panes : PaneAnswers} {payload : Payload} (h : s.Held)
    (hadmits : s.admits payload = true) (hr : s.command task panes payload = (s', out)) :
    s.Effect (.command task panes payload) s' out := by
  by_cases haction : ∃ req, payload = .fleetAction req
  · obtain ⟨req, rfl⟩ := haction
    cases hf : s.forwarder with
    | none =>
      have hrefuse : s.session.handleCommand task panes (.fleetAction req) =
          ⟨s.session, [Session.fleetActionRefused req], none, none⟩ :=
        if_pos (List.isEmpty_iff.mpr (h.mpr hf))
      simp only [command, hrefuse, hf] at hr
      cases hr
      exact .served rfl rfl hf rfl (reads_of_none hf)
    | some f =>
      have hfull : s.session.fleetSubs.entries.isEmpty = false := by
        rw [List.isEmpty_eq_false_iff]
        intro hempty
        rw [h.mp hempty] at hf
        cases hf
      have hquiet : s.session.handleCommand task panes (.fleetAction req) =
          ⟨s.session, [], none, none⟩ := by
        simp [Session.handleCommand, hfull]
      simp only [command, hquiet, hf] at hr
      cases hr
      by_cases hread : f.Reads
      · have hreads := (reads_some hf).mpr hread
        refine .queued rfl rfl hreads ?_ ?_ hreads
        · exact (reads_some rfl).mpr (f.reads_send.mpr hread)
        · rw [waiting_some hf]
          exact f.actions_send hread
      · have hdeaf := mt (reads_some hf).mp hread
        exact .ignored rfl rfl hdeaf
          (mt (reads_some rfl).mp (mt f.reads_send.mp hread)) hdeaf
  have hsilent := s.session.replies_no_answer task panes (not_exists.mp haction)
  by_cases hopens : ∃ id, payload = .subscribe (.fleet id)
  · obtain ⟨id, rfl⟩ := hopens
    have hnone := Option.isNone_iff_eq_none.mp hadmits
    cases hr
    have hreads : FleetForwarder.Reads (.spawned id) := .inl rfl
    exact .quiet rfl rfl (waiting_none hnone).symm
      (iff_of_true ((reads_some rfl).mpr hreads) (reads_of_none hnone)) trivial
  · rw [command_other task panes (not_exists.mp hopens) (not_exists.mp haction)] at hr
    cases hr
    refine .quiet (askedIn_sent _) ((answeredIn_sent _).trans hsilent) rfl Iff.rfl ?_
    cases payload with
    | fleetAction req => exact absurd ⟨req, rfl⟩ haction
    | _ => trivial

theorem effect_coordinator {fact : FleetAct} (hs : s.step (.coordinator fact) = some (s', out)) :
    s.Effect (.coordinator fact) s' out := by
  simp only [step] at hs
  split at hs
  next f hf =>
    obtain ⟨⟨f', envs⟩, hstep, heq⟩ := Option.map_eq_some_iff.mp hs
    cases heq
    have hasked := askedIn_sent envs
    have hanswered := answeredIn_sent envs
    have hreads : FleetSession.Reads { s with forwarder := some f' } ↔ f'.Reads := reads_some rfl
    have hreads' := reads_some hf
    have hwaiting := waiting_some hf
    cases FleetForwarder.effect_of_step hstep with
    | supervised hsilent hactions hsame =>
      exact .quiet hasked (hanswered.trans hsilent) (hactions.trans hwaiting.symm)
        (hreads.trans (hsame.trans hreads'.symm)) trivial
    | found hlists hsilent hactions hr hr' =>
      exact .quiet hasked (hanswered.trans hsilent) (hactions.trans hwaiting.symm)
        (iff_of_true (hreads.mpr hr') (hreads'.mpr hr)) (.inl hlists)
    | lost hlists hsilent hr hr' =>
      refine .stopped hasked (hanswered.trans hsilent) (hreads'.mpr hr) (mt hreads.mp hr') ?_
      exact or_iff_right (by simp [hlists])
    | dispatched hactions hone hr hr' =>
      exact .dispatched hasked (hanswered.trans hone) (hreads'.mpr hr) (hreads.mpr hr')
        (hwaiting.trans hactions) trivial
    | parked hsilent hempty _ hr hr' =>
      exact .stopped hasked (hanswered.trans hsilent) (hreads'.mpr hr) (mt hreads.mp hr')
        (iff_of_true trivial (hwaiting.trans hempty))
  next => cases hs

theorem effect_of_step (h : s.Held) (hs : s.step act = some (s', out)) : s.Effect act s' out := by
  cases act with
  | command task panes payload =>
    obtain ⟨hadmits, hr⟩ := Option.ite_none_right_eq_some.mp hs
    exact effect_command h hadmits (Option.some.inj hr)
  | coordinator fact => exact effect_coordinator hs

theorem held_step (h : s.Held) (hs : s.step act = some (s', out)) : s'.Held := by
  cases act with
  | command task panes payload =>
    obtain ⟨hadmits, hr⟩ := Option.ite_none_right_eq_some.mp hs
    have hheld := held_command task panes h hadmits
    rwa [Option.some.inj hr] at hheld
  | coordinator fact =>
    simp only [step] at hs
    split at hs
    next f hf =>
      obtain ⟨r, -, heq⟩ := Option.map_eq_some_iff.mp hs
      cases heq
      have hfull : s.session.fleetSubs.entries ≠ [] := fun hempty => by
        rw [h.mp hempty] at hf
        cases hf
      exact iff_of_false hfull (Option.some_ne_none _)
    next => cases hs

/-- The actions answered so far, and while anybody reads, the others in the channel. -/
structure Account (tr : List FleetObs) (s : FleetSession) : Prop where
  held : s.Held
  answered : answeredIn tr <+: askedIn tr
  reading : s.Reads → askedIn tr = answeredIn tr ++ s.waiting

/-- Nothing is lost to a coordinator that does not read. -/
def Whole (tr : List FleetObs) (s : FleetSession) : Prop :=
  ¬ s.Reads → askedIn tr = answeredIn tr

theorem whole_of_reads (h : s.Reads) : s.Whole tr := fun hn => absurd h hn

theorem account_step (h : s.Account tr) (hs : s.step act = some (s', out)) :
    s'.Account (tr ++ out) ∧ (s'.Whole (tr ++ out) ↔ s.Whole tr ∧ s.Heeded act) := by
  have hheld := held_step h.held hs
  cases effect_of_step h.held hs with
  | quiet hasked hanswered hwaiting hreads hheeded =>
    refine ⟨⟨hheld, ?_, ?_⟩, ?_⟩
    · simpa [hasked, hanswered] using h.answered
    · intro hr
      simpa [hasked, hanswered, hwaiting] using h.reading (hreads.mp hr)
    · simp [Whole, hasked, hanswered, hreads, hheeded]
  | served hasked hanswered hnone hnone' hheeded =>
    have hr := reads_of_none hnone
    have hall := h.reading hr
    rw [waiting_none hnone, List.append_nil] at hall
    refine ⟨⟨hheld, ?_, ?_⟩, ?_⟩
    · simp [hasked, hanswered, hall]
    · simp [hasked, hanswered, hall, waiting_none hnone']
    · exact iff_of_true (whole_of_reads (reads_of_none hnone')) ⟨whole_of_reads hr, hheeded⟩
  | queued hasked hanswered hr hr' hwaiting hheeded =>
    have hall := h.reading hr
    refine ⟨⟨hheld, ?_, ?_⟩, ?_⟩
    · simp [hasked, hanswered, hall]
    · simp [hasked, hanswered, hall, hwaiting]
    · exact iff_of_true (whole_of_reads hr') ⟨whole_of_reads hr, hheeded⟩
  | @ignored req hasked hanswered hr hr' hheeded =>
    have hprefix := h.answered.trans (List.prefix_append (askedIn tr) [req])
    refine ⟨⟨hheld, ?_, fun hread => absurd hread hr'⟩, ?_⟩
    · simpa [hasked, hanswered] using hprefix
    · refine iff_of_false ?_ (fun hw => hheeded hw.2)
      intro hwhole
      have hlen := congrArg List.length (hwhole hr')
      have hle := h.answered.length_le
      simp only [askedIn_append, answeredIn_append, hasked, hanswered, List.length_append,
        List.length_singleton, List.length_nil] at hlen
      omega
  | @dispatched req hasked hanswered hr hr' hwaiting hheeded =>
    have hall := h.reading hr
    rw [hwaiting] at hall
    refine ⟨⟨hheld, ?_, ?_⟩, ?_⟩
    · simp [hasked, hanswered, hall]
    · simp [hasked, hanswered, hall]
    · exact iff_of_true (whole_of_reads hr') ⟨whole_of_reads hr, hheeded⟩
  | stopped hasked hanswered hr hr' hheeded =>
    have hall := h.reading hr
    refine ⟨⟨hheld, ?_, fun hread => absurd hread hr'⟩, ?_⟩
    · simpa [hasked, hanswered] using h.answered
    · rw [hheeded, and_iff_right (whole_of_reads hr)]
      constructor
      · intro hwhole
        have hsame := hwhole hr'
        simpa [hasked, hanswered, hall] using hsame
      · intro hempty _
        simp [hasked, hanswered, hall, hempty]

/-- Every action handled is answered once, with its own id, alias and kind. -/
def Answered (tr : List FleetObs) : Prop := (answeredIn tr).Perm (askedIn tr)

theorem Account.answered_iff (h : s.Account tr) (hsettled : s.Settled) :
    Answered tr ↔ s.Whole tr := by
  constructor
  · intro hperm _
    exact (h.answered.eq_of_length hperm.length_eq).symm
  · intro hwhole
    by_cases hr : s.Reads
    · have hall := h.reading hr
      rw [hsettled hr, List.append_nil] at hall
      exact .of_eq hall.symm
    · exact .of_eq (hwhole hr).symm

end FleetSession

/-! A coordinator that has found a host never stops reading. -/

/-- A supervisor that has not left its loop and is not about to. -/
def HostPhase.listening : HostPhase → Bool
  | .returned | .shuttingDown _ .shutdown => false
  | _ => true

namespace HostSupervisor

variable {s : HostSupervisor}

theorem loopTop_listening (s : HostSupervisor) : s.loopTop.1.phase.listening = true := by
  unfold loopTop
  split <;> rfl

theorem handle_listening {action : HostAction} {r : HostSupervisor × List HostObs}
    (h : s.handle action = some r) (hl : s.phase.listening = true) :
    r.1.phase.listening = true := by
  unfold handle at h
  dsimp only at h
  split at h
  all_goals cases h
  all_goals first | exact hl | rfl | exact loopTop_listening _

/-- A supervisor stops listening only when its channel is closed. -/
theorem step_listening {input : HostInput} {r : HostSupervisor × List HostObs}
    (h : s.step input = some r) (hopen : input ≠ .closed) (hl : s.phase.listening = true) :
    r.1.phase.listening = true := by
  cases stretch_of_step h with
  | elapse => exact hl
  | start =>
    unfold start
    split
    next => rfl
    next => exact s.loopTop_listening
  | @action action r hr => exact handle_listening (r := r) hr hl
  | closed => exact absurd rfl hopen
  | connectDone outcome =>
    unfold connectDone
    split <;> rfl
  | deployed => rfl
  | heartbeat =>
    unfold heartbeat
    dsimp only
    repeat' split
    all_goals rfl
  | @agentRemoved started ended hphase =>
    cases ended with
    | heartbeatFailed => rfl
    | reconnectRequested => exact loopTop_listening _
    | disconnectRequested => exact loopTop_listening _
    | shutdown =>
      rw [hphase] at hl
      cases hl
  | slept _ _ hr =>
    subst hr
    exact loopTop_listening _

end HostSupervisor

namespace ForwardFleet

variable {s s' : ForwardFleet} {out : List Envelope}

/-- While the coordinator reads, every host that has a sender listens to it. -/
def Manned (s : ForwardFleet) : Prop :=
  s.coordinator = .discovering ∨ s.coordinator = .dispatching ∧ s.hosts ≠ [] ∧
    ∀ i host, s.hosts[i]? = some host → s.senderOf host.hostAlias = some i →
      host.supervisor.phase.listening = true

/-- Which sender an alias has depends on the aliases alone. -/
theorem senderOf_eq (s : ForwardFleet) (hostAlias : String) : s.senderOf hostAlias =
    ((List.range (s.hosts.map FleetHost.hostAlias).length).filter fun i =>
      (s.hosts.map FleetHost.hostAlias)[i]? = some hostAlias).getLast? := by
  unfold senderOf
  rw [List.length_map]
  refine congrArg List.getLast? (List.filter_congr fun i _ => ?_)
  rw [List.getElem?_map]
  cases s.hosts[i]? <;> simp

theorem senderOf_set {i : Nat} {host host' : FleetHost} (hi : s.hosts[i]? = some host)
    (halias : host'.hostAlias = host.hostAlias) (hostAlias : String) :
    senderOf { s with hosts := s.hosts.set i host' } hostAlias = s.senderOf hostAlias := by
  have hmap : (s.hosts.set i host').map FleetHost.hostAlias = s.hosts.map FleetHost.hostAlias := by
    obtain ⟨hlt, rfl⟩ := List.getElem?_eq_some_iff.mp hi
    have hlt' : i < (s.hosts.map FleetHost.hostAlias).length := by simpa using hlt
    have hget : (s.hosts.map FleetHost.hostAlias)[i] = s.hosts[i].hostAlias := List.getElem_map _
    rw [List.map_set, halias, ← hget, List.set_getElem_self]
  rw [senderOf_eq, senderOf_eq, hmap]

theorem exists_sender (h : s.hosts ≠ []) : ∃ i host, s.hosts[i]? = some host ∧
    s.senderOf host.hostAlias = some i := by
  obtain ⟨first, rest, hcons⟩ := List.exists_cons_of_ne_nil h
  have hmem : 0 ∈ (List.range s.hosts.length).filter fun i =>
      (s.hosts[i]?).any fun host => host.hostAlias = first.hostAlias := by
    simp [hcons]
  obtain ⟨i, hi⟩ := Option.ne_none_iff_exists'.mp
    (mt List.getLast?_eq_none_iff.mp (List.ne_nil_of_mem hmem))
  obtain ⟨host, hhost, halias⟩ := senderOf_some hi
  exact ⟨i, host, hhost, by rw [halias]; exact hi⟩

/-- One host goes on. -/
theorem Manned.set {i : Nat} {host host' : FleetHost} (h : s.Manned) (hi : s.hosts[i]? = some host)
    (halias : host'.hostAlias = host.hostAlias)
    (hlisten : s.senderOf host.hostAlias = some i → host.supervisor.phase.listening = true →
      host'.supervisor.phase.listening = true) :
    Manned { s with hosts := s.hosts.set i host' } := by
  refine h.imp_right fun ⟨hd, hne, hall⟩ => ⟨hd, by simpa using hne, ?_⟩
  intro j other hj hsender
  rw [senderOf_set hi halias] at hsender
  by_cases hij : i = j
  · subst hij
    rw [List.getElem?_set_self (List.getElem?_eq_some_iff.mp hi).1] at hj
    obtain rfl := Option.some.inj hj
    rw [halias] at hsender
    exact hlisten hsender (hall i host hi hsender)
  · rw [List.getElem?_set_ne hij] at hj
    exact hall j other hj hsender

theorem manned_dispatch (h : s.Manned) (req : FleetActionRequest) : (s.dispatch req).1.Manned := by
  unfold dispatch
  split
  next i _ =>
    split
    next host hi =>
      split
      next => exact h
      next => exact h.set hi rfl fun _ hl => hl
    next => exact h
  next => exact h

theorem Manned.next {act : FleetAct} (h : s.Manned)
    (hfound : ∀ result, act = .discovered result → result.findsHosts = true)
    (hs : s.step act = some (s', out)) : s'.Manned := by
  cases act with
  | discovered result =>
    obtain ⟨hd, heq⟩ := Option.ite_none_right_eq_some.mp hs
    cases result with
    | found hosts source autoconnect =>
      cases heq
      have hne := hfound _ rfl
      refine .inr ⟨rfl, by simpa [Discovery.findsHosts] using hne, ?_⟩
      intro i host hi _
      obtain ⟨entry, -, rfl⟩ := List.mem_map.mp (List.mem_of_getElem? hi)
      rfl
    | failed error => cases hfound _ rfl
    | panicked => cases hfound _ rfl
  | dispatch req =>
    obtain ⟨-, heq⟩ := Option.ite_none_right_eq_some.mp hs
    have hmanned := manned_dispatch h req
    rwa [Option.some.inj heq] at hmanned
  | park =>
    obtain ⟨⟨hd, hreturned⟩, -⟩ := Option.ite_none_right_eq_some.mp hs
    rcases h with hd' | ⟨-, hne, hall⟩
    · rw [hd] at hd'
      cases hd'
    · obtain ⟨i, host, hi, hsender⟩ := exists_sender hne
      have hl := hall i host hi hsender
      rw [hreturned host (List.mem_of_getElem? hi)] at hl
      cases hl
  | supervisor i input =>
    simp only [step] at hs
    split at hs
    next host hi =>
      obtain ⟨⟨host', obs⟩, hr, heq⟩ := Option.map_eq_some_iff.mp hs
      cases heq
      obtain ⟨hstep, hopen⟩ := FleetHost.supervisor_of_step hr
      refine h.set hi (congrArg HostEntry.hostAlias (FleetHost.step_speaking hr).entry) ?_
      intro hsender hl
      exact HostSupervisor.step_listening hstep (hopen (by simp [hsender])) hl
    next => cases hs

end ForwardFleet

theorem FleetForwarder.fleet_of_step {f f' : FleetForwarder} {act : FleetAct} {out : List Envelope}
    (h : f.step act = some (f', out)) : f.fleet.step act = some (f'.fleet, out) := by
  have hadvance : ∀ {actions}, f.advance act actions = some (f', out) →
      f.fleet.step act = some (f'.fleet, out) := by
    intro actions h
    obtain ⟨r, hr, heq⟩ := Option.map_eq_some_iff.mp h
    cases heq
    exact hr
  unfold step at h
  split at h
  next =>
    split at h
    next => exact hadvance (Option.ite_none_right_eq_some.mp h).2
    next => cases h
  next => exact hadvance (Option.ite_none_right_eq_some.mp h).2
  next => exact hadvance h
  next => exact hadvance h

namespace FleetSession

variable {s s' : FleetSession} {act : FleetSessionAct} {tr out : List FleetObs}

def Manned (s : FleetSession) : Prop := ∀ f ∈ s.forwarder, f.fleet.Manned

theorem Manned.reads (h : s.Manned) : s.Reads := fun f hf => (h f hf).imp_right And.left

theorem manned_command (task : TaskId) (panes : PaneAnswers) (payload : Payload) (h : s.Manned) :
    (s.command task panes payload).1.Manned := by
  unfold command
  split
  next id =>
    rintro _ ⟨rfl⟩
    exact .inl rfl
  next req =>
    intro f hf
    obtain ⟨f', hf', rfl⟩ := Option.map_eq_some_iff.mp hf
    have hsame : (f'.send req).fleet = f'.fleet := by
      unfold FleetForwarder.send
      split <;> rfl
    rw [hsame]
    exact h f' hf'
  next => exact h

theorem manned_next (h : s.Manned)
    (hfound : ∀ result, act = .coordinator (.discovered result) → result.findsHosts = true)
    (hs : s.step act = some (s', out)) : s'.Manned := by
  cases act with
  | command task panes payload =>
    obtain ⟨-, hr⟩ := Option.ite_none_right_eq_some.mp hs
    have hmanned := manned_command task panes payload h
    rwa [Option.some.inj hr] at hmanned
  | coordinator fact =>
    simp only [step] at hs
    split at hs
    next f hf =>
      obtain ⟨r, hr, heq⟩ := Option.map_eq_some_iff.mp hs
      cases heq
      rintro _ ⟨rfl⟩
      refine ForwardFleet.Manned.next (h f hf) ?_ (FleetForwarder.fleet_of_step hr)
      intro result heq
      exact hfound result (congrArg _ heq)
    next => cases hs

/-- If the discovery finds a host, no action is ever lost. -/
theorem heeded_of_found {acts : List FleetSessionAct} (h : s.Manned) (hfound : FindsHosts acts) :
    fleetSession.EachStep Heeded s acts := by
  refine System.EachStep.of_schedule (I := fun s acts => s.Manned ∧ FindsHosts acts) ?_ ?_
    ⟨h, hfound⟩
  · rintro s act acts s' out ⟨hm, hf⟩ hs
    refine ⟨manned_next hm ?_ hs, fun result hmem => hf result (List.mem_cons_of_mem _ hmem)⟩
    rintro result rfl
    exact hf result List.mem_cons_self
  · rintro s act acts ⟨hm, hf⟩
    unfold Heeded
    split
    next => exact hm.reads
    next result =>
      have hfinds := hf result List.mem_cons_self
      cases result with
      | found => exact .inl rfl
      | failed error => cases hfinds
      | panicked => cases hfinds
    next => trivial

/-- A coordinator in its dispatch loop empties its channel. -/
theorem consume_actions (tr : List FleetObs) {fleet : ForwardFleet}
    {actions : List FleetActionRequest} (hf : s.forwarder = some ⟨fleet, actions⟩)
    (hd : fleet.coordinator = .dispatching) :
    ∃ tr' t, fleetSession.replay Free tr s (actions.map fun req => .coordinator (.dispatch req)) =
      some (tr', t) ∧ t.waiting = [] := by
  induction actions generalizing s tr fleet with
  | nil => exact ⟨tr, s, rfl, waiting_some hf⟩
  | cons req rest ih =>
    have hstep : fleetSession.step s (.coordinator (.dispatch req)) =
        some ({ s with forwarder := some ⟨(fleet.dispatch req).1, rest⟩ },
          (fleet.dispatch req).2.map .sent) := by
      simp [fleetSession, step, hf, FleetForwarder.step, FleetForwarder.advance,
        ForwardFleet.step, hd]
    rw [List.map_cons, System.replay_cons, hstep]
    exact ih _ rfl ((fleet.dispatch_answers req).1.trans hd)

/-- Whatever the discovery gives, the coordinator comes to an end of what it consumes. -/
theorem settles (result : Discovery) (s : FleetSession) (tr : List FleetObs) :
    ∃ more tr' t, (∀ act ∈ more, act.Consumes result) ∧
      fleetSession.replay Free tr s more = some (tr', t) ∧ t.Settled := by
  have hstays : ∀ {s : FleetSession} {tr : List FleetObs}, s.Settled → ∃ more tr' t,
      (∀ act ∈ more, act.Consumes result) ∧
        fleetSession.replay Free tr s more = some (tr', t) ∧ t.Settled :=
    fun hs => ⟨[], _, _, by simp, rfl, hs⟩
  have hdispatching : ∀ (s : FleetSession) (tr : List FleetObs) (f : FleetForwarder),
      s.forwarder = some f → f.fleet.coordinator ≠ .discovering → ∃ more tr' t,
        (∀ act ∈ more, act.Consumes result) ∧
          fleetSession.replay Free tr s more = some (tr', t) ∧ t.Settled := by
    intro s tr f hf hnot
    by_cases hd : f.fleet.coordinator = .dispatching
    · obtain ⟨tr', t, hr, hempty⟩ := consume_actions tr hf hd
      refine ⟨_, tr', t, ?_, hr, fun _ => hempty⟩
      intro act hact
      obtain ⟨req, -, rfl⟩ := List.mem_map.mp hact
      exact .inr ⟨req, rfl⟩
    · exact hstays fun hr => absurd ((reads_some hf).mp hr) (not_or.mpr ⟨hnot, hd⟩)
  cases hf : s.forwarder with
  | none => exact hstays fun _ => waiting_none hf
  | some f =>
    by_cases hd : f.fleet.coordinator = .discovering
    · obtain ⟨f', out, hstep, hnot⟩ : ∃ f' out, f.step (.discovered result) = some (f', out) ∧
          f'.fleet.coordinator ≠ .discovering := by
        have hfleet : f.fleet.step (.discovered result) = some (f.fleet.discovered result) :=
          if_pos hd
        cases result
        all_goals
          refine ⟨_, _, by simp only [FleetForwarder.step, FleetForwarder.advance, hfleet]; rfl, ?_⟩
          simp [ForwardFleet.discovered]
      have hnext : fleetSession.step s (.coordinator (.discovered result)) =
          some ({ s with forwarder := some f' }, out.map .sent) := by
        simp [fleetSession, step, hf, hstep]
      obtain ⟨more, tr', t, hall, hr, hsettled⟩ :=
        hdispatching { s with forwarder := some f' } (tr ++ out.map .sent) f' rfl hnot
      refine ⟨.coordinator (.discovered result) :: more, tr', t, ?_, ?_, hsettled⟩
      · exact List.forall_mem_cons.mpr ⟨.inl rfl, hall⟩
      · rw [System.replay_cons, hnext]
        exact hr
    · exact hdispatching s tr f hf hd

end FleetSession

/-- From wherever a session is, its coordinator comes to an end of what it consumes. There every
action has been answered once exactly if the discovery found a host or no action was lost to a
coordinator that had stopped reading. -/
theorem fleet_actions_answered (result : Discovery) (s t : FleetSession) (tr : List FleetObs)
    (acts : List FleetSessionAct) (hstart : fleetSession.init s)
    (h : fleetSession.replay Free [] s acts = some (tr, t)) :
    (∃ more tr' t', (∀ act ∈ more, act.Consumes result) ∧
      fleetSession.replay Free tr t more = some (tr', t') ∧ t'.Settled) ∧
    (t.Settled → (FleetSession.Answered tr ↔
      FindsHosts acts ∨ fleetSession.EachStep FleetSession.Heeded s acts)) := by
  refine ⟨t.settles result tr, fun hsettled => ?_⟩
  obtain ⟨hsubs, hnone⟩ := hstart
  have hreads : s.Reads := FleetSession.reads_of_none hnone
  have haccount : s.Account [] :=
    ⟨iff_of_true (by rw [hsubs]; rfl) hnone, List.prefix_rfl,
      fun _ => by rw [FleetSession.waiting_none hnone]; rfl⟩
  obtain ⟨hlast, hiff⟩ := System.EachStep.iff_of_step (I := fun tr s => s.Account tr)
    (G := fun tr s => s.Whole tr) (fun _ _ _ _ _ ha hs => FleetSession.account_step ha hs)
    haccount h
  rw [hlast.answered_iff hsettled, hiff, and_iff_right (FleetSession.whole_of_reads hreads)]
  refine (or_iff_right_of_imp ?_).symm
  exact FleetSession.heeded_of_found fun f hf => by rw [hnone] at hf; cases hf

/-- A session that asks for two hosts, of which its discovery finds one. -/
theorem fleet_actions_answered_found : ∃ tr,
    askedIn tr = [⟨1, "web", .reconnect⟩, ⟨2, "db", .disconnect⟩] ∧ FleetSession.Answered tr := by
  refine ⟨_, rfl, ((fleet_actions_answered .panicked ⟨.fresh, none⟩ _ _
    [.command 0 .none (.subscribe (.fleet 5)),
      .command 0 .none (.fleetAction ⟨1, "web", .reconnect⟩),
      .coordinator (.discovered (.found [⟨"web", "web", "me", none⟩] "ssh_config" [])),
      .command 0 .none (.fleetAction ⟨2, "db", .disconnect⟩),
      .coordinator (.dispatch ⟨1, "web", .reconnect⟩),
      .coordinator (.dispatch ⟨2, "db", .disconnect⟩)]
    ⟨rfl, rfl⟩ rfl).2 fun _ => rfl).mpr (.inl ?_)⟩
  intro result hmem
  simp at hmem
  subst hmem
  rfl

/-- The coordinator of a failed discovery keeps the channel and answers nothing. -/
theorem fleet_action_unanswered : ¬ ∀ (s t : FleetSession) (tr : List FleetObs)
    (acts : List FleetSessionAct), fleetSession.init s →
    fleetSession.replay Free [] s acts = some (tr, t) → t.Settled → FleetSession.Answered tr := by
  intro hall
  have hperm := hall ⟨.fresh, none⟩ _ _
    [.command 0 .none (.subscribe (.fleet 5)), .coordinator (.discovered (.failed "no home")),
      .command 0 .none (.fleetAction ⟨1, "web", .reconnect⟩)] ⟨rfl, rfl⟩ rfl (fun hr => ?_)
  · exact absurd hperm.length_eq (by decide)
  · rcases hr _ rfl with hd | hd <;> cases hd

end Tepegoz
