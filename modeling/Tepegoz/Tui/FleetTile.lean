import Tepegoz.ForwardFleet
import Tepegoz.Lib.Runs
import Tepegoz.Tui.FleetFrames
import Tepegoz.Tui.SubIds

namespace Tepegoz

open Transition

/-- A Fleet subscription, the envelopes that are on their way from it, oldest first, and the TUI
that holds it. -/
structure FleetLink where
  fleet : ForwardFleet
  inFlight : List Envelope
  app : App

inductive FleetLinkAct
  | fleet (act : FleetAct)
  | receive (m : Moment)
  | other (m : Moment) (event : AppEvent)

/-- `received` comes with the error toasts that the envelope raised. -/
inductive FleetLinkObs
  | sent (env : Envelope)
  | received (env : Envelope) (errors : List String)
  deriving DecidableEq

def AppAction.error : AppAction → Option String
  | .showToast .error message => some message
  | _ => none

namespace FleetLink

/-- `other` is all that reaches the app besides the answers to its Fleet subscription. -/
def step (text : TextOps) (s : FleetLink) : FleetLinkAct → Option (FleetLink × List FleetLinkObs)
  | .fleet act => (s.fleet.step act).map fun r =>
    ({ s with fleet := r.1, inFlight := s.inFlight ++ r.2 }, r.2.map .sent)
  | .receive m =>
    match s.inFlight with
    | env :: rest => (s.app.handleEvent text m (.daemonEnvelope env)).map fun t =>
      ({ s with inFlight := rest, app := t.app }, [.received env (t.actions.filterMap (·.error))])
    | [] => none
  | .other m event =>
    if event.isFor s.app.fleet.subId then none
    else (s.app.handleEvent text m event).map fun t => ({ s with app := t.app }, [])

end FleetLink

def fleetLink (text : TextOps) : System FleetLink FleetLinkAct FleetLinkObs where
  init s := (∃ pane shell rows cols, App.new pane shell rows cols = some s.app) ∧
    s.fleet = .new s.app.fleet.subId ∧ s.inFlight = []
  step := FleetLink.step text

/-! What is said of a run. -/

def sentOf (tr : List FleetLinkObs) : List Envelope :=
  tr.filterMap fun
    | .sent env => some env
    | .received _ _ => none

def receivedOf (tr : List FleetLinkObs) : List Envelope :=
  tr.filterMap fun
    | .received env _ => some env
    | .sent _ => none

/-- The state that an envelope reports for a host. -/
def Envelope.stateOf (hostAlias : String) (env : Envelope) : Option (HostState × Option String) :=
  match env.payload with
  | .event _ (.hostStateChanged hostAlias' state reason) =>
    if hostAlias' = hostAlias then some (state, reason) else none
  | _ => none

/-- The states reported for a host, oldest first. -/
def emitted (hostAlias : String) (envs : List Envelope) : List (HostState × Option String) :=
  envs.filterMap (·.stateOf hostAlias)

def lastState (hostAlias : String) (envs : List Envelope) : Option HostState :=
  (emitted hostAlias envs).getLast?.map (·.1)

/-- The maximal runs of consecutive equal states that are terminal and have a reason, each by its
first report. -/
def terminalRuns (states : List (HostState × Option String)) : List (HostState × Option String) :=
  (Runs.starts (·.1) states).filter fun report => report.1.isTerminal && report.2.isSome

def toastText (hostAlias : String) (report : HostState × Option String) : Option String :=
  report.2.bind fun reason => Turn.terminalText hostAlias reason report.1

/-- The error toasts that the reported states of a host raised. -/
def raised (hostAlias : String) (tr : List FleetLinkObs) : List String :=
  tr.flatMap fun
    | .received env errors => if (env.stateOf hostAlias).isSome then errors else []
    | .sent _ => []

section Lists

variable (hostAlias : String) (envs : List Envelope) (env : Envelope)

theorem emitted_concat : emitted hostAlias (envs ++ [env]) =
    emitted hostAlias envs ++ (env.stateOf hostAlias).toList := by
  rw [emitted, emitted, List.filterMap_append]
  cases h : env.stateOf hostAlias <;> simp [h]

theorem lastState_concat : lastState hostAlias (envs ++ [env]) =
    ((env.stateOf hostAlias).map (·.1)).or (lastState hostAlias envs) := by
  rw [lastState, emitted_concat]
  cases h : env.stateOf hostAlias <;> simp [lastState]

theorem stateOf_hostList {id : Nat} {hosts : List HostEntry} {source : String} :
    (hostListEnvelope id hosts source).stateOf hostAlias = none := rfl

theorem emitted_hostList {id : Nat} {hosts : List HostEntry} {source : String} :
    emitted hostAlias (hostListEnvelope id hosts source :: envs) = emitted hostAlias envs := rfl

/-- No terminal state is mistaken for the state in which a host starts out. -/
theorem or_disconnected_eq_some {last : Option HostState} {state : HostState} {listed : Prop}
    [Decidable listed] (h : state.isTerminal = true) :
    last.or (if listed then some .disconnected else none) = some state ↔ last = some state := by
  have hcalm : HostState.disconnected ≠ state := by
    rintro rfl
    cases h
  cases last with
  | some last => rfl
  | none =>
    rw [Option.none_or]
    split <;> simp [hcalm]

theorem toastText_isSome {report : HostState × Option String}
    (h : (report.1.isTerminal && report.2.isSome) = true) :
    ∃ text, toastText hostAlias report = some text := by
  obtain ⟨state, reason⟩ := report
  obtain ⟨hterminal, hreason⟩ := Bool.and_eq_true_iff.mp h
  obtain ⟨reason, rfl⟩ := Option.isSome_iff_exists.mp hreason
  cases state
  all_goals first | exact ⟨_, rfl⟩ | cases hterminal

theorem terminalRuns_concat (states : List (HostState × Option String))
    (report : HostState × Option String) : terminalRuns (states ++ [report]) =
      terminalRuns states ++ if (report.1.isTerminal && report.2.isSome) = true ∧
        states.getLast?.map (·.1) ≠ some report.1 then [report] else [] := by
  rw [terminalRuns, terminalRuns, Runs.starts_concat, List.filter_append]
  congr 1
  by_cases hlast : states.getLast?.map (·.1) = some report.1
  · rw [if_pos hlast, if_neg (fun h => h.2 hlast)]
    rfl
  · rw [if_neg hlast, List.filter_singleton, Bool.cond_eq_ite]
    simp only [hlast, ne_eq, not_false_eq_true, and_true]

end Lists

/-! How the app takes what its Fleet subscription is sent. -/

theorem App.recipient_fleetSub {a : App} (h : a.core.ids.Nodup) :
    a.recipient a.fleet.subId = some .fleet := by
  cases hr : a.recipient a.fleet.subId with
  | none =>
    unfold recipient at hr
    simp only [if_true] at hr
    repeat' split at hr
    all_goals cases hr
  | some r =>
    obtain ⟨k, hk, hcomponent⟩ : ∃ k ∈ a.core.consumers ⟨0, .event a.fleet.subId .status⟩,
        r.component a = some k := App.recipient_consumes hr
    have hfleet : .fleet ∈ a.core.consumers ⟨0, .event a.fleet.subId .status⟩ :=
      List.mem_map.mpr ⟨(.fleet, a.fleet.subId),
        List.mem_filter.mpr ⟨by simp [Core.holdings, App.core], by simp⟩, rfl⟩
    have hone := Core.consumers_length h ⟨0, .event a.fleet.subId .status⟩
    have hsame : k = .fleet := by
      revert hk hfleet hone
      rcases a.core.consumers ⟨0, .event a.fleet.subId .status⟩ with _ | ⟨k₁, _ | ⟨k₂, ks⟩⟩
      · intro hk
        cases hk
      · intro hk hfleet _
        rw [List.mem_singleton.mp hk, List.mem_singleton.mp hfleet]
      · intro _ _ hone
        simp at hone
    subst hsame
    cases r with
    | fleet => rfl
    | pane idx =>
      obtain ⟨p, -, hp⟩ := Option.map_eq_some_iff.mp hcomponent
      cases hp
    | panel v => cases v <;> cases hcomponent
    | logs => cases hcomponent

theorem Core.Move.fleetSub {causes : Set Cause} {c c' : Core} (h : Move causes c c') :
    c'.fleetSub = c.fleetSub := by
  cases h <;> rfl

theorem Turn.Moves.fleetSub {causes : Set Cause} {t u : Turn} (h : Turn.Moves causes t u) :
    u.app.fleet.subId = t.app.fleet.subId := by
  induction h with
  | refl => rfl
  | emit _ _ ih => exact ih
  | edit _ hf ih => exact (congrArg Core.fleetSub hf).trans ih
  | step _ hf ih => exact hf.fleetSub.trans ih
  | opened _ _ _ ih => exact ih
  | acted _ _ ih => exact ih

namespace App

variable {text : TextOps} {m : Moment} {a : App} {t : Turn}

/-- A host that is on the list starts out disconnected. -/
theorem lookup_seededStates {f : FleetScope} (h : f.state = .connecting) (hosts : List HostEntry)
    (hostAlias : String) : (Turn.seededStates f hosts).lookup hostAlias =
      if hostAlias ∈ hosts.map (·.hostAlias) then some .disconnected else none := by
  have hfold : ∀ (hosts : List HostEntry) (states : HostMap HostState),
      (hosts.foldl (fun states host => states.insert host.hostAlias
        (((∅ : HostMap HostState).lookup host.hostAlias).getD .disconnected)) states).lookup hostAlias =
      if hostAlias ∈ hosts.map (·.hostAlias) then some .disconnected else states.lookup hostAlias := by
    intro hosts
    induction hosts with
    | nil => simp
    | cons host hosts ih =>
      intro states
      rw [List.foldl_cons, ih, List.map_cons]
      by_cases hmem : hostAlias ∈ hosts.map (·.hostAlias)
      · rw [if_pos hmem, if_pos (List.mem_cons_of_mem _ hmem)]
      · rw [if_neg hmem]
        by_cases heq : hostAlias = host.hostAlias
        · rw [if_pos (List.mem_cons.mpr (.inl heq)), heq, AList.lookup_insert]
          rfl
        · rw [if_neg (fun h => (List.mem_cons.mp h).elim heq hmem), AList.lookup_insert_ne heq]
  unfold Turn.seededStates
  rw [h]
  exact hfold hosts ∅

theorem handleEvent_hostList (hr : a.recipient a.fleet.subId = some .fleet) {hosts : List HostEntry}
    {source : String}
    (h : a.handleEvent text m (.daemonEnvelope (hostListEnvelope a.fleet.subId hosts source)) =
      some t) :
    t.app.fleet.state = .available hosts (Turn.seededStates a.fleet hosts) source := by
  simp only [handleEvent, Turn.handleDaemonEnvelope, hostListEnvelope, eventFrame, envelope,
    Turn.handleEventFrame, hr] at h
  cases h
  rfl

theorem handleEvent_hostState (hr : a.recipient a.fleet.subId = some .fleet) {hosts : List HostEntry}
    {states : HostMap HostState} {source hostAlias : String} {state : HostState}
    {reason : Option String} (hstate : a.fleet.state = .available hosts states source)
    (h : a.handleEvent text m (.daemonEnvelope
      (eventFrame a.fleet.subId (.hostStateChanged hostAlias state reason))) = some t) :
    t.app.fleet.state = .available hosts (states.insert hostAlias state) source ∧
      (t.actions.filterMap (·.error)).map some =
        if (state.isTerminal && reason.isSome) = true ∧ states.lookup hostAlias ≠ some state then
          [toastText hostAlias (state, reason)] else [] := by
  simp only [handleEvent, Turn.handleDaemonEnvelope, eventFrame, envelope,
    Turn.handleEventFrame, hr, Turn.handleFleetEvent, hstate] at h
  cases reason with
  | none =>
    cases h
    rw [if_neg (by simp)]
    exact ⟨rfl, rfl⟩
  | some reason =>
    simp only [Option.some.injEq] at h
    split at h
    next hquiet =>
      subst h
      refine ⟨rfl, ?_⟩
      rw [if_neg ?_]
      · rfl
      · rintro ⟨hterminal, hnew⟩
        rcases hquiet with hcalm | hsame
        · simp [hcalm] at hterminal
        · exact hnew hsame
    next hloud =>
      obtain ⟨hterminal, hnew⟩ := not_or.mp hloud
      have hreport : ((state, some reason).1.isTerminal && (state, some reason).2.isSome) = true := by
        simpa using hterminal
      obtain ⟨text, htext⟩ := toastText_isSome hostAlias hreport
      rw [if_pos ⟨hreport, hnew⟩, htext]
      split at h
      next message hmessage =>
        subst h
        refine ⟨rfl, ?_⟩
        have hsame : message = text := Option.some.inj (hmessage.symm.trans htext)
        rw [hsame]
        rfl
      next hnone => exact absurd (hnone.symm.trans htext) (by simp)

theorem handleEvent_capabilities (hr : a.recipient a.fleet.subId = some .fleet) {hostAlias : String}
    {capabilities : List String}
    (h : a.handleEvent text m (.daemonEnvelope
      (eventFrame a.fleet.subId (.agentCapabilities hostAlias capabilities))) = some t) :
    KeepsFleet a t.app := by
  simp only [handleEvent, Turn.handleDaemonEnvelope, eventFrame, envelope,
    Turn.handleEventFrame, hr] at h
  cases h
  rfl

end App

/-- The tile after what it was sent: nothing yet, or the list with the last state of every host. -/
def ShownAfter (id : Nat) (received : List Envelope) (state : FleetScopeState) : Prop :=
  (received = [] ∧ state = .connecting) ∨
    ∃ hosts source news states, received = hostListEnvelope id hosts source :: news ∧
      state = .available hosts states source ∧ ∀ hostAlias, states.lookup hostAlias =
        (lastState hostAlias news).or
          (if hostAlias ∈ hosts.map (·.hostAlias) then some .disconnected else none)

structure FleetLink.Kept (tr : List FleetLinkObs) (s : FleetLink) : Prop where
  announced : s.fleet.Announced (sentOf tr)
  subscription : s.fleet.subscriptionId = s.app.fleet.subId
  in_order : sentOf tr = receivedOf tr ++ s.inFlight
  ids : IdSupply.Sound s.app.core.ids s.app.nextSubId
  shown : ShownAfter s.app.fleet.subId (receivedOf tr) s.app.fleet.state
  toasts : ∀ hostAlias, (raised hostAlias tr).map some =
    (terminalRuns (emitted hostAlias (receivedOf tr))).map (toastText hostAlias)

section Trace

variable {tr : List FleetLinkObs} {envs : List Envelope} {env : Envelope} {errors : List String}
  {hostAlias : String}

theorem sentOf_sent : sentOf (tr ++ envs.map .sent) = sentOf tr ++ envs := by
  simp [sentOf, List.filterMap_append, List.filterMap_map]

theorem sentOf_received : sentOf (tr ++ [.received env errors]) = sentOf tr := by
  simp [sentOf]

theorem receivedOf_sent : receivedOf (tr ++ envs.map .sent) = receivedOf tr := by
  simp [receivedOf, List.filterMap_append, List.filterMap_map]

theorem receivedOf_received :
    receivedOf (tr ++ [.received env errors]) = receivedOf tr ++ [env] := by
  simp [receivedOf]

theorem raised_sent : raised hostAlias (tr ++ envs.map .sent) = raised hostAlias tr := by
  simp [raised, List.flatMap_append, List.flatMap_map]

theorem raised_received : raised hostAlias (tr ++ [.received env errors]) =
    raised hostAlias tr ++ if (env.stateOf hostAlias).isSome then errors else [] := by
  simp [raised, List.flatMap_append]

end Trace

namespace FleetLink

variable {text : TextOps} {tr : List FleetLinkObs} {s s' : FleetLink} {out : List FleetLinkObs}

/-- An envelope arrives; what is left to say is what the app makes of it. -/
theorem Kept.receive {env : Envelope} {rest : List Envelope} {t : Turn} {m : Moment}
    (h : s.Kept tr) (hflight : s.inFlight = env :: rest)
    (ht : s.app.handleEvent text m (.daemonEnvelope env) = some t)
    (hshown : ShownAfter s.app.fleet.subId (receivedOf tr ++ [env]) t.app.fleet.state)
    (htoasts : ∀ hostAlias,
      (raised hostAlias (tr ++ [.received env (t.actions.filterMap (·.error))])).map some =
        (terminalRuns (emitted hostAlias (receivedOf tr ++ [env]))).map (toastText hostAlias)) :
    ({ s with inFlight := rest, app := t.app } : FleetLink).Kept
      (tr ++ [.received env (t.actions.filterMap (·.error))]) := by
  have hmoves := App.handleEvent_moves ht
  have hsub : t.app.fleet.subId = s.app.fleet.subId := hmoves.fleetSub
  constructor
  · rw [sentOf_received]
    exact h.announced
  · exact h.subscription.trans hsub.symm
  · rw [sentOf_received, receivedOf_received, h.in_order, hflight, List.append_assoc]
    rfl
  · exact hmoves.evolves.sound h.ids
  · rw [receivedOf_received, hsub]
    exact hshown
  · rw [receivedOf_received]
    exact htoasts

/-- An envelope that says nothing of the state of a host changes nothing that is shown. -/
theorem Kept.receive_other {env : Envelope} {rest : List Envelope} {t : Turn} {m : Moment}
    (h : s.Kept tr) (hflight : s.inFlight = env :: rest)
    (ht : s.app.handleEvent text m (.daemonEnvelope env) = some t)
    (hfleet : KeepsFleet s.app t.app) (hstate : ∀ hostAlias, env.stateOf hostAlias = none)
    (hlisted : receivedOf tr ≠ []) :
    ({ s with inFlight := rest, app := t.app } : FleetLink).Kept
      (tr ++ [.received env (t.actions.filterMap (·.error))]) := by
  refine h.receive hflight ht ?_ ?_
  · rw [show t.app.fleet.state = s.app.fleet.state from hfleet]
    rcases h.shown with ⟨hnone, -⟩ | ⟨hosts, source, news, states, hreceived, havailable, hlookup⟩
    · exact absurd hnone hlisted
    · refine .inr ⟨hosts, source, news ++ [env], states, by rw [hreceived]; rfl, havailable, ?_⟩
      intro hostAlias
      rw [lastState_concat, hstate hostAlias]
      exact hlookup hostAlias
  · intro hostAlias
    rw [raised_received, emitted_concat, hstate hostAlias]
    simpa using h.toasts hostAlias

theorem Kept.listFirst (h : s.Kept tr) (hsent : sentOf tr ≠ []) :
    ForwardFleet.ListFirst s.fleet.subscriptionId (sentOf tr) := by
  have hlisted := h.announced.listed
  split at hlisted
  next => exact absurd hlisted.1 hsent
  next => exact hlisted

/-- The first envelope that arrives is the list, and the others are news. -/
theorem Kept.next {env : Envelope} {rest : List Envelope} (h : s.Kept tr)
    (hflight : s.inFlight = env :: rest) :
    (receivedOf tr = [] ∧ ∃ hosts source, env = hostListEnvelope s.app.fleet.subId hosts source) ∨
      (receivedOf tr ≠ [] ∧ FleetNews s.app.fleet.subId env) := by
  have horder := h.in_order
  rw [hflight] at horder
  obtain ⟨hosts, source, news, hsent, hnews⟩ := h.listFirst (by simp [horder])
  rw [h.subscription] at hsent hnews
  rw [hsent] at horder
  cases hreceived : receivedOf tr with
  | nil =>
    rw [hreceived] at horder
    obtain ⟨hfirst, -⟩ := List.cons_eq_cons.mp horder
    exact .inl ⟨rfl, hosts, source, hfirst.symm⟩
  | cons first earlier =>
    rw [hreceived] at horder
    obtain ⟨-, hlater⟩ := List.cons_eq_cons.mp horder
    exact .inr ⟨by simp, hnews env (by simp [hlater])⟩

theorem Kept.receive_list {hosts : List HostEntry} {source : String} {rest : List Envelope}
    {t : Turn} {m : Moment} (h : s.Kept tr) (hreceived : receivedOf tr = [])
    (hflight : s.inFlight = hostListEnvelope s.app.fleet.subId hosts source :: rest)
    (ht : s.app.handleEvent text m
      (.daemonEnvelope (hostListEnvelope s.app.fleet.subId hosts source)) = some t) :
    ({ s with inFlight := rest, app := t.app } : FleetLink).Kept
      (tr ++ [.received (hostListEnvelope s.app.fleet.subId hosts source)
        (t.actions.filterMap (·.error))]) := by
  have hconnecting : s.app.fleet.state = .connecting := by
    rcases h.shown with ⟨-, hconnecting⟩ | ⟨_, _, _, _, hlisted, -⟩
    · exact hconnecting
    · simp [hreceived] at hlisted
  refine h.receive hflight ht ?_ ?_
  · rw [hreceived]
    refine .inr ⟨hosts, source, [], _, rfl,
      App.handleEvent_hostList (App.recipient_fleetSub h.ids.nodup) ht, ?_⟩
    intro hostAlias
    exact App.lookup_seededStates hconnecting hosts hostAlias
  · intro hostAlias
    rw [raised_received, emitted_concat, stateOf_hostList]
    simpa using h.toasts hostAlias

theorem Kept.receive_state {hostAlias : String} {state : HostState} {reason : Option String}
    {rest : List Envelope} {t : Turn} {m : Moment} (h : s.Kept tr) (hlisted : receivedOf tr ≠ [])
    (hflight : s.inFlight =
      eventFrame s.app.fleet.subId (.hostStateChanged hostAlias state reason) :: rest)
    (ht : s.app.handleEvent text m (.daemonEnvelope
      (eventFrame s.app.fleet.subId (.hostStateChanged hostAlias state reason))) = some t) :
    ({ s with inFlight := rest, app := t.app } : FleetLink).Kept
      (tr ++ [.received (eventFrame s.app.fleet.subId (.hostStateChanged hostAlias state reason))
        (t.actions.filterMap (·.error))]) := by
  have hstateOf : ∀ other, (eventFrame s.app.fleet.subId
      (.hostStateChanged hostAlias state reason)).stateOf other =
        if hostAlias = other then some (state, reason) else none := fun _ => rfl
  obtain ⟨hnone, -⟩ | ⟨hosts, source, news, states, hreceived, havailable, hlookup⟩ := h.shown
  · exact absurd hnone hlisted
  obtain ⟨hnext, htoasts⟩ := App.handleEvent_hostState (App.recipient_fleetSub h.ids.nodup)
    havailable ht
  have hemitted : ∀ other, emitted other (receivedOf tr) = emitted other news := by
    intro other
    rw [hreceived, emitted_hostList]
  refine h.receive hflight ht ?_ ?_
  · refine .inr ⟨hosts, source, news ++ [_], _, by rw [hreceived]; rfl, hnext, ?_⟩
    intro other
    rw [lastState_concat, hstateOf]
    by_cases heq : hostAlias = other
    · subst heq
      rw [if_pos rfl, AList.lookup_insert]
      rfl
    · rw [if_neg heq, AList.lookup_insert_ne (Ne.symm heq)]
      exact hlookup other
  · intro other
    rw [raised_received, emitted_concat, hstateOf]
    by_cases heq : hostAlias = other
    · subst heq
      have hgate : (state.isTerminal && reason.isSome) = true →
          (states.lookup hostAlias = some state ↔
            (emitted hostAlias (receivedOf tr)).getLast?.map (·.1) = some state) := by
        intro hreport
        rw [hlookup, hemitted]
        exact or_disconnected_eq_some (Bool.and_eq_true_iff.mp hreport).1
      rw [if_pos rfl, Option.isSome_some, if_pos rfl, Option.toList_some, List.map_append,
        h.toasts hostAlias, htoasts, terminalRuns_concat, List.map_append]
      congr 1
      by_cases hreport : (state.isTerminal && reason.isSome) = true
      · simp only [hreport, true_and, ne_eq, hgate hreport]
        split <;> rfl
      · rw [if_neg (fun h => hreport h.1), if_neg (fun h => hreport h.1)]
        rfl
    · rw [if_neg heq]
      simpa using h.toasts other

theorem kept_step {act : FleetLinkAct} (h : s.Kept tr) (hs : s.step text act = some (s', out)) :
    s'.Kept (tr ++ out) := by
  cases act with
  | fleet act =>
    obtain ⟨r, hr, heq⟩ := Option.map_eq_some_iff.mp hs
    cases heq
    obtain ⟨hid, hannounced⟩ := ForwardFleet.announced_step h.announced hr
    constructor
    · rw [sentOf_sent]
      exact hannounced
    · exact hid.trans h.subscription
    · rw [sentOf_sent, receivedOf_sent, h.in_order, List.append_assoc]
    · exact h.ids
    · rw [receivedOf_sent]
      exact h.shown
    · intro hostAlias
      rw [raised_sent, receivedOf_sent]
      exact h.toasts hostAlias
  | receive m =>
    simp only [step] at hs
    split at hs
    next env rest hflight =>
      obtain ⟨t, ht, heq⟩ := Option.map_eq_some_iff.mp hs
      cases heq
      rcases h.next hflight with ⟨hreceived, hosts, source, rfl⟩ | ⟨hlisted, hnews⟩
      · exact h.receive_list hreceived hflight ht
      · cases hnews with
        | state => exact h.receive_state hlisted hflight ht
        | capabilities =>
          exact h.receive_other hflight ht
            (App.handleEvent_capabilities (App.recipient_fleetSub h.ids.nodup) ht)
            (fun _ => rfl) hlisted
        | result =>
          exact h.receive_other hflight ht (App.handleEvent_fleet ht rfl) (fun _ => rfl) hlisted
    next => cases hs
  | other m event =>
    simp only [step] at hs
    split at hs
    next => cases hs
    next hother =>
      obtain ⟨t, ht, heq⟩ := Option.map_eq_some_iff.mp hs
      cases heq
      have hmoves := App.handleEvent_moves ht
      have hsub : t.app.fleet.subId = s.app.fleet.subId := hmoves.fleetSub
      have hfleet : t.app.fleet.state = s.app.fleet.state :=
        App.handleEvent_fleet ht (Bool.eq_false_iff.mpr hother)
      rw [List.append_nil]
      refine ⟨h.announced, h.subscription.trans hsub.symm, h.in_order, hmoves.evolves.sound h.ids,
        ?_, h.toasts⟩
      rw [hsub, hfleet]
      exact h.shown

end FleetLink

theorem fleetLink_kept {text : TextOps} {tr : List FleetLinkObs} {s : FleetLink}
    (h : Run (fleetLink text) Free tr s) : s.Kept tr := by
  refine h.invariant (I := fun tr s => s.Kept tr) ?_ fun _ _ _ _ _ _ hk _ hs =>
    FleetLink.kept_step hk hs
  rintro s ⟨⟨pane, shell, rows, cols, happ⟩, hfleet, hflight⟩
  have hconnecting : s.app.fleet.state = .connecting := by
    obtain ⟨layout, -, hnew⟩ := Option.bind_eq_some_iff.mp happ
    rw [← Option.some.inj hnew]
    rfl
  constructor
  · rw [hfleet]
    exact ⟨by simp [ForwardFleet.new], rfl, rfl⟩
  · rw [hfleet]
    rfl
  · rw [hflight]
    rfl
  · exact App.new_sound happ
  · exact .inl ⟨rfl, hconnecting⟩
  · intro hostAlias
    rfl

/-- Once the app has handled all that its Fleet subscription was sent, its tile shows the list of
hosts and of every host the last reported state, and there was one error toast for each maximal run
of equal terminal states with a reason. -/
theorem fleet_tile_shows {text : TextOps} {tr : List FleetLinkObs} {s : FleetLink}
    (h : Run (fleetLink text) Free tr s) {hosts : List HostEntry} {source : String}
    (hlist : hostListEnvelope s.app.fleet.subId hosts source ∈ sentOf tr) (hidle : s.inFlight = []) :
    (∃ states, s.app.fleet.state = .available hosts states source ∧
      ∀ host ∈ hosts, states.lookup host.hostAlias =
        some ((lastState host.hostAlias (sentOf tr)).getD .disconnected)) ∧
    ∀ hostAlias, (raised hostAlias tr).map some =
      (terminalRuns (emitted hostAlias (sentOf tr))).map (toastText hostAlias) := by
  have hkept := fleetLink_kept h
  have hall : sentOf tr = receivedOf tr := by
    rw [hkept.in_order, hidle, List.append_nil]
  refine ⟨?_, ?_⟩
  · obtain ⟨hosts', source', news, hsent, hnews⟩ := hkept.listFirst (List.ne_nil_of_mem hlist)
    rw [hkept.subscription] at hsent hnews
    have hsame : hosts = hosts' ∧ source = source' := by
      rw [hsent] at hlist
      rcases List.mem_cons.mp hlist with heq | hmem
      · cases heq
        exact ⟨rfl, rfl⟩
      · cases hnews _ hmem
    obtain ⟨rfl, rfl⟩ := hsame
    rcases hkept.shown with ⟨hnone, -⟩ | ⟨hosts', source', news', states, hreceived, havailable, hlookup⟩
    · rw [← hall, hsent] at hnone
      cases hnone
    · rw [← hall, hsent] at hreceived
      cases hreceived
      refine ⟨states, havailable, ?_⟩
      intro host hhost
      rw [hlookup, if_pos (List.mem_map_of_mem hhost), hsent, lastState, lastState,
        emitted_hostList]
      cases (emitted host.hostAlias news).getLast? <;> rfl
  · intro hostAlias
    rw [hall]
    exact hkept.toasts hostAlias

def jumpHost : HostEntry := ⟨"db", "db.example", "ops", some "bastion"⟩

/-- A host that is only reachable through a jump host is asked to reconnect: it reports its failure
twice, and there is one toast. -/
theorem fleet_tile_shows_once : ∃ tr s, Run (fleetLink .ascii) Free tr s ∧
    (emitted "db" (sentOf tr)).length = 2 ∧ (raised "db" tr).length = 1 ∧
    ∃ states, s.app.fleet.state = .available [jumpHost] states "ssh_config" ∧
      states.lookup "db" = some .authFailed := by
  obtain ⟨tr, s, hrun, hlist, hidle, hlast, htwice, hone⟩ := Run.of_replay (fleetLink .ascii) Free
    (fun tr s => hostListEnvelope s.app.fleet.subId [jumpHost] "ssh_config" ∈ sentOf tr ∧
      s.inFlight = [] ∧ lastState "db" (sentOf tr) = some .authFailed ∧
      (emitted "db" (sentOf tr)).length = 2 ∧ (terminalRuns (emitted "db" (sentOf tr))).length = 1)
    (s := ⟨.new sampleApp.fleet.subId, [], sampleApp⟩)
    ⟨⟨_, _, _, _, sampleApp_new⟩, rfl, rfl⟩
    [.fleet (.discovered (.found [jumpHost] "ssh_config" [])), .fleet (.supervisor 0 .start),
      .receive (.at 0), .fleet (.dispatch ⟨0, "db", .reconnect⟩), .receive (.at 1),
      .fleet (.supervisor 0 (.action .reconnect)), .receive (.at 2), .receive (.at 3)]
    (by decide +kernel)
  obtain ⟨⟨states, hstate, hshown⟩, htoasts⟩ := fleet_tile_shows hrun hlist hidle
  refine ⟨tr, s, hrun, htwice, ?_, states, hstate, ?_⟩
  · rw [← hone, ← List.length_map (f := some), htoasts "db", List.length_map]
  · have hdb := hshown jumpHost (List.mem_singleton_self jumpHost)
    rw [show jumpHost.hostAlias = "db" from rfl, hlast] at hdb
    exact hdb

end Tepegoz
