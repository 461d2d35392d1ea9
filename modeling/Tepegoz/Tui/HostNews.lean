import Tepegoz.Tui.Dialogue
import Tepegoz.Tui.FleetTile

namespace Tepegoz

open Transition Relation

/-- What an exchange tells under the id of a subscription. -/
def Exchange.news (id : Nat) : Exchange → Option Event
  | .heard _ event =>
    match event.frame with
    | some (id', ev) => if id' = id then some ev else none
    | none => none
  | .did _ _ => none

/-- The latest thing of a kind that was told. -/
def latest {β : Type} (about : Event → Option β) (id : Nat) (log : List Exchange) : Option β :=
  (log.filterMap fun x => (x.news id).bind about).getLast?

def Event.listsHosts : Event → Option (List HostEntry)
  | .hostList hosts _ => some hosts
  | _ => none

def Event.tellsState (hostAlias : String) : Event → Option HostState
  | .hostStateChanged hostAlias' state _ => if hostAlias' = hostAlias then some state else none
  | _ => none

def Event.tellsCapabilities (hostAlias : String) : Event → Option (List String)
  | .agentCapabilities hostAlias' capabilities =>
    if hostAlias' = hostAlias then some capabilities else none
  | _ => none

/-- The host is one that the daemon lists, and that it said last to be connected and capable. -/
def ToldUsable (fleetSub : Nat) (log : List Exchange) (hostAlias capability : String) : Prop :=
  (∃ hosts, latest Event.listsHosts fleetSub log = some hosts ∧ hostAlias ∈ hosts.map (·.hostAlias)) ∧
    latest (Event.tellsState hostAlias) fleetSub log = some .connected ∧
      ∃ capabilities, latest (Event.tellsCapabilities hostAlias) fleetSub log = some capabilities ∧
        capability ∈ capabilities

/-- The capability that an agent needs for the subscription of a panel. -/
def Subscription.panel : Subscription → Option (ScopeTarget × String)
  | .docker _ target => some (target, "docker")
  | .ports _ target => some (target, "ports")
  | .processes _ target => some (target, "processes")
  | _ => none

/-- A panel is moved only to a host that can be used, as far as the TUI was told. -/
def Informed (fleetSub : Nat) (past : List Exchange) (x : Exchange) : Prop :=
  ∀ now sub hostAlias capability, x = .did now (.sendEnvelope (envelope (.subscribe sub))) →
    sub.panel = some (.remote hostAlias, capability) → ToldUsable fleetSub past hostAlias capability

/-- What the app knows of the hosts is what it was told last. -/
structure Told (log : List Exchange) (l : Ledger) : Prop where
  hosts : ∀ hosts states source, l.fleet = .available hosts states source →
    latest Event.listsHosts l.fleetSub log = some hosts
  states : ∀ hosts states source hostAlias, l.fleet = .available hosts states source →
    states.lookup hostAlias = some .connected →
      latest (Event.tellsState hostAlias) l.fleetSub log = some .connected
  capabilities : ∀ hostAlias capabilities, l.hostCapabilities.lookup hostAlias = some capabilities →
    latest (Event.tellsCapabilities hostAlias) l.fleetSub log = some capabilities

def HostPickerTargetTile.capability : HostPickerTargetTile → String
  | .docker => "docker"
  | .ports => "ports"
  | .processes => "processes"

/-- The host picker asks for the capability of the panel it was opened for. -/
def Ledger.PickerFits (l : Ledger) : Prop := ∀ tile capability, l.picker = some (tile, capability) →
  capability = tile.capability

section Latest

variable {β : Type} {about : Event → Option β} {id : Nat} {log : List Exchange} {x : Exchange} {now : Nat}

theorem latest_quiet (h : ∀ ev ∈ x.news id, about ev = none) :
    latest about id (log ++ [x]) = latest about id log := by
  have hnone : (x.news id).bind about = none := by
    cases hx : x.news id with
    | none => rfl
    | some ev => exact h ev hx
  simp [latest, hnone]

theorem latest_told {ev : Event} {b : β} (hx : x.news id = some ev) (hb : about ev = some b) :
    latest about id (log ++ [x]) = some b := by
  simp [latest, hx, hb]

@[simp] theorem latest_did (action : AppAction) :
    latest about id (log ++ [.did now action]) = latest about id log :=
  latest_quiet fun _ h => nomatch h

theorem latest_actions (actions : List AppAction) :
    latest about id (log ++ actions.map (.did now)) = latest about id log := by
  have hnone : (actions.map (Exchange.did now)).filterMap (fun x => (x.news id).bind about) = [] :=
    List.filterMap_eq_nil_iff.mpr fun x hx => by
      obtain ⟨action, -, rfl⟩ := List.mem_map.mp hx
      rfl
  simp [latest, hnone]

end Latest

section Told

variable {text : TextOps} {m : Moment} {event : AppEvent} {log past : List Exchange} {a b : App} {t u : Turn}
  {l l' : Ledger} {fleetSub : Nat}

/-- The same is known from both. -/
structure SameNews (fleetSub : Nat) (log log' : List Exchange) : Prop where
  hosts : latest Event.listsHosts fleetSub log' = latest Event.listsHosts fleetSub log
  states : ∀ hostAlias, latest (Event.tellsState hostAlias) fleetSub log' =
    latest (Event.tellsState hostAlias) fleetSub log
  capabilities : ∀ hostAlias, latest (Event.tellsCapabilities hostAlias) fleetSub log' =
    latest (Event.tellsCapabilities hostAlias) fleetSub log

theorem SameNews.of_forall {log' : List Exchange} (h : ∀ {β : Type} (about : Event → Option β),
    latest about fleetSub log' = latest about fleetSub log) : SameNews fleetSub log log' :=
  ⟨h _, fun _ => h _, fun _ => h _⟩

theorem ToldUsable.congr {log' : List Exchange} {hostAlias capability : String}
    (h : ToldUsable fleetSub log hostAlias capability) (hlog : SameNews fleetSub log log') :
    ToldUsable fleetSub log' hostAlias capability := by
  unfold ToldUsable
  rw [hlog.hosts, hlog.states, hlog.capabilities]
  exact h

theorem Told.congr {log' : List Exchange} (h : Told log l) (hid : l'.fleetSub = l.fleetSub)
    (hfleet : l'.fleet = l.fleet) (hcaps : l'.hostCapabilities = l.hostCapabilities)
    (hlog : SameNews l.fleetSub log log') : Told log' l' := by
  constructor
  · rw [hid, hfleet, hlog.hosts]
    exact h.hosts
  · intro hosts states source hostAlias
    rw [hid, hfleet, hlog.states]
    exact h.states hosts states source hostAlias
  · intro hostAlias capabilities
    rw [hid, hcaps, hlog.capabilities]
    exact h.capabilities hostAlias capabilities

theorem Told.usable (h : Told log l) {hostAlias capability : String}
    (hu : l.Usable capability (.remote hostAlias)) : ToldUsable l.fleetSub log hostAlias capability := by
  obtain ⟨hosts, states, source, capabilities, hfleet, hlisted, hstate, hcaps, hm⟩ := hu
  exact ⟨⟨hosts, h.hosts _ _ _ hfleet, hlisted⟩, h.states _ _ _ _ hfleet hstate,
    capabilities, h.capabilities _ _ hcaps, hm⟩

/-- Where a handler has got with an event that is no news of hosts: `past` has all that was told. -/
structure Current (past : List Exchange) (m : Moment) (fleetSub : Nat) (t : Turn) : Prop where
  fleetSub_eq : t.app.ledger.fleetSub = fleetSub
  told : Told past t.app.ledger
  picker : t.app.ledger.PickerFits
  informed : Each (Informed fleetSub) past (t.actions.map (.did m.now))

namespace Current

theorem edited (h : Current past m fleetSub t) (hactions : u.actions = t.actions)
    (hid : u.app.ledger.fleetSub = t.app.ledger.fleetSub) (hfleet : u.app.ledger.fleet = t.app.ledger.fleet)
    (hcaps : u.app.ledger.hostCapabilities = t.app.ledger.hostCapabilities)
    (hpicker : u.app.ledger.PickerFits) : Current past m fleetSub u where
  fleetSub_eq := hid.trans h.fleetSub_eq
  told := h.told.congr hid hfleet hcaps (.of_forall fun _ => rfl)
  picker := hpicker
  informed := hactions ▸ h.informed

theorem said {action : AppAction} (h : Current past m fleetSub t)
    (hsub : ∀ sub hostAlias capability, action = .sendEnvelope (envelope (.subscribe sub)) →
      sub.panel = some (.remote hostAlias, capability) → ToldUsable fleetSub past hostAlias capability) :
    Current past m fleetSub (t.emit action) where
  fleetSub_eq := h.fleetSub_eq
  told := h.told
  picker := h.picker
  informed := by
    rw [Turn.emit, List.map_append]
    refine h.informed.append ⟨?_, trivial⟩
    rintro now sub hostAlias capability heq hpanel
    obtain ⟨-, haction⟩ := Exchange.did.inj heq
    exact (hsub sub hostAlias capability haction hpanel).congr (.of_forall fun _ => latest_actions _)

theorem quiet {action : AppAction} (h : Current past m fleetSub t)
    (hsub : ∀ sub, action = .sendEnvelope (envelope (.subscribe sub)) → sub.panel = none) :
    Current past m fleetSub (t.emit action) :=
  h.said fun sub _ _ haction hpanel => by rw [hsub sub haction] at hpanel; cases hpanel

theorem sent {payload : Payload} (h : Current past m fleetSub t)
    (hsub : ∀ sub, payload = .subscribe sub → sub.panel = none) :
    Current past m fleetSub (t.send payload) :=
  h.quiet fun sub haction => hsub sub (by cases haction; rfl)

theorem toast {kind : ToastKind} {message : String} (h : Current past m fleetSub t) :
    Current past m fleetSub (t.pushToast m kind message) := by
  unfold Turn.pushToast
  refine .quiet (.quiet ?_ fun _ => nofun) fun _ => nofun
  exact h.edited rfl rfl rfl rfl h.picker

theorem focused (h : Current past m fleetSub t) : Current past m fleetSub t.focusPty := by
  unfold Turn.focusPty
  split
  next =>
    refine .quiet ?_ fun _ => nofun
    exact h.edited rfl rfl rfl rfl h.picker
  next => exact h

/-- A panel is moved to a host that can be used. -/
theorem moved {sub : Subscription} {tile : HostPickerTargetTile} {capability : String}
    {target : ScopeTarget} (h : Current past m fleetSub t) (hpanel : sub.panel = some (target, tile.capability))
    (hpicker : t.app.ledger.picker = some (tile, capability)) (hu : t.app.ledger.Usable capability target) :
    Current past m fleetSub (t.send (.subscribe sub)) := by
  refine h.said fun sub' hostAlias capability' haction hpanel' => ?_
  obtain rfl : sub = sub' := by cases haction; rfl
  obtain ⟨rfl, rfl⟩ := Prod.mk.inj (Option.some.inj (hpanel.symm.trans hpanel'))
  obtain rfl := h.picker tile capability hpicker
  exact h.fleetSub_eq ▸ h.told.usable hu

end Current

theorem AppAction.plain_subscribe {action : AppAction} (h : action.plain = true) (sub : Subscription) :
    action ≠ .sendEnvelope (envelope (.subscribe sub)) := by
  rintro rfl
  cases h

theorem App.pickerTarget_capability {kind : ScopeKind} {tile : HostPickerTargetTile} {capability : String}
    {target : ScopeTarget} (h : a.pickerTarget kind = some (tile, capability, target)) :
    capability = tile.capability := by
  unfold pickerTarget at h
  repeat' split at h
  all_goals cases h
  all_goals rfl

theorem Turn.Work.current (h : Turn.Work m event t u)
    (hnews : (Exchange.heard m.now event).news fleetSub = none) (ht : Current past m fleetSub t) :
    Current past m fleetSub u := by
  have hframe : ∀ ev, event.frame ≠ some (t.app.ledger.fleetSub, ev) := by
    intro ev heq
    simp [Exchange.news, heq, ht.fleetSub_eq] at hnews
  cases h with
  | emit ha => exact ht.quiet fun sub heq => absurd heq (AppAction.plain_subscribe ha sub)
  | edit hf =>
    exact ht.edited rfl (congrArg Ledger.fleetSub hf) (congrArg Ledger.fleet hf)
      (congrArg Ledger.hostCapabilities hf) (hf ▸ ht.picker)
  | toast => exact ht.toast
  | toastsExpired | answered | timedOut | openFailed | paneExited =>
    exact ht.edited rfl rfl rfl rfl ht.picker
  | dockerAction | fleetAction | openAsked =>
    refine .sent ?_ fun _ => nofun
    exact ht.edited rfl rfl rfl rfl ht.picker
  | @logsLeft logs =>
    have hsaid : Current past m fleetSub (t.send (.unsubscribe logs.subId)) := ht.sent fun _ => nofun
    exact hsaid.edited rfl rfl rfl rfl ht.picker
  | logsEntered =>
    refine .sent ?_ fun sub heq => ?_
    · exact ht.edited rfl rfl rfl rfl ht.picker
    · cases heq
      rfl
  | retargetedDocker _ hpicker hu =>
    have hsaid : Current past m fleetSub (t.send (.unsubscribe t.app.docker.subId)) := ht.sent fun _ => nofun
    refine .moved ?_ rfl hpicker hu
    exact hsaid.edited rfl rfl rfl rfl ht.picker
  | retargetedPorts hpicker hu =>
    have hsaid : Current past m fleetSub (t.send (.unsubscribe t.app.ports.portsSubId)) :=
      ht.sent fun _ => nofun
    refine .moved ?_ rfl hpicker hu
    exact hsaid.edited rfl rfl rfl rfl ht.picker
  | retargetedProcesses hpicker hu =>
    have hsaid : Current past m fleetSub (t.send (.unsubscribe t.app.ports.processesSubId)) :=
      ht.sent fun _ => nofun
    refine .moved ?_ rfl hpicker hu
    exact hsaid.edited rfl rfl rfl rfl ht.picker
  | paneClosed =>
    refine .sent (.sent ?_ fun _ => nofun) fun _ => nofun
    exact ht.edited rfl rfl rfl rfl ht.picker
  | paneOpened =>
    refine .sent (.focused ?_) fun _ => nofun
    exact ht.edited rfl rfl rfl rfl ht.picker
  | hostsListed hf | hostChanged hf | capable hf => exact absurd hf (hframe _)
  | pickerOpened selected hpicker =>
    refine ht.edited rfl rfl rfl rfl fun tile capability heq => ?_
    obtain ⟨rfl, rfl⟩ := Prod.mk.inj (Option.some.inj heq)
    exact App.pickerTarget_capability hpicker
  | pickerClosed => exact ht.edited rfl rfl rfl rfl fun _ _ heq => nomatch heq

theorem Current.start (h : Told past a.ledger) (hpicker : a.ledger.PickerFits) :
    Current past m a.fleet.subId ⟨a, []⟩ := ⟨rfl, h, hpicker, trivial⟩

/-- A list keeps what is known of the hosts that are still on it. -/
theorem Turn.lookup_seededStates (f : FleetScope) (hosts : List HostEntry) (hostAlias : String)
    (h : (seededStates f hosts).lookup hostAlias = some .connected) :
    ∃ hosts states source, f.state = .available hosts states source ∧
      states.lookup hostAlias = some .connected := by
  have hfold : ∀ (known : HostMap HostState) (hosts : List HostEntry) (states : HostMap HostState),
      (hosts.foldl (fun states h => states.insert h.hostAlias
        ((known.lookup h.hostAlias).getD .disconnected)) states).lookup hostAlias = some .connected →
      known.lookup hostAlias = some .connected ∨ states.lookup hostAlias = some .connected := by
    intro known hosts
    induction hosts with
    | nil => exact fun _ => .inr
    | cons host hosts ih =>
      intro states hlookup
      rcases ih _ hlookup with hknown | hinserted
      · exact .inl hknown
      · by_cases halias : hostAlias = host.hostAlias
        · subst halias
          rw [AList.lookup_insert, Option.some.injEq] at hinserted
          cases hknown : known.lookup host.hostAlias with
          | none => simp [hknown] at hinserted
          | some state => exact .inl (by simpa [hknown] using hinserted)
        · rw [AList.lookup_insert_ne halias] at hinserted
          exact .inr hinserted
  unfold seededStates at h
  rcases hfold _ hosts ∅ h with hknown | hempty
  · cases hstate : f.state with
    | connecting => simp [hstate] at hknown
    | available hosts' states source =>
      rw [hstate] at hknown
      exact ⟨hosts', states, source, rfl, hknown⟩
  · cases hempty

/-- What the fleet subscription tells is taken up. -/
theorem Turn.handleFleetEvent_current {ev : Event} (h : Told log a.ledger) (hpicker : a.ledger.PickerFits)
    (hnews : (Exchange.heard m.now event).news a.fleet.subId = some ev) :
    Current (log ++ [.heard m.now event]) m a.fleet.subId
      ((⟨a, []⟩ : Turn).handleFleetEvent text m ev) := by
  have hother : ∀ {β : Type} {about : Event → Option β}, about ev = none →
      latest about a.fleet.subId (log ++ [.heard m.now event]) = latest about a.fleet.subId log :=
    fun hnone => latest_quiet fun ev' hev' => Option.some.inj (hnews.symm.trans hev') ▸ hnone
  cases ev with
  | hostList hosts source =>
    refine .quiet ⟨rfl, ⟨?_, ?_, ?_⟩, hpicker, trivial⟩ fun _ => nofun
    · intro hosts' states source' hfleet
      obtain ⟨rfl, -, -⟩ := FleetScopeState.available.inj hfleet
      exact latest_told hnews rfl
    · intro hosts' states source' hostAlias hfleet hlookup
      obtain ⟨-, rfl, -⟩ := FleetScopeState.available.inj hfleet
      obtain ⟨hosts₀, states₀, source₀, hbefore, hknown⟩ := Turn.lookup_seededStates _ _ _ hlookup
      exact (hother rfl).trans (h.states _ _ _ _ hbefore hknown)
    · intro hostAlias capabilities hlookup
      exact (hother rfl).trans (h.capabilities _ _ hlookup)
  | hostStateChanged hostAlias state reason =>
    have hlists : latest Event.listsHosts a.fleet.subId (log ++ [.heard m.now event]) =
      latest Event.listsHosts a.fleet.subId log := hother rfl
    have hcaps := fun hostAlias' capabilities hlookup =>
      (hother rfl).trans (h.capabilities hostAlias' capabilities hlookup)
    cases hfleet : a.fleet.state with
    | connecting =>
      have hunchanged : (⟨a, []⟩ : Turn).handleFleetEvent text m (.hostStateChanged hostAlias state reason) =
          ⟨a, []⟩ := by
        simp only [Turn.handleFleetEvent, hfleet]
      rw [hunchanged]
      refine .start ⟨fun _ _ _ heq => ?_, fun _ _ _ _ heq => ?_, hcaps⟩ hpicker
      · cases hfleet.symm.trans heq
      · cases hfleet.symm.trans heq
    | available hosts states source =>
      have hshown : Current (log ++ [.heard m.now event]) m a.fleet.subId
          ((⟨a, []⟩ : Turn).setFleet { a.fleet with
            state := .available hosts (states.insert hostAlias state) source }).draw := by
        refine .quiet ⟨rfl, ⟨?_, ?_, hcaps⟩, hpicker, trivial⟩ fun _ => nofun
        · intro hosts' states' source' heq
          obtain ⟨rfl, -, -⟩ := FleetScopeState.available.inj heq
          exact hlists.trans (h.hosts _ _ _ hfleet)
        · intro hosts' states' source' hostAlias' heq hlookup
          obtain ⟨-, rfl, -⟩ := FleetScopeState.available.inj heq
          by_cases halias : hostAlias' = hostAlias
          · subst halias
            rw [AList.lookup_insert, Option.some.injEq] at hlookup
            exact latest_told hnews (by simp [Event.tellsState, hlookup])
          · rw [AList.lookup_insert_ne halias] at hlookup
            refine (hother ?_).trans (h.states _ _ _ _ hfleet hlookup)
            simp [Event.tellsState, Ne.symm halias]
      simp only [Turn.handleFleetEvent, hfleet]
      repeat' split
      all_goals first | exact hshown | exact hshown.toast
  | agentCapabilities hostAlias capabilities =>
    refine .quiet ⟨rfl, ⟨?_, ?_, ?_⟩, hpicker, trivial⟩ fun _ => nofun
    · exact fun hosts states source hfleet => (hother rfl).trans (h.hosts _ _ _ hfleet)
    · exact fun hosts states source _ hfleet hlookup => (hother rfl).trans (h.states _ _ _ _ hfleet hlookup)
    · intro hostAlias' capabilities' hlookup
      by_cases halias : hostAlias' = hostAlias
      · subst halias
        have hinserted : (a.hostCapabilities.insert hostAlias' capabilities).lookup hostAlias' =
          some capabilities' := hlookup
        rw [AList.lookup_insert] at hinserted
        exact latest_told hnews (by simpa [Event.tellsCapabilities] using hinserted)
      · have hkept : (a.hostCapabilities.insert hostAlias capabilities).lookup hostAlias' =
          some capabilities' := hlookup
        rw [AList.lookup_insert_ne halias] at hkept
        refine (hother ?_).trans (h.capabilities _ _ hkept)
        simp [Event.tellsCapabilities, Ne.symm halias]
  | _ => exact .start (h.congr rfl rfl rfl ⟨hother rfl, fun _ => hother rfl, fun _ => hother rfl⟩) hpicker

/-- What the handler of an event leaves is current again. -/
theorem App.handleEvent_current (h : Told log a.ledger) (hpicker : a.ledger.PickerFits)
    (hids : a.core.ids.Nodup) (ht : a.handleEvent text m event = some t) :
    Current (log ++ [.heard m.now event]) m a.fleet.subId t := by
  cases hnews : (Exchange.heard m.now event).news a.fleet.subId with
  | some ev =>
    obtain ⟨version, rfl⟩ : ∃ version, event = .daemonEnvelope ⟨version, .event a.fleet.subId ev⟩ := by
      simp only [Exchange.news, AppEvent.frame] at hnews
      split at hnews
      next hframe =>
        split at hframe
        next => simp_all
        next => cases hframe
      next => cases hnews
    have hdone : (⟨a, []⟩ : Turn).handleEventFrame text m a.fleet.subId ev = some t := ht
    simp only [Turn.handleEventFrame, App.recipient_fleetSub hids, Option.some.injEq] at hdone
    exact hdone ▸ Turn.handleFleetEvent_current h hpicker hnews
  | none =>
    have hquiet : SameNews a.ledger.fleetSub log (log ++ [.heard m.now event]) :=
      .of_forall fun _ => latest_quiet fun ev hev =>
        absurd (hnews.symm.trans hev) (Option.some_ne_none ev).symm
    have htold : Told (log ++ [.heard m.now event]) a.ledger := h.congr rfl rfl rfl hquiet
    have hstart : Current (log ++ [.heard m.now event]) m a.fleet.subId ⟨a, []⟩ := .start htold hpicker
    exact (App.handleEvent_script ht).keeps
      (J := fun actions b => Current (log ++ [.heard m.now event]) m a.fleet.subId ⟨b, actions⟩)
      hstart fun _ _ hc hw => hw.current hnews hc

/-- What holds of the app and of the dialogue at the end of each event. -/
structure WellTold (tr : List Exchange) (a : App) : Prop where
  tidy : Tidy tr a
  told : Told tr a.ledger
  picker : a.ledger.PickerFits
  informed : Each (Informed a.fleet.subId) [] tr

theorem WellTold.handled (h : WellTold log a) (ht : a.handleEvent text m event = some t) :
    WellTold (log ++ .heard m.now event :: t.actions.map (.did m.now)) t.app := by
  have hnow := App.handleEvent_current h.told h.picker h.tidy.sound.nodup ht
  have hdone : log ++ .heard m.now event :: t.actions.map (.did m.now) =
    log ++ [.heard m.now event] ++ t.actions.map (.did m.now) := by simp
  have hsame : t.app.fleet.subId = a.fleet.subId := hnow.fleetSub_eq
  refine ⟨App.handleEvent_tidy h.tidy ht, ?_, hnow.picker, ?_⟩
  · exact hdone ▸ hnow.told.congr rfl rfl rfl (.of_forall fun _ => latest_actions _)
  · have hheard : Each (Informed a.fleet.subId) log [.heard m.now event] :=
      And.intro (fun _ _ _ _ heq => nomatch heq) trivial
    rw [hdone, hsame]
    exact (h.informed.append hheard).append hnow.informed

theorem App.initial_wellTold {pane : PaneId} {shell : String} {rows cols now : Nat}
    {actions : List AppAction} (h : App.new pane shell rows cols = some a)
    (hactions : a.initialActions = some actions) : WellTold (actions.map (.did now)) a := by
  have htidy : Tidy (actions.map (.did now)) a := App.initial_tidy h hactions
  obtain ⟨layout, -, h⟩ := Option.bind_eq_some_iff.mp h
  cases Option.some.inj h
  cases Option.some.inj hactions
  refine ⟨htidy, ⟨fun _ _ _ => nofun, fun _ _ _ _ => nofun, fun _ _ => nofun⟩, fun _ _ => nofun, ?_⟩
  refine .of_forall fun past x hx now' sub hostAlias capability heq hpanel => ?_
  subst heq
  obtain ⟨action, hm, heq⟩ := List.mem_map.mp hx
  obtain ⟨-, rfl⟩ := Exchange.did.inj heq
  simp only [List.map_cons, List.map_nil, List.mem_append, List.mem_cons, List.not_mem_nil, envelope,
    AppAction.sendEnvelope.injEq, Envelope.mk.injEq, Payload.subscribe.injEq, reduceCtorEq, and_false,
    true_and, or_false, false_or] at hm
  -- the panels start on this host
  rcases hm with rfl | rfl | rfl | rfl <;> cases hpanel

theorem wellTold_of_run {tr : List Exchange} (h : Run (dialogue text) Free tr (some a)) :
    WellTold tr a :=
  dialogue_invariant h (fun _ _ _ _ _ _ _ => App.initial_wellTold) fun _ _ _ _ _ => WellTold.handled

/-- The TUI moves a panel only to a host that, as it was told last, is listed, connected, and has an
agent with what the panel needs. -/
theorem panels_moved_informed {tr : List Exchange} (h : Run (dialogue text) Free tr (some a)) :
    ∀ pre x post, tr = pre ++ x :: post → Informed a.fleet.subId pre x :=
  (wellTold_of_run h).informed.split

end Told

theorem panels_moved_informed_docker : ∃ pre post a, Run (dialogue .ascii) Free
    (pre ++ .did 4 (.sendEnvelope (envelope (.subscribe (.docker 2 (.remote "h"))))) :: post) (some a) ∧
      ToldUsable a.fleet.subId pre "h" "docker" := by
  obtain ⟨tr, s, hr, a, rfl, hm⟩ := Run.of_replay (dialogue .ascii) Free
    (fun tr s => ∃ a ∈ s,
      .did 4 (.sendEnvelope (envelope (.subscribe (.docker 2 (.remote "h"))))) ∈ tr)
    rfl lookAround (by decide +kernel)
  obtain ⟨pre, post, rfl⟩ := List.append_of_mem hm
  exact ⟨pre, post, a, hr, panels_moved_informed hr pre _ post rfl _ _ _ _ rfl rfl⟩

end Tepegoz
