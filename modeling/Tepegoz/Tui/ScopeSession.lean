import Tepegoz.Deliveries
import Tepegoz.Tui.PaneStack
import Tepegoz.Tui.Panels
import Tepegoz.Tui.TuiSession

namespace Tepegoz

open Transition

instance {P : HostPickerTargetTile → Prop} [DecidablePred P] : Decidable (∀ v, P v) :=
  decidable_of_iff (P .docker ∧ P .ports ∧ P .processes)
    ⟨fun ⟨hd, hp, hq⟩ v => by cases v <;> assumption, fun h => ⟨h _, h _, h _⟩⟩

/-- An envelope on its way to the TUI, with the target of the subscription that produced it. -/
structure Delivery where
  env : Envelope
  target : Option ScopeTarget
  deriving DecidableEq

/-- The TUI, a daemon that serves it and what is in flight between them, oldest first. -/
structure Link where
  app : App
  commands : List Payload
  world : World
  events : List Delivery

inductive LinkAct
  | user (m : Moment) (event : AppEvent)
  | receive (m : Moment)
  | daemon (a : Act)
  | other (env : Envelope)

/-- A panel was handed rows that a subscription for `target` had produced. -/
inductive LinkObs
  | listed (v : HostPickerTargetTile) (rows : Rows) (target : Option ScopeTarget)
  deriving DecidableEq

/-- What a step of the daemon sends to client `c`. -/
def deliveries (c : ClientId) (w : World) (out : List Obs) : List Delivery :=
  out.filterMap fun
    | .toClient c' env source => if c' = c then some ⟨env, w.targetOf source⟩ else none
    | _ => none

/-- The rows that an envelope has for a panel, under whatever id. -/
def Envelope.rows (env : Envelope) (v : HostPickerTargetTile) : Option Rows :=
  match env.payload with
  | .event _ event => event.rows v
  | _ => none

/-- The rows for a panel that subscribes under `subId`. -/
def Envelope.rowsUnder (env : Envelope) (subId : Nat) (v : HostPickerTargetTile) : Option Rows :=
  match env.payload with
  | .event id event => if id = subId then event.rows v else none
  | _ => none

namespace Link

def handle (s : Link) (t : Turn) : Link :=
  { s with app := t.app, commands := s.commands ++ t.actions.filterMap (·.command) }

def news (s : Link) (d : Delivery) : List LinkObs :=
  [HostPickerTargetTile.docker, .ports, .processes].filterMap fun v =>
    (s.app.listed d.env v).map (.listed v · d.target)

/-- `other` stands for the parts of the daemon that know no lists of containers, ports or processes:
pane forwarders, fleet coordinators and status ticks. -/
def step (text : TextOps) (c : ClientId) (s : Link) : LinkAct → Option (Link × List LinkObs)
  | .user _ (.daemonEnvelope _) => none
  | .user m event => (s.app.handleEvent text m event).map fun t => (s.handle t, [])
  | .receive m =>
    match s.events with
    | d :: rest => (s.app.handleEvent text m (.daemonEnvelope d.env)).map fun t =>
        ({ s.handle t with events := rest }, s.news d)
    | [] => none
  | .daemon a => do
    let commands ← takeCommand c s.commands a
    let next ← s.world.step a
    some ({ s with
      commands := commands, world := next.1, events := s.events ++ deliveries c s.world next.2 }, [])
  | .other env =>
    if ∀ v, env.rows v = none then
      some ({ s with events := s.events ++ [⟨env, none⟩] }, [])
    else none

end Link

/-- Client `c` of a daemon that was just started is a TUI. -/
def link (text : TextOps) (c : ClientId) : System Link LinkAct LinkObs where
  init s := s.world = .initial ∧ s.events = [] ∧ (∃ pane shell rows cols,
    App.new pane shell rows cols = some s.app) ∧ ∃ actions, s.app.initialActions = some actions ∧
      s.commands = actions.filterMap (·.command)
  step := Link.step text c

/-- A list under the id of a panel comes from what the session of the client holds under this id, while
no unsubscribe of it is on its way. -/
def Link.Current (c : ClientId) (s : Link) : Obs → Prop
  | .toClient c' env source => c' = c → ∀ v, env.rowsUnder (s.app.panel v).subId v = none ∨
      .unsubscribe (s.app.panel v).subId ∉ s.commands ∧
        s.world.HoldsSource c (s.app.panel v).subId source
  | _ => True

instance (c : ClientId) (s : Link) : (o : Obs) → Decidable (s.Current c o)
  | .toClient c' _ _ => inferInstanceAs (Decidable (c' = c → ∀ _, _ ∨ _))
  | .commanded _ _ | .toAgent _ _ _ | .allocated _ _ _ | .inserted _ _ _ | .released _ _ _ _ _
  | .pooled _ _ | .displaced _ _ | .unpooled _ _ => .isTrue trivial

/-- A panel is retargeted when no list for it is in flight, and nothing that was to be given up sends one:
neither the forwarder of the target before, until its unsubscribe is taken, nor one that was aborted or
a routing entry that was left behind. -/
def NoStaleList (text : TextOps) (c : ClientId) (_ : List LinkObs) (s : Link) : LinkAct → Prop
  | .user m event => ∀ t ∈ s.app.handleEvent text m event, ∀ v,
      (t.app.panel v).target = (s.app.panel v).target ∨
        ∀ d ∈ s.events, d.env.rowsUnder (s.app.panel v).subId v = none
  | .daemon a => ∀ next ∈ s.world.step a, ∀ o ∈ next.2, s.Current c o
  | _ => True

instance (text : TextOps) (c : ClientId) (tr : List LinkObs) (s : Link) (l : LinkAct) :
    Decidable (NoStaleList text c tr s l) := by
  unfold NoStaleList
  split <;> infer_instance

def LinkObs.listedFor (v : HostPickerTargetTile) : LinkObs → Option (Rows × Option ScopeTarget)
  | .listed v' rows target => if v' = v then some (rows, target) else none

/-- The rows that a panel was handed last, with the target they came from. -/
def newestList (v : HostPickerTargetTile) (tr : List LinkObs) : Option (Rows × Option ScopeTarget) :=
  (tr.filterMap (LinkObs.listedFor v)).getLast?

/-- What a panel shows, and what is in flight for it, comes from its target. -/
structure Link.OnTarget (tr : List LinkObs) (s : Link) : Prop where
  shown : ∀ v rows, (s.app.panel v).shown = some rows →
    newestList v tr = some (rows, some (s.app.panel v).target)
  inFlight : ∀ d ∈ s.events, ∀ v, d.env.rowsUnder (s.app.panel v).subId v = none ∨
    d.target = some (s.app.panel v).target

section Steps

variable {text : TextOps} {c : ClientId} {tr : List LinkObs} {s : Link}

theorem App.recipient_panel {a : App} {id : Nat} {v : HostPickerTargetTile}
    (h : a.recipient id = some (.panel v)) : id = (a.panel v).subId := by
  unfold recipient at h
  split at h
  next => cases h
  next =>
    repeat' split at h
    all_goals cases h
    all_goals assumption

theorem App.listed_under {a : App} {env : Envelope} {v : HostPickerTargetTile} {rows : Rows}
    (h : a.listed env v = some rows) : env.rowsUnder (a.panel v).subId v = some rows := by
  unfold listed at h
  split at h
  next id event hp =>
    split at h
    next hr => simpa [Envelope.rowsUnder, hp, ← App.recipient_panel hr] using h
    next => cases h
  next => cases h

theorem newestList_news (d : Delivery) (v : HostPickerTargetTile) :
    newestList v (tr ++ s.news d) =
      match s.app.listed d.env v with
      | some rows => some (rows, d.target)
      | none => newestList v tr := by
  have hnews : (s.news d).filterMap (LinkObs.listedFor v) =
      (s.app.listed d.env v).toList.map fun rows => (rows, d.target) := by
    unfold Link.news
    cases v <;> cases hd : s.app.listed d.env .docker <;> cases hp : s.app.listed d.env .ports <;>
      cases hq : s.app.listed d.env .processes <;> simp [LinkObs.listedFor, hd, hp, hq]
  unfold newestList
  rw [List.filterMap_append, hnews]
  cases s.app.listed d.env v <;> simp

theorem Link.OnTarget.user {m : Moment} {event : AppEvent} {t : Turn} (h : s.OnTarget tr)
    (hne : ∀ env, event ≠ .daemonEnvelope env) (ht : s.app.handleEvent text m event = some t)
    (hok : ∀ v, (t.app.panel v).target = (s.app.panel v).target ∨
      ∀ d ∈ s.events, d.env.rowsUnder (s.app.panel v).subId v = none) :
    (s.handle t).OnTarget tr := by
  have hages := App.handleEvent_ages hne ht
  constructor
  · intro v rows hs
    change (t.app.panel v).shown = some rows at hs
    change newestList v tr = some (rows, some (t.app.panel v).target)
    obtain ⟨-, hsame | hnone⟩ := hages v
    · rw [hsame] at hs ⊢
      exact h.shown v rows hs
    · cases hs.symm.trans hnone
  · intro d hd v
    change d.env.rowsUnder (t.app.panel v).subId v = none ∨ d.target = some (t.app.panel v).target
    rw [(hages v).1]
    rcases hok v with htarget | hnone
    · rw [htarget]
      exact h.inFlight d hd v
    · exact .inl (hnone d hd)

theorem Link.OnTarget.receive {m : Moment} {d : Delivery} {rest : List Delivery} {t : Turn}
    (h : s.OnTarget tr) (he : s.events = d :: rest)
    (ht : s.app.handleEvent text m (.daemonEnvelope d.env) = some t) :
    { s.handle t with events := rest }.OnTarget (tr ++ s.news d) := by
  have htakes : ∀ v, (s.app.panel v).Takes (s.app.listed d.env v) (t.app.panel v) :=
    Turn.handleDaemonEnvelope_takes ht
  constructor
  · intro v rows hs
    change (t.app.panel v).shown = some rows at hs
    change newestList v _ = some (rows, some (t.app.panel v).target)
    obtain ⟨-, htarget, hnews⟩ := htakes v
    rw [newestList_news, htarget]
    cases hl : s.app.listed d.env v with
    | some listed =>
      simp only [hl] at hnews
      cases hs.symm.trans hnews
      rcases h.inFlight d (by simp [he]) v with hnone | hd
      · simp [App.listed_under hl] at hnone
      · rw [hd]
    | none =>
      simp only [hl] at hnews
      rcases hnews with hsame | hnone
      · exact h.shown v rows (hsame.symm.trans hs)
      · cases hs.symm.trans hnone
  · intro d' hd v
    change d'.env.rowsUnder (t.app.panel v).subId v = none ∨
      d'.target = some (t.app.panel v).target
    obtain ⟨hid, htarget, -⟩ := htakes v
    rw [hid, htarget]
    exact h.inFlight d' (by rw [he]; exact List.mem_cons_of_mem _ hd) v

/-- Nothing changes but what is in flight. -/
theorem Link.OnTarget.sent {s' : Link} {more : List Delivery} (h : s.OnTarget tr)
    (ha : s'.app = s.app) (he : s'.events = s.events ++ more)
    (hmore : ∀ d ∈ more, ∀ v, d.env.rowsUnder (s.app.panel v).subId v = none ∨
      d.target = some (s.app.panel v).target) : s'.OnTarget tr where
  shown := by rw [ha]; exact h.shown
  inFlight d hd v := by
    rw [ha]
    rw [he] at hd
    rcases List.mem_append.mp hd with hd | hd
    · exact h.inFlight d hd v
    · exact hmore d hd v

end Steps

section Lists

variable {w w' : World} {out : List Obs} {c c' : ClientId} {a : Act} {env : Envelope} {source : Source}
  {v : HostPickerTargetTile}

theorem Envelope.rows_of_rowsUnder {id : Nat} {rows : Rows} (h : env.rowsUnder id v = some rows) :
    env.rows v = some rows := by
  unfold rowsUnder at h
  unfold Envelope.rows
  split at h
  next hp => exact (Option.ite_none_right_eq_some.mp h).2
  next => cases h

theorem Envelope.rowsUnder_of_rows (h : env.rows v = none) (id : Nat) : env.rowsUnder id v = none :=
  Option.eq_none_iff_forall_ne_some.mpr fun rows hrows => by
    rw [rows_of_rowsUnder hrows] at h
    cases h

theorem RoutedScope.unavailable_rows (scope : RoutedScope) (reason : String) (v : HostPickerTargetTile) :
    (unavailableEventForScope scope reason).rows v = none := by
  cases scope <;> cases v <;> rfl

theorem RouteCall.failure_rows (call : RouteCall) (reason : String) (v : HostPickerTargetTile) :
    (call.failure reason).rows v = none := by
  unfold failure
  split
  next => rfl
  next => exact call.scope.unavailable_rows reason v

theorem disconnectNotice_rows (hostAlias : String) (routed : RoutedSub) (v : HostPickerTargetTile) :
    (disconnectNotice hostAlias routed).rows v = none := by
  unfold disconnectNotice
  dsimp only
  split
  next => rfl
  next => exact routed.scope.unavailable_rows _ v

/-- Only forwarder tasks and routing entries send lists. -/
theorem Sends.lists (h : Sends w a c env source) (hrows : env.rows v ≠ none) :
    source.forwards = true := by
  cases h with
  | @replied _ payload panes _ hp hm =>
    refine absurd ?_ hrows
    unfold Envelope.rows
    split
    next id event he =>
      obtain rfl := (Session.replies_own hm).2 id event he
      obtain rfl := List.mem_singleton.mp hm
      cases he
      cases v <;> rfl
    next => rfl
  | refused hp henv =>
    rcases henv with rfl | rfl <;> exact absurd (RouteCall.failure_rows _ _ v) hrows
  | failed => exact absurd (RouteCall.failure_rows _ _ v) hrows
  | drained => exact absurd (disconnectNotice_rows _ _ v) hrows
  | announced => exact absurd (by cases v <;> rfl) hrows
  | acted => exact absurd rfl hrows
  | relayed | answered | emitted => rfl

end Lists

section Served

variable {text : TextOps} {c : ClientId} {tr : List TuiSessionObs} {a : App} {commands : List Payload}
  {w : World} {v : HostPickerTargetTile}

/-- What a panel subscribes to. -/
def App.panelSub (a : App) : HostPickerTargetTile → Subscription
  | .docker => .docker a.docker.subId a.docker.target
  | .ports => .ports a.ports.portsSubId a.ports.portsTarget
  | .processes => .processes a.ports.processesSubId a.ports.processesTarget

theorem App.panelSub_target (a : App) (v : HostPickerTargetTile) :
    (a.panelSub v).target = some (a.panel v).target := by
  cases v <;> rfl

theorem App.panelSub_used (a : App) (v : HostPickerTargetTile) :
    ((a.panel v).subId, .subscription (a.panelSub v)) ∈ a.ledger.uses := by
  refine List.mem_append_left _ (List.mem_append_left _ ?_)
  cases v
  · exact .head _
  · exact .tail _ (.head _)
  · exact .tail _ (.tail _ (.head _))

/-- What the session holds under the id of a panel, with no unsubscribe of it on its way, serves the
target of the panel. -/
theorem panel_served (h : Run (tuiSession text c) Free tr ⟨some a, commands, w⟩) {source : Source}
    (hf : source.forwards = true) (hdrop : .unsubscribe (a.panel v).subId ∉ commands)
    (hh : w.HoldsSource c (a.panel v).subId source) :
    w.targetOf source = some (a.panel v).target := by
  obtain ⟨sub, hu, ht⟩ := hh.target (tuiSession_taking h) hf
  have htidy := tidy_of_run (tuiSession_dialogue h)
  have hused := a.panelSub_used v
  rcases newest_of_app h rfl hu hdrop with hm | ⟨-, hgone⟩
  · have heq := List.inj_on_of_nodup_map htidy.nodup hm hused rfl
    obtain rfl := Use.subscription.inj (Prod.mk.inj heq).2
    rw [ht, a.panelSub_target]
  · exact absurd (a.uses_live _ hused) hgone

end Served

section Session

variable {text : TextOps} {c : ClientId} {ok : List LinkObs → Link → LinkAct → Prop} {tr : List LinkObs}
  {s s' : Link} {out : List LinkObs}

theorem Link.step_user {m : Moment} {event : AppEvent}
    (h : (link text c).step s (.user m event) = some (s', out)) :
    (∀ env, event ≠ .daemonEnvelope env) ∧ ∃ t, s.app.handleEvent text m event = some t ∧
      s' = s.handle t ∧ out = [] := by
  have hne : ∀ env, event ≠ .daemonEnvelope env := by
    rintro env rfl
    cases h
  have hstep : (s.app.handleEvent text m event).map (fun t => (s.handle t, [])) = some (s', out) := by
    cases event <;> first | exact h | exact absurd rfl (hne _)
  obtain ⟨t, ht, heq⟩ := Option.map_eq_some_iff.mp hstep
  obtain ⟨rfl, rfl⟩ := Prod.mk.inj heq
  exact ⟨hne, t, ht, rfl, rfl⟩

theorem sent_did (now : Nat) (actions : List AppAction) :
    (actions.map (Exchange.did now)).filterMap (·.sent) = actions.filterMap (·.command) := by
  rw [List.filterMap_map]
  rfl

theorem Link.handle_session {tr : List TuiSessionObs} {m : Moment} {event : AppEvent} {t : Turn}
    (h : Run (tuiSession text c) Free tr ⟨some s.app, s.commands, s.world⟩)
    (ht : s.app.handleEvent text m event = some t) :
    ∃ tr', Run (tuiSession text c) Free tr' ⟨some (s.handle t).app, (s.handle t).commands, s.world⟩ := by
  have hcommands : (Exchange.heard m.now event :: t.actions.map (.did m.now)).filterMap (·.sent) =
      t.actions.filterMap (·.command) := sent_did m.now t.actions
  have hstep : (tuiSession text c).step ⟨some s.app, s.commands, s.world⟩ (.tui (.event m event)) =
      some (⟨some (s.handle t).app, (s.handle t).commands, s.world⟩,
        (Exchange.heard m.now event :: t.actions.map (.did m.now)).map .tui) := by
    simp only [tuiSession, dialogue, ht, Option.map_some, hcommands]
    rfl
  exact ⟨_, h.next trivial hstep⟩

/-- The TUI and the daemon of a link, whatever is in flight to the TUI. -/
theorem Link.session (h : Run (link text c) ok tr s) :
    ∃ tr', Run (tuiSession text c) Free tr' ⟨some s.app, s.commands, s.world⟩ := by
  refine h.invariant (I := fun _ s =>
    ∃ tr', Run (tuiSession text c) Free tr' ⟨some s.app, s.commands, s.world⟩) ?_ ?_
  · rintro s ⟨hw, -, ⟨pane, shell, rows, cols, hnew⟩, actions, hactions, hcommands⟩
    have hstep : (tuiSession text c).step ⟨none, [], .initial⟩ (.tui (.start 0 pane shell rows cols)) =
        some (⟨some s.app, s.commands, s.world⟩, (actions.map (Exchange.did 0)).map .tui) := by
      simp [tuiSession, dialogue, hnew, hactions, hw, hcommands, ← sent_did 0]
    exact ⟨_, (Run.start rfl).next trivial hstep⟩
  · rintro tr s l s' out - ⟨tr', hr⟩ - hstep
    cases l with
    | user m event =>
      obtain ⟨-, t, ht, rfl, rfl⟩ := Link.step_user hstep
      exact Link.handle_session hr ht
    | receive m =>
      simp only [link, Link.step] at hstep
      split at hstep
      next d rest he =>
        obtain ⟨t, ht, heq⟩ := Option.map_eq_some_iff.mp hstep
        cases heq
        exact Link.handle_session hr ht
      next => cases hstep
    | daemon a =>
      obtain ⟨commands, htake, hstep⟩ := Option.bind_eq_some_iff.mp hstep
      obtain ⟨⟨w, seen⟩, hn, hstep⟩ := Option.bind_eq_some_iff.mp hstep
      cases Option.some.inj hstep
      have hdone : (tuiSession text c).step ⟨some s.app, s.commands, s.world⟩ (.daemon a) =
          some (⟨some s.app, commands, w⟩, seen.map .daemon) := by
        simp [tuiSession, htake, hn]
      exact ⟨_, hr.next trivial hdone⟩
    | other env =>
      simp only [link, Link.step] at hstep
      split at hstep
      next =>
        cases Option.some.inj hstep
        exact ⟨tr', hr⟩
      next => cases hstep

/-- A list that the session sends by what it holds is one of the target of its panel. -/
theorem Link.delivered {a : Act} {next : World × List Obs} (h : Run (link text c) ok tr s)
    (hn : s.world.step a = some next) (hcurrent : ∀ o ∈ next.2, s.Current c o) :
    ∀ d ∈ deliveries c s.world next.2, ∀ v, d.env.rowsUnder (s.app.panel v).subId v = none ∨
      d.target = some (s.app.panel v).target := by
  obtain ⟨w', seen⟩ := next
  intro d hd v
  obtain ⟨tr', hr⟩ := Link.session h
  obtain ⟨o, ho, heq⟩ := List.mem_filterMap.mp hd
  cases o with
  | toClient c' env source =>
    obtain ⟨rfl, hsent⟩ := Option.ite_none_right_eq_some.mp heq
    obtain rfl := Option.some.inj hsent
    cases hrows : env.rowsUnder (s.app.panel v).subId v with
    | none => exact .inl rfl
    | some rows =>
      rcases hcurrent _ ho rfl v with hnone | ⟨hdrop, hheld⟩
      · cases hrows.symm.trans hnone
      · have hsends := World.sends_of_step hn ho
        have hf := hsends.lists (v := v) (by simp [Envelope.rows_of_rowsUnder hrows])
        exact .inr (panel_served hr hf hdrop hheld)
  | _ => cases heq

end Session

theorem App.new_blank {a : App} {pane : PaneId} {shell : String} {rows cols : Nat}
    (h : App.new pane shell rows cols = some a) (v : HostPickerTargetTile) :
    (a.panel v).shown = none := by
  obtain ⟨layout, -, h⟩ := Option.bind_eq_some_iff.mp h
  cases Option.some.inj h
  cases v <;> rfl

theorem onTarget_of_run {text : TextOps} {c : ClientId} {tr : List LinkObs} {s : Link}
    (h : Run (link text c) (NoStaleList text c) tr s) : s.OnTarget tr := by
  refine h.invariant ?_ ?_
  · rintro s ⟨-, he, ⟨pane, shell, rows, cols, ha⟩, -⟩
    refine ⟨fun v rows hs => ?_, by simp [he]⟩
    cases hs.symm.trans (App.new_blank ha v)
  · intro tr s l s' out hr hs hok hstep
    cases l with
    | user m event =>
      obtain ⟨hne, t, ht, rfl, rfl⟩ := Link.step_user hstep
      rw [List.append_nil]
      exact hs.user hne ht (hok t ht)
    | receive m =>
      simp only [link, Link.step] at hstep
      split at hstep
      next d rest he =>
        obtain ⟨t, ht, heq⟩ := Option.map_eq_some_iff.mp hstep
        cases heq
        exact hs.receive he ht
      next => cases hstep
    | daemon a =>
      obtain ⟨commands, -, hstep⟩ := Option.bind_eq_some_iff.mp hstep
      obtain ⟨next, hn, hstep⟩ := Option.bind_eq_some_iff.mp hstep
      cases Option.some.inj hstep
      rw [List.append_nil]
      exact hs.sent rfl rfl (Link.delivered hr hn (hok next hn))
    | other env =>
      simp only [link, Link.step] at hstep
      split at hstep
      next hnone =>
        cases Option.some.inj hstep
        rw [List.append_nil]
        refine hs.sent rfl rfl fun d hd v => ?_
        obtain rfl := List.mem_singleton.mp hd
        exact .inl (Envelope.rowsUnder_of_rows (hnone v) _)
      next => cases hstep

/-- The rows that a panel shows were produced by a subscription for the target of the panel, in every
run without stale lists. -/
theorem panels_show_target {text : TextOps} {c : ClientId} {tr : List LinkObs} {s : Link}
    (h : Run (link text c) (NoStaleList text c) tr s) {v : HostPickerTargetTile} {rows : Rows}
    (hs : (s.app.panel v).shown = some rows) :
    newestList v tr = some (rows, some (s.app.panel v).target) :=
  (onTarget_of_run h).shown v rows hs

def sampleLink : Link where
  app := sampleApp
  commands := (sampleApp.initialActions.getD []).filterMap (·.command)
  world := .initial
  events := []

theorem sampleLink_fresh : (link .ascii 0).init sampleLink :=
  ⟨rfl, rfl, ⟨_, _, _, _, sampleApp_new⟩,
    sampleApp.initialActions.getD [], by decide, rfl⟩

/-- The TUI hears of a connected host `h`. -/
def announceHost : List LinkAct :=
  [.other (eventFrame 5 (.hostList [⟨"h", "h", "u", none⟩] "ssh")),
    .other (eventFrame 5 (.hostStateChanged "h" .connected none)),
    .other (eventFrame 5 (.agentCapabilities "h" ["docker"])),
    .receive (.at 0), .receive (.at 0), .receive (.at 0)]

def sampleContainer : DockerContainer := ⟨"c0ffee", ["/web"], "nginx"⟩

/-- The daemon takes the first commands of the TUI and lists the containers of its own host. -/
def listLocal : List LinkAct :=
  [.daemon (.connect 0), .daemon (.command 0 (.attachPane 7 1) { PaneAnswers.none with known := true }),
    .daemon (.command 0 (.resizePane 7 21 120) .none),
    .daemon (.command 0 (.subscribe (.docker 2 .localTarget)) .none),
    .daemon (.emit 2 (.containerList [sampleContainer] "engine"))]

/-- The user picks `h` for the Docker tile. -/
def pickHost : List LinkAct :=
  [.user (.at 0) (.stdinChunk [prefixByte, key 'j']), .user (.at 0) (.stdinChunk [prefixByte, key 't']),
    .user (.at 0) (.stdinChunk [key 'j', 0x0d])]

/-- The daemon takes the other commands and relays the containers of `h`. -/
def listRemote : List LinkAct :=
  [.command 0 (.subscribe (.ports 3 .localTarget)) .none,
    .command 0 (.subscribe (.processes 4 .localTarget)) .none,
    .command 0 (.subscribe (.fleet 5)) .none, .spawn 0 0 5 "h", .supervisor 0 .connected,
    .supervisor 0 (.handshaken ["docker"]), .supervisor 0 .register,
    .command 0 (.unsubscribe 2) .none, .finish 2,
    .command 0 (.subscribe (.docker 2 (.remote "h"))) .none, .route 0, .route 0, .route 0,
    .agentFrame 0 (eventFrame 1 (.containerList [] "engine"))].map .daemon

/-- A run in which the Docker panel is handed its local list before the user retargets it, and a list
of the new host afterwards. -/
theorem panels_show_target_retargeted :
    ∃ tr s, Run (link .ascii 0) (NoStaleList .ascii 0) tr s ∧
      (s.app.panel .docker).target = .remote "h" ∧
      newestList .docker tr = some (.containers [], some (s.app.panel .docker).target) := by
  obtain ⟨tr, s, hr, htarget, hs⟩ := Run.of_replay (link .ascii 0) (NoStaleList .ascii 0)
    (fun _ s => (s.app.panel .docker).target = .remote "h" ∧
      (s.app.panel .docker).shown = some (.containers []))
    sampleLink_fresh (announceHost ++ listLocal ++ [LinkAct.receive (.at 0)] ++ pickHost ++ listRemote ++
      [LinkAct.receive (.at 0), .receive (.at 0)]) (by decide +kernel)
  exact ⟨tr, s, hr, htarget, panels_show_target hr hs⟩

/-- The user retargets the Docker panel while a list of the local containers is in flight: the panel
shows them as those of the new host. -/
theorem stale_list_shown : ∃ tr s rows, Run (link .ascii 0) Free tr s ∧
    (s.app.panel .docker).shown = some rows ∧
      newestList .docker tr ≠ some (rows, some (s.app.panel .docker).target) := by
  obtain ⟨tr, s, hr, hs⟩ := Run.of_replay (link .ascii 0) Free
    (fun tr s => (s.app.panel .docker).shown = some (.containers [sampleContainer]) ∧
      newestList .docker tr ≠
        some (.containers [sampleContainer], some (s.app.panel .docker).target))
    sampleLink_fresh (announceHost ++ listLocal ++ pickHost ++ [LinkAct.receive (.at 0)]) (by decide +kernel)
  exact ⟨tr, s, _, hr, hs⟩

end Tepegoz
