import Tepegoz.HeldForwarders
import Tepegoz.Tui.Dialogue

namespace Tepegoz

open Transition Relation Holdings

def Exchange.sent : Exchange → Option Payload
  | .did _ action => action.command
  | .heard _ _ => none

section Kinds

/-- The ids of the app, with what each can be used for. -/
def Ledger.slots (l : Ledger) : List (IdKind × Nat) :=
  l.panes.map (fun pane => (.pane, pane.2)) ++ l.pendingOpens.map (fun p => (.pane, p.subId)) ++
    [(.docker, l.dockerSub), (.ports, l.portsSub), (.processes, l.processesSub),
      (.fleet, l.fleetSub)] ++
    l.logs.toList.map (fun logs => (.dockerLogs, logs.1)) ++
    l.pendingActions.keys.map (fun id => (.action, id))

theorem Ledger.mem_slots {l : Ledger} {slot : IdKind × Nat} : slot ∈ l.slots ↔
    (∃ pane ∈ l.panes, slot = (.pane, pane.2)) ∨ (∃ p ∈ l.pendingOpens, slot = (.pane, p.subId)) ∨
      slot ∈ [(.docker, l.dockerSub), (.ports, l.portsSub), (.processes, l.processesSub),
        (.fleet, l.fleetSub)] ∨
        (∃ logs, l.logs = some logs ∧ slot = (.dockerLogs, logs.1)) ∨
          ∃ id ∈ l.pendingActions.keys, slot = (.action, id) := by
  simp only [slots, List.mem_append, List.mem_map, or_assoc, eq_comm (a := slot), Option.mem_toList]

/-- The id that a command uses, with what for. -/
def Payload.slot : Payload → Option (IdKind × Nat)
  | .subscribe sub => some (sub.kind, sub.id)
  | .attachPane _ id => some (.pane, id)
  | .dockerAction req => some (.action, req.requestId)
  | _ => none

theorem Payload.ofKinds_of_slot {kinds : Nat → IdKind} {payload : Payload}
    (h : ∀ slot ∈ payload.slot, kinds slot.2 = slot.1) : payload.OfKinds kinds := by
  cases payload with
  | subscribe sub => exact h _ rfl
  | attachPane paneId id => exact h _ rfl
  | dockerAction req => exact fun _ => h _ rfl
  | _ => trivial

/-- Each id that was handed out is for one kind of use. -/
structure Kinded (kinds : Nat → IdKind) (log : List Exchange) (l : Ledger) : Prop where
  sent : ∀ payload ∈ log.filterMap (·.sent), ∀ slot ∈ payload.slot,
    slot.2 < l.nextSubId ∧ kinds slot.2 = slot.1
  held : ∀ slot ∈ l.slots, slot.2 < l.nextSubId ∧ kinds slot.2 = slot.1

namespace Kinded

variable {kinds : Nat → IdKind} {log : List Exchange} {l l' : Ledger} {kind : IdKind} {now : Nat}
  {action : AppAction}

theorem keep (h : Kinded kinds log l) (hnext : l'.nextSubId = l.nextSubId)
    (hslots : ∀ slot ∈ l'.slots, slot ∈ l.slots) : Kinded kinds log l' := by
  constructor
  · rw [hnext]
    exact h.sent
  · rw [hnext]
    exact fun slot hm => h.held slot (hslots slot hm)

/-- The next id is handed out. -/
theorem issue (kind : IdKind) (h : Kinded kinds log l) (hnext : l'.nextSubId = l.nextSubId + 1)
    (hslots : ∀ slot ∈ l'.slots, slot ∈ l.slots ∨ slot = (kind, l.nextSubId)) :
    Kinded (Function.update kinds l.nextSubId kind) log l' := by
  have hold : ∀ slot : IdKind × Nat, slot.2 < l.nextSubId ∧ kinds slot.2 = slot.1 →
      slot.2 < l'.nextSubId ∧ Function.update kinds l.nextSubId kind slot.2 = slot.1 := by
    intro slot ⟨hlt, hk⟩
    rw [hnext, Function.update_of_ne (Nat.ne_of_lt hlt)]
    exact ⟨Nat.lt_succ_of_lt hlt, hk⟩
  refine ⟨fun payload hm slot hs => hold slot (h.sent payload hm slot hs), fun slot hm => ?_⟩
  rcases hslots slot hm with hm | rfl
  · exact hold slot (h.held slot hm)
  · rw [hnext]
    exact ⟨Nat.lt_succ_self _, Function.update_self _ _ _⟩

/-- A command uses an id for what it is for. -/
theorem said (h : Kinded kinds log l)
    (hslot : ∀ payload ∈ action.command, ∀ slot ∈ payload.slot, slot ∈ l.slots) :
    Kinded kinds (log ++ [.did now action]) l := by
  refine ⟨fun payload hm slot hs => ?_, h.held⟩
  rw [List.filterMap_append, List.mem_append] at hm
  rcases hm with hm | hm
  · exact h.sent payload hm slot hs
  · obtain ⟨x, hx, hsent⟩ := List.mem_filterMap.mp hm
    obtain rfl := List.mem_singleton.mp hx
    exact h.held slot (hslot payload hsent slot hs)

theorem quiet (h : Kinded kinds log l) (hnone : action.command = none) :
    Kinded kinds (log ++ [.did now action]) l :=
  h.said fun payload hp => by rw [hnone] at hp; cases hp

theorem heard (h : Kinded kinds log l) (event : AppEvent) :
    Kinded kinds (log ++ [.heard now event]) l where
  sent := by simpa [Exchange.sent] using h.sent
  held := h.held

theorem asked {payload : Payload} (h : Kinded kinds log l)
    (hslot : ∀ slot ∈ payload.slot, slot ∈ l.slots) :
    Kinded kinds (log ++ [.did now (.sendEnvelope (envelope payload))]) l :=
  h.said fun payload' hp => by
    obtain rfl := Option.some.inj hp
    exact hslot

end Kinded

variable {m : Moment} {event : AppEvent} {t u : Turn} {past : List Exchange}

theorem AppAction.plain_slot {action : AppAction} (h : action.plain = true) {payload : Payload}
    (hp : payload ∈ action.command) (slot : IdKind × Nat) : slot ∉ payload.slot := by
  cases action with
  | sendEnvelope env =>
    obtain ⟨version, payload'⟩ := env
    obtain rfl := Option.some.inj hp
    cases payload' <;> first | cases h; done | simp [Payload.slot]
  | _ => cases hp

theorem Turn.registerAction_kinded {kinds : Nat → IdKind} (description : String)
    (ht : Kinded kinds (t.logged past m) t.app.ledger) :
    Kinded (Function.update kinds t.app.nextSubId .action) (t.logged past m)
        (t.registerAction m description).app.ledger ∧
      (.action, t.app.nextSubId) ∈ (t.registerAction m description).app.ledger.slots := by
  have hkeys : (t.registerAction m description).app.ledger.pendingActions.keys =
      t.app.nextSubId :: t.app.pendingActions.keys.erase t.app.nextSubId := AList.keys_insert _
  refine ⟨ht.issue .action rfl fun slot hm => ?_, ?_⟩
  · rw [Ledger.mem_slots, hkeys] at hm
    rw [Ledger.mem_slots]
    rcases hm with hm | hm | hm | hm | ⟨id, hid, rfl⟩
    · exact .inl (.inl hm)
    · exact .inl (.inr (.inl hm))
    · exact .inl (.inr (.inr (.inl hm)))
    · exact .inl (.inr (.inr (.inr (.inl hm))))
    · rcases List.mem_cons.mp hid with rfl | hid
      · exact .inr rfl
      · exact .inl (.inr (.inr (.inr (.inr ⟨id, List.mem_of_mem_erase hid, rfl⟩))))
  · rw [Ledger.mem_slots, hkeys]
    exact .inr (.inr (.inr (.inr ⟨_, List.mem_cons_self, rfl⟩)))

theorem Turn.dropPane_kinded {kinds : Nat → IdKind} (idx : Nat)
    (ht : Kinded kinds (t.logged past m) t.app.ledger) :
    Kinded kinds (t.logged past m) (t.dropPane idx).app.ledger := by
  refine ht.keep rfl fun slot hm => ?_
  rw [Ledger.mem_slots] at hm ⊢
  refine hm.imp_left ?_
  rintro ⟨pane, hpane, rfl⟩
  exact ⟨pane, ((List.eraseIdx_sublist _ _).map _).subset hpane, rfl⟩

theorem Turn.Work.kinded (h : Turn.Work m event t u)
    (ht : ∃ kinds, Kinded kinds (t.logged past m) t.app.ledger) :
    ∃ kinds, Kinded kinds (u.logged past m) u.app.ledger := by
  obtain ⟨kinds, ht⟩ := ht
  cases h with
  | emit ha =>
    rw [Turn.logged_emit]
    exact ⟨kinds, ht.said fun payload hp slot hs => absurd hs (AppAction.plain_slot ha hp slot)⟩
  | edit hf =>
    rw [Turn.app_edit, hf]
    exact ⟨kinds, ht⟩
  | toast kind message =>
    have hkept : Kinded kinds (t.logged past m) (t.pushToast m kind message).app.ledger :=
      ht.keep rfl fun _ => id
    unfold Turn.pushToast at hkept ⊢
    simp only [Turn.draw, Turn.logged_emit, Turn.logged_edit]
    exact ⟨kinds, (hkept.quiet rfl).quiet rfl⟩
  | toastsExpired | capable | pickerOpened | pickerClosed => exact ⟨kinds, ht.keep rfl fun _ => id⟩
  | answered | timedOut =>
    refine ⟨kinds, ht.keep rfl fun slot hm => ?_⟩
    rw [Ledger.mem_slots] at hm ⊢
    refine hm.imp_right (Or.imp_right (Or.imp_right (Or.imp_right ?_)))
    rintro ⟨id, hid, rfl⟩
    have hkept : id ∈ (t.app.pendingActions.erase _).keys := hid
    rw [AList.keys_erase] at hkept
    exact ⟨id, List.mem_of_mem_erase hkept, rfl⟩
  | dockerAction _ description | fleetAction _ description =>
    obtain ⟨hissued, hm⟩ := Turn.registerAction_kinded description ht
    rw [Turn.logged_send]
    refine ⟨_, hissued.asked fun slot hs => ?_⟩
    first | (cases hs; done) | exact Option.some.inj hs ▸ hm
  | logsLeft =>
    have hkept : Kinded kinds (t.logged past m) { t.app.ledger with logs := none } := by
      refine ht.keep rfl fun slot hm => ?_
      rw [Ledger.mem_slots] at hm ⊢
      refine hm.imp_right (Or.imp_right (Or.imp_right (Or.imp_left ?_)))
      rintro ⟨_, hnone, -⟩
      cases hnone
    rw [Turn.setDocker, Turn.logged_edit, Turn.logged_send]
    exact ⟨kinds, hkept.asked fun slot hs => by cases hs⟩
  | @logsEntered containerId name hview =>
    have hissued : Kinded (Function.update kinds t.app.nextSubId .dockerLogs) (t.logged past m)
        { t.app.ledger with
          logs := some (t.app.nextSubId, containerId), nextSubId := t.app.nextSubId + 1 } := by
      refine ht.issue .dockerLogs rfl fun slot hm => ?_
      rw [Ledger.mem_slots] at hm ⊢
      rcases hm with hm | hm | hm | ⟨logs, heq, rfl⟩ | hm
      · exact .inl (.inl hm)
      · exact .inl (.inr (.inl hm))
      · exact .inl (.inr (.inr (.inl hm)))
      · cases Option.some.inj heq
        exact .inr rfl
      · exact .inl (.inr (.inr (.inr (.inr hm))))
    rw [Turn.logged_send]
    refine ⟨_, hissued.asked fun slot hs => ?_⟩
    obtain rfl := Option.some.inj hs
    exact Ledger.mem_slots.mpr (.inr (.inr (.inr (.inl ⟨_, rfl, rfl⟩))))
  | retargetedDocker =>
    rw [Turn.logged_send, Turn.setDocker, Turn.logged_edit, Turn.logged_send]
    refine ⟨kinds, ((ht.asked fun slot hs => ?_).asked fun slot hs => ?_).keep rfl fun _ => id⟩
    · cases hs
    · obtain rfl := Option.some.inj hs
      exact Ledger.mem_slots.mpr (.inr (.inr (.inl (.head _))))
  | retargetedPorts =>
    rw [Turn.logged_send, Turn.setPorts, Turn.logged_edit, Turn.logged_send]
    refine ⟨kinds, ((ht.asked fun slot hs => ?_).asked fun slot hs => ?_).keep rfl fun _ => id⟩
    · cases hs
    · obtain rfl := Option.some.inj hs
      exact Ledger.mem_slots.mpr (.inr (.inr (.inl (.tail _ (.head _)))))
  | retargetedProcesses =>
    rw [Turn.logged_send, Turn.setPorts, Turn.logged_edit, Turn.logged_send]
    refine ⟨kinds, ((ht.asked fun slot hs => ?_).asked fun slot hs => ?_).keep rfl fun _ => id⟩
    · cases hs
    · obtain rfl := Option.some.inj hs
      exact Ledger.mem_slots.mpr (.inr (.inr (.inl (.tail _ (.tail _ (.head _))))))
  | @paneClosed removed hentry =>
    rw [Turn.dropActive, Turn.logged_send, Turn.logged_send]
    refine ⟨kinds, ((Turn.dropPane_kinded _ ht).asked fun slot hs => ?_).asked fun slot hs => ?_⟩
    · cases hs
    · cases hs
  | paneExited => exact ⟨kinds, Turn.dropPane_kinded _ ht⟩
  | @openAsked hostAlias spec =>
    have hissued : Kinded (Function.update kinds t.app.nextSubId .pane) (t.logged past m)
        (t.pushPendingOpen hostAlias).app.ledger := by
      refine ht.issue .pane rfl fun slot hm => ?_
      rw [Ledger.mem_slots] at hm ⊢
      rcases hm with hm | ⟨p, hp, rfl⟩ | hm | hm | hm
      · exact .inl (.inl hm)
      · rcases List.mem_append.mp hp with hp | hp
        · exact .inl (.inr (.inl ⟨p, hp, rfl⟩))
        · obtain rfl := List.mem_singleton.mp hp
          exact .inr rfl
      · exact .inl (.inr (.inr (.inl hm)))
      · exact .inl (.inr (.inr (.inr (.inl hm))))
      · exact .inl (.inr (.inr (.inr (.inr hm))))
    rw [Turn.logged_send]
    exact ⟨_, hissued.asked fun slot hs => by cases hs⟩
  | @paneOpened info pending others hp =>
    have hpending : pending ∈ t.app.pendingOpens := hp ▸ List.mem_cons_self
    have hothers : ∀ p ∈ others, p ∈ t.app.pendingOpens := fun p hm => hp ▸ List.mem_cons_of_mem _ hm
    have hslot : ∀ slot ∈ (Payload.attachPane info.id pending.subId).slot, slot ∈ t.app.ledger.slots :=
      fun slot hs => Option.some.inj hs ▸ Ledger.mem_slots.mpr (.inr (.inl ⟨pending, hpending, rfl⟩))
    have hopened : ∀ slot ∈ (t.addPane info pending others).app.ledger.slots,
        slot ∈ t.app.ledger.slots := by
      intro slot hm
      rw [Turn.addPane_ledger, Ledger.mem_slots] at hm
      rw [Ledger.mem_slots]
      rcases hm with ⟨pane, hpane, rfl⟩ | ⟨p, hm, rfl⟩ | hm
      · rcases List.mem_append.mp hpane with hpane | hpane
        · exact .inl ⟨pane, hpane, rfl⟩
        · obtain rfl := List.mem_singleton.mp hpane
          exact .inr (.inl ⟨pending, hpending, rfl⟩)
      · exact .inr (.inl ⟨p, hothers p hm, rfl⟩)
      · exact .inr (.inr hm)
    have hnext : (t.addPane info pending others).app.ledger.nextSubId = t.app.ledger.nextSubId := by
      rw [Turn.addPane_ledger]
    rcases Turn.addPane_logged past m t info pending others with heq | heq <;> rw [heq]
    · exact ⟨kinds, ((ht.asked hslot).keep hnext hopened)⟩
    · exact ⟨kinds, (((ht.quiet rfl).asked hslot).keep hnext hopened)⟩
  | @openFailed pending others hp =>
    refine ⟨kinds, ht.keep rfl fun slot hm => ?_⟩
    rw [Ledger.mem_slots] at hm ⊢
    refine hm.imp_right (Or.imp_left ?_)
    rintro ⟨p, hother, rfl⟩
    have hold : p ∈ t.app.pendingOpens := hp ▸ List.mem_cons_of_mem _ hother
    exact ⟨p, hold, rfl⟩
  | hostsListed _ hid | hostChanged _ _ hid =>
    refine ⟨kinds, ht.keep rfl fun slot hm => ?_⟩
    simpa only [Ledger.slots, App.ledger, Turn.app_setFleet, hid] using hm

/-- What the ids are for that the app starts with. -/
def firstKinds (id : Nat) : IdKind :=
  if id = 1 then .pane else if id = 2 then .docker else if id = 3 then .ports
  else if id = 4 then .processes else .fleet

theorem App.initial_kinded {a : App} {pane : PaneId} {shell : String} {rows cols now : Nat}
    {actions : List AppAction} (h : App.new pane shell rows cols = some a)
    (hactions : a.initialActions = some actions) :
    Kinded firstKinds (actions.map (.did now)) a.ledger := by
  obtain ⟨layout, -, h⟩ := Option.bind_eq_some_iff.mp h
  cases Option.some.inj h
  cases Option.some.inj hactions
  constructor
  · intro payload hm slot hs
    have hm' : payload ∈ [Payload.attachPane pane 1, .resizePane pane _ _,
      .subscribe (.docker 2 .localTarget), .subscribe (.ports 3 .localTarget),
      .subscribe (.processes 4 .localTarget), .subscribe (.fleet 5)] := hm
    simp only [List.mem_cons, List.not_mem_nil, or_false] at hm'
    suffices hfirst : slot.2 < 6 ∧ firstKinds slot.2 = slot.1 from hfirst
    rcases hm' with rfl | rfl | rfl | rfl | rfl | rfl
    case inr.inl => cases hs
    all_goals
      obtain rfl := Option.some.inj hs
      exact ⟨by decide, rfl⟩
  · intro slot hm
    have hm' : slot ∈ [(IdKind.pane, 1), (.docker, 2), (.ports, 3), (.processes, 4), (.fleet, 5)] := hm
    simp only [List.mem_cons, List.not_mem_nil, or_false] at hm'
    suffices hfirst : slot.2 < 6 ∧ firstKinds slot.2 = slot.1 from hfirst
    rcases hm' with rfl | rfl | rfl | rfl | rfl <;> exact ⟨by decide, rfl⟩

theorem kinded_of_run {text : TextOps} {tr : List Exchange} {a : App}
    (h : Run (dialogue text) Free tr (some a)) : ∃ kinds, Kinded kinds tr a.ledger := by
  refine dialogue_invariant (I := fun tr a => ∃ kinds, Kinded kinds tr a.ledger) h ?_ ?_
  · exact fun _ _ _ _ _ _ _ hnew hactions => ⟨firstKinds, App.initial_kinded hnew hactions⟩
  · rintro tr a m event t ⟨kinds, hk⟩ ht
    have hstart : Kinded kinds ((⟨a, []⟩ : Turn).logged (tr ++ [.heard m.now event]) m) a.ledger := by
      simpa [Turn.logged] using hk.heard event
    have hdone := (App.handleEvent_script ht).keeps (J := fun actions b => ∃ kinds,
      Kinded kinds ((⟨b, actions⟩ : Turn).logged (tr ++ [.heard m.now event]) m) b.ledger)
      ⟨kinds, hstart⟩ fun _ _ hk hw => hw.kinded hk
    simpa [Turn.logged] using hdone

end Kinds

/-- A TUI, what it sent that the daemon did not take yet, and the daemon. -/
structure TuiSession where
  app : Option App
  commands : List Payload
  world : World

inductive TuiSessionAct
  | tui (occasion : Occasion)
  | daemon (a : Act)

inductive TuiSessionObs
  | tui (x : Exchange)
  | daemon (o : Obs)

def TuiSessionObs.exchange : TuiSessionObs → Option Exchange
  | .tui x => some x
  | .daemon _ => none

def TuiSessionObs.obs : TuiSessionObs → Option Obs
  | .tui _ => none
  | .daemon o => some o

/-- The daemon takes the commands of its client in order. -/
def takeCommand (c : ClientId) (commands : List Payload) : Act → Option (List Payload)
  | .command c' payload _ =>
    if c' = c then
      match commands with
      | next :: rest => if next = payload then some rest else none
      | [] => none
    else some commands
  | _ => some commands

/-- A daemon that has a TUI for its client `c`, whatever the TUI hears and whatever others do. -/
def tuiSession (text : TextOps) (c : ClientId) : System TuiSession TuiSessionAct TuiSessionObs where
  init s := s = ⟨none, [], .initial⟩
  step s
    | .tui occasion => ((dialogue text).step s.app occasion).map fun next =>
        ({ s with app := next.1, commands := s.commands ++ next.2.filterMap (·.sent) },
          next.2.map .tui)
    | .daemon a => do
      let commands ← takeCommand c s.commands a
      let next ← s.world.step a
      some ({ s with commands := commands, world := next.1 }, next.2.map .daemon)

def Obs.commandedBy (c : ClientId) : Obs → Option Payload
  | .commanded c' payload => if c' = c then some payload else none
  | _ => none

section Session

variable {text : TextOps} {c : ClientId} {ok : List TuiSessionObs → TuiSession → TuiSessionAct → Prop}
  {tr : List TuiSessionObs} {s : TuiSession}

theorem exchange_tui (out : List Exchange) :
    (out.map TuiSessionObs.tui).filterMap TuiSessionObs.exchange = out := by
  simp [List.filterMap_map, Function.comp_def, TuiSessionObs.exchange]

theorem exchange_daemon (out : List Obs) :
    (out.map TuiSessionObs.daemon).filterMap TuiSessionObs.exchange = [] := by
  simp [List.filterMap_map, Function.comp_def, TuiSessionObs.exchange]

theorem obs_tui (out : List Exchange) : (out.map TuiSessionObs.tui).filterMap TuiSessionObs.obs = [] := by
  simp [List.filterMap_map, Function.comp_def, TuiSessionObs.obs]

theorem obs_daemon (out : List Obs) : (out.map TuiSessionObs.daemon).filterMap TuiSessionObs.obs = out := by
  simp [List.filterMap_map, Function.comp_def, TuiSessionObs.obs]

theorem tuiSession_dialogue (h : Run (tuiSession text c) ok tr s) :
    Run (dialogue text) Free (tr.filterMap (·.exchange)) s.app := by
  refine h.simulated (·.app) TuiSessionObs.exchange ?_ ?_
  · rintro s rfl
    rfl
  · rintro tr s l s' out - - hstep
    cases l with
    | tui occasion =>
      obtain ⟨⟨app, out⟩, hnext, heq⟩ := Option.map_eq_some_iff.mp hstep
      obtain ⟨rfl, rfl⟩ := Prod.mk.inj heq
      exact .inr ⟨occasion, trivial, (exchange_tui out).symm ▸ hnext⟩
    | daemon a =>
      obtain ⟨commands, -, hstep⟩ := Option.bind_eq_some_iff.mp hstep
      obtain ⟨⟨w, out⟩, -, hstep⟩ := Option.bind_eq_some_iff.mp hstep
      obtain ⟨rfl, rfl⟩ := Prod.mk.inj (Option.some.inj hstep)
      exact .inl ⟨rfl, exchange_daemon out⟩

theorem tuiSession_tui {occasion : Occasion} {s' : TuiSession} {out : List TuiSessionObs}
    (h : (tuiSession text c).step s (.tui occasion) = some (s', out)) :
    ∃ said : List Exchange, out = said.map .tui ∧ s'.world = s.world ∧
      s'.commands = s.commands ++ said.filterMap (·.sent) := by
  obtain ⟨⟨app, said⟩, -, heq⟩ := Option.map_eq_some_iff.mp h
  obtain ⟨rfl, rfl⟩ := Prod.mk.inj heq
  exact ⟨said, rfl, rfl, rfl⟩

theorem tuiSession_act {a : Act} {s' : TuiSession} {out : List TuiSessionObs}
    (h : (tuiSession text c).step s (.daemon a) = some (s', out)) :
    ∃ seen : List Obs, out = seen.map .daemon ∧ s.world.step a = some (s'.world, seen) ∧
      takeCommand c s.commands a = some s'.commands := by
  obtain ⟨commands, htake, h⟩ := Option.bind_eq_some_iff.mp h
  obtain ⟨⟨w, seen⟩, hstep, h⟩ := Option.bind_eq_some_iff.mp h
  obtain ⟨rfl, rfl⟩ := Prod.mk.inj (Option.some.inj h)
  exact ⟨seen, rfl, hstep, htake⟩

/-- What a step of the daemon takes from the commands of the client. -/
theorem World.step_takes {w w' : World} {a : Act} {seen : List Obs} {commands rest : List Payload}
    (h : w.step a = some (w', seen)) (htake : takeCommand c commands a = some rest) :
    commands = seen.filterMap (·.commandedBy c) ++ rest := by
  have hnone : (∀ payload, .commanded c payload ∉ seen) → seen.filterMap (·.commandedBy c) = [] := by
    refine fun hno => List.filterMap_eq_nil_iff.mpr fun o ho => ?_
    cases o with
    | commanded c' payload =>
      unfold Obs.commandedBy
      refine if_neg fun hc => ?_
      subst hc
      exact hno payload ho
    | _ => rfl
  unfold takeCommand at htake
  split at htake
  next c' payload panes =>
    simp only [World.step, Option.ite_none_right_eq_some] at h
    obtain ⟨-, h⟩ := h
    obtain ⟨-, rfl⟩ := Prod.mk.inj (Option.some.inj h)
    have hquiet : (World.replies c' .session ((w.sessions c').handleCommand w.taskCount panes
        payload).replies).filterMap (·.commandedBy c) = [] := by
      refine List.filterMap_eq_nil_iff.mpr fun o ho => ?_
      have := World.replies_quiet o ho
      cases o <;> first | rfl | cases this
    split at htake
    next hc =>
      subst hc
      split at htake
      next _ next' rest' =>
        obtain ⟨rfl, hrest⟩ := Option.ite_none_right_eq_some.mp htake
        obtain rfl := Option.some.inj hrest
        rw [List.filterMap_cons, hquiet]
        simp [Obs.commandedBy]
      next => cases htake
    next hc =>
      obtain rfl := Option.some.inj htake
      rw [List.filterMap_cons, hquiet]
      simp [Obs.commandedBy, hc]
  next hother =>
    rw [hnone, ← Option.some.inj htake, List.nil_append]
    intro payload hm
    obtain ⟨panes, rfl⟩ := (World.routingStep_of_step h).commanded_cases hm
    exact hother _ _ _ rfl

/-- The daemon takes the commands of the TUI in order, and no others for this client. -/
theorem commands_sent (h : Run (tuiSession text c) ok tr s) :
    (tr.filterMap (·.exchange)).filterMap (·.sent) =
      (tr.filterMap (·.obs)).filterMap (·.commandedBy c) ++ s.commands := by
  refine h.invariant (I := fun tr s => (tr.filterMap (·.exchange)).filterMap (·.sent) =
    (tr.filterMap (·.obs)).filterMap (·.commandedBy c) ++ s.commands) ?_ ?_
  · rintro s rfl
    rfl
  · rintro tr s l s' out - ih - hstep
    cases l with
    | tui occasion =>
      obtain ⟨said, rfl, -, hcommands⟩ := tuiSession_tui hstep
      rw [List.filterMap_append, List.filterMap_append, List.filterMap_append, exchange_tui, obs_tui,
        ih, hcommands, List.append_nil, List.append_assoc]
    | daemon a =>
      obtain ⟨seen, rfl, hdone, htake⟩ := tuiSession_act hstep
      rw [List.filterMap_append, exchange_daemon, List.append_nil, List.filterMap_append, obs_daemon,
        List.filterMap_append, ih, World.step_takes hdone htake, List.append_assoc]

/-- The use of an id after some commands. -/
def useAfter (i : Nat) (payloads : List Payload) : Option Use :=
  payloads.foldl (fun current payload => payload.renew i current) none

theorem newest_eq_useAfter (c : ClientId) (i : Nat) (tr : List Obs) :
    newest c i tr = useAfter i (tr.filterMap (·.commandedBy c)) := by
  unfold newest useAfter
  rw [List.foldl_filterMap]
  congr 1
  funext current o
  cases o with
  | commanded c' payload =>
    by_cases hc : c' = c <;> simp [Obs.renew, Obs.commandedBy, hc]
  | _ => rfl

/-- What the TUI asked for is told by its commands alone. -/
theorem askedFor_eq_useAfter (i : Nat) (log : List Exchange) :
    askedFor i (entries log) = useAfter i (log.filterMap (·.sent)) := by
  unfold askedFor useAfter entries
  rw [List.foldl_filterMap, List.foldl_filterMap]
  congr 1
  funext current x
  cases x with
  | heard now event =>
    cases hx : (Exchange.heard now event).entry with
    | none => rfl
    | some entry =>
      obtain ⟨id, rfl⟩ := Exchange.entry_heard hx
      rfl
  | did now action =>
    cases action with
    | sendEnvelope env =>
      obtain ⟨version, payload⟩ := env
      cases payload <;> rfl
    | _ => rfl

theorem filterMap_split {α β : Type} {f : α → Option β} {xs : List α} {pre post : List β} {b : β}
    (h : xs.filterMap f = pre ++ b :: post) : ∃ front x back, xs = front ++ x :: back ∧
      front.filterMap f = pre ∧ f x = some b := by
  obtain ⟨front, rest, rfl, hfront, hrest⟩ := List.filterMap_eq_append_iff.mp h
  obtain ⟨skipped, x, back, rfl, hskipped, hx, -⟩ := List.filterMap_eq_cons_iff.mp hrest
  refine ⟨front ++ skipped, x, back, by simp, ?_, hx⟩
  rw [List.filterMap_append, hfront, List.filterMap_eq_nil_iff.mpr hskipped, List.append_nil]

theorem Payload.entry_of_takes {payload : Payload} {i : Nat} (h : payload.takes = some i) :
    ∃ use, payload.entry = some (.take i use) := by
  cases payload with
  | subscribe sub =>
    obtain rfl := Option.some.inj h
    exact ⟨_, rfl⟩
  | attachPane paneId id =>
    obtain rfl := Option.some.inj h
    exact ⟨_, rfl⟩
  | _ => cases h

theorem Exchange.entry_of_sent {x : Exchange} {payload : Payload} (h : x.sent = some payload) :
    x.entry = payload.entry := by
  cases x with
  | heard => cases h
  | did now action =>
    cases action with
    | sendEnvelope env =>
      obtain ⟨version, payload'⟩ := env
      obtain rfl := Option.some.inj h
      rfl
    | _ => cases h

/-- The TUI takes only ids into use that it does not use by what it sent before. -/
theorem sends_unused (h : Run (tuiSession text c) ok tr s) {front back : List Payload}
    {payload : Payload} {i : Nat}
    (hsent : (tr.filterMap (·.exchange)).filterMap (·.sent) = front ++ payload :: back)
    (htakes : payload.takes = some i) : useAfter i front = none := by
  obtain ⟨front', x, back', hlog, hfront, hx⟩ := filterMap_split hsent
  obtain ⟨use, hentry⟩ := Payload.entry_of_takes htakes
  have hdialogue := tuiSession_dialogue h
  cases happ : s.app with
  | none =>
    rw [happ] at hdialogue
    rw [dialogue_unstarted hdialogue] at hlog
    cases front' <;> cases hlog
  | some a =>
    rw [happ] at hdialogue
    obtain ⟨-, hasked⟩ := (tidy_of_run hdialogue).apt.split (entries front') (.take i use)
      (entries back') (by simp [entries, hlog, Exchange.entry_of_sent hx, hentry])
    rw [← hfront, ← askedFor_eq_useAfter]
    exact hasked

theorem takeCommand_next {a : Act} {payload : Payload} {panes : PaneAnswers} {commands rest : List Payload}
    (h : takeCommand c commands a = some rest) (ha : a = .command c payload panes) :
    commands = payload :: rest := by
  subst ha
  unfold takeCommand at h
  simp only [if_true] at h
  split at h
  next first rest' =>
    obtain ⟨rfl, hrest⟩ := Option.ite_none_right_eq_some.mp h
    rw [Option.some.inj hrest]
  next => cases h

/-- What the TUI takes into use reaches the daemon while its id is unused there. -/
theorem takes_unused (h : Run (tuiSession text c) ok tr s) {payload : Payload} {rest : List Payload}
    {i : Nat} (hnext : s.commands = payload :: rest) (htakes : payload.takes = some i) :
    newest c i (tr.filterMap (·.obs)) = none := by
  have hsent := commands_sent h
  rw [hnext] at hsent
  rw [newest_eq_useAfter]
  exact sends_unused h hsent htakes

theorem tuiSession_taking (h : Run (tuiSession text c) ok tr s) :
    Run daemon (TakesUnused c) (tr.filterMap (·.obs)) s.world := by
  refine h.simulated (·.world) TuiSessionObs.obs ?_ ?_
  · rintro s rfl
    rfl
  · rintro tr s l s' out hr - hstep
    cases l with
    | tui occasion =>
      obtain ⟨said, rfl, hworld, -⟩ := tuiSession_tui hstep
      exact .inl ⟨hworld, obs_tui said⟩
    | daemon a =>
      obtain ⟨seen, rfl, hdone, htake⟩ := tuiSession_act hstep
      refine .inr ⟨a, ?_, (obs_daemon seen).symm ▸ hdone⟩
      cases a with
      | command c' payload panes =>
        rintro rfl i htakes
        exact takes_unused hr (takeCommand_next htake rfl) htakes
      | _ => trivial

theorem tuiSession_daemon (h : Run (tuiSession text c) ok tr s) :
    Run daemon Free (tr.filterMap (·.obs)) s.world :=
  (tuiSession_taking h).mono fun _ _ _ _ => trivial

theorem Payload.renew_kept {payload : Payload} {i : Nat} {use : Option Use}
    (htakes : payload.takes ≠ some i) (hdrop : payload ≠ .unsubscribe i) : payload.renew i use = use := by
  cases payload with
  | subscribe sub => exact if_neg fun hid => htakes (congrArg some hid)
  | attachPane paneId id => exact if_neg fun hid => htakes (congrArg some hid)
  | unsubscribe id => exact if_neg fun hid => hdrop (congrArg Payload.unsubscribe hid)
  | _ => rfl

/-- What the daemon uses an id for is what the app uses it for, once no unsubscribe of the id is on
its way. -/
theorem newest_of_app (h : Run (tuiSession text c) ok tr s) {a : App} (happ : s.app = some a) {i : Nat}
    {use : Use} (hu : newest c i (tr.filterMap (·.obs)) = some use)
    (hdrop : .unsubscribe i ∉ s.commands) :
    (i, use) ∈ a.ledger.uses ∨ i < a.nextSubId ∧ i ∉ a.core.ids := by
  have hsent := commands_sent h
  have hdialogue := tuiSession_dialogue h
  rw [happ] at hdialogue
  refine (tidy_of_run hdialogue).asked i use ?_
  rw [askedFor_eq_useAfter, hsent]
  rw [newest_eq_useAfter] at hu
  -- the commands on their way, from the oldest on, leave the use alone
  suffices hkept : ∀ front back, s.commands = front ++ back →
      useAfter i ((tr.filterMap (·.obs)).filterMap (·.commandedBy c) ++ front) = some use from
    hkept s.commands [] (List.append_nil _).symm
  intro front
  induction front using List.reverseRecOn with
  | nil => intro back _; rwa [List.append_nil]
  | append_singleton front payload ih =>
    intro back hcommands
    have hbefore := ih (payload :: back) (by simp [hcommands])
    have hafter : useAfter i ((tr.filterMap (·.obs)).filterMap (·.commandedBy c) ++
        (front ++ [payload])) = payload.renew i (some use) := by
      rw [← hbefore]
      simp [useAfter]
    rw [hafter]
    refine Payload.renew_kept (fun htakes => ?_) fun hpayload => hdrop (by simp [hcommands, hpayload])
    have hsplit : (tr.filterMap (·.exchange)).filterMap (·.sent) =
        ((tr.filterMap (·.obs)).filterMap (·.commandedBy c) ++ front) ++ payload :: back := by
      simp [hsent, hcommands]
    have hfree := sends_unused h hsplit htakes
    rw [hbefore] at hfree
    cases hfree

/-- An unsubscribe of the TUI finds the routing entries of its id where the pool leads it. -/
def UnsubscribesLed (c : ClientId) (_ : List TuiSessionObs) (s : TuiSession) : TuiSessionAct → Prop
  | .daemon (.unsubscribe c') => c' = c → RetiresPrevious s.world (.unsubscribe c)
  | _ => True

instance (tr : List TuiSessionObs) (s : TuiSession) (l : TuiSessionAct) :
    Decidable (UnsubscribesLed c tr s l) := by
  unfold UnsubscribesLed
  split <;> infer_instance

theorem Subscription.kind_ne_action (sub : Subscription) : sub.kind ≠ .action := by
  cases sub <;> simp [kind]

/-- The TUI never subscribes under an id that still has a producer. -/
theorem subscribes_retired (kinds : Nat → IdKind) {sub : Subscription} {rest : List Payload}
    {panes : PaneAnswers} (h : Run (tuiSession text c) ok tr s)
    (hnext : s.commands = .subscribe sub :: rest) (hp : (s.world.sessions c).phase = .ready)
    (hparts : Parts (kinds sub.id) (tr.filterMap (·.obs)) s.world c sub.id) :
    RetiresPrevious s.world (.command c (.subscribe sub) panes) := by
  have hnone : s.world.producers c sub.id = [] := by
    refine List.eq_nil_iff_forall_not_mem.mpr fun p hp' => ?_
    obtain ⟨use, hu, -⟩ := hparts.serves (idLedger_of_run (tuiSession_daemon h))
      (by simp [hp, SessionPhase.handles]) hp'
    rw [takes_unused h hnext rfl] at hu
    cases hu
  have hentries : s.world.entriesOf c sub.id = [] :=
    List.map_eq_nil_iff.mp (List.append_eq_nil_iff.mp hnone).2
  unfold RetiresPrevious
  dsimp only
  split
  · exact hentries
  · exact hnone
  · trivial

/-- Every step of the daemon for the TUI retires the previous producer of an id, or finds it retired. -/
theorem daemon_oneAtATime {kinds : Nat → IdKind} {a : Act} {commands : List Payload} {next : World × List Obs}
    (h : Run (tuiSession text c) ok tr s) (hok : UnsubscribesLed c tr s (.daemon a))
    (hkinds : ∀ payload ∈ s.commands, payload.OfKinds kinds)
    (hparts : ∀ i, kinds i ≠ .action → Parts (kinds i) (tr.filterMap (·.obs)) s.world c i)
    (hc : a.client = some c) (htake : takeCommand c s.commands a = some commands)
    (hstep : s.world.step a = some next) :
    OneAtATime (fun _ => kinds) (tr.filterMap (·.obs)) s.world a := by
  cases a with
  | command c' payload panes =>
    obtain rfl := Option.some.inj hc
    have hphase : (s.world.sessions c').phase = .ready :=
      (Option.ite_none_right_eq_some.mp hstep).1
    have hnext : s.commands = payload :: commands := takeCommand_next htake rfl
    have hpayload : payload.OfKinds kinds := hkinds payload (hnext ▸ List.mem_cons_self)
    refine ⟨hpayload, ?_⟩
    cases payload with
    | subscribe sub =>
      refine subscribes_retired kinds h hnext hphase (hparts sub.id ?_)
      rw [show kinds sub.id = sub.kind from hpayload]
      exact sub.kind_ne_action
    | _ => trivial
  | unsubscribe c' =>
    obtain rfl := Option.some.inj hc
    exact ⟨trivial, hok rfl⟩
  | connect | route | disconnect | teardown => exact ⟨trivial, trivial⟩
  | _ => cases hc

theorem parts_of_session {kinds : Nat → IdKind} (h : Run (tuiSession text c) (UnsubscribesLed c) tr s)
    (hkinds : ∀ payload ∈ (tr.filterMap (·.exchange)).filterMap (·.sent), payload.OfKinds kinds) :
    ∀ i, kinds i ≠ .action → Parts (kinds i) (tr.filterMap (·.obs)) s.world c i := by
  refine h.invariant (I := fun tr s =>
    (∀ payload ∈ (tr.filterMap (·.exchange)).filterMap (·.sent), payload.OfKinds kinds) →
      ∀ i, kinds i ≠ .action → Parts (kinds i) (tr.filterMap (·.obs)) s.world c i) ?_ ?_ hkinds
  · rintro s rfl _ i hi
    exact @parts_of_run (fun _ => kinds) _ _ _ _ (.start rfl) hi
  · intro tr s l s' out hr ih hok hstep hkinds i hi
    cases l with
    | tui occasion =>
      obtain ⟨said, rfl, hworld, -⟩ := tuiSession_tui hstep
      rw [List.filterMap_append, exchange_tui, List.filterMap_append] at hkinds
      rw [List.filterMap_append, obs_tui, List.append_nil, hworld]
      exact ih (fun payload hm => hkinds payload (List.mem_append_left _ hm)) i hi
    | daemon a =>
      obtain ⟨seen, rfl, hdone, htake⟩ := tuiSession_act hstep
      rw [List.filterMap_append, exchange_daemon, List.append_nil] at hkinds
      rw [List.filterMap_append, obs_daemon]
      have hparts := ih hkinds
      have hrouting := World.routingStep_of_step hdone
      have hl := idLedger_of_run (tuiSession_daemon hr)
      by_cases hc : a.client = some c
      · have hone : OneAtATime (fun _ => kinds) (tr.filterMap (·.obs)) s.world a := by
          refine daemon_oneAtATime hr hok (fun payload hm => hkinds payload ?_) hparts hc htake hdone
          rw [commands_sent hr]
          exact List.mem_append_right _ hm
        exact (hparts i hi).step hl (poolAliased_of_run (tuiSession_daemon hr)) hone hi hrouting
      · exact (hparts i hi).frame hl hrouting (hrouting.sessions_other hc)
          fun o ho ha => hc (hrouting.author_client ho ha)

theorem Parts.oneProducer {kind : IdKind} {log : List Obs} {w : World} {i : Nat} (h : Parts kind log w c i)
    (hl : IdLedger log w) (hh : (w.sessions c).phase.handles i = false) : OneProducer log w c i := by
  unfold OneProducer
  split
  next use hn =>
    refine ⟨fun p hp => ?_, fun p hp q hq => ?_⟩
    · obtain ⟨u, hu, hs, -⟩ := h.serves hl hh hp
      rwa [← Option.some.inj (hn.symm.trans hu)] at hs
    · obtain ⟨u, hu, -, hpp⟩ := h.serves hl hh hp
      obtain ⟨v, hv, -, hpq⟩ := h.serves hl hh hq
      obtain rfl := Option.some.inj (hu.symm.trans hv)
      exact h.place_unique hl hp hq (Option.some.inj (hpp.symm.trans hpq))
  next hn =>
    refine List.eq_nil_iff_forall_not_mem.mpr fun p hp => ?_
    obtain ⟨u, hu, -⟩ := h.serves hl hh hp
    cases hn.symm.trans hu

/-- No command uses the id for an action. -/
theorem kinds_of_session (h : Run (tuiSession text c) ok tr s) {i : Nat}
    (hi : ∀ req, .dockerAction req ∈ (tr.filterMap (·.exchange)).filterMap (·.sent) → req.requestId ≠ i) :
    ∃ kinds : Nat → IdKind, kinds i ≠ .action ∧
      ∀ payload ∈ (tr.filterMap (·.exchange)).filterMap (·.sent), payload.OfKinds kinds := by
  have hdialogue := tuiSession_dialogue h
  cases happ : s.app with
  | none =>
    rw [happ] at hdialogue
    exact ⟨fun _ => .status, by simp, by simp [dialogue_unstarted hdialogue]⟩
  | some a =>
    rw [happ] at hdialogue
    obtain ⟨kinds, hk⟩ := kinded_of_run hdialogue
    by_cases hai : kinds i = .action
    · refine ⟨Function.update kinds i .status, by simp, fun payload hm => ?_⟩
      refine Payload.ofKinds_of_slot fun slot hs => ?_
      obtain ⟨-, hslot⟩ := hk.sent payload hm slot hs
      rw [Function.update_of_ne, hslot]
      rintro rfl
      rw [hai] at hslot
      cases payload with
      | subscribe sub =>
        obtain rfl := Option.some.inj hs
        exact sub.kind_ne_action hslot.symm
      | attachPane => obtain rfl := Option.some.inj hs; cases hslot
      | dockerAction req =>
        obtain rfl := Option.some.inj hs
        exact hi req hm rfl
      | _ => cases hs
    · exact ⟨kinds, hai, fun payload hm => Payload.ofKinds_of_slot fun slot hs =>
        (hk.sent payload hm slot hs).2⟩

end Session

/-- Every id of the TUI that is not one of an action has one producer at most in the daemon, for the
newest command on it. Once the daemon has taken all commands, a producer serves what the app uses its
id for, or its id is one that the app has done with. -/
theorem tui_one_producer {text : TextOps} {c : ClientId} {tr : List TuiSessionObs} {s : TuiSession}
    (h : Run (tuiSession text c) (UnsubscribesLed c) tr s) {i : Nat}
    (hi : ∀ req, .dockerAction req ∈ (tr.filterMap (·.exchange)).filterMap (·.sent) → req.requestId ≠ i)
    (hh : (s.world.sessions c).phase.handles i = false) :
    OneProducer (tr.filterMap (·.obs)) s.world c i ∧ (s.commands = [] → ∀ a, s.app = some a →
      ∀ p ∈ s.world.producers c i, ∃ use, p.Serves s.world use ∧
        ((i, use) ∈ a.ledger.uses ∨ i < a.nextSubId ∧ i ∉ a.core.ids)) := by
  obtain ⟨kinds, hne, hkinds⟩ := kinds_of_session h hi
  have hparts := parts_of_session h hkinds i hne
  have hl := idLedger_of_run (tuiSession_daemon h)
  refine ⟨hparts.oneProducer hl hh, fun hnone a happ p hp => ?_⟩
  obtain ⟨use, hu, hs, -⟩ := hparts.serves hl hh hp
  have hsent := commands_sent h
  rw [hnone, List.append_nil] at hsent
  have hdialogue := tuiSession_dialogue h
  rw [happ] at hdialogue
  rw [newest_eq_useAfter, ← hsent, ← askedFor_eq_useAfter] at hu
  exact ⟨use, hs, (tidy_of_run hdialogue).asked i use hu⟩

/-- The user moves the container list to a host and back. -/
def moveThereAndBack : List TuiSessionAct :=
  [.tui (.start 0 7 "/bin/zsh" 40 120), .daemon (.connect 0),
    .daemon (.command 0 (.attachPane 7 1) { PaneAnswers.none with known := true }),
    .daemon (.command 0 (.resizePane 7 21 120) .none),
    .daemon (.command 0 (.subscribe (.docker 2 .localTarget)) .none),
    .daemon (.command 0 (.subscribe (.ports 3 .localTarget)) .none),
    .daemon (.command 0 (.subscribe (.processes 4 .localTarget)) .none),
    .daemon (.command 0 (.subscribe (.fleet 5)) .none), .daemon (.spawn 0 0 5 "h"),
    .daemon (.supervisor 0 .connected), .daemon (.supervisor 0 (.handshaken ["docker"])),
    .daemon (.supervisor 0 .register),
    .tui (.event (.at 0) (.daemonEnvelope (eventFrame 5 (.hostList [⟨"h", "h", "u", none⟩] "ssh")))),
    .tui (.event (.at 0) (.daemonEnvelope (eventFrame 5 (.hostStateChanged "h" .connected none)))),
    .tui (.event (.at 0) (.daemonEnvelope (eventFrame 5 (.agentCapabilities "h" ["docker"])))),
    .tui (.event (.at 0) (.stdinChunk [prefixByte, key 'j'])),
    .tui (.event (.at 1) (.stdinChunk [prefixByte, key 't'])),
    .tui (.event (.at 2) (.stdinChunk [key 'j', 0x0d])), .daemon (.command 0 (.unsubscribe 2) .none),
    .daemon (.command 0 (.subscribe (.docker 2 (.remote "h"))) .none), .daemon (.route 0),
    .daemon (.route 0), .daemon (.route 0), .tui (.event (.at 3) (.stdinChunk [prefixByte, key 't'])),
    .tui (.event (.at 4) (.stdinChunk [key 'k', 0x0d])), .daemon (.command 0 (.unsubscribe 2) .none),
    .daemon (.unsubscribe 0), .daemon (.command 0 (.subscribe (.docker 2 .localTarget)) .none)]

theorem tui_one_producer_moved : ∃ tr s, Run (tuiSession .ascii 0) (UnsubscribesLed 0) tr s ∧
    s.commands = [] ∧ s.world.producers 0 2 = [.forwarder .docker ⟨9, .docker 2 .localTarget⟩] ∧
      OneProducer (tr.filterMap (·.obs)) s.world 0 2 := by
  obtain ⟨tr, s, hr, hcommands, hp, hh, hi⟩ := Run.of_replay (tuiSession .ascii 0) (UnsubscribesLed 0)
    (fun tr s => s.commands = [] ∧
      s.world.producers 0 2 = [.forwarder .docker ⟨9, .docker 2 .localTarget⟩] ∧
        (s.world.sessions 0).phase.handles 2 = false ∧
          ∀ payload ∈ (tr.filterMap (·.exchange)).filterMap (·.sent),
            (IdKind.action, 2) ∉ payload.slot) rfl moveThereAndBack (by decide +kernel)
  exact ⟨tr, s, hr, hcommands, hp,
    (tui_one_producer hr (fun req hm hid => hi _ hm (by rw [← hid]; rfl)) hh).1⟩

end Tepegoz
