import Tepegoz.Lib.Holdings
import Tepegoz.Producers
import Tepegoz.Tui.Script
import Tepegoz.Tui.SubIds

namespace Tepegoz

open Transition Relation Holdings

/-- What happens to the TUI: it starts on a pane, or has an event to handle. -/
inductive Occasion
  | start (now : Nat) (pane : PaneId) (shell : String) (rows cols : Nat)
  | event (m : Moment) (event : AppEvent)

inductive Exchange
  | heard (now : Nat) (event : AppEvent)
  | did (now : Nat) (action : AppAction)
  deriving DecidableEq

/-- The TUI with what it is told and what it does. -/
def dialogue (text : TextOps) : System (Option App) Occasion Exchange where
  init s := s = none
  step
    | none, .start now pane shell rows cols => do
      let a ← App.new pane shell rows cols
      let actions ← a.initialActions
      some (some a, actions.map (.did now))
    | some a, .event m event => (a.handleEvent text m event).map fun t =>
        (some t.app, .heard m.now event :: t.actions.map (.did m.now))
    | _, _ => none

theorem dialogue_cases {text : TextOps} {s s' : Option App} {l : Occasion} {out : List Exchange}
    (h : (dialogue text).step s l = some (s', out)) :
    (∃ now pane shell rows cols a actions, s = none ∧ App.new pane shell rows cols = some a ∧
      a.initialActions = some actions ∧ s' = some a ∧ out = actions.map (.did now)) ∨
    ∃ a m event t, s = some a ∧ a.handleEvent text m event = some t ∧ s' = some t.app ∧
      out = .heard m.now event :: t.actions.map (.did m.now) := by
  cases s with
  | none =>
    cases l with
    | start now pane shell rows cols =>
      obtain ⟨a, ha, h⟩ := Option.bind_eq_some_iff.mp h
      obtain ⟨actions, hactions, h⟩ := Option.bind_eq_some_iff.mp h
      obtain ⟨rfl, rfl⟩ := Prod.mk.inj (Option.some.inj h)
      exact .inl ⟨now, pane, shell, rows, cols, a, actions, rfl, ha, hactions, rfl, rfl⟩
    | event m event => cases h
  | some a =>
    cases l with
    | start now pane shell rows cols => cases h
    | event m event =>
      obtain ⟨t, ht, heq⟩ := Option.map_eq_some_iff.mp h
      obtain ⟨rfl, rfl⟩ := Prod.mk.inj heq
      exact .inr ⟨a, m, event, t, rfl, ht, rfl, rfl⟩

theorem dialogue_unstarted {text : TextOps} {tr : List Exchange} (h : Run (dialogue text) Free tr none) :
    tr = [] := by
  refine h.invariant (I := fun tr s => s = none → tr = []) (fun _ _ _ => rfl) ?_ rfl
  rintro tr s l s' out - - - hstep rfl
  rcases dialogue_cases hstep with ⟨_, _, _, _, _, _, _, -, -, -, hs, -⟩ | ⟨_, _, _, _, -, -, hs, -⟩ <;>
    cases hs

/-- A rule for what holds of the app and of the dialogue up to the end of each event. -/
theorem dialogue_invariant {text : TextOps} {I : List Exchange → App → Prop} {tr : List Exchange}
    {a : App} (h : Run (dialogue text) Free tr (some a))
    (start : ∀ now pane shell rows cols a actions, App.new pane shell rows cols = some a →
      a.initialActions = some actions → I (actions.map (.did now)) a)
    (event : ∀ tr a m event t, I tr a → a.handleEvent text m event = some t →
      I (tr ++ .heard m.now event :: t.actions.map (.did m.now)) t.app) : I tr a := by
  refine h.invariant (I := fun tr s => ∀ a, s = some a → I tr a) ?_ ?_ a rfl
  · rintro s rfl a ha
    cases ha
  · rintro tr s l s' out hr hI - hstep a ha
    rcases dialogue_cases hstep with ⟨now, pane, shell, rows, cols, b, actions, rfl, hnew, hactions, rfl,
      rfl⟩ | ⟨b, m, ev, t, rfl, ht, rfl, rfl⟩
    · obtain rfl := Option.some.inj ha
      rw [dialogue_unstarted hr]
      exact start _ _ _ _ _ _ _ hnew hactions
    · obtain rfl := Option.some.inj ha
      exact event _ _ _ _ _ (hI b rfl) ht

/-- What holds at the start of an event and is kept by each piece of work holds at its end. -/
theorem Turn.Script.keeps {m : Moment} {event : AppEvent} {J : List AppAction → App → Prop} {t u : Turn}
    (h : Turn.Script m event t u) (start : J t.actions t.app)
    (work : ∀ t u, J t.actions t.app → Turn.Work m event t u → J u.actions u.app) :
    J u.actions u.app := by
  induction h with
  | refl => exact start
  | tail _ hw ih => exact work _ _ ih hw

/-- The dialogue up to where a handler has got. -/
def Turn.logged (past : List Exchange) (m : Moment) (t : Turn) : List Exchange :=
  past ++ t.actions.map (.did m.now)

section Logged

variable (past : List Exchange) (m : Moment) (t : Turn)

@[simp] theorem Turn.logged_emit (action : AppAction) :
    (t.emit action).logged past m = t.logged past m ++ [.did m.now action] := by
  simp [Turn.logged, Turn.emit]

@[simp] theorem Turn.logged_send (payload : Payload) : (t.send payload).logged past m =
    t.logged past m ++ [.did m.now (.sendEnvelope (envelope payload))] := logged_emit past m t _

@[simp] theorem Turn.logged_edit (f : App → App) :
    (t.edit f).logged past m = t.logged past m := rfl

theorem Turn.addPane_logged (info : PaneInfo) (pending : PendingOpen) (others : List PendingOpen) :
    (t.addPane info pending others).logged past m = t.logged past m ++
        [.did m.now (.sendEnvelope (envelope (.attachPane info.id pending.subId)))] ∨
      (t.addPane info pending others).logged past m = t.logged past m ++
        [.did m.now (.focusTile .pty)] ++
          [.did m.now (.sendEnvelope (envelope (.attachPane info.id pending.subId)))] := by
  unfold addPane focusPty
  split
  next => exact .inr (by simp only [logged_send, logged_emit, logged_edit])
  next => exact .inl (by simp only [logged_send, logged_edit])

theorem Turn.addPane_ledger (info : PaneInfo) (pending : PendingOpen) (others : List PendingOpen) :
    (t.addPane info pending others).app.ledger = { t.app.ledger with
      panes := t.app.ledger.panes ++ [(info.id, pending.subId)], pendingOpens := others } := by
  unfold addPane focusPty
  split <;> simp [App.ledger, PaneEntry.ids]

end Logged

section Ids

variable {m : Moment} {event : AppEvent} {t u : Turn} {a b : App}

theorem App.core_logs (a : App) : a.core.logs = a.ledger.logs.map (·.1) := by
  show a.docker.view.logsSub = a.docker.view.logsOf.map (·.1)
  cases a.docker.view <;> rfl

/-- The ledger tells which ids are in use. -/
theorem App.ids_congr (h : a.ledger = b.ledger) : a.core.Evolves b.core := by
  have hlogs : a.core.logs = b.core.logs := by rw [App.core_logs, App.core_logs, h]
  have hpanes : a.core.panes = b.core.panes := congrArg Ledger.panes h
  have hopens : a.core.pendingOpens = b.core.pendingOpens := congrArg Ledger.pendingOpens h
  have hdocker : a.core.dockerSub = b.core.dockerSub := congrArg Ledger.dockerSub h
  have hports : a.core.portsSub = b.core.portsSub := congrArg Ledger.portsSub h
  have hprocesses : a.core.processesSub = b.core.processesSub := congrArg Ledger.processesSub h
  have hfleet : a.core.fleetSub = b.core.fleetSub := congrArg Ledger.fleetSub h
  have hactions : a.core.actions = b.core.actions :=
    congrArg (fun l : Ledger => l.pendingActions.keys) h
  refine .of_count (congrArg Ledger.nextSubId h).symm fun id => ?_
  simp only [Core.count_ids, hlogs, hpanes, hopens, hdocker, hports, hprocesses, hfleet, hactions,
    le_refl]

theorem Turn.setFleet_evolves {f : FleetScope} (h : f.subId = t.app.fleet.subId) :
    t.app.core.Evolves (t.setFleet f).app.core := by
  have hcore : (t.setFleet f).app.core = { t.app.core with fleetSub := f.subId } := rfl
  rw [hcore, h]
  exact .refl _ _

/-- Whatever has caused a move, the ids only evolve. -/
theorem Core.evolves_of_move {c c' : Core} (h : Core.Move Set.univ c c') : c.Evolves c' := h.evolves

theorem Turn.evolves_of_moves (h : t.Moves Set.univ u) : t.app.core.Evolves u.app.core := h.evolves

theorem Turn.Work.evolves (h : Turn.Work m event t u) : t.app.core.Evolves u.app.core := by
  cases h with
  | emit => exact .refl _ _
  | edit hf => exact App.ids_congr hf.symm
  | toast | toastsExpired | pickerOpened | pickerClosed | capable => exact .refl _ _
  | answered | timedOut => exact Turn.evolves_of_moves (Turn.eraseAction_moves _)
  | dockerAction | fleetAction =>
    exact Turn.evolves_of_moves (u := t.registerAction m _) (Turn.registerAction_moves _)
  | logsLeft => exact Core.evolves_of_move .logsLeft
  | logsEntered =>
    have hissued : t.app.core.Evolves { t.app.core with
        logs := some t.app.core.nextSubId, nextSubId := t.app.core.nextSubId + 1 } := by
      refine .of_issue rfl fun id => ?_
      simp only [Core.count_issued, Core.count_ids, Option.toList_some]
      omega
    exact hissued
  | retargetedDocker | retargetedPorts | retargetedProcesses => exact .refl _ _
  | paneClosed => exact Turn.evolves_of_moves (.emit (.emit (Turn.dropPane_moves _) rfl) rfl)
  | paneExited => exact Turn.evolves_of_moves (Turn.dropPane_moves _)
  | openAsked => exact .opened _
  | paneOpened info hp =>
    have hadded : t.app.core.Evolves (t.handlePaneOpened info).app.core :=
      (Turn.handlePaneOpened_moves (Set.mem_univ _) (Set.mem_univ _) info).evolves
    unfold Turn.handlePaneOpened at hadded
    rw [hp] at hadded
    exact hadded
  | openFailed hp => exact Core.evolves_of_move (.openFailed (Set.mem_univ _) hp)
  | hostsListed _ hid => exact Turn.setFleet_evolves hid
  | hostChanged _ _ hid => exact Turn.setFleet_evolves hid

end Ids

section Uses

def Use.isPane : Use → Bool
  | .pane _ => true
  | .subscription _ => false

/-- What the app uses its ids for. -/
def Ledger.uses (l : Ledger) : List (Nat × Use) :=
  [(l.dockerSub, .subscription (.docker l.dockerSub l.dockerTarget)),
    (l.portsSub, .subscription (.ports l.portsSub l.portsTarget)),
    (l.processesSub, .subscription (.processes l.processesSub l.processesTarget)),
    (l.fleetSub, .subscription (.fleet l.fleetSub))] ++
  (l.logs.toList.map fun (subId, containerId) =>
    (subId, .subscription (.dockerLogs subId containerId true 0 l.dockerTarget))) ++
  l.panes.map fun (paneId, subId) => (subId, .pane paneId)

/-- What a command does with an id. -/
def Payload.entry : Payload → Option (Entry Nat Use)
  | .subscribe sub => some (.take sub.id (.subscription sub))
  | .attachPane paneId id => some (.take id (.pane paneId))
  | .unsubscribe id => some (.drop id)
  | _ => none

/-- A pane that exited does not use its id any more. -/
def Exchange.entry : Exchange → Option (Entry Nat Use)
  | .heard _ event =>
    match event.frame with
    | some (id, .paneExit _) => some (.lapse id Use.isPane)
    | _ => none
  | .did _ (.sendEnvelope env) => env.payload.entry
  | .did _ _ => none

theorem Exchange.entry_heard {now : Nat} {event : AppEvent} {entry : Entry Nat Use}
    (h : entry ∈ (heard now event).entry) : ∃ id, entry = .lapse id Use.isPane := by
  simp only [Exchange.entry] at h
  split at h
  next id _ _ => exact ⟨id, (Option.some.inj h).symm⟩
  next => cases h

def entries (log : List Exchange) : List (Entry Nat Use) := log.filterMap (·.entry)

/-- The dialogue up to now accounts for all ids that the app uses. -/
def Tidy (log : List Exchange) (a : App) : Prop :=
  Kept (entries log) a.ledger.uses a.core.ids a.nextSubId

variable {m : Moment} {event : AppEvent} {t u : Turn} {a b : App} {log : List Exchange} {now : Nat}

theorem App.count_uses (a : App) (id : Nat) : (a.ledger.uses.map (·.1)).count id +
    (a.pendingOpens.map (·.subId)).count id ≤ a.core.ids.count id := by
  have hpanes : a.ledger.panes = a.core.panes := rfl
  have hlogs : a.ledger.logs.toList.map (·.1) = a.core.logs.toList := by
    rw [App.core_logs]
    cases a.ledger.logs <;> rfl
  simp only [Core.count_ids, ← hlogs, ← hpanes, Ledger.uses, List.map_append, List.map_map,
    List.map_cons, List.map_nil, List.count_append, Function.comp_def]
  have hopens : a.core.pendingOpens = a.pendingOpens := rfl
  have hsubs : [a.ledger.dockerSub, a.ledger.portsSub, a.ledger.processesSub, a.ledger.fleetSub] =
    [a.core.dockerSub, a.core.portsSub, a.core.processesSub, a.core.fleetSub] := rfl
  rw [hopens, hsubs]
  omega

theorem App.uses_live (a : App) : ∀ use ∈ a.ledger.uses, use.1 ∈ a.core.ids := by
  intro use hm
  have hcount := a.count_uses use.1
  have hone := List.count_pos_iff.mpr (List.mem_map_of_mem (f := (·.1)) hm)
  exact Multiset.count_pos.mp (by omega)

theorem entries_concat (log : List Exchange) (x : Exchange) :
    entries (log ++ [x]) = entries log ++ x.entry.toList := by
  cases hx : x.entry <;> simp [entries, hx]

theorem AppAction.plain_entry {action : AppAction} (h : action.plain = true) :
    (Exchange.did now action).entry = none := by
  cases action with
  | sendEnvelope env =>
    obtain ⟨version, payload⟩ := env
    cases payload <;> first | rfl | cases h
  | _ => rfl

namespace Tidy

theorem quiet {x : Exchange} (h : Tidy log a) (hx : x.entry = none) : Tidy (log ++ [x]) a := by
  have heq : entries (log ++ [x]) = entries log := by simp [entries_concat, hx]
  unfold Tidy
  rw [heq]
  exact h

theorem evolved (h : Tidy log a) (he : a.core.Evolves b.core) (hu : b.ledger.uses = a.ledger.uses) :
    Tidy log b := by
  have hlive : ∀ use ∈ a.ledger.uses, use.1 ∈ b.core.ids := hu ▸ b.uses_live
  unfold Tidy
  rw [hu]
  exact Kept.evolves h he hlive

variable {x y : Exchange} {id : Nat} {use use' : Use}

theorem took (h : Tidy log a) (he : a.core.Evolves b.core) (hx : x.entry = some (.take id use))
    (hfree : id ∉ a.ledger.uses.map (·.1))
    (hp : ((id, use) :: a.ledger.uses).Perm b.ledger.uses) : Tidy (log ++ [x]) b := by
  have hlive : ∀ use ∈ a.ledger.uses, use.1 ∈ b.core.ids := fun use hm =>
    b.uses_live use (hp.mem_iff.mp (List.mem_cons_of_mem _ hm))
  have hid : id ∈ b.core.ids := b.uses_live (id, use) (hp.mem_iff.mp List.mem_cons_self)
  have hbefore : Kept (entries log) a.ledger.uses b.core.ids b.nextSubId := Kept.evolves h he hlive
  unfold Tidy
  rw [entries_concat, hx]
  exact (hbefore.take hfree hid).perm hp

theorem gave (h : Tidy log a) (he : a.core.Evolves b.core) (hx : x.entry = some (.drop id))
    (hp : a.ledger.uses.Perm ((id, use) :: b.ledger.uses)) : Tidy (log ++ [x]) b := by
  unfold Tidy
  rw [entries_concat, hx]
  exact (h.perm hp).drop.evolves he b.uses_live

theorem fresh (h : Tidy log a) : a.nextSubId ∉ a.ledger.uses.map (·.1) := fun hm => by
  obtain ⟨use, huse, hid⟩ := List.mem_map.mp hm
  exact lt_irrefl _ (hid ▸ h.sound.lt _ (h.lives use huse))

theorem opening (h : Tidy log a) {pending : PendingOpen} (hp : pending ∈ a.pendingOpens) :
    pending.subId ∉ a.ledger.uses.map (·.1) := fun hm => by
  have hone : a.core.ids.count pending.subId ≤ 1 := Multiset.nodup_iff_count_le_one.mp h.sound.nodup _
  have huses := List.count_pos_iff.mpr hm
  have hopens := List.count_pos_iff.mpr (List.mem_map_of_mem (f := (·.subId)) hp)
  have hcount := a.count_uses pending.subId
  omega

/-- An id is given up and put to another use. -/
theorem moved (h : Tidy log a) (he : a.core.Evolves b.core) {rest : List (Nat × Use)}
    (hx : x.entry = some (.drop id)) (hy : y.entry = some (.take id use'))
    (hp : a.ledger.uses.Perm ((id, use) :: rest)) (hp' : ((id, use') :: rest).Perm b.ledger.uses) :
    Tidy (log ++ [x] ++ [y]) b := by
  have hbefore : Kept (entries log) ((id, use) :: rest) a.core.ids a.nextSubId := h.perm hp
  have hid : id ∈ b.core.ids := b.uses_live (id, use') (hp'.mem_iff.mp List.mem_cons_self)
  have hlive : ∀ use ∈ rest, use.1 ∈ b.core.ids := fun use hm =>
    b.uses_live use (hp'.mem_iff.mp (List.mem_cons_of_mem _ hm))
  have hfree : id ∉ rest.map (·.1) := (List.nodup_cons.mp hbefore.nodup).1
  unfold Tidy
  rw [entries_concat, entries_concat, hx, hy]
  exact ((hbefore.drop.evolves he hlive).take hfree hid).perm hp'

end Tidy

section Changes

variable {l : Ledger} {id : Nat} {containerId : String}

theorem Ledger.uses_logs (h : l.logs = some (id, containerId)) : l.uses.Perm
    ((id, .subscription (.dockerLogs id containerId true 0 l.dockerTarget)) ::
      { l with logs := none }.uses) := by
  simp only [Ledger.uses, h, Option.toList_some, Option.toList_none, List.map_cons, List.map_nil,
    List.append_nil, List.append_assoc, List.singleton_append]
  exact List.perm_middle

theorem Ledger.uses_pane {idx : Nat} {pane : PaneId × Nat} (h : l.panes[idx]? = some pane) :
    l.uses.Perm ((pane.2, .pane pane.1) :: { l with panes := l.panes.eraseIdx idx }.uses) := by
  obtain ⟨hlt, rfl⟩ := List.getElem?_eq_some_iff.mp h
  have hpanes : l.panes.Perm (l.panes[idx] :: l.panes.eraseIdx idx) :=
    (List.getElem_cons_eraseIdx_perm hlt).symm
  simp only [Ledger.uses]
  refine ((hpanes.map _).append_left _).trans ?_
  exact List.perm_middle

theorem Ledger.uses_opened (paneId : PaneId) (id : Nat) (others : List PendingOpen) :
    ((id, .pane paneId) :: l.uses).Perm
      { l with panes := l.panes ++ [(paneId, id)], pendingOpens := others }.uses := by
  simp only [Ledger.uses, List.map_append, List.map_cons, List.map_nil, ← List.append_assoc]
  exact (List.perm_append_singleton _ _).symm

theorem App.uses_pane {idx : Nat} {entry : PaneEntry} (h : a.paneStack[idx]? = some entry) :
    a.ledger.uses.Perm ((entry.subId, .pane entry.paneId) ::
      { a with paneStack := a.paneStack.eraseIdx idx }.ledger.uses) := by
  have hpane : a.ledger.panes[idx]? = some entry.ids := by
    show (a.paneStack.map (·.ids))[idx]? = _
    rw [List.getElem?_map, h]
    rfl
  have hpanes : { a with paneStack := a.paneStack.eraseIdx idx }.ledger =
      { a.ledger with panes := a.ledger.panes.eraseIdx idx } := by
    have herase : (a.paneStack.eraseIdx idx).map PaneEntry.ids = a.ledger.panes.eraseIdx idx :=
      (List.eraseIdx_map PaneEntry.ids a.paneStack idx).symm
    rw [← herase]
    rfl
  rw [hpanes]
  exact Ledger.uses_pane hpane

end Changes

theorem Turn.pushToast_tidy {past : List Exchange} {kind : ToastKind} {message : String}
    (ht : Tidy (t.logged past m) t.app) :
    Tidy ((t.pushToast m kind message).logged past m) (t.pushToast m kind message).app := by
  unfold Turn.pushToast
  simp only [Turn.draw, Turn.logged_emit, Turn.logged_edit]
  exact ((ht.evolved (.refl _ _) rfl).quiet rfl).quiet rfl

theorem Turn.Work.tidy {past : List Exchange} (h : Turn.Work m event t u)
    (hexit : ∀ id code, event.frame ≠ some (id, .paneExit code))
    (ht : Tidy (t.logged past m) t.app) : Tidy (u.logged past m) u.app := by
  have he := h.evolves
  cases h with
  | emit ha =>
    rw [Turn.logged_emit]
    exact ht.quiet (AppAction.plain_entry ha)
  | edit hf => exact ht.evolved he (congrArg Ledger.uses hf)
  | toast => exact Turn.pushToast_tidy ht
  | toastsExpired | answered | timedOut | openFailed | capable | pickerOpened | pickerClosed =>
    exact ht.evolved he rfl
  | dockerAction | fleetAction | openAsked =>
    rw [Turn.logged_send]
    exact (ht.evolved he rfl).quiet rfl
  | logsLeft hview =>
    have hlogs : t.app.ledger.logs = some (_, _) := congrArg DockerView.logsOf hview
    exact (Turn.logged_send past m t _).symm ▸ ht.gave he rfl (Ledger.uses_logs hlogs)
  | @logsEntered containerId name hview =>
    have hlogs : t.app.ledger.logs = none := congrArg DockerView.logsOf hview
    have hold : { t.app.ledger with logs := none }.uses = t.app.ledger.uses := by
      simp only [Ledger.uses, hlogs]
    have hnew := Ledger.uses_logs (l := { t.app.ledger with
      logs := some (t.app.nextSubId, containerId), nextSubId := t.app.nextSubId + 1 }) rfl
    rw [Turn.logged_send]
    exact ht.took he rfl ht.fresh ((hold ▸ hnew).symm)
  | @retargetedDocker newTarget capability hview =>
    have hlogs : t.app.ledger.logs = none := congrArg DockerView.logsOf hview
    have huses : ∀ target, { t.app.ledger with dockerTarget := target }.uses =
        (t.app.docker.subId, .subscription (.docker t.app.docker.subId target)) ::
          t.app.ledger.uses.tail := by
      intro target
      simp only [Ledger.uses, hlogs]
      rfl
    rw [Turn.logged_send, Turn.setDocker, Turn.logged_edit, Turn.logged_send]
    exact ht.moved he rfl rfl (.of_eq (huses _)) (.of_eq (huses newTarget).symm)
  | retargetedPorts =>
    rw [Turn.logged_send, Turn.setPorts, Turn.logged_edit, Turn.logged_send]
    exact ht.moved he rfl rfl (.swap _ _ _) (.swap _ _ _)
  | retargetedProcesses =>
    rw [Turn.logged_send, Turn.setPorts, Turn.logged_edit, Turn.logged_send]
    exact ht.moved he rfl rfl (@List.perm_middle _ _ [_, _] _) (@List.perm_middle _ _ [_, _] _).symm
  | paneClosed hentry =>
    have hpane := t.app.uses_pane hentry
    rw [Turn.dropActive, Turn.logged_send, Turn.logged_send]
    exact (ht.quiet rfl).gave he rfl hpane
  | paneExited _ hframe => exact absurd hframe (hexit _ _)
  | @paneOpened info pending others hp =>
    have hfree := ht.opening (hp ▸ List.mem_cons_self : pending ∈ t.app.pendingOpens)
    have hpanes := Ledger.uses_opened (l := t.app.ledger) info.id pending.subId others
    rw [← Turn.addPane_ledger] at hpanes
    rcases Turn.addPane_logged past m t info pending others with heq | heq <;> rw [heq]
    · exact ht.took he rfl hfree hpanes
    · exact (ht.quiet rfl).took he rfl hfree hpanes
  | hostsListed _ hid | hostChanged _ _ hid =>
    refine ht.evolved he ?_
    simp only [Ledger.uses, App.ledger, Turn.app_setFleet, hid]

/-- What a handler leaves is tidy, unless a pane exited. -/
theorem App.handleEvent_tidy_work {text : TextOps} (ht : Tidy log a)
    (hexit : ∀ id code, event.frame ≠ some (id, .paneExit code))
    (h : a.handleEvent text m event = some t) :
    Tidy (log ++ .heard m.now event :: t.actions.map (.did m.now)) t.app := by
  have hheard : (Exchange.heard m.now event).entry = none := by
    cases hframe : event.frame with
    | none => simp only [Exchange.entry, hframe]
    | some frame =>
      obtain ⟨id, ev⟩ := frame
      cases ev <;> first | exact absurd hframe (hexit _ _) | simp only [Exchange.entry, hframe]
  have hstart : Tidy ((⟨a, []⟩ : Turn).logged (log ++ [.heard m.now event]) m) a := by
    simpa [Turn.logged] using ht.quiet hheard
  have hdone := (App.handleEvent_script h).keeps
    (J := fun actions b => Tidy ((⟨b, actions⟩ : Turn).logged (log ++ [.heard m.now event]) m) b)
    hstart fun _ _ ht hw => hw.tidy hexit ht
  simpa [Turn.logged] using hdone

/-- The exit of a pane reaches the pane that holds the id, and nothing else. -/
theorem Turn.handleEventFrame_paneExit {text : TextOps} {id : Nat} {code : Option Int}
    (h : t.handleEventFrame text m id (.paneExit code) = some u) :
    (∃ idx entry, t.app.paneStack[idx]? = some entry ∧ entry.subId = id ∧
      t.handlePaneExit m idx code = some u) ∨
    (∀ entry ∈ t.app.paneStack, entry.subId ≠ id) ∧ u = t := by
  have hother : (∀ idx, t.app.recipient id ≠ some (.pane idx)) →
      ∀ entry ∈ t.app.paneStack, entry.subId ≠ id := by
    intro hnone entry hm hid
    have hfound : (t.app.findPaneBySub id).isSome :=
      List.findIdx?_isSome.trans (List.any_eq_true.mpr ⟨entry, hm, decide_eq_true hid⟩)
    obtain ⟨idx, hidx⟩ := Option.isSome_iff_exists.mp hfound
    exact hnone idx (by simp [App.recipient, hidx])
  have hlogs : t.handleLogsEvent text (.paneExit code) = t := by
    unfold handleLogsEvent
    cases t.app.docker.view <;> rfl
  unfold handleEventFrame at h
  split at h
  next idx hrecipient =>
    obtain ⟨entry, hentry, hid⟩ := App.recipient_entry hrecipient
    exact .inl ⟨idx, entry, hentry, hid, h⟩
  all_goals
    next hrecipient =>
      refine .inr ⟨hother fun idx heq => by simp [heq] at hrecipient, ?_⟩
      cases Option.some.inj h
      first | rfl | exact hlogs

/-- The id of a pane that is dropped is not in use any more. -/
theorem App.count_dropped {idx : Nat} {entry : PaneEntry} (h : a.paneStack[idx]? = some entry)
    (id : Nat) : { a with paneStack := a.paneStack.eraseIdx idx }.core.ids.count id +
      [entry.subId].count id = a.core.ids.count id := by
  obtain ⟨hlt, rfl⟩ := List.getElem?_eq_some_iff.mp h
  have hperm := ((List.getElem_cons_eraseIdx_perm hlt).map (·.subId)).count_eq id
  have hpanes : ∀ panes : List PaneEntry,
      (panes.map (·.ids)).map (·.2) = panes.map (·.subId) := fun panes => by
    rw [List.map_map]
    rfl
  simp only [Core.count_ids, App.core, hpanes]
  rw [List.map_cons, ← List.singleton_append, List.count_append] at hperm
  omega

theorem App.handlePaneExit_tidy {id idx : Nat} {entry : PaneEntry} {code : Option Int}
    (ht : Tidy log a) (hentry : a.paneStack[idx]? = some entry) (hid : entry.subId = id)
    (hframe : event.frame = some (id, .paneExit code))
    (h : (⟨a, []⟩ : Turn).handlePaneExit m idx code = some t) :
    Tidy (log ++ .heard m.now event :: t.actions.map (.did m.now)) t.app := by
  have hone : a.core.ids.count entry.subId ≤ 1 :=
    Multiset.nodup_iff_count_le_one.mp ht.sound.nodup _
  have hgone : entry.subId ∉ { a with paneStack := a.paneStack.eraseIdx idx }.core.ids := by
    have hcount := App.count_dropped hentry entry.subId
    rw [List.count_singleton_self] at hcount
    exact Multiset.count_eq_zero.mp (by omega)
  have hle : { a with paneStack := a.paneStack.eraseIdx idx }.core.ids ≤ a.core.ids :=
    Multiset.le_iff_count.mpr fun id => by
      have hcount := App.count_dropped hentry id
      omega
  have hdropped : Tidy (log ++ [.heard m.now event])
      { a with paneStack := a.paneStack.eraseIdx idx } := by
    have hheard : (Exchange.heard m.now event).entry = some (.lapse entry.subId Use.isPane) := by
      simp [Exchange.entry, hframe, hid]
    unfold Tidy
    rw [entries_concat, hheard]
    exact (ht.perm (App.uses_pane hentry)).lapse rfl hle hgone (App.uses_live _)
  have hstart : Tidy (((⟨a, []⟩ : Turn).dropPane idx).logged (log ++ [.heard m.now event]) m)
      ((⟨a, []⟩ : Turn).dropPane idx).app := by
    unfold Turn.logged
    rw [show ((⟨a, []⟩ : Turn).dropPane idx).actions = [] from rfl, List.map_nil, List.append_nil]
    exact hdropped
  suffices hdone : Tidy (t.logged (log ++ [.heard m.now event]) m) t.app by
    simpa [Turn.logged] using hdone
  obtain ⟨-, ⟨-, rfl⟩ | ⟨-, detail, rfl⟩⟩ := Turn.handlePaneExit_cases h
  · rw [Turn.logged_emit]
    exact hstart.quiet rfl
  · rw [Turn.draw, Turn.logged_emit]
    exact (Turn.pushToast_tidy (hstart.evolved (.refl _ _) rfl)).quiet rfl

theorem App.pane_of_use {id : Nat} {paneId : PaneId} (h : (id, .pane paneId) ∈ a.ledger.uses) :
    ∃ entry ∈ a.paneStack, entry.subId = id := by
  simp only [Ledger.uses, List.mem_append, List.mem_cons, List.mem_map, Prod.mk.injEq, reduceCtorEq,
    and_false, List.not_mem_nil, or_false, false_or, exists_false] at h
  obtain ⟨pane, hm, rfl, -⟩ := h
  obtain ⟨entry, hentry, rfl⟩ := List.mem_map.mp hm
  exact ⟨entry, hentry, rfl⟩

theorem App.handleEvent_tidy {text : TextOps} (ht : Tidy log a)
    (h : a.handleEvent text m event = some t) :
    Tidy (log ++ .heard m.now event :: t.actions.map (.did m.now)) t.app := by
  by_cases hexit : ∃ id code, event.frame = some (id, .paneExit code)
  · obtain ⟨id, code, hframe⟩ := hexit
    obtain ⟨version, rfl⟩ : ∃ version, event = .daemonEnvelope ⟨version, .event id (.paneExit code)⟩ := by
      unfold AppEvent.frame at hframe
      split at hframe
      next => cases Option.some.inj hframe; exact ⟨_, rfl⟩
      next => cases hframe
    rcases Turn.handleEventFrame_paneExit h with ⟨idx, entry, hentry, hid, hexited⟩ | ⟨hnone, rfl⟩
    · exact App.handlePaneExit_tidy ht hentry hid hframe hexited
    · have hspared : ∀ use, (id, use) ∈ a.ledger.uses → use.isPane = false := by
        intro use hm
        cases use with
        | subscription => rfl
        | pane paneId =>
          obtain ⟨entry, hentry, hid⟩ := App.pane_of_use hm
          exact absurd hid (hnone entry hentry)
      unfold Tidy
      rw [List.map_nil, entries_concat]
      exact Kept.spared ht hspared
  · exact App.handleEvent_tidy_work ht (fun id code hframe => hexit ⟨id, code, hframe⟩) h

theorem App.initial_tidy {pane : PaneId} {shell : String} {rows cols : Nat} {actions : List AppAction}
    (h : App.new pane shell rows cols = some a) (hactions : a.initialActions = some actions) :
    Tidy (actions.map (.did now)) a := by
  have hsound := App.new_sound h
  have huses := a.uses_live
  obtain ⟨layout, -, h⟩ := Option.bind_eq_some_iff.mp h
  cases Option.some.inj h
  cases Option.some.inj hactions
  have hperm := List.perm_append_singleton (1, Use.pane pane)
    [(2, .subscription (.docker 2 .localTarget)), (3, .subscription (.ports 3 .localTarget)),
      (4, .subscription (.processes 4 .localTarget)), (5, .subscription (.fleet 5))]
  exact (Kept.of_takes hsound _ (fun use hm => huses use (hperm.mem_iff.mpr hm)) (by simp)).perm
    hperm.symm

theorem tidy_of_run {text : TextOps} {tr : List Exchange} (h : Run (dialogue text) Free tr (some a)) :
    Tidy tr a :=
  dialogue_invariant h (fun _ _ _ _ _ _ _ => App.initial_tidy) fun _ _ _ _ _ => App.handleEvent_tidy

end Uses

/-- The TUI puts an id to use only while the daemon takes it for unused, and gives up only what it
uses. By the end of an event its ids are used for what it shows, and for nothing else. -/
theorem ids_accounted {text : TextOps} {tr : List Exchange} {a : App}
    (h : Run (dialogue text) Free tr (some a)) :
    (∀ pre o post, tr = pre ++ o :: post → ∀ entry ∈ o.entry, Apt (entries pre) entry) ∧
      ∀ i use, useOf i (entries tr) = some use ↔ (i, use) ∈ a.ledger.uses := by
  have hkept := tidy_of_run h
  refine ⟨fun pre o post htr entry hentry => ?_, hkept.used⟩
  refine hkept.apt.split (entries pre) entry (entries post) ?_
  simp [entries, htr, Option.mem_def.mp hentry]

/-- The user has a look at the logs of a container and retargets the container list, and the pane exits. -/
def lookAround : List Occasion :=
  [.start 0 7 "/bin/zsh" 40 120,
    .event (.at 0) (.daemonEnvelope (eventFrame 5 (.hostList [⟨"h", "h", "u", none⟩] "ssh"))),
    .event (.at 0) (.daemonEnvelope (eventFrame 5 (.hostStateChanged "h" .connected none))),
    .event (.at 0) (.daemonEnvelope (eventFrame 5 (.agentCapabilities "h" ["docker"]))),
    .event (.at 0) (.daemonEnvelope (eventFrame 2 (.containerList [⟨"c0ffee", ["/web"], "nginx"⟩] "engine"))),
    .event (.at 1) (.stdinChunk [prefixByte, key 'j']), .event (.at 2) (.stdinChunk [key 'l']),
    .event (.at 3) (.stdinChunk [prefixByte, key 't']), .event (.at 4) (.stdinChunk [key 'j', 0x0d]),
    .event (.at 5) (.daemonEnvelope (eventFrame 1 (.paneExit (some 0))))]

theorem ids_accounted_retargeted : ∃ tr a, Run (dialogue .ascii) Free tr (some a) ∧
    .did 2 (.sendEnvelope (envelope (.subscribe (.dockerLogs 6 "c0ffee" true 0 .localTarget)))) ∈ tr ∧
      useOf 1 (entries tr) = none ∧ useOf 6 (entries tr) = none ∧
        useOf 2 (entries tr) = some (.subscription (.docker 2 (.remote "h"))) := by
  obtain ⟨tr, s, hr, a, rfl, hm, huses⟩ := Run.of_replay (dialogue .ascii) Free
    (fun tr s => ∃ a ∈ s, .did 2 (.sendEnvelope (envelope
      (.subscribe (.dockerLogs 6 "c0ffee" true 0 .localTarget)))) ∈ tr ∧ a.ledger.uses =
        [(2, .subscription (.docker 2 (.remote "h"))), (3, .subscription (.ports 3 .localTarget)),
          (4, .subscription (.processes 4 .localTarget)), (5, .subscription (.fleet 5))])
    rfl lookAround (by decide +kernel)
  have hused := (ids_accounted hr).2
  rw [huses] at hused
  refine ⟨tr, a, hr, hm, ?_, ?_, (hused _ _).mpr (by simp)⟩
  · exact Option.eq_none_iff_forall_ne_some.mpr fun use h => by simpa using (hused _ _).mp h
  · exact Option.eq_none_iff_forall_ne_some.mpr fun use h => by simpa using (hused _ _).mp h

end Tepegoz
