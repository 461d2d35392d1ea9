import Tepegoz.Lib.IdSupply
import Tepegoz.Tui.Moves
import Tepegoz.Tui.PaneStack

namespace Tepegoz

open Transition

/-- The parts of the app that envelopes from the daemon are meant for. -/
inductive Component
  | pane (paneId : PaneId)
  | opening
  | containers
  | logs
  | ports
  | processes
  | fleet
  | action
  deriving DecidableEq

namespace Core

/-- Every id in use, with its holder. -/
def holdings (c : Core) : List (Component × Nat) :=
  c.panes.map (fun p => (Component.pane p.1, p.2)) ++
    (c.pendingOpens.map (fun p => (Component.opening, p.subId)) ++
      ([(Component.containers, c.dockerSub), (.ports, c.portsSub), (.processes, c.processesSub),
        (.fleet, c.fleetSub)] ++ (c.logs.toList.map (Component.logs, ·) ++
        c.actions.map (Component.action, ·))))

def ids (c : Core) : Multiset Nat := ↑(c.holdings.map (·.2))

theorem count_ids (c : Core) (id : Nat) : c.ids.count id =
    (c.panes.map (·.2)).count id + (c.pendingOpens.map (·.subId)).count id +
      [c.dockerSub, c.portsSub, c.processesSub, c.fleetSub].count id + c.logs.toList.count id +
        c.actions.count id := by
  simp only [ids, holdings, Multiset.coe_count, List.map_append, List.map_map, Function.comp_def,
    List.count_append, List.map_cons, List.map_nil, List.map_id']
  omega

/-- The ids of one core evolve into those of another. -/
def Evolves (c c' : Core) : Prop := IdSupply.Evolves c.ids c.nextSubId c'.ids c'.nextSubId

theorem Evolves.of_count {c c' : Core} (hnext : c'.nextSubId = c.nextSubId)
    (hle : ∀ id, c'.ids.count id ≤ c.ids.count id) : c.Evolves c' := by
  unfold Evolves
  rw [hnext]
  exact .release (Multiset.le_iff_count.mpr hle)

/-- One new id is put to use, and others may be given up. -/
theorem Evolves.of_issue {c c' : Core} (hnext : c'.nextSubId = c.nextSubId + 1)
    (hle : ∀ id, c'.ids.count id ≤ (c.nextSubId ::ₘ c.ids).count id) : c.Evolves c' := by
  unfold Evolves
  rw [hnext]
  exact IdSupply.Evolves.trans (.issue (le_refl _) (Nat.lt_succ_self _))
    (.release (Multiset.le_iff_count.mpr hle))

theorem count_issued (i id : Nat) (live : Multiset Nat) :
    (i ::ₘ live).count id = [i].count id + live.count id := by
  rw [← Multiset.singleton_add, Multiset.count_add, ← Multiset.coe_singleton, Multiset.coe_count]

theorem Evolves.opened {c : Core} (hostAlias : Option String) : c.Evolves (c.opened hostAlias) := by
  refine .of_issue rfl fun id => ?_
  simp only [count_issued, count_ids, Core.opened, List.map_append, List.count_append, List.map_cons,
    List.map_nil]
  omega

theorem Move.evolves {causes : Set Cause} {c c' : Core} (h : Move causes c c') : c.Evolves c' := by
  cases h with
  | registered =>
    refine .of_issue rfl fun id => ?_
    have herase := (List.erase_sublist (a := c.nextSubId) (l := c.actions)).count_le id
    have hcons : (c.nextSubId :: c.actions.erase c.nextSubId).count id =
        [c.nextSubId].count id + (c.actions.erase c.nextSubId).count id := by
      rw [← List.count_append]
      rfl
    simp only [count_issued, count_ids, hcons]
    omega
  | settled id =>
    refine .of_count rfl fun i => ?_
    have herase := (List.erase_sublist (a := id) (l := c.actions)).count_le i
    simp only [count_ids]
    omega
  | logsEntered hc hn =>
    refine .of_issue rfl fun id => ?_
    simp only [count_issued, count_ids, Option.toList_some]
    omega
  | logsLeft =>
    refine .of_count rfl fun i => ?_
    simp only [count_ids, Option.toList_none, List.count_nil]
    omega
  | paneDropped idx =>
    refine .of_count rfl fun i => ?_
    have herase := ((List.eraseIdx_sublist c.panes idx).map (·.2)).count_le i
    simp only [count_ids]
    omega
  | paneAnswered paneId hc hp =>
    refine .of_count rfl fun i => ?_
    simp only [count_ids, hp, List.map_append, List.count_append, List.map_cons, List.map_nil,
      List.count_cons, List.count_nil]
    omega
  | openFailed hc hp =>
    refine .of_count rfl fun i => ?_
    simp only [count_ids, hp, List.map_cons, List.count_cons]
    omega
  | _ => exact .of_count rfl fun _ => le_refl _

end Core

theorem Turn.Moves.evolves {causes : Set Cause} {t u : Turn} (h : Turn.Moves causes t u) :
    t.app.core.Evolves u.app.core := by
  induction h with
  | refl => exact IdSupply.Evolves.refl _ _
  | emit _ _ ih => exact ih
  | edit _ hf ih =>
    rw [app_edit, hf]
    exact ih
  | step _ hf ih => exact IdSupply.Evolves.trans ih hf.evolves
  | @opened u hostAlias spec _ _ _ ih =>
    have hopened : u.app.core.Evolves (u.app.core.opened hostAlias) := .opened hostAlias
    exact IdSupply.Evolves.trans ih hopened
  | acted _ _ ih => exact ih

theorem App.new_sound {a : App} {pane : PaneId} {shell : String} {rows cols : Nat}
    (h : App.new pane shell rows cols = some a) : IdSupply.Sound a.core.ids a.nextSubId := by
  obtain ⟨layout, -, h⟩ := Option.bind_eq_some_iff.mp h
  cases Option.some.inj h
  have hids : ∀ a : App, a.core.holdings.map (·.2) = [1, 2, 3, 4, 5] →
      a.nextSubId = 6 → IdSupply.Sound a.core.ids a.nextSubId := by
    intro a hids hnext
    unfold Core.ids
    rw [hids, hnext]
    exact ⟨by decide, by decide⟩
  exact hids _ rfl rfl

/-- The id that an answer or an event from the daemon carries. -/
def Payload.carried : Payload → Option Nat
  | .event id _ => some id
  | .dockerActionResult result => some result.requestId
  | .fleetActionResult result => some result.requestId
  | _ => none

/-- The components whose id an envelope carries. -/
def Core.consumers (c : Core) (env : Envelope) : List Component :=
  match env.payload.carried with
  | some id => (c.holdings.filter (·.2 == id)).map (·.1)
  | none => []

theorem Core.consumers_length {c : Core} (h : c.ids.Nodup) (env : Envelope) :
    (c.consumers env).length ≤ 1 := by
  unfold consumers
  split
  next id _ =>
    have hcount : c.ids.count id ≤ 1 := Multiset.nodup_iff_count_le_one.mp h id
    rw [ids, Multiset.coe_count, List.count, List.countP_map, List.countP_eq_length_filter] at hcount
    rw [List.length_map]
    exact hcount
  next => simp

def Recipient.component (a : App) : Recipient → Option Component
  | .pane idx => a.paneStack[idx]?.map fun p => .pane p.paneId
  | .panel .docker => some .containers
  | .panel .ports => some .ports
  | .panel .processes => some .processes
  | .logs => some .logs
  | .fleet => some .fleet

/-- An event is handled by a component that holds its id. -/
theorem App.recipient_consumes {a : App} {id : Nat} {r : Recipient} {event : Event} {version : Nat}
    (h : a.recipient id = some r) :
    ∃ k ∈ a.core.consumers ⟨version, .event id event⟩, r.component a = some k := by
  have hmem : ∀ k, (k, id) ∈ a.core.holdings → k ∈ a.core.consumers ⟨version, .event id event⟩ :=
    fun k hk => List.mem_map.mpr ⟨(k, id), List.mem_filter.mpr ⟨hk, beq_self_eq_true id⟩, rfl⟩
  unfold recipient at h
  split at h
  next idx hidx =>
    cases Option.some.inj h
    obtain ⟨hlt, hsub, -⟩ := List.findIdx?_eq_some_iff_getElem.mp hidx
    refine ⟨.pane (a.paneStack[idx]).paneId, hmem _ ?_, by simp [Recipient.component, hlt]⟩
    have hsub' : (a.paneStack[idx]).subId = id := of_decide_eq_true hsub
    refine List.mem_append_left _ (List.mem_map.mpr ⟨(a.paneStack[idx]).ids, ?_, ?_⟩)
    · exact List.mem_map.mpr ⟨_, List.getElem_mem hlt, rfl⟩
    · rw [← hsub']
      rfl
  next =>
    split at h
    next hid =>
      cases Option.some.inj h
      exact ⟨.containers, hmem _ (by simp [Core.holdings, hid, App.core]), rfl⟩
    next =>
      split at h
      next hlogs =>
        cases Option.some.inj h
        refine ⟨.logs, hmem _ ?_, rfl⟩
        unfold DockerScope.isCurrentLogsSub at hlogs
        split at hlogs
        next logs hview =>
          have hid : logs.subId = id := of_decide_eq_true hlogs
          simp [Core.holdings, App.core, hview, DockerView.logsSub, hid]
        next => cases hlogs
      next =>
        split at h
        next hid =>
          cases Option.some.inj h
          exact ⟨.ports, hmem _ (by simp [Core.holdings, hid, App.core]), rfl⟩
        next =>
          split at h
          next hid =>
            cases Option.some.inj h
            exact ⟨.processes, hmem _ (by simp [Core.holdings, hid, App.core]), rfl⟩
          next =>
            split at h
            next hid =>
              cases Option.some.inj h
              exact ⟨.fleet, hmem _ (by simp [Core.holdings, hid, App.core]), rfl⟩
            next => cases h

theorem evolves_of_run {text : TextOps} {ok : List AppAction → App → Moment × AppEvent → Prop}
    {tr : List AppAction} {a b : App} (h : Run ((console text).startingAt a) ok tr b) :
    a.core.Evolves b.core := by
  refine h.invariant (I := fun _ b => a.core.Evolves b.core) ?_ ?_
  · rintro s rfl
    exact IdSupply.Evolves.refl _ _
  · intro tr b l b' out _ hb _ hstep
    obtain ⟨t, ht, heq⟩ := Option.map_eq_some_iff.mp hstep
    cases heq
    exact IdSupply.Evolves.trans hb (App.handleEvent_moves ht).evolves

theorem ids_sound {text : TextOps} {tr : List AppAction} {a : App}
    (h : Run (console text) Free tr a) : IdSupply.Sound a.core.ids a.nextSubId := by
  refine h.invariant (I := fun _ a => IdSupply.Sound a.core.ids a.nextSubId) ?_ ?_
  · rintro a ⟨pane, shell, rows, cols, ha⟩
    exact App.new_sound ha
  · intro tr a l a' out _ ha _ hstep
    obtain ⟨t, ht, heq⟩ := Option.map_eq_some_iff.mp hstep
    cases heq
    exact (App.handleEvent_moves ht).evolves.sound ha

/-- The ids in use are distinct and below the counter, an envelope is for at most one component, and an
id that was given up is not handed out again. -/
theorem ids_distinct {text : TextOps} {tr : List AppAction} {a : App}
    (h : Run (console text) Free tr a) :
    a.core.ids.Nodup ∧ (∀ id ∈ a.core.ids, id < a.nextSubId) ∧
      (∀ env, (a.core.consumers env).length ≤ 1) ∧
        ∀ tr' b, Run ((console text).startingAt a) Free tr' b →
          ∀ id ∈ a.core.ids, id ∉ b.core.ids →
            ∀ tr'' c, Run ((console text).startingAt b) Free tr'' c →
              id ∉ c.core.ids ∧ id < c.nextSubId := by
  have hsound : IdSupply.Sound a.core.ids a.nextSubId := ids_sound h
  refine ⟨hsound.nodup, hsound.lt, Core.consumers_length hsound.nodup, ?_⟩
  intro tr' b hb id hid hgone tr'' c hc
  have hlt : id < b.nextSubId := lt_of_lt_of_le (hsound.lt id hid) (evolves_of_run hb).le
  have hlater : b.core.Evolves c.core := evolves_of_run hc
  exact ⟨hlater.not_reissued hlt hgone, lt_of_lt_of_le hlt hlater.le⟩

/-- The first pane is closed: its id is given up, and its successor gets another one. -/
theorem ids_distinct_reopened : ∃ tr a, Run ((console .ascii).startingAt sampleApp) Free tr a ∧
    a.core.panes = [(8, 6)] ∧ 1 ∉ a.core.ids := by
  obtain ⟨tr, a, hr, hpanes, hgone⟩ := Run.of_replay ((console .ascii).startingAt sampleApp) Free
    (fun _ a => a.core.panes = [(8, 6)] ∧ a.core.ids.count 1 = 0) rfl
    [(.at 0, closeKeys),
      (.at 1, .daemonEnvelope (envelope (.paneOpened ⟨8, 21, 120, "/bin/zsh", true⟩)))]
    (by decide +kernel)
  have hlater := (ids_distinct (.start ⟨_, _, _, _, sampleApp_new⟩)).2.2.2 tr a hr 1 (by decide +kernel)
    (Multiset.count_eq_zero.mp hgone) [] a (.start rfl)
  exact ⟨tr, a, hr, hpanes, hlater.1⟩

end Tepegoz
