import Mathlib.Data.List.DropRight
import Tepegoz.Tui.SubIds

namespace Tepegoz

open Transition

/-- The active index is one of a pane, as long as there are panes. -/
def App.Shows (a : App) : Prop := a.paneStack ≠ [] → a.activePane < a.paneStack.length

/-- A step that writes to no pane; it may close some and show another. -/
structure TrimsPanes (a b : App) : Prop where
  stack : b.paneStack.Sublist a.paneStack
  shows : a.Shows → b.Shows

theorem TrimsPanes.refl (a : App) : TrimsPanes a a := ⟨.refl _, id⟩

theorem TrimsPanes.trans {a b c : App} (h : TrimsPanes a b) (h' : TrimsPanes b c) :
    TrimsPanes a c := ⟨h'.stack.trans h.stack, h'.shows ∘ h.shows⟩

theorem KeepsPanes.trims {a b : App} (h : KeepsPanes a b) : TrimsPanes a b where
  stack := by rw [h.stack]
  shows ha := by
    unfold App.Shows at *
    rw [h.stack, h.active]
    exact ha

namespace Turn

variable {text : TextOps} {m : Moment} {t u : Turn}

theorem closeActivePane_trims (h : t.closeActivePane m = some u) : TrimsPanes t.app u.app := by
  rcases closeActivePane_cases h with rfl | ⟨removed, hentry, ⟨hrest, rfl⟩ | ⟨hrest, rfl⟩⟩
  · exact .refl _
  · exact ⟨List.eraseIdx_sublist _ _, fun _ hne => absurd hrest hne⟩
  · have hlt : t.app.activePane < t.app.paneStack.length := (List.getElem?_eq_some_iff.mp hentry).1
    refine ⟨List.eraseIdx_sublist _ _, fun _ _ => ?_⟩
    exact activeAfterClose_lt (length_eraseIdx_ne_nil hlt hrest).1

theorem dispatchPtyClick_trims {rect : Rect} {x y : Nat}
    (h : t.dispatchPtyClick m rect x y = some u) : TrimsPanes t.app u.app := by
  rcases dispatchPtyClick_cases h with rfl | ⟨idx, hidx, rfl⟩ | h
  · exact .refl _
  · exact ⟨.refl _, fun _ _ => hidx⟩
  · exact closeActivePane_trims h

theorem handleMouseClick_trims {x y : Nat} (h : t.handleMouseClick text m x y = some u) :
    TrimsPanes t.app u.app := by
  rcases handleMouseClick_cases h with rfl | rfl | rfl | ⟨tile, h⟩
  · exact ⟨.refl _, id⟩
  · exact t.dismissHostPicker_quiet.trims
  · exact .refl _
  · have hmoved : TrimsPanes t.app (t.moveFocusTo tile.id).app := (t.moveFocusTo_quiet _).trims
    rcases h with rfl | h | ⟨kind, rfl⟩
    · exact hmoved
    · exact hmoved.trans (dispatchPtyClick_trims h)
    · exact hmoved.trans (Turn.dispatchScopeClick_quiet _ _ _ _ _).trims

theorem sendInput_trims {data : List UInt8} (h : t.sendInput data = some u) :
    TrimsPanes t.app u.app := by
  obtain ⟨entry, -, rfl⟩ := Option.map_eq_some_iff.mp h
  exact .refl _

theorem handleForwardBytes_trims {bytes : List UInt8}
    (h : t.handleForwardBytes text m bytes = some u) : TrimsPanes t.app u.app := by
  rcases handleForwardBytes_cases h with h | rfl | ⟨kind, -, rfl⟩
  · exact sendInput_trims h
  · exact .refl _
  · exact ((t.parseKeys_quiet bytes).trans (Turn.scopeKeys_quiet _ kind _)).trims

theorem handleTab_trims {forward : Bool} (h : t.handleTab forward = some u) :
    TrimsPanes t.app u.app := by
  rcases handleTab_cases h with ⟨data, h⟩ | rfl
  · exact sendInput_trims h
  · exact (t.handleFocusCycle_quiet forward).trims

theorem inputToTiles_trims {input : InputAction} (h : t.inputToTiles text m input = some u) :
    TrimsPanes t.app u.app := by
  cases input with
  | forward bytes => exact handleForwardBytes_trims h
  | detach => cases Option.some.inj h; exact .refl _
  | focusDirection dir => cases Option.some.inj h; exact (t.handleFocusDirection_quiet dir).trims
  | focusNext => exact handleTab_trims h
  | focusPrev => exact handleTab_trims h
  | help => cases Option.some.inj h; exact t.handleHelpToggle_quiet.trims
  | openHostPicker => cases Option.some.inj h; exact t.openHostPicker_quiet.trims
  | paneClose =>
    rcases inputToTiles_paneClose h with h | rfl
    · exact closeActivePane_trims h
    · exact .refl _

theorem handleInput_trims {input : InputAction} (h : t.handleInput text m input = some u) :
    TrimsPanes t.app u.app := by
  rcases handleInput_cases h with rfl | rfl | h
  · exact (t.inputToHelp_quiet input).trims
  · exact (t.inputToPicker_panes input).trims
  · exact inputToTiles_trims h

theorem handleInputs_trims {inputs : List InputAction} (h : t.handleInputs text m inputs = some u) :
    TrimsPanes t.app u.app :=
  handleInputs_rel (R := fun t u => TrimsPanes t.app u.app) (fun _ => .refl _)
    (fun _ _ _ => .trans) (fun _ => .refl _) (fun _ _ _ => handleInput_trims) h

end Turn

/-- The output that an event brings for a sub id. -/
def AppEvent.output (subId : Nat) : AppEvent → List UInt8
  | .daemonEnvelope ⟨_, .event id (.paneSnapshot scrollback _ _)⟩ => if id = subId then scrollback else []
  | .daemonEnvelope ⟨_, .event id (.paneOutput data)⟩ => if id = subId then data else []
  | _ => []

/-- What handling an event does to the panes. -/
inductive PaneStep (event : AppEvent) (a b : App) : Prop
  | trimmed : TrimsPanes a b → (∀ p ∈ a.paneStack, event.output p.subId = []) → PaneStep event a b
  | fed (idx : Nat) (p : PaneEntry) : a.paneStack[idx]? = some p →
      (∀ subId, subId ≠ p.subId → event.output subId = []) →
      b.paneStack = a.paneStack.modify idx (·.process (event.output p.subId)) →
      b.activePane = a.activePane → PaneStep event a b
  | pushed (entry : PaneEntry) : (∃ pending ∈ a.pendingOpens, entry.subId = pending.subId) →
      entry.parser.processed = [] → (∀ subId, event.output subId = []) →
      b.paneStack = a.paneStack ++ [entry] → b.activePane = a.paneStack.length → PaneStep event a b
  | resized (rows cols : Nat) : (∀ subId, event.output subId = []) →
      b.paneStack = a.paneStack.map (.setSize rows cols) → b.activePane = a.activePane →
      PaneStep event a b

namespace Turn

variable {text : TextOps} {m : Moment} {t u : Turn}

theorem feedPane_step {version id idx : Nat} {p : PaneEntry} {event : Event} {bytes : List UInt8}
    (hp : t.app.paneStack[idx]? = some p) (hid : p.subId = id)
    (hout : ∀ subId, (AppEvent.daemonEnvelope ⟨version, .event id event⟩).output subId =
      if id = subId then bytes else []) (h : t.feedPane idx bytes = some u) :
    PaneStep (.daemonEnvelope ⟨version, .event id event⟩) t.app u.app := by
  have hfed : u.app.paneStack = t.app.paneStack.modify idx (·.process bytes) ∧
      u.app.activePane = t.app.activePane := by
    rcases feedPane_cases h with rfl | rfl
    · exact ⟨rfl, rfl⟩
    · exact ⟨rfl, rfl⟩
  refine .fed idx p hp (fun subId hne => ?_) ?_ hfed.2
  · rw [hout, if_neg (hid ▸ hne.symm)]
  · rw [hout, if_pos hid.symm]
    exact hfed.1

theorem handlePaneExit_trims {idx : Nat} {exitCode : Option Int}
    (h : t.handlePaneExit m idx exitCode = some u) : TrimsPanes t.app u.app := by
  obtain ⟨hidx, ⟨hrest, rfl⟩ | ⟨hrest, detail, rfl⟩⟩ := handlePaneExit_cases h
  · exact ⟨List.eraseIdx_sublist _ _, fun _ hne => absurd hrest hne⟩
  · refine ⟨List.eraseIdx_sublist _ _, fun hshows _ => ?_⟩
    obtain ⟨hpos, hlen⟩ := length_eraseIdx_ne_nil hidx hrest
    have hlt : t.app.activePane < t.app.paneStack.length :=
      hshows (List.ne_nil_of_length_pos (by omega))
    have hnext : activeAfterExit t.app.activePane idx (t.app.paneStack.eraseIdx idx).length <
        (t.app.paneStack.eraseIdx idx).length := activeAfterExit_lt hpos (by omega) (by omega)
    exact hnext

theorem handlePaneEvent_step {version id idx : Nat} {p : PaneEntry} {event : Event}
    (hp : t.app.paneStack[idx]? = some p) (hid : p.subId = id)
    (h : t.handlePaneEvent m idx event = some u) :
    PaneStep (.daemonEnvelope ⟨version, .event id event⟩) t.app u.app := by
  unfold handlePaneEvent at h
  split at h
  next scrollback _ _ =>
    split at h
    next hempty =>
      cases Option.some.inj h
      refine .trimmed (.refl _) fun q _ => ?_
      simp only [AppEvent.output, hempty, ite_self]
    next => exact feedPane_step hp hid (fun _ => rfl) h
  next => exact feedPane_step hp hid (fun _ => rfl) h
  next => exact .trimmed (handlePaneExit_trims h) fun _ _ => rfl
  next hsnapshot houtput _ =>
    cases Option.some.inj h
    refine .trimmed (.refl _) fun q _ => ?_
    unfold AppEvent.output
    split
    next heq => cases heq; exact absurd rfl (hsnapshot _ _ _)
    next heq => cases heq; exact absurd rfl (houtput _)
    next => rfl

theorem handlePaneOpened_step {version : Nat} {info : PaneInfo} :
    PaneStep (.daemonEnvelope ⟨version, .paneOpened info⟩) t.app (t.handlePaneOpened info).app := by
  unfold handlePaneOpened
  split
  next => exact .trimmed (.refl _) fun _ _ => rfl
  next pending others hp =>
    refine .pushed ⟨info.id, pending.subId, paneLabelFromShell info.shell, newParser t.app.view.layout⟩
      ⟨pending, by rw [hp]; exact List.mem_cons_self, rfl⟩ rfl (fun _ => rfl) ?_ ?_
    all_goals
      dsimp only [focusPty]
      split <;> rfl

theorem handleError_trims {info : ErrorInfo} : TrimsPanes t.app (t.handleError m info).app := by
  unfold handleError
  split
  next => exact ⟨.refl _, id⟩
  next => exact (t.pushToast_quiet _ _).trims

theorem handleEventFrame_step {version id : Nat} {event : Event}
    (h : t.handleEventFrame text m id event = some u) :
    PaneStep (.daemonEnvelope ⟨version, .event id event⟩) t.app u.app := by
  unfold handleEventFrame at h
  have hunheld : ∀ r, t.app.recipient id = r → (∀ idx, r ≠ some (.pane idx)) → TrimsPanes t.app u.app →
      PaneStep (.daemonEnvelope ⟨version, .event id event⟩) t.app u.app := by
    rintro r hr hpane htrims
    refine .trimmed htrims fun p hp => ?_
    have hnone : t.app.findPaneBySub id = none := by
      unfold App.recipient at hr
      split at hr
      next idx _ => exact absurd hr.symm (hpane idx)
      next hnone => exact hnone
    have hne : id ≠ p.subId := fun heq => by
      have hfalse := List.findIdx?_eq_none_iff.mp hnone p hp
      simp [heq] at hfalse
    unfold AppEvent.output
    split
    next heq => cases heq; exact if_neg hne
    next heq => cases heq; exact if_neg hne
    next => rfl
  split at h
  next idx hr =>
    unfold App.recipient at hr
    split at hr
    next i hi =>
      cases Option.some.inj hr
      obtain ⟨hlt, hsub, -⟩ := List.findIdx?_eq_some_iff_getElem.mp hi
      exact handlePaneEvent_step (List.getElem?_eq_getElem hlt) (of_decide_eq_true hsub) h
    next => repeat' split at hr
            all_goals cases hr
  all_goals
    next hr =>
      cases Option.some.inj h
      refine hunheld _ hr (fun _ => nofun) ?_
      first
      | exact .refl _
      | exact (t.handleDockerEvent_panes event).trims
      | exact (t.handlePortsEvent_panes event).trims
      | exact (t.handleProcessesEvent_panes event).trims
      | exact (t.handleLogsEvent_quiet event).trims
      | exact (t.handleFleetEvent_quiet event).trims

end Turn

theorem App.handleEvent_panes {text : TextOps} {m : Moment} {a : App} {event : AppEvent} {t : Turn}
    (h : a.handleEvent text m event = some t) : PaneStep event a t.app := by
  cases event with
  | stdinChunk bytes =>
    have htrims := Turn.handleInputs_trims h
    exact .trimmed ⟨htrims.stack, htrims.shows⟩ fun _ _ => rfl
  | tick =>
    cases Option.some.inj h
    exact .trimmed (Turn.sweepExpired_quiet ⟨a, []⟩).trims fun _ _ => rfl
  | pendingActionTimeout id =>
    cases Option.some.inj h
    exact .trimmed (Turn.expirePendingAction_quiet ⟨a, []⟩ id).trims fun _ _ => rfl
  | mouseClick x y => exact .trimmed (Turn.handleMouseClick_trims h) fun _ _ => rfl
  | mouseHover x y =>
    cases Option.some.inj h
    exact .trimmed (Turn.handleMouseHover_quiet ⟨a, []⟩ x y).trims fun _ _ => rfl
  | resize rows cols =>
    obtain ⟨layout, -, rfl⟩ := Option.map_eq_some_iff.mp h
    have hpanes : ∀ u : Turn, (u.resizePanes layout).app.paneStack =
        u.app.paneStack.map (.setSize (ptyContentDims layout).1 (ptyContentDims layout).2) ∧
          (u.resizePanes layout).app.activePane = u.app.activePane := fun u => by
      rw [Turn.resizePanes_app]
      exact ⟨rfl, rfl⟩
    exact .resized _ _ (fun _ => rfl) (hpanes _).1 (hpanes _).2
  | daemonEnvelope env =>
    obtain ⟨version, payload⟩ := env
    cases payload with
    | event id event => exact Turn.handleEventFrame_step h
    | paneOpened info =>
      cases Option.some.inj h
      exact Turn.handlePaneOpened_step (t := ⟨a, []⟩)
    | error info =>
      cases Option.some.inj h
      exact .trimmed (Turn.handleError_trims (t := ⟨a, []⟩)) fun _ _ => rfl
    | dockerActionResult result =>
      cases Option.some.inj h
      exact .trimmed (Turn.handleDockerActionResult_quiet ⟨a, []⟩ result).trims fun _ _ => rfl
    | fleetActionResult result =>
      cases Option.some.inj h
      exact .trimmed (Turn.handleFleetActionResult_quiet ⟨a, []⟩ result).trims fun _ _ => rfl
    | _ =>
      cases Option.some.inj h
      exact .trimmed (.refl _) fun _ _ => rfl

/-- An event and the sub ids of the panes that were there when it came. -/
structure Seen where
  panes : List Nat
  event : AppEvent
  deriving DecidableEq

/-- The output that came for a sub id since its pane is there. -/
def deliveredTo (subId : Nat) (log : List Seen) : List UInt8 :=
  (log.rtakeWhile fun s => subId ∈ s.panes).flatMap (·.event.output subId)

/-- The app, with the events that it has handled. -/
def paneLog (text : TextOps) : System App (Moment × AppEvent) Seen where
  init := (console text).init
  step a l := (a.handleEvent text l.1 l.2).map fun t => (t.app, [⟨a.paneStack.map (·.subId), l.2⟩])

theorem deliveredTo_held {subId : Nat} {log : List Seen} {s : Seen} (h : subId ∈ s.panes) :
    deliveredTo subId (log ++ [s]) = deliveredTo subId log ++ s.event.output subId := by
  unfold deliveredTo
  rw [List.rtakeWhile_concat, if_pos (decide_eq_true h)]
  simp

theorem deliveredTo_absent {subId : Nat} {log : List Seen} {s : Seen} (h : subId ∉ s.panes) :
    deliveredTo subId (log ++ [s]) = [] := by
  unfold deliveredTo
  rw [List.rtakeWhile_concat, if_neg (by simpa using h)]
  rfl

/-- Every pane was given what was delivered for it. -/
def PanesFed (log : List Seen) (a : App) : Prop :=
  ∀ p ∈ a.paneStack, p.parser.processed = deliveredTo p.subId log

theorem Core.panes_nodup {a : App} (h : a.core.ids.Nodup) :
    (a.paneStack.map (·.subId)).Nodup ∧
      ∀ pending ∈ a.pendingOpens, pending.subId ∉ a.paneStack.map (·.subId) := by
  have hlist : (a.core.holdings.map (·.2)).Nodup := h
  simp only [Core.holdings, List.map_append, List.map_map, Function.comp_def] at hlist
  have hpanes : a.core.panes.map (fun p => p.2) = a.paneStack.map (·.subId) := by
    simp only [App.core, List.map_map]
    rfl
  rw [hpanes] at hlist
  obtain ⟨hnodup, -, hdisjoint⟩ := List.nodup_append.mp hlist
  refine ⟨hnodup, fun pending hpending hmem => ?_⟩
  exact hdisjoint _ hmem _ (List.mem_append_left _ (List.mem_map_of_mem hpending)) rfl

theorem PaneStep.shows {event : AppEvent} {a b : App} (h : PaneStep event a b) (ha : a.Shows) :
    b.Shows := by
  intro hne
  cases h with
  | trimmed htrims => exact htrims.shows ha hne
  | fed idx p hp hother hstack hactive =>
    rw [hstack, hactive, List.length_modify]
    refine ha fun he => ?_
    simp [he] at hp
  | pushed entry hpending hempty hout hstack hactive =>
    rw [hstack, hactive, List.length_append, List.length_singleton]
    exact Nat.lt_succ_self _
  | resized rows cols hout hstack hactive =>
    rw [hstack, hactive, List.length_map]
    refine ha fun he => ?_
    simp [hstack, he] at hne

theorem PaneStep.panesFed {event : AppEvent} {a b : App} {log : List Seen} (h : PaneStep event a b)
    (hfed : PanesFed log a) (hids : a.core.ids.Nodup) :
    PanesFed (log ++ [⟨a.paneStack.map (·.subId), event⟩]) b := by
  obtain ⟨hnodup, hpendings⟩ := Core.panes_nodup hids
  have hheld : ∀ q ∈ a.paneStack, deliveredTo q.subId (log ++ [⟨a.paneStack.map (·.subId), event⟩]) =
      q.parser.processed ++ event.output q.subId := fun q hq => by
    rw [hfed q hq]
    exact deliveredTo_held (List.mem_map_of_mem hq)
  intro q hq
  cases h with
  | trimmed htrims hout =>
    have hmem : q ∈ a.paneStack := htrims.stack.subset hq
    rw [hheld q hmem, hout q hmem, List.append_nil]
  | fed idx p hp hother hstack hactive =>
    rw [hstack] at hq
    obtain ⟨i, hi⟩ := List.mem_iff_getElem?.mp hq
    rw [List.getElem?_modify] at hi
    split at hi
    next heq =>
      subst heq
      rw [hp] at hi
      cases Option.some.inj hi
      exact (hheld p (List.mem_of_getElem? hp)).symm
    next hne =>
      rw [Option.map_eq_map, Option.map_id'] at hi
      have hmem : q ∈ a.paneStack := List.mem_of_getElem? hi
      have hsub : q.subId ≠ p.subId := fun heq => by
        refine hne ?_
        have hpi : (a.paneStack.map (·.subId))[idx]? = some p.subId := by simp [hp]
        have hqi : (a.paneStack.map (·.subId))[i]? = some p.subId := by simp [hi, heq]
        exact (List.getElem?_inj (List.getElem?_eq_some_iff.mp hpi).1 hnodup).mp (hpi.trans hqi.symm)
      rw [hheld q hmem, hother _ hsub, List.append_nil]
  | pushed entry hpending hempty hout hstack hactive =>
    rw [hstack] at hq
    rcases List.mem_append.mp hq with hmem | hnew
    · rw [hheld q hmem, hout, List.append_nil]
    · cases List.mem_singleton.mp hnew
      obtain ⟨pending, hmem, hsub⟩ := hpending
      rw [hempty, hsub]
      exact (deliveredTo_absent (hpendings pending hmem)).symm
  | resized rows cols hout hstack hactive =>
    rw [hstack] at hq
    obtain ⟨p, hp, rfl⟩ := List.mem_map.mp hq
    have hp' := hheld p hp
    rw [hout, List.append_nil] at hp'
    exact hp'.symm

/-- The panes with ids of `old` stand in the order of `old`, and no id of `old` is awaited or still to be
handed out. -/
structure Core.KeepsOrder (old : List Nat) (c : Core) : Prop where
  order : ((c.panes.map (·.2)).filter (· ∈ old)).Sublist old
  awaited : ∀ p ∈ c.pendingOpens, p.subId ∉ old
  issued : ∀ id ∈ old, id < c.nextSubId

section Order

variable {old : List Nat} {c c' : Core}

/-- Panes may go, and a new one comes last. -/
theorem Core.KeepsOrder.of_panes (h : c.KeepsOrder old) {added : List Nat}
    (hpanes : (c'.panes.map (·.2)).Sublist (c.panes.map (·.2) ++ added)) (hadded : ∀ id ∈ added, id ∉ old)
    (hpending : ∀ p ∈ c'.pendingOpens, p ∈ c.pendingOpens) (hnext : c.nextSubId ≤ c'.nextSubId) :
    c'.KeepsOrder old where
  order := by
    have hnone : added.filter (· ∈ old) = [] :=
      List.filter_eq_nil_iff.mpr fun id hid => by simpa using hadded id hid
    have hkept := hpanes.filter (· ∈ old)
    rw [List.filter_append, hnone, List.append_nil] at hkept
    exact hkept.trans h.order
  awaited p hp := h.awaited p (hpending p hp)
  issued id hid := lt_of_lt_of_le (h.issued id hid) hnext

theorem Core.Move.keepsOrder {causes : Set Cause} (h : Core.Move causes c c')
    (hc : c.KeepsOrder old) : c'.KeepsOrder old := by
  have hsame : (c.panes.map (·.2)).Sublist (c.panes.map (·.2) ++ []) := by rw [List.append_nil]
  cases h with
  | paneDropped idx =>
    have hless : ((c.panes.eraseIdx idx).map (·.2)).Sublist (c.panes.map (·.2) ++ []) := by
      rw [List.append_nil]
      exact (List.eraseIdx_sublist _ _).map _
    exact hc.of_panes hless (by simp) (fun _ => id) (le_refl _)
  | @paneAnswered paneId pending others _ hp =>
    have hmem : pending ∈ c.pendingOpens := by rw [hp]; exact List.mem_cons_self
    have hmore : (c.panes ++ [(paneId, pending.subId)]).map (·.2) =
        c.panes.map (·.2) ++ [pending.subId] := by simp
    refine hc.of_panes (by rw [hmore]) ?_ (fun p hpo => by rw [hp]; exact List.mem_cons_of_mem _ hpo)
      (le_refl _)
    intro id hid
    rw [List.mem_singleton.mp hid]
    exact hc.awaited pending hmem
  | openFailed _ hp =>
    exact hc.of_panes hsame (by simp) (fun p hpo => by rw [hp]; exact List.mem_cons_of_mem _ hpo)
      (le_refl _)
  | registered => exact hc.of_panes hsame (by simp) (fun _ => id) (Nat.le_succ _)
  | logsEntered => exact hc.of_panes hsame (by simp) (fun _ => id) (Nat.le_succ _)
  | _ => exact hc.of_panes hsame (by simp) (fun _ => id) (le_refl _)

theorem Core.KeepsOrder.opened (h : c.KeepsOrder old) (hostAlias : Option String) :
    (c.opened hostAlias).KeepsOrder old where
  order := h.order
  awaited p hp := by
    rcases List.mem_append.mp hp with hp | hp
    · exact h.awaited p hp
    · rw [List.mem_singleton.mp hp]
      exact fun hold => lt_irrefl _ (h.issued _ hold)
  issued id hid := Nat.lt_succ_of_lt (h.issued id hid)

theorem Turn.Moves.keepsOrder {causes : Set Cause} {t u : Turn} (h : Turn.Moves causes t u)
    (ht : t.app.core.KeepsOrder old) : u.app.core.KeepsOrder old := by
  induction h with
  | refl => exact ht
  | emit _ _ ih => exact ih
  | edit _ hf ih =>
    rw [app_edit, hf]
    exact ih
  | step _ hf ih => exact hf.keepsOrder ih
  | opened _ _ _ ih => exact ih.opened _
  | acted _ _ ih => exact ih

end Order

theorem App.core_subIds (a : App) : a.core.panes.map (·.2) = a.paneStack.map (·.subId) := by
  simp only [App.core, List.map_map]
  rfl

theorem App.keepsOrder_refl {a : App} (h : IdSupply.Sound a.core.ids a.nextSubId) :
    a.core.KeepsOrder (a.paneStack.map (·.subId)) where
  order := by
    rw [a.core_subIds]
    exact List.filter_sublist
  awaited := (Core.panes_nodup h.nodup).2
  issued id hid := by
    refine h.lt id ?_
    rw [← a.core_subIds] at hid
    obtain ⟨p, hp, rfl⟩ := List.mem_map.mp hid
    refine Multiset.mem_coe.mpr (List.mem_map.mpr ⟨(.pane p.1, p.2), ?_, rfl⟩)
    exact List.mem_append_left _ (List.mem_map_of_mem hp)

/-- The entry at `active` is found again after another one was removed. -/
theorem getElem?_activeAfterExit {panes : List PaneEntry} {active idx : Nat}
    (hactive : active < panes.length) (hidx : idx < panes.length) (hne : idx ≠ active) :
    (panes.eraseIdx idx)[Turn.activeAfterExit active idx (panes.eraseIdx idx).length]? =
      panes[active]? := by
  have hlen := List.length_eraseIdx_of_lt hidx
  rw [List.getElem?_eraseIdx, hlen, Turn.activeAfterExit]
  by_cases hle : idx ≤ active
  · have hmin : min (active - 1) (panes.length - 1 - 1) = active - 1 := by omega
    rw [if_pos hle, hmin, if_neg (by omega), Nat.sub_add_cancel (by omega)]
  · rw [if_neg hle, if_pos (by omega)]

theorem App.handlePaneExit_active {text : TextOps} {m : Moment} {a : App} {version id idx : Nat}
    {exitCode : Option Int} (ha : a.Shows) (hidx : a.findPaneBySub id = some idx)
    (hne : idx ≠ a.activePane) :
    ∃ t p, a.handleEvent text m (.daemonEnvelope ⟨version, .event id (.paneExit exitCode)⟩) = some t ∧
      a.activeEntry = some p ∧ t.app.activeEntry = some p := by
  have hlt : idx < a.paneStack.length := (List.findIdx?_eq_some_iff_getElem.mp hidx).1
  have hactive : a.activePane < a.paneStack.length := ha (List.ne_nil_of_length_pos (by omega))
  have hrecipient : a.recipient id = some (.pane idx) := by
    unfold App.recipient
    rw [hidx]
  have hsame := getElem?_activeAfterExit hactive hlt hne
  have hleft : a.paneStack.eraseIdx idx ≠ [] := by
    refine List.ne_nil_of_length_pos ?_
    rw [List.length_eraseIdx_of_lt hlt]
    omega
  have hstep : ∃ t, a.handleEvent text m (.daemonEnvelope ⟨version, .event id (.paneExit exitCode)⟩) =
      some t ∧ t.app.activeEntry = a.activeEntry := by
    simp only [App.handleEvent, Turn.handleDaemonEnvelope, Turn.handleEventFrame, hrecipient,
      Turn.handlePaneEvent, Turn.handlePaneExit, List.getElem?_eq_getElem hlt, if_neg hleft]
    exact ⟨_, rfl, hsame⟩
  obtain ⟨t, ht, hentry⟩ := hstep
  exact ⟨t, _, ht, List.getElem?_eq_getElem hactive, hentry.trans (List.getElem?_eq_getElem hactive)⟩

theorem paneLog_sound {text : TextOps} {log : List Seen} {a : App} (h : Run (paneLog text) Free log a) :
    IdSupply.Sound a.core.ids a.nextSubId := by
  obtain ⟨tr, hr⟩ := h.reobserved (N := console text) (fun _ => id) fun a l a' out hs => by
    obtain ⟨t, ht, heq⟩ := Option.map_eq_some_iff.mp hs
    cases heq
    exact ⟨t.actions, by simp only [console, ht, Option.map_some]⟩
  exact ids_sound hr

theorem panes_fed {text : TextOps} {log : List Seen} {a : App} (h : Run (paneLog text) Free log a) :
    PanesFed log a ∧ a.Shows := by
  refine h.invariant (I := fun log a => PanesFed log a ∧ a.Shows) ?_ ?_
  · rintro a ⟨pane, shell, rows, cols, ha⟩
    obtain ⟨layout, -, heq⟩ := Option.bind_eq_some_iff.mp ha
    cases Option.some.inj heq
    refine ⟨fun p hp => ?_, fun _ => by simp⟩
    cases List.mem_singleton.mp hp
    rfl
  · intro log a l a' out hr ⟨hfed, hshows⟩ _ hstep
    obtain ⟨t, ht, heq⟩ := Option.map_eq_some_iff.mp hstep
    cases heq
    have hpanes := App.handleEvent_panes ht
    exact ⟨hpanes.panesFed hfed (paneLog_sound hr).nodup, hpanes.shows hshows⟩

theorem panes_keep_order {text : TextOps} {a b : App} {log : List Seen}
    (ha : IdSupply.Sound a.core.ids a.nextSubId) (h : Run ((paneLog text).startingAt a) Free log b) :
    ((b.paneStack.map (·.subId)).filter (· ∈ a.paneStack.map (·.subId))).Sublist
      (a.paneStack.map (·.subId)) := by
  have hkeeps : b.core.KeepsOrder (a.paneStack.map (·.subId)) := by
    refine h.invariant (I := fun _ b => b.core.KeepsOrder (a.paneStack.map (·.subId))) ?_ ?_
    · rintro s rfl
      exact App.keepsOrder_refl ha
    · intro log b l b' out _ hb _ hstep
      obtain ⟨t, ht, heq⟩ := Option.map_eq_some_iff.mp hstep
      cases heq
      exact (App.handleEvent_moves ht).keepsOrder hb
  have horder := hkeeps.order
  rwa [b.core_subIds] at horder

/-- In every state of every run a pane's parser was given what was delivered for the pane since it is
there; panes stay in order; and the exit of a pane that is not shown leaves the one that is. -/
theorem panes_isolated {text : TextOps} {log : List Seen} {a : App}
    (h : Run (paneLog text) Free log a) :
    (∀ p ∈ a.paneStack, p.parser.processed = deliveredTo p.subId log) ∧
      (∀ later b, Run ((paneLog text).startingAt a) Free later b →
        ((b.paneStack.map (·.subId)).filter (· ∈ a.paneStack.map (·.subId))).Sublist
          (a.paneStack.map (·.subId))) ∧
      ∀ m version id idx exitCode, a.findPaneBySub id = some idx → idx ≠ a.activePane →
        ∃ t p, a.handleEvent text m (.daemonEnvelope ⟨version, .event id (.paneExit exitCode)⟩) = some t ∧
          a.activeEntry = some p ∧ t.app.activeEntry = some p :=
  ⟨(panes_fed h).1, fun _ _ hb => panes_keep_order (paneLog_sound h) hb,
    fun _ _ _ _ _ hidx hne => App.handlePaneExit_active (panes_fed h).2 hidx hne⟩

def paneOutput (subId : Nat) (data : List UInt8) : AppEvent :=
  .daemonEnvelope (envelope (.event subId (.paneOutput data)))

/-- A second pane is opened, each gets output of its own, and the first one exits. -/
theorem panes_isolated_two : ∃ log a t, Run ((paneLog .ascii).startingAt sampleApp) Free log a ∧
    a.paneStack.map (fun p => (p.subId, p.parser.processed)) = [(1, [97, 99]), (6, [98])] ∧
    (∀ p ∈ a.paneStack, p.parser.processed = deliveredTo p.subId log) ∧
    a.handleEvent .ascii (.at 9) (.daemonEnvelope (envelope (.event 1 (.paneExit none)))) = some t ∧
    t.app.activeEntry = a.activeEntry := by
  obtain ⟨log, a, hr, hpanes, hone, hne⟩ := Run.of_replay ((paneLog .ascii).startingAt sampleApp) Free
    (fun _ a => a.paneStack.map (fun p => (p.subId, p.parser.processed)) = [(1, [97, 99]), (6, [98])] ∧
      a.findPaneBySub 1 = some 0 ∧ 0 ≠ a.activePane) rfl
    [(.at 0, .daemonEnvelope (envelope (.event 5 (.hostList [⟨"h", "h", "u", none⟩] "ssh")))),
      (.at 1, paneOutput 1 [97]), (.at 2, .mouseClick 90 24), (.at 3, .mouseClick 90 24),
      (.at 4, .daemonEnvelope (envelope (.paneOpened ⟨8, 21, 120, "ssh:h", true⟩))),
      (.at 5, paneOutput 6 [98]), (.at 6, paneOutput 1 [99])]
    (by decide +kernel)
  have hrun : Run (paneLog .ascii) Free log a :=
    hr.project id (fun _ hs => by subst hs; exact ⟨_, _, _, _, sampleApp_new⟩) (fun _ _ _ _ => id)
      (fun _ _ _ => id)
  obtain ⟨hfed, -, hexit⟩ := panes_isolated hrun
  obtain ⟨t, p, ht, hbefore, hafter⟩ := hexit (.at 9) _ 1 0 none hone hne
  exact ⟨log, a, t, hr, hpanes, hfed, ht, hafter.trans hbefore.symm⟩

end Tepegoz
