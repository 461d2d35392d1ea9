import Tepegoz.Tui.Moves
import Tepegoz.Tui.PaneStack

namespace Tepegoz

open Transition

/-- An armed prompt is shown: its tile has the focus and lists containers. -/
def App.PromptInFocus (a : App) : Prop :=
  a.docker.pendingConfirm ≠ none → a.view.focused = .docker ∧ a.docker.view = .list

instance (a : App) : Decidable a.PromptInFocus := by
  unfold App.PromptInFocus
  infer_instance

/-- While a prompt is armed no pane is opened that takes the focus, and no resize takes the Docker tile
off the screen. -/
def App.KeepsPrompt (a : App) : AppEvent → Prop
  | .daemonEnvelope env =>
    match env.payload with
    | .paneOpened _ => a.docker.pendingConfirm = none ∨ a.pendingOpens = [] ∨
        a.view.layout.tile .pty = none
    | _ => True
  | .resize rows cols => a.docker.pendingConfirm = none ∨ minCols ≤ cols ∧ minRows ≤ rows
  | _ => True

instance (a : App) (event : AppEvent) : Decidable (a.KeepsPrompt event) :=
  match event with
  | .daemonEnvelope env => by
    unfold App.KeepsPrompt
    dsimp only
    split <;> infer_instance
  | .resize _ _ => inferInstanceAs (Decidable (_ ∨ _ ∧ _))
  | .stdinChunk _ | .tick | .pendingActionTimeout _ | .mouseClick _ _ | .mouseHover _ _ => .isTrue trivial

def KeptPrompt (_ : List AppAction) (a : App) (l : Moment × AppEvent) : Prop := a.KeepsPrompt l.2

instance (tr : List AppAction) (a : App) (l : Moment × AppEvent) : Decidable (KeptPrompt tr a l) :=
  inferInstanceAs (Decidable (a.KeepsPrompt l.2))

namespace TileLayout

/-- The layouts: the whole area when it is too small, else the five tiles. -/
theorem defaultFor_cases {area : Rect} {layout : TileLayout} (h : defaultFor area = some layout) :
    (area.width < minCols ∨ area.height < minRows) ∧ layout = tinyFallback area ∨
      ¬ (area.width < minCols ∨ area.height < minRows) ∧ ∃ pty docker ports fleet claude, layout =
        ⟨[⟨.pty, .pty, pty⟩, ⟨.docker, .scope .docker, docker⟩, ⟨.ports, .scope .ports, ports⟩,
          ⟨.fleet, .scope .fleet, fleet⟩, ⟨.claudeCode, .placeholder, claude⟩], .pty⟩ := by
  by_cases hsmall : area.width < minCols ∨ area.height < minRows
  · rw [defaultFor, if_pos hsmall] at h
    exact .inl ⟨hsmall, (Option.some.inj h).symm⟩
  · obtain ⟨hcols, hrows⟩ := not_or.mp hsmall
    obtain ⟨_, _, _, _, rfl, -⟩ := defaultFor_split h (Nat.not_lt.mp hcols) (Nat.not_lt.mp hrows)
    exact .inr ⟨hsmall, _, _, _, _, _, rfl⟩

def Standard (layout : TileLayout) : Prop := ∃ area, defaultFor area = some layout

/-- Keys for the container list are typed into the Docker tile. -/
theorem Standard.docker_of_scope {layout : TileLayout} (h : layout.Standard) {id : TileId}
    (hs : layout.routesToScope id = some .docker) : id = .docker := by
  obtain ⟨area, h⟩ := h
  rcases defaultFor_cases h with ⟨-, rfl⟩ | ⟨-, pty, docker, ports, fleet, claude, rfl⟩
  · cases id <;> simp [routesToScope, tile, tinyFallback] at hs
  · cases id <;> simp [routesToScope, tile] at hs
    rfl

/-- The Docker tile is on a screen that is large enough, and only there. -/
theorem defaultFor_docker {rows cols : Nat} {layout : TileLayout}
    (h : defaultFor (.new 0 0 cols rows) = some layout) :
    (layout.tile .docker).isSome ↔ minCols ≤ cols ∧ minRows ≤ rows := by
  have hsize : ((Rect.new 0 0 cols rows).width < minCols ∨
      (Rect.new 0 0 cols rows).height < minRows) ↔ ¬ (minCols ≤ cols ∧ minRows ≤ rows) := by
    simp only [Rect.new, minCols, minRows, u16Max]
    omega
  rcases defaultFor_cases h with ⟨hsmall, rfl⟩ | ⟨hlarge, pty, docker, ports, fleet, claude, rfl⟩
  · simpa [tile, tinyFallback] using hsize.mp hsmall
  · simpa [tile] using not_not.mp (mt hsize.mpr hlarge)

end TileLayout

/-- The prompt as far as the core knows it. -/
def Core.PromptInFocus (c : Core) : Prop := c.confirm ≠ none → c.focused = .docker ∧ c.logs = none

theorem App.core_logs_none {a : App} : a.core.logs = none ↔ a.docker.view = .list := by
  show a.docker.view.logsSub = none ↔ _
  cases a.docker.view <;> simp [DockerView.logsSub]

theorem App.promptInFocus_core {a : App} : a.core.PromptInFocus ↔ a.PromptInFocus := by
  unfold Core.PromptInFocus App.PromptInFocus
  rw [App.core_logs_none]
  exact Iff.rfl

namespace Core

variable {causes : Set Cause} {c c' : Core}

theorem Move.keeps_layout (hr : .refocus ∉ causes) (h : Move causes c c') :
    c'.layout = c.layout := by
  cases h with
  | resized layout focused hc => exact absurd hc hr
  | _ => rfl

theorem Move.keeps_prompt (hr : .refocus ∉ causes) (hl : c.layout.Standard) (h : Move causes c c')
    (hc : c.PromptInFocus) : c'.PromptInFocus := by
  cases h with
  | disarmed => exact fun hn => absurd rfl hn
  | armed pc _ hlogs hfocus => exact fun _ => ⟨hl.docker_of_scope hfocus, hlogs⟩
  | focused next _ =>
    intro hn
    by_cases hd : c.focused = .docker
    · simp [hd] at hn
    · simp only [hd, if_false] at hn
      exact absurd (hc hn).1 hd
  | pulled next hc => exact absurd hc hr
  | logsEntered _ hnone => exact fun hn => absurd hnone hn
  | logsLeft => exact fun hn => ⟨(hc hn).1, rfl⟩
  | retargeted target => exact fun hn => absurd rfl hn
  | resized layout focused hc => exact absurd hc hr
  | _ => exact hc

end Core

namespace Turn

variable {text : TextOps} {m : Moment} {causes : Set Cause} {t u : Turn}

theorem Moves.keeps_prompt (hr : .refocus ∉ causes) (h : Moves causes t u)
    (hl : t.app.core.layout.Standard) (ht : t.app.core.PromptInFocus) :
    u.app.core.layout.Standard ∧ u.app.core.PromptInFocus := by
  induction h with
  | refl => exact ⟨hl, ht⟩
  | emit _ _ ih => exact ih
  | edit _ hf ih =>
    rw [app_edit, hf]
    exact ih
  | step _ hf ih => exact ⟨(hf.keeps_layout hr).symm ▸ ih.1, hf.keeps_prompt hr ih.1 ih.2⟩
  | opened _ _ _ ih => exact ih
  | acted _ _ ih => exact ih

theorem focusPty_focus : t.focusPty.app.docker = t.app.docker ∧
    t.focusPty.app.view.layout = t.app.view.layout ∧ t.focusPty.app.view.focused =
      if (t.app.view.layout.tile .pty).isSome then .pty else t.app.view.focused := by
  unfold focusPty
  split
  next hmoved => exact ⟨rfl, rfl, (if_pos hmoved.2).symm⟩
  next hstays =>
    refine ⟨rfl, rfl, ?_⟩
    split
    next hpty => exact not_not.mp fun hne => hstays ⟨hne, hpty⟩
    next => rfl

/-- A pane that is opened takes the focus when there is a tile for it. -/
theorem handlePaneOpened_focus (info : PaneInfo) :
    (t.handlePaneOpened info).app.docker = t.app.docker ∧
      (t.handlePaneOpened info).app.view.layout = t.app.view.layout ∧
        (t.handlePaneOpened info).app.view.focused =
          if t.app.pendingOpens ≠ [] ∧ (t.app.view.layout.tile .pty).isSome then .pty
          else t.app.view.focused := by
  unfold handlePaneOpened
  split
  next hp => simp [hp]
  next hp =>
    obtain ⟨hdocker, hlayout, hfocus⟩ := focusPty_focus (t := t.edit _)
    have hne : t.app.pendingOpens ≠ [] := by simp [hp]
    refine ⟨hdocker, hlayout, hfocus.trans ?_⟩
    by_cases hpty : (t.app.view.layout.tile .pty).isSome
    · exact (if_pos hpty).trans (if_pos ⟨hne, hpty⟩).symm
    · exact (if_neg hpty).trans (if_neg fun h => hpty h.2).symm

theorem handleResize_focus {rows cols : Nat} (h : t.handleResize rows cols = some u) :
    u.app.docker = t.app.docker ∧ TileLayout.defaultFor (.new 0 0 cols rows) = some u.app.view.layout ∧
      u.app.view.focused = if (u.app.view.layout.tile t.app.view.focused).isSome
        then t.app.view.focused else u.app.view.layout.defaultFocus := by
  obtain ⟨layout, hl, rfl⟩ := Option.map_eq_some_iff.mp h
  rw [app_draw, resizePanes_app]
  exact ⟨rfl, hl, rfl⟩

end Turn

section Events

variable {text : TextOps} {m : Moment} {a : App} {event : AppEvent} {t : Turn}

theorem App.handleEvent_prompt (hl : a.view.layout.Standard) (ha : a.PromptInFocus)
    (h : a.handleEvent text m event = some t) (hok : a.KeepsPrompt event) :
    t.app.view.layout.Standard ∧ t.app.PromptInFocus := by
  have hmoves : ∀ causes, .refocus ∉ causes → Turn.Moves causes ⟨a, []⟩ t →
      t.app.view.layout.Standard ∧ t.app.PromptInFocus := by
    intro causes hr hm
    obtain ⟨hl', ht⟩ := hm.keeps_prompt hr hl (App.promptInFocus_core.mpr ha)
    exact ⟨hl', App.promptInFocus_core.mp ht⟩
  have hcalm : ∀ event : AppEvent, .refocus ∉ event.causes → a.handleEvent text m event = some t →
      t.app.view.layout.Standard ∧ t.app.PromptInFocus :=
    fun event hr h => hmoves _ hr (App.handleEvent_moves h)
  cases event with
  | daemonEnvelope env =>
    by_cases hopened : ∃ info, env.payload = .paneOpened info
    · obtain ⟨info, hinfo⟩ := hopened
      obtain ⟨version, payload⟩ := env
      cases hinfo
      cases Option.some.inj h
      obtain ⟨hdocker, hlayout, hfocus⟩ := Turn.handlePaneOpened_focus (t := ⟨a, []⟩) info
      refine ⟨hlayout ▸ hl, fun hn => ?_⟩
      rw [hdocker] at hn ⊢
      have hstays : ¬ (a.pendingOpens ≠ [] ∧ (a.view.layout.tile .pty).isSome) := by
        rcases hok with hnone | hempty | hpty
        · exact absurd hnone hn
        · exact fun hne => hne.1 hempty
        · simp [hpty]
      rw [hfocus, if_neg hstays]
      exact ha hn
    · exact hmoves {.answer} (by simp)
        (Turn.handleDaemonEnvelope_moves rfl (fun info hinfo => absurd ⟨info, hinfo⟩ hopened) h)
  | resize rows cols =>
    obtain ⟨hdocker, hlayout, hfocus⟩ := Turn.handleResize_focus h
    refine ⟨⟨_, hlayout⟩, fun hn => ?_⟩
    rw [hdocker] at hn ⊢
    obtain ⟨hf, hv⟩ := ha hn
    have hshown : (t.app.view.layout.tile .docker).isSome :=
      (TileLayout.defaultFor_docker hlayout).mpr (hok.resolve_left hn)
    rw [hfocus]
    have hf' : (Turn.mk a []).app.view.focused = .docker := hf
    rw [hf', if_pos hshown]
    exact ⟨rfl, hv⟩
  | stdinChunk bytes => exact hcalm _ (by simp [AppEvent.causes]) h
  | tick => exact hcalm _ (by simp [AppEvent.causes]) h
  | pendingActionTimeout id => exact hcalm _ (by simp [AppEvent.causes]) h
  | mouseClick x y => exact hcalm _ (by simp [AppEvent.causes]) h
  | mouseHover x y => exact hcalm _ (by simp [AppEvent.causes]) h

/-- The condition is exact: the other events leave an armed prompt out of focus. -/
theorem App.keepsPrompt_iff (hl : a.view.layout.Standard) (ha : a.PromptInFocus)
    (h : a.handleEvent text m event = some t) : a.KeepsPrompt event ↔ t.app.PromptInFocus := by
  refine ⟨fun hok => (App.handleEvent_prompt hl ha h hok).2, fun ht => ?_⟩
  cases event with
  | daemonEnvelope env =>
    obtain ⟨version, payload⟩ := env
    cases payload with
    | paneOpened info =>
      cases Option.some.inj h
      obtain ⟨hdocker, -, hfocus⟩ := Turn.handlePaneOpened_focus (t := ⟨a, []⟩) info
      by_contra hbroken
      obtain ⟨harmed, hpending, hpty⟩ : a.docker.pendingConfirm ≠ none ∧ a.pendingOpens ≠ [] ∧
          a.view.layout.tile .pty ≠ none := by simpa [App.KeepsPrompt] using hbroken
      have hgone := (ht (by rw [hdocker]; exact harmed)).1
      rw [hfocus, if_pos ⟨hpending, Option.isSome_iff_ne_none.mpr hpty⟩] at hgone
      cases hgone
    | _ => trivial
  | resize rows cols =>
    obtain ⟨hdocker, hlayout, hfocus⟩ := Turn.handleResize_focus h
    by_contra hbroken
    obtain ⟨harmed, hsmall⟩ := not_or.mp hbroken
    have hfocused : t.app.view.focused = .docker := (ht (by rw [hdocker]; exact harmed)).1
    have hf : (Turn.mk a []).app.view.focused = .docker := (ha harmed).1
    have hhidden : ¬ (t.app.view.layout.tile .docker).isSome :=
      mt (TileLayout.defaultFor_docker hlayout).mp hsmall
    rw [hf, if_neg hhidden] at hfocus
    rcases TileLayout.defaultFor_cases hlayout with ⟨-, hl'⟩ | ⟨-, pty, docker, ports, fleet, claude, hl'⟩
    · rw [hl'] at hfocus
      cases hfocused.symm.trans hfocus
    · rw [hl'] at hfocus
      cases hfocused.symm.trans hfocus
  | _ => trivial

end Events

/-- A prompt is armed only in focus, in every run in which no pane and no resize takes the focus from an
armed prompt. -/
theorem prompt_in_focus {text : TextOps} {tr : List AppAction} {a : App}
    (h : Run (console text) KeptPrompt tr a) : a.PromptInFocus := by
  have hinv : a.view.layout.Standard ∧ a.PromptInFocus := by
    refine h.invariant (I := fun _ a => a.view.layout.Standard ∧ a.PromptInFocus) ?_ ?_
    · rintro a ⟨pane, shell, rows, cols, ha⟩
      obtain ⟨layout, hl, ha⟩ := Option.bind_eq_some_iff.mp ha
      cases Option.some.inj ha
      exact ⟨⟨_, hl⟩, fun hn => absurd rfl hn⟩
    · intro tr a l a' out _ ha hok hstep
      obtain ⟨t, ht, heq⟩ := Option.map_eq_some_iff.mp hstep
      cases heq
      exact App.handleEvent_prompt ha.1 ha.2 ht hok
  exact hinv.2

/-- The engine lists one container. -/
def listContainer : AppEvent :=
  .daemonEnvelope (eventFrame 2 (.containerList [⟨"c0ffee", ["/web"], "nginx"⟩] "engine"))

/-- The user goes to the Docker tile and arms the prompt of a kill. -/
def armKill : List (Moment × AppEvent) :=
  [(.at 0, listContainer), (.at 0, .stdinChunk [prefixByte, key 'j']), (.at 0, .stdinChunk [key 'K'])]

theorem prompt_in_focus_resized : ∃ tr a, Run (console .ascii) KeptPrompt tr a ∧
    a.docker.pendingConfirm ≠ none ∧ a.view.focused = .docker := by
  obtain ⟨tr, a, hr, harmed⟩ := Run.of_replay (console .ascii) KeptPrompt
    (fun _ a => a.docker.pendingConfirm ≠ none)
    (s := sampleApp) ⟨_, _, _, _, sampleApp_new⟩
    (armKill ++ [(.at 1, .resize 24 80)]) (by decide +kernel)
  exact ⟨tr, a, hr, harmed, (prompt_in_focus hr harmed).1⟩

/-- The pane that replaces the last one is opened while a prompt is armed: it takes the focus, and the
prompt stays armed. -/
theorem prompt_out_of_focus : ∃ tr a, Run (console .ascii) Free tr a ∧ ¬ a.PromptInFocus :=
  Run.of_replay (console .ascii) Free (fun _ a => ¬ a.PromptInFocus)
    (s := sampleApp) ⟨_, _, _, _, sampleApp_new⟩
    ([(.at 0, closeKeys)] ++ armKill ++
      [(.at 1, .daemonEnvelope (envelope (.paneOpened ⟨8, 21, 120, "/bin/zsh", true⟩)))])
    (by decide +kernel)

end Tepegoz
