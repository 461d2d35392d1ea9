import Tepegoz.Tui.ConfirmPrompt

namespace Tepegoz

open Transition

/-- What the app does at one go: it handles a key of a tile, another action of the input filter, or an
event that is no keyboard input. -/
inductive DeedKind
  | key (kind : ScopeKind) (k : ScopeKey)
  | input (action : InputAction)
  | event (event : AppEvent)
  deriving DecidableEq

structure Deed where
  moment : Moment
  kind : DeedKind
  before : Turn
  after : Turn

def Deed.emitted (d : Deed) : List AppAction := d.after.actions.drop d.before.actions.length

namespace Turn

variable (text : TextOps) (m : Moment)

def keyDeeds (kind : ScopeKind) (t : Turn) : List ScopeKey → List Deed
  | [] => []
  | k :: ks =>
    ⟨m, .key kind k, t, t.scopeKey text m kind k⟩ ::
      keyDeeds kind (t.scopeKey text m kind k) ks

/-- The tile that bytes are typed into as keys. -/
def keyTile (t : Turn) : Option ScopeKind :=
  if t.app.helpVisible ∨ t.app.hostPicker.isSome ∨
      t.app.view.layout.routesToPty t.app.view.focused then none
  else t.app.view.layout.routesToScope t.app.view.focused

def inputDeeds (t : Turn) (input : InputAction) : List Deed :=
  match input, t.keyTile with
  | .forward bytes, some kind => (t.parseKeys bytes).1.keyDeeds text m kind (t.parseKeys bytes).2
  | _, _ => (t.handleInput text m input).toList.map fun u => ⟨m, .input input, t, u⟩

def inputsDeeds (t : Turn) : List InputAction → List Deed
  | [] => []
  | .detach :: _ => [⟨m, .input .detach, t, t.emit (.detach .user)⟩]
  | input :: inputs =>
    t.inputDeeds text m input ++
      match t.handleInput text m input with
      | some u => u.inputsDeeds inputs
      | none => []

end Turn

/-- The deeds that an event consists of. -/
def App.deeds (text : TextOps) (m : Moment) (a : App) (event : AppEvent) : List Deed :=
  match event with
  | .stdinChunk bytes =>
    let filtered := InputFilter.process a.inputFilter [] bytes
    (Turn.mk { a with inputFilter := filtered.1 } []).inputsDeeds text m filtered.2
  | _ => (a.handleEvent text m event).toList.map fun t => ⟨m, .event event, ⟨a, []⟩, t⟩

/-- The app with a record of its deeds. -/
def recorded (text : TextOps) : System App (Moment × AppEvent) Deed where
  init := (console text).init
  step a l := (a.handleEvent text l.1 l.2).map fun t => (t.app, a.deeds text l.1 l.2)

namespace Deed

/-- The user or the mouse; the focus moves through `move_focus_to` only. -/
def movesFocus (d : Deed) : Bool :=
  match d.kind with
  | .input _ | .event (.mouseClick _ _) => true
  | _ => false

/-- A `K` or `X` that arms the prompt `pc` for the container that is selected. -/
def Arms (text : TextOps) (pc : PendingConfirm) (d : Deed) : Prop :=
  ∃ k c, d.kind = .key .docker k ∧
    (k = .char (key 'K') ∧ pc.kind = .kill ∨ k = .char (key 'X') ∧ pc.kind = .remove) ∧
      d.before.app.docker.view = .list ∧ d.before.app.docker.pendingConfirm = none ∧
        d.before.app.docker.selectedContainer text = some c ∧ pc.containerId = c.id ∧
          pc.deadline = d.moment.now + pendingConfirmTimeout

/-- A deed that leaves the prompt `pc` armed: no key but an absorbed `K` or `X`, no other target, no
move of the focus away from the Docker tile and no tick from the deadline on. -/
structure Spares (pc : PendingConfirm) (d : Deed) : Prop where
  armed : d.before.app.docker.pendingConfirm = some pc
  absorbed : ∀ k, d.kind = .key .docker k → k = .char (key 'K') ∨ k = .char (key 'X')
  target : d.after.app.docker.target = d.before.app.docker.target
  focus : d.movesFocus → d.before.app.view.focused = .docker → d.after.app.view.focused = .docker
  tick : d.kind = .event .tick → d.moment.now < pc.deadline

/-- A `y` that confirms the prompt that was armed last. -/
def Confirms (text : TextOps) (past : List Deed) (req : DockerActionRequest) (d : Deed) : Prop :=
  ∃ k pc earlier armed since, d.kind = .key .docker k ∧
    (k = .char (key 'y') ∨ k = .char (key 'Y')) ∧ d.before.app.docker.view = .list ∧
      req.kind = pc.kind ∧ req.containerId = pc.containerId ∧
        past = earlier ++ armed :: since ∧ armed.Arms text pc ∧
          armed.before.app.docker.target = req.target ∧ ∀ e ∈ since, e.Spares pc

end Deed

/-- Actions that cannot be taken back. -/
def DockerActionKind.destructive : DockerActionKind → Bool
  | .kill | .remove => true
  | _ => false

/-- Nothing that matters to prompts and requests differs. -/
structure Turn.Same (t u : Turn) : Prop where
  docker : u.app.docker = t.app.docker
  view : u.app.view = t.app.view
  actions : u.actions = t.actions

theorem Turn.Same.trans {t u v : Turn} (h : Turn.Same t u) (h' : Turn.Same u v) : Turn.Same t v :=
  ⟨h'.docker.trans h.docker, h'.view.trans h.view, h'.actions.trans h.actions⟩

/-- A deed that the app can do. -/
inductive Deed.Valid (text : TextOps) : Deed → Prop
  | key {m : Moment} {kind : ScopeKind} {k : ScopeKey} {t : Turn} :
      (kind = .docker → t.app.view.layout.routesToScope t.app.view.focused = some .docker) →
        Valid text ⟨m, .key kind k, t, t.scopeKey text m kind k⟩
  | input {m : Moment} {action : InputAction} {t u : Turn} : Turn.Moves {.input} t u →
      Valid text ⟨m, .input action, t, u⟩
  | event {m : Moment} {event : AppEvent} {a : App} {t : Turn} :
      a.handleEvent text m event = some t → (∀ bytes, event ≠ .stdinChunk bytes) →
        Valid text ⟨m, .event event, ⟨a, []⟩, t⟩

/-- The deeds lead from one turn to another, without anything done in between. -/
inductive Covers (text : TextOps) : Turn → List Deed → Turn → Prop
  | nil {t u : Turn} : Turn.Same t u → Covers text t [] u
  | cons {t u : Turn} {d : Deed} {ds : List Deed} : Turn.Same t d.before → d.Valid text →
      Covers text d.after ds u → Covers text t (d :: ds) u

namespace Covers

variable {text : TextOps} {t u v : Turn} {ds ds' : List Deed}

theorem of_same (hs : Turn.Same t u) (h : Covers text u ds v) : Covers text t ds v := by
  cases h with
  | nil hs' => exact .nil (hs.trans hs')
  | cons hs' hv hrest => exact .cons (hs.trans hs') hv hrest

theorem append (h : Covers text t ds u) (h' : Covers text u ds' v) :
    Covers text t (ds ++ ds') v := by
  induction h with
  | nil hs => exact h'.of_same hs
  | cons hs hv _ ih => exact .cons hs hv (ih h')

theorem single {d : Deed} (hv : d.Valid text) : Covers text d.before [d] d.after :=
  .cons ⟨rfl, rfl, rfl⟩ hv (.nil ⟨rfl, rfl, rfl⟩)

end Covers

namespace Turn

variable {text : TextOps} {m : Moment} {t u : Turn}

theorem keyDeeds_covers {kind : ScopeKind}
    (hfocus : kind = .docker → t.app.view.layout.routesToScope t.app.view.focused = some .docker)
    (ks : List ScopeKey) : Covers text t (t.keyDeeds text m kind ks)
      (ks.foldl (fun t k => t.scopeKey text m kind k) t) := by
  induction ks generalizing t with
  | nil => exact .nil ⟨rfl, rfl, rfl⟩
  | cons k ks ih =>
    refine .cons ⟨rfl, rfl, rfl⟩ (.key hfocus) (ih fun hd => ?_)
    subst hd
    have hkey : Moves {.dockerKey} t (t.handleScopeKey text m k) :=
      handleScopeKey_moves (Set.mem_singleton _) (hfocus rfl) k
    obtain ⟨hl, hf⟩ : (t.handleScopeKey text m k).app.view.layout = t.app.view.layout ∧
      (t.handleScopeKey text m k).app.view.focused = t.app.view.focused := hkey.keeps_focus
    show (t.handleScopeKey text m k).app.view.layout.routesToScope
      (t.handleScopeKey text m k).app.view.focused = _
    rw [hl, hf]
    exact hfocus rfl

/-- Input that no tile takes as keys. -/
theorem handleInput_moves_input {input : InputAction}
    (hn : ∀ bytes, input = .forward bytes → t.keyTile = none)
    (h : t.handleInput text m input = some u) : Moves {.input} t u := by
  have hi : Cause.input ∈ ({.input} : Set Cause) := Set.mem_singleton _
  unfold handleInput at h
  split at h
  next => cases Option.some.inj h; exact inputToHelp_moves input
  next hhelp =>
    split at h
    next => cases Option.some.inj h; exact inputToPicker_moves input
    next hpicker =>
      by_cases hb : ∃ bytes, input = .forward bytes
      · obtain ⟨bytes, rfl⟩ := hb
        have htile : t.keyTile = none := hn bytes rfl
        unfold keyTile at htile
        change t.handleForwardBytes text m bytes = some u at h
        unfold handleForwardBytes at h
        split at h
        next => exact sendInput_moves h
        next hpty =>
          rw [if_neg (by simp [hhelp, hpicker, hpty])] at htile
          rw [htile] at h
          cases Option.some.inj h
          exact .refl
      · exact inputToTiles_moves hi (fun bytes hb' => absurd ⟨bytes, hb'⟩ hb) h

theorem inputDeeds_covers {input : InputAction} (h : t.handleInput text m input = some u) :
    Covers text t (t.inputDeeds text m input) u := by
  unfold inputDeeds
  split
  next bytes kind hkind =>
    unfold keyTile at hkind
    split at hkind
    next => cases hkind
    next hopen =>
      simp only [not_or, Bool.not_eq_true] at hopen
      have hu : u = (t.parseKeys bytes).2.foldl (fun t k => t.scopeKey text m kind k)
          (t.parseKeys bytes).1 := by
        simp only [handleInput, hopen, Bool.false_eq_true, if_false, inputToTiles,
          handleForwardBytes, hkind, Option.some.injEq] at h
        exact h.symm
      have hparsed : Turn.Same t (t.parseKeys bytes).1 := ⟨rfl, rfl, rfl⟩
      rw [hu]
      refine Covers.of_same hparsed (keyDeeds_covers (fun hd => ?_) _)
      rw [hparsed.view, ← hd]
      exact hkind
  next hother =>
    rw [h]
    refine Covers.single (.input (handleInput_moves_input (fun bytes hb => ?_) h))
    cases hk : t.keyTile with
    | none => rfl
    | some kind => exact absurd hk (hother bytes kind hb)

theorem inputsDeeds_covers {inputs : List InputAction} (h : t.handleInputs text m inputs = some u) :
    Covers text t (t.inputsDeeds text m inputs) u := by
  induction inputs generalizing t with
  | nil => cases Option.some.inj h; exact .nil ⟨rfl, rfl, rfl⟩
  | cons input inputs ih =>
    by_cases hd : input = .detach
    · subst hd
      cases Option.some.inj h
      exact Covers.single (.input (.emit .refl rfl))
    · rw [handleInputs_cons hd] at h
      obtain ⟨next, hn, hrest⟩ := Option.bind_eq_some_iff.mp h
      have hdeeds : t.inputsDeeds text m (input :: inputs) =
          t.inputDeeds text m input ++ next.inputsDeeds text m inputs := by
        cases input <;> first | exact absurd rfl hd | simp only [inputsDeeds, hn]
      rw [hdeeds]
      exact (inputDeeds_covers hn).append (ih hrest)

end Turn

theorem App.deeds_cover {text : TextOps} {m : Moment} {a : App} {event : AppEvent} {t : Turn}
    (h : a.handleEvent text m event = some t) : Covers text ⟨a, []⟩ (a.deeds text m event) t := by
  by_cases hb : ∃ bytes, event = .stdinChunk bytes
  · obtain ⟨bytes, rfl⟩ := hb
    have hfiltered : Turn.Same ⟨a, []⟩ ⟨{ a with
        inputFilter := (InputFilter.process a.inputFilter [] bytes).1 }, []⟩ := ⟨rfl, rfl, rfl⟩
    exact Covers.of_same hfiltered (Turn.inputsDeeds_covers h)
  · have hdeeds : a.deeds text m event = [⟨m, .event event, ⟨a, []⟩, t⟩] := by
      unfold deeds
      split
      next bytes => exact absurd ⟨bytes, rfl⟩ hb
      next => rw [h]; rfl
    rw [hdeeds]
    exact Covers.single (.event h fun bytes he => hb ⟨bytes, he⟩)

namespace Core

variable {causes : Set Cause} {c c' : Core}

/-- Without keys in the container list a prompt is not armed, and what goes on with it armed spares
it. -/
theorem Move.keeps_armed (hk : .dockerKey ∉ causes) (h : Move causes c c') {pc : PendingConfirm}
    (hc : c'.confirm = some pc) : c.confirm = some pc ∧ c'.target = c.target ∧
      (.refocus ∉ causes → c.focused = .docker → c'.focused = .docker) := by
  cases h with
  | disarmed => cases hc
  | armed pc hcause => exact absurd hcause hk
  | focused next _ =>
    by_cases hd : c.focused = .docker
    · simp [hd] at hc
    · simp only [hd, if_false] at hc
      exact ⟨hc, rfl, fun _ hf => absurd hf hd⟩
  | pulled next hr => exact ⟨hc, rfl, fun hn => absurd hr hn⟩
  | logsEntered hcause => exact absurd hcause hk
  | retargeted target => cases hc
  | resized layout focused hr => exact ⟨hc, rfl, fun hn => absurd hr hn⟩
  | _ => exact ⟨hc, rfl, fun _ hf => hf⟩

/-- A prompt is armed over the container list only. -/
theorem Move.keeps_listed (h : Move causes c c') (hc : c.confirm ≠ none → c.logs = none) :
    c'.confirm ≠ none → c'.logs = none := by
  cases h with
  | disarmed => exact fun hn => absurd rfl hn
  | armed pc _ hlogs => exact fun _ => hlogs
  | focused next _ =>
    intro hn
    by_cases hd : c.focused = .docker
    · simp [hd] at hn
    · simp only [hd, if_false] at hn
      exact hc hn
  | logsEntered _ hnone => exact fun hn => absurd hnone hn
  | logsLeft => exact fun _ => rfl
  | retargeted target => exact fun hn => absurd rfl hn
  | _ => exact hc

end Core

namespace Turn

variable {text : TextOps} {m : Moment} {causes : Set Cause} {t u : Turn}

theorem Moves.keeps_armed (hk : .dockerKey ∉ causes) (h : Moves causes t u) {pc : PendingConfirm}
    (hc : u.app.core.confirm = some pc) : t.app.core.confirm = some pc ∧
      u.app.core.target = t.app.core.target ∧
        (.refocus ∉ causes → t.app.core.focused = .docker → u.app.core.focused = .docker) := by
  induction h with
  | refl => exact ⟨hc, rfl, fun _ hf => hf⟩
  | emit _ _ ih => exact ih hc
  | edit _ hf ih =>
    rw [app_edit, hf] at hc ⊢
    exact ih hc
  | step _ hf ih =>
    obtain ⟨hc', htarget, hfocus⟩ := hf.keeps_armed hk hc
    obtain ⟨hstart, htarget', hfocus'⟩ := ih hc'
    exact ⟨hstart, htarget.trans htarget', fun hr hd => hfocus hr (hfocus' hr hd)⟩
  | opened _ _ _ ih => exact ih hc
  | acted _ hcause _ => exact absurd hcause hk

theorem Moves.keeps_listed (h : Moves causes t u)
    (ht : t.app.core.confirm ≠ none → t.app.core.logs = none) :
    u.app.core.confirm ≠ none → u.app.core.logs = none := by
  induction h with
  | refl => exact ht
  | emit _ _ ih => exact ih
  | edit _ hf ih =>
    rw [app_edit, hf]
    exact ih
  | step _ hf ih => exact hf.keeps_listed ih
  | opened _ _ _ ih => exact ih
  | acted _ _ ih => exact ih

theorem Moves.emits (h : Moves causes t u) : ∃ out, u.actions = t.actions ++ out ∧
    ∀ req, .sendEnvelope (envelope (.dockerAction req)) ∈ out → .dockerKey ∈ causes := by
  induction h with
  | refl => exact ⟨[], by simp, by simp⟩
  | @emit u action _ ha ih =>
    obtain ⟨out, hout, hkeys⟩ := ih
    refine ⟨out ++ [action], by simp [Turn.emit, hout], fun req hreq => ?_⟩
    rcases List.mem_append.mp hreq with hreq | hreq
    · exact hkeys req hreq
    · rw [← List.mem_singleton.mp hreq] at ha
      cases ha
  | edit _ _ ih => exact ih
  | step _ _ ih => exact ih
  | @opened u hostAlias spec _ _ _ ih =>
    obtain ⟨out, hout, hkeys⟩ := ih
    refine ⟨out ++ [.sendEnvelope (envelope (.openPane spec))], ?_, fun req hreq => ?_⟩
    · rw [← List.append_assoc, ← hout]
      rfl
    · rcases List.mem_append.mp hreq with hreq | hreq
      · exact hkeys req hreq
      · cases List.mem_singleton.mp hreq
  | @acted u req _ hcause ih =>
    obtain ⟨out, hout, -⟩ := ih
    refine ⟨out ++ [.sendEnvelope (envelope (.dockerAction req))], ?_, fun _ _ => hcause⟩
    rw [← List.append_assoc, ← hout]
    rfl

theorem issueSelectedDockerAction_docker (kind : DockerActionKind) :
    (t.issueSelectedDockerAction text m kind).app.docker = t.app.docker := by
  unfold issueSelectedDockerAction
  split <;> rfl

theorem tryEnterLogsView_confirm :
    (t.tryEnterLogsView text).app.docker.pendingConfirm = t.app.docker.pendingConfirm := by
  unfold tryEnterLogsView
  split <;> rfl

theorem beginConfirm_arms {k : ScopeKey} {kind : DockerActionKind} {pc : PendingConfirm}
    (hk : k = .char (key 'K') ∧ kind = .kill ∨ k = .char (key 'X') ∧ kind = .remove)
    (hview : t.app.docker.view = .list) (hnone : t.app.docker.pendingConfirm = none)
    (h : (t.beginConfirm text m kind).app.docker.pendingConfirm = some pc) :
    (Deed.mk m (.key .docker k) t u).Arms text pc ∧
      (t.beginConfirm text m kind).app.docker.target = t.app.docker.target := by
  unfold beginConfirm at h ⊢
  split at h
  next c hc =>
    cases Option.some.inj h
    exact ⟨⟨k, c, rfl, hk, hview, hnone, hc, rfl, rfl⟩, rfl⟩
  next => cases hnone.symm.trans h

theorem dockerCommand_confirm {k : ScopeKey} {pc : PendingConfirm}
    (hview : t.app.docker.view = .list) (hnone : t.app.docker.pendingConfirm = none)
    (h : (t.dockerCommand text m k).app.docker.pendingConfirm = some pc) :
    (Deed.mk m (.key .docker k) t u).Arms text pc ∧
      (t.dockerCommand text m k).app.docker.target = t.app.docker.target := by
  have hunarmed : ∀ v : Turn, v.app.docker.pendingConfirm = t.app.docker.pendingConfirm →
      v.app.docker.pendingConfirm ≠ some pc := fun v hv hpc => by
    cases (hnone.symm.trans hv.symm).trans hpc
  unfold dockerCommand at h ⊢
  split at h
  next => exact absurd h (hunarmed _ (by rw [issueSelectedDockerAction_docker]))
  next hr =>
    split at h
    next => exact absurd h (hunarmed _ (by rw [issueSelectedDockerAction_docker]))
    next hs =>
      split at h
      next hK =>
        rw [if_neg hr, if_neg hs, if_pos hK]
        exact beginConfirm_arms (.inl ⟨hK, rfl⟩) hview hnone h
      next hnK =>
        split at h
        next hX =>
          rw [if_neg hr, if_neg hs, if_neg hnK, if_pos hX]
          exact beginConfirm_arms (.inr ⟨hX, rfl⟩) hview hnone h
        next =>
          split at h
          next => exact absurd h (hunarmed _ tryEnterLogsView_confirm)
          next => exact absurd h (hunarmed _ rfl)

theorem handleScopeKey_logs {logs : LogsView} {k : ScopeKey}
    (hview : t.app.docker.view = .logs logs) :
    t.handleScopeKey text m k = t.handleLogsKey logs k := by
  simp only [handleScopeKey, hview]

theorem handleScopeKey_confirming {pending : PendingConfirm} {k : ScopeKey}
    (hview : t.app.docker.view = .list) (hconfirm : t.app.docker.pendingConfirm = some pending) :
    t.handleScopeKey text m k = t.confirmKey m pending k := by
  simp only [handleScopeKey, hview, hconfirm]

/-- Without a prompt a key edits the list, does nothing or is a command. -/
theorem handleScopeKey_list (k : ScopeKey) (hview : t.app.docker.view = .list)
    (hconfirm : t.app.docker.pendingConfirm = none) :
    (∃ d, t.app.docker.listKey text k = some d ∧ t.handleScopeKey text m k = (t.setDocker d).draw) ∨
      t.handleScopeKey text m k = t ∨ t.handleScopeKey text m k = t.dockerCommand text m k := by
  simp only [handleScopeKey, hview, hconfirm]
  split
  next d hd => exact .inl ⟨d, hd, rfl⟩
  next =>
    split
    next => exact .inr (.inl rfl)
    next => exact .inr (.inr rfl)

/-- A key that leaves a prompt armed found it armed or armed it. -/
theorem handleScopeKey_confirm {k : ScopeKey} {pc : PendingConfirm}
    (hlisted : t.app.docker.pendingConfirm ≠ none → t.app.docker.view = .list)
    (h : (t.handleScopeKey text m k).app.docker.pendingConfirm = some pc) :
    (t.app.docker.pendingConfirm = some pc ∧ t.handleScopeKey text m k = t ∧
      (k = .char (key 'K') ∨ k = .char (key 'X'))) ∨
    ((Deed.mk m (.key .docker k) t u).Arms text pc ∧
      (t.handleScopeKey text m k).app.docker.target = t.app.docker.target) := by
  cases hview : t.app.docker.view with
  | logs logs =>
    rw [handleScopeKey_logs hview] at h
    have hm : Moves ∅ t (t.handleLogsKey logs k) := handleLogsKey_moves hview k
    have harmed : t.app.docker.pendingConfirm = some pc := (hm.keeps_armed (by simp) h).1
    cases hview.symm.trans (hlisted (by simp [harmed]))
  | list =>
    cases hconfirm : t.app.docker.pendingConfirm with
    | some pending =>
      rw [handleScopeKey_confirming hview hconfirm] at h ⊢
      unfold confirmKey at h ⊢
      dsimp only at h ⊢
      split at h
      next => cases h
      next hno =>
        split at h
        next hK =>
          rw [if_neg hno, if_pos hK]
          exact .inl ⟨hconfirm.symm.trans h, rfl, hK⟩
        next => cases h
    | none =>
      rcases handleScopeKey_list k hview hconfirm with ⟨d, hd, heq⟩ | heq | heq
      · rw [heq] at h
        obtain ⟨c, -, rfl⟩ := Option.map_eq_some_iff.mp hd
        cases hconfirm.symm.trans h
      · rw [heq] at h
        cases hconfirm.symm.trans h
      · rw [heq] at h ⊢
        exact .inr (dockerCommand_confirm hview hconfirm h)

theorem drop_actions {out : List AppAction} (h : u.actions = t.actions ++ out) :
    u.actions.drop t.actions.length = out := by
  rw [h, List.drop_left]

/-- Nothing but a key in the container list acts on a container. -/
theorem Moves.no_action (hk : .dockerKey ∉ causes) (h : Moves causes t u) (req : DockerActionRequest) :
    .sendEnvelope (envelope (.dockerAction req)) ∉ u.actions.drop t.actions.length := by
  obtain ⟨out, hout, hkeys⟩ := h.emits
  rw [drop_actions hout]
  exact fun hreq => hk (hkeys req hreq)

theorem dispatchDockerAction_actions (containerId displayName : String) (kind : DockerActionKind) :
    (t.dispatchDockerAction m containerId displayName kind).actions = t.actions ++
      [.sendEnvelope (envelope (.dockerAction ⟨t.app.nextSubId, containerId, kind,
        t.app.docker.target⟩)), .drawFrame] := by
  have hassoc : ∀ x y : AppAction, t.actions ++ [x] ++ [y] = t.actions ++ [x, y] := by simp
  exact hassoc _ _

theorem dockerCommand_harmless {k : ScopeKey} {req : DockerActionRequest}
    (h : .sendEnvelope (envelope (.dockerAction req)) ∈
      (t.dockerCommand text m k).actions.drop t.actions.length) : req.kind.destructive = false := by
  have hissued : ∀ kind, kind.destructive = false → .sendEnvelope (envelope (.dockerAction req)) ∈
      (t.issueSelectedDockerAction text m kind).actions.drop t.actions.length →
        req.kind.destructive = false := by
    intro kind hkind hreq
    unfold issueSelectedDockerAction at hreq
    split at hreq
    next =>
      rw [drop_actions (dispatchDockerAction_actions _ _ _)] at hreq
      rcases List.mem_cons.mp hreq with heq | hreq
      · cases heq
        exact hkind
      · cases List.mem_singleton.mp hreq
    next => simp at hreq
  have hdrawn : ∀ kind, .sendEnvelope (envelope (.dockerAction req)) ∉
      (t.beginConfirm text m kind).actions.drop t.actions.length := by
    intro kind hreq
    unfold beginConfirm at hreq
    split at hreq
    next => simp [draw, emit, setDocker, edit] at hreq
    next => simp at hreq
  unfold dockerCommand at h
  repeat' split at h
  · exact hissued _ rfl h
  · exact hissued _ rfl h
  · exact absurd h (hdrawn _)
  · exact absurd h (hdrawn _)
  · unfold tryEnterLogsView at h
    split at h
    next => simp [draw, send, emit, setDocker, allocSubId, edit, envelope] at h
    next => simp at h
  · simp at h

/-- A tick leaves only prompts armed whose deadline is to come. -/
theorem sweepExpired_confirm {pc : PendingConfirm}
    (h : (t.sweepExpired m).app.docker.pendingConfirm = some pc) : m.now < pc.deadline := by
  have hswept : Moves ∅ (t.expireConfirm m) (t.sweepExpired m) := by
    unfold sweepExpired expireToasts
    exact .edit (.foldl (fun _ id => expirePendingAction_moves id) _ _) rfl
  have hkept : (t.expireConfirm m).app.docker.pendingConfirm = some pc :=
    (hswept.keeps_armed (by simp) h).1
  exact of_decide_eq_true (Option.filter_eq_some_iff.mp hkept).2

/-- The only key that kills or removes a container is the answer to a prompt. -/
theorem handleScopeKey_destroys {k : ScopeKey} {req : DockerActionRequest}
    (hreq : req.kind.destructive = true)
    (h : .sendEnvelope (envelope (.dockerAction req)) ∈
      (t.handleScopeKey text m k).actions.drop t.actions.length) :
    (k = .char (key 'y') ∨ k = .char (key 'Y')) ∧ t.app.docker.view = .list ∧
      ∃ pc, t.app.docker.pendingConfirm = some pc ∧ req.kind = pc.kind ∧
        req.containerId = pc.containerId ∧ req.target = t.app.docker.target := by
  cases hview : t.app.docker.view with
  | logs logs =>
    rw [handleScopeKey_logs hview] at h
    have hm : Moves ∅ t (t.handleLogsKey logs k) := handleLogsKey_moves hview k
    exact absurd h (hm.no_action (by simp) req)
  | list =>
    cases hconfirm : t.app.docker.pendingConfirm with
    | some pending =>
      rw [handleScopeKey_confirming hview hconfirm] at h
      unfold confirmKey at h
      dsimp only at h
      split at h
      next hy =>
        have hsent : ((t.setDocker { t.app.docker with pendingConfirm := none }).dispatchDockerAction m
            pending.containerId pending.containerName pending.kind).actions = t.actions ++ _ :=
          dispatchDockerAction_actions _ _ _
        rw [drop_actions hsent] at h
        rcases List.mem_cons.mp h with heq | h
        · cases heq
          exact ⟨hy, rfl, pending, rfl, rfl, rfl, rfl⟩
        · cases List.mem_singleton.mp h
      next =>
        split at h
        next => simp at h
        next => simp [draw, emit, setDocker, edit] at h
    | none =>
      rcases handleScopeKey_list k hview hconfirm with ⟨d, -, heq⟩ | heq | heq
      · rw [heq] at h
        simp [draw, emit, setDocker, edit] at h
      · rw [heq] at h
        simp at h
      · rw [heq] at h
        rw [dockerCommand_harmless h] at hreq
        cases hreq

end Turn

def App.PromptListed (a : App) : Prop := a.docker.pendingConfirm ≠ none → a.docker.view = .list

theorem App.promptListed_core {a : App} :
    (a.core.confirm ≠ none → a.core.logs = none) ↔ a.PromptListed := by
  rw [App.core_logs_none]
  exact Iff.rfl

namespace Deed

variable {text : TextOps} {d : Deed} {pc : PendingConfirm}

theorem Valid.moves (hv : d.Valid text) : ∃ causes, Turn.Moves causes d.before d.after ∧
    (.dockerKey ∈ causes → ∃ k, d.kind = .key .docker k) := by
  cases hv with
  | @key m kind k t hfocus =>
    cases kind with
    | docker =>
      exact ⟨{.dockerKey}, Turn.handleScopeKey_moves (Set.mem_singleton _) (hfocus rfl) k,
        fun _ => ⟨k, rfl⟩⟩
    | ports => exact ⟨∅, Turn.handlePortsKey_moves k, fun hk => absurd hk (by simp)⟩
    | fleet =>
      exact ⟨{.input}, Turn.handleFleetKey_moves (Set.mem_singleton _) k,
        fun hk => absurd hk (by simp)⟩
  | input hm => exact ⟨{.input}, hm, fun hk => absurd hk (by simp)⟩
  | @event m event a t ht hne =>
    refine ⟨event.causes, App.handleEvent_moves ht, fun hk => ?_⟩
    cases event with
    | stdinChunk bytes => exact absurd rfl (hne bytes)
    | _ => simp [AppEvent.causes] at hk

theorem Valid.listed (hv : d.Valid text) (hb : d.before.app.PromptListed) :
    d.after.app.PromptListed := by
  obtain ⟨causes, hm, -⟩ := hv.moves
  exact App.promptListed_core.mp (hm.keeps_listed (App.promptListed_core.mpr hb))

theorem Valid.appends (hv : d.Valid text) : d.after.actions = d.before.actions ++ d.emitted := by
  obtain ⟨causes, hm, -⟩ := hv.moves
  obtain ⟨out, hout, -⟩ := hm.emits
  unfold emitted
  rw [Turn.drop_actions hout]
  exact hout

/-- A deed after which a prompt is armed spared it or armed it. -/
theorem Valid.confirm (hv : d.Valid text) (hlisted : d.before.app.PromptListed)
    (h : d.after.app.docker.pendingConfirm = some pc) :
    (d.Spares pc ∨ d.Arms text pc) ∧ d.after.app.docker.target = d.before.app.docker.target := by
  have hspared : ∀ {causes}, Turn.Moves causes d.before d.after → .dockerKey ∉ causes →
      (∀ k, d.kind ≠ .key .docker k) → (d.movesFocus = true → .refocus ∉ causes) →
        (d.kind = .event .tick → d.moment.now < pc.deadline) →
          (d.Spares pc ∨ d.Arms text pc) ∧
            d.after.app.docker.target = d.before.app.docker.target := by
    intro causes hm hk hkey hfocus htick
    obtain ⟨harmed, htarget, hdocker⟩ := hm.keeps_armed hk h
    exact ⟨.inl ⟨harmed, fun k hk' => absurd hk' (hkey k), htarget,
      fun hmf hd => hdocker (hfocus hmf) hd, htick⟩, htarget⟩
  cases hv with
  | @key m kind k t hfocus =>
    cases kind with
    | docker =>
      rcases Turn.handleScopeKey_confirm hlisted h with ⟨harmed, heq, hk⟩ | ⟨harms, htarget⟩
      · have hsame : t.scopeKey text m .docker k = t := heq
        refine ⟨.inl ⟨harmed, fun k' hk' => ?_, ?_, fun hmf => ?_, fun ht => ?_⟩, ?_⟩
        · cases hk'
          exact hk
        · simp only [hsame]
        · cases hmf
        · cases ht
        · simp only [hsame]
      · exact ⟨.inr harms, htarget⟩
    | ports =>
      have hm : Turn.Moves ∅ t (t.handlePortsKey text k) := Turn.handlePortsKey_moves k
      exact hspared hm (by simp) (by simp) (fun hmf => by cases hmf) (fun ht => by cases ht)
    | fleet =>
      exact hspared (Turn.handleFleetKey_moves (Set.mem_singleton _) k) (by simp) (by simp)
        (fun hmf => by cases hmf) (fun ht => by cases ht)
  | input hm =>
    exact hspared hm (by simp) (by simp) (fun _ => by simp) (fun ht => by cases ht)
  | @event m event a t ht hne =>
    refine hspared (App.handleEvent_moves ht) ?_ (by simp) ?_ ?_
    · cases event with
      | stdinChunk bytes => exact absurd rfl (hne bytes)
      | _ => simp [AppEvent.causes]
    · intro hmf
      cases event with
      | mouseClick x y => simp [AppEvent.causes]
      | _ => cases hmf
    · intro htick
      cases htick
      cases Option.some.inj ht
      exact Turn.sweepExpired_confirm h

end Deed

/-- An armed prompt goes back to the deed that armed it, and was spared since. -/
structure Recalled (text : TextOps) (past : List Deed) (a : App) : Prop where
  listed : a.PromptListed
  armed : ∀ pc, a.docker.pendingConfirm = some pc → ∃ earlier d since,
    past = earlier ++ d :: since ∧ d.Arms text pc ∧
      d.before.app.docker.target = a.docker.target ∧ ∀ e ∈ since, e.Spares pc

namespace Recalled

variable {text : TextOps} {past : List Deed} {t u : Turn} {ds : List Deed}

theorem same (hs : Turn.Same t u) (h : Recalled text past t.app) : Recalled text past u.app := by
  have hlisted : t.app.PromptListed := h.listed
  unfold App.PromptListed at hlisted
  rw [← hs.docker] at hlisted
  refine ⟨hlisted, ?_⟩
  rw [hs.docker]
  exact h.armed

theorem deed {d : Deed} (hv : d.Valid text) (h : Recalled text past d.before.app) :
    Recalled text (past ++ [d]) d.after.app := by
  refine ⟨hv.listed h.listed, fun pc hpc => ?_⟩
  obtain ⟨hspares | harms, htarget⟩ := hv.confirm h.listed hpc
  · obtain ⟨earlier, e, since, hpast, harms, htarget', hsince⟩ := h.armed pc hspares.armed
    refine ⟨earlier, e, since ++ [d], by simp [hpast], harms, htarget'.trans htarget.symm, ?_⟩
    intro e' he'
    rcases List.mem_append.mp he' with he' | he'
    · exact hsince e' he'
    · rw [List.mem_singleton.mp he']
      exact hspares
  · exact ⟨past, d, [], rfl, harms, htarget.symm, by simp⟩

/-- Through all deeds of an event. -/
theorem covers (hc : Covers text t ds u) (h : Recalled text past t.app) :
    (∀ pre d post, ds = pre ++ d :: post → Recalled text (past ++ pre) d.before.app ∧ d.Valid text) ∧
      Recalled text (past ++ ds) u.app := by
  induction hc generalizing past with
  | nil hs => exact ⟨fun pre d post hds => by simp at hds, by simpa using h.same hs⟩
  | @cons t u d ds hs hv _ ih =>
    have hd : Recalled text past d.before.app := h.same hs
    obtain ⟨hinside, hend⟩ := ih (hd.deed hv)
    refine ⟨fun pre e post hds => ?_, by simpa using hend⟩
    cases pre with
    | nil =>
      cases hds
      exact ⟨by simpa using hd, hv⟩
    | cons first pre =>
      obtain ⟨rfl, hds'⟩ := List.cons_eq_cons.mp hds
      simpa using hinside pre e post hds'

end Recalled

/-- Everything that is emitted is emitted by a deed. -/
theorem Covers.emits {text : TextOps} {t u : Turn} {ds : List Deed} (h : Covers text t ds u)
    {action : AppAction} (hu : action ∈ u.actions) :
    action ∈ t.actions ∨ ∃ pre d post, ds = pre ++ d :: post ∧ action ∈ d.emitted := by
  induction h with
  | nil hs => exact .inl (hs.actions ▸ hu)
  | @cons t u d ds hs hv _ ih =>
    rcases ih hu with hd | ⟨pre, e, post, hds, he⟩
    · rw [hv.appends, hs.actions] at hd
      rcases List.mem_append.mp hd with ht | hd
      · exact .inl ht
      · exact .inr ⟨[], d, ds, rfl, hd⟩
    · exact .inr ⟨d :: pre, e, post, by simp [hds], he⟩

theorem recalled_of_run {text : TextOps} {tr : List Deed} {a : App}
    (h : Run (recorded text) Free tr a) : Recalled text tr a := by
  refine h.invariant (I := fun tr a => Recalled text tr a) ?_ ?_
  · rintro a ⟨pane, shell, rows, cols, ha⟩
    obtain ⟨layout, -, ha⟩ := Option.bind_eq_some_iff.mp ha
    cases Option.some.inj ha
    exact ⟨fun hn => absurd rfl hn, fun pc hpc => by cases hpc⟩
  · intro tr a l a' out _ ha _ hstep
    obtain ⟨t, ht, heq⟩ := Option.map_eq_some_iff.mp hstep
    cases heq
    exact (Recalled.covers (t := ⟨a, []⟩) (App.deeds_cover ht) ha).2

/-- A container is killed or removed only by a `y` that answers the prompt armed last, for the container
that was selected then. -/
theorem destructive_action_confirmed {text : TextOps} {tr : List Deed} {a : App}
    (h : Run (recorded text) Free tr a) {m : Moment} {event : AppEvent} {t : Turn}
    (ht : a.handleEvent text m event = some t) {req : DockerActionRequest}
    (hk : req.kind.destructive = true)
    (hs : .sendEnvelope (envelope (.dockerAction req)) ∈ t.actions) :
    ∃ pre d post, a.deeds text m event = pre ++ d :: post ∧
      .sendEnvelope (envelope (.dockerAction req)) ∈ d.emitted ∧ d.Confirms text (tr ++ pre) req := by
  have hcovers : Covers text ⟨a, []⟩ (a.deeds text m event) t := App.deeds_cover ht
  rcases hcovers.emits hs with hnone | ⟨pre, d, post, hds, hd⟩
  · cases hnone
  · obtain ⟨hrecalled, hv⟩ := (Recalled.covers hcovers (recalled_of_run h)).1 pre d post hds
    refine ⟨pre, d, post, hds, hd, ?_⟩
    obtain ⟨causes, hm, hkeys⟩ := hv.moves
    by_cases hkey : .dockerKey ∈ causes
    · obtain ⟨k, hkind⟩ := hkeys hkey
      cases hv with
      | @key m' kind k' t' hfocus =>
        cases hkind
        obtain ⟨hy, hview, pc, hpc, hreqkind, hcontainer, htarget⟩ :=
          Turn.handleScopeKey_destroys hk hd
        obtain ⟨earlier, armed, since, hpast, harms, htarget', hsince⟩ := hrecalled.armed pc hpc
        exact ⟨k, pc, earlier, armed, since, rfl, hy, hview, hreqkind, hcontainer, hpast, harms,
          htarget'.trans htarget.symm, hsince⟩
      | input hm => cases hkind
      | event ht hne => cases hkind
    · exact absurd hd (hm.no_action hkey req)

/-- The container that was selected when `K` was pressed is killed. -/
theorem destructive_action_confirmed_kill : ∃ tr a t,
    Run (recorded .ascii) Free tr a ∧ a.handleEvent .ascii (.at 1) (.stdinChunk [key 'y']) = some t ∧
      ∃ pre d post, a.deeds .ascii (.at 1) (.stdinChunk [key 'y']) = pre ++ d :: post ∧
        d.Confirms .ascii (tr ++ pre) ⟨6, "c0ffee", .kill, .localTarget⟩ := by
  obtain ⟨tr, a, hr, hsent⟩ := Run.of_replay (recorded .ascii) Free
    (fun _ a => (a.handleEvent .ascii (.at 1) (.stdinChunk [key 'y'])).any fun t =>
      t.actions.contains
        (.sendEnvelope (envelope (.dockerAction ⟨6, "c0ffee", .kill, .localTarget⟩))))
    (s := sampleApp) ⟨_, _, _, _, sampleApp_new⟩ armKill (by decide +kernel)
  obtain ⟨t, ht, hs⟩ := (Option.any_eq_true _ _).mp hsent
  obtain ⟨pre, d, post, hds, -, hd⟩ :=
    destructive_action_confirmed hr ht rfl (List.contains_iff_mem.mp hs)
  exact ⟨tr, a, t, hr, ht, pre, d, post, hds, hd⟩

end Tepegoz
