import Mathlib.Data.List.InsertIdx
import Mathlib.Data.Set.Insert
import Tepegoz.Lib.Transition
import Tepegoz.Tui.HandleEvent

namespace Tepegoz

open Transition

/-- What the app owns of ids, requests and prompts, without what it shows of them. -/
@[ext]
structure Core where
  layout : TileLayout
  focused : TileId
  panes : List (PaneId × Nat)
  pendingOpens : List PendingOpen
  dockerSub : Nat
  target : ScopeTarget
  confirm : Option PendingConfirm
  logs : Option Nat
  portsSub : Nat
  processesSub : Nat
  fleetSub : Nat
  nextSubId : Nat
  actions : List Nat

def PaneEntry.ids (p : PaneEntry) : PaneId × Nat := (p.paneId, p.subId)

def DockerView.logsSub : DockerView → Option Nat
  | .logs view => some view.subId
  | .list => none

def App.core (a : App) : Core where
  layout := a.view.layout
  focused := a.view.focused
  panes := a.paneStack.map (·.ids)
  pendingOpens := a.pendingOpens
  dockerSub := a.docker.subId
  target := a.docker.target
  confirm := a.docker.pendingConfirm
  logs := a.docker.view.logsSub
  portsSub := a.ports.portsSubId
  processesSub := a.ports.processesSubId
  fleetSub := a.fleet.subId
  nextSubId := a.nextSubId
  actions := a.pendingActions.keys

/-- Why a handler runs: a key for the container list, other input of the user, an answer of the daemon,
or a change of what is on screen that takes the focus along. -/
inductive Cause
  | dockerKey
  | input
  | answer
  | refocus
  deriving DecidableEq

/-- What a handler can do to the core, other than opening a pane or acting on a container. -/
inductive Core.Move (causes : Set Cause) (c : Core) : Core → Prop
  | disarmed : Move causes c { c with confirm := none }
  | armed (pc : PendingConfirm) : .dockerKey ∈ causes → c.logs = none →
      c.layout.routesToScope c.focused = some .docker → Move causes c { c with confirm := some pc }
  | focused (next : TileId) : .input ∈ causes → Move causes c { c with
      focused := next, confirm := if c.focused = .docker then none else c.confirm }
  | pulled (next : TileId) : .refocus ∈ causes → Move causes c { c with focused := next }
  | registered : Move causes c { c with
      actions := c.nextSubId :: c.actions.erase c.nextSubId, nextSubId := c.nextSubId + 1 }
  | settled (id : Nat) : Move causes c { c with actions := c.actions.erase id }
  | logsEntered : .dockerKey ∈ causes → c.confirm = none → Move causes c { c with
      logs := some c.nextSubId, nextSubId := c.nextSubId + 1 }
  | logsLeft : Move causes c { c with logs := none }
  | retargeted (target : ScopeTarget) : Move causes c { c with confirm := none, target := target }
  | paneDropped (idx : Nat) : Move causes c { c with panes := c.panes.eraseIdx idx }
  | paneAnswered (paneId : PaneId) {pending : PendingOpen} {others : List PendingOpen} :
      .answer ∈ causes → c.pendingOpens = pending :: others → Move causes c { c with
        pendingOpens := others, panes := c.panes ++ [(paneId, pending.subId)] }
  | openFailed {pending : PendingOpen} {others : List PendingOpen} : .answer ∈ causes →
      c.pendingOpens = pending :: others → Move causes c { c with pendingOpens := others }
  | resized (layout : TileLayout) (focused : TileId) : .refocus ∈ causes →
      Move causes c { c with layout := layout, focused := focused }

/-- Requests that are answered, or that cannot be taken back. -/
def Payload.asks : Payload → Bool
  | .openPane _ | .dockerAction _ => true
  | _ => false

def AppAction.asks : AppAction → Bool
  | .sendEnvelope env => env.payload.asks
  | _ => false

def PendingOpen.target (pending : PendingOpen) : PaneTarget :=
  match pending.hostAlias with
  | some hostAlias => .remote hostAlias
  | none => .localTarget

/-- A pane was requested. -/
def Core.opened (c : Core) (hostAlias : Option String) : Core := { c with
  pendingOpens := c.pendingOpens ++ [⟨c.nextSubId, hostAlias⟩], nextSubId := c.nextSubId + 1 }

/-- A handler's work, one edit or one emitted action at a time. -/
inductive Turn.Moves (causes : Set Cause) (t : Turn) : Turn → Prop
  | refl : Moves causes t t
  | emit {u : Turn} {action : AppAction} : Moves causes t u → action.asks = false →
      Moves causes t (u.emit action)
  | edit {u : Turn} {f : App → App} : Moves causes t u → (f u.app).core = u.app.core →
      Moves causes t (u.edit f)
  | step {u : Turn} {f : App → App} : Moves causes t u → Core.Move causes u.app.core (f u.app).core →
      Moves causes t (u.edit f)
  | opened {u : Turn} {hostAlias : Option String} {spec : OpenPaneSpec} : Moves causes t u →
      .input ∈ causes → spec.target = PendingOpen.target ⟨u.app.nextSubId, hostAlias⟩ →
      Moves causes t ((u.pushPendingOpen hostAlias).send (.openPane spec))
  | acted {u : Turn} {req : DockerActionRequest} : Moves causes t u → .dockerKey ∈ causes →
      Moves causes t (u.send (.dockerAction req))

@[simp] theorem Turn.core_opened (t : Turn) (hostAlias : Option String) :
    (t.pushPendingOpen hostAlias).app.core = t.app.core.opened hostAlias := rfl

namespace LogsView

variable (text : TextOps) (v : LogsView)

theorem setPending_subId (stream : LogStream) (bytes : List UInt8) :
    (v.setPending stream bytes).subId = v.subId := by
  cases stream <;> rfl

theorem ingest_subId (stream : LogStream) (data : List UInt8) :
    (v.ingest text stream data).subId = v.subId := by
  have hlines : ∀ (lines : List (List UInt8)) (v : LogsView),
      (lines.foldl (fun v line => v.pushLine ⟨stream, text.fromUtf8Lossy line⟩) v).subId =
        v.subId := by
    intro lines
    induction lines with
    | nil => exact fun _ => rfl
    | cons line lines ih => exact fun v => ih _
  exact (hlines _ _).trans (v.setPending_subId stream _)

theorem flushPending_subId (stream : LogStream) :
    (v.flushPending text stream).subId = v.subId := by
  have hflushed : (v.setPending stream []).subId = v.subId := v.setPending_subId stream []
  unfold flushPending
  dsimp only
  split
  next => exact hflushed
  next => exact hflushed

theorem endStream_subId (reason : String) : (v.endStream text reason).subId = v.subId :=
  (flushPending_subId text _ .stderr).trans (flushPending_subId text v .stdout)

end LogsView

theorem Core.Move.mono {causes causes' : Set Cause} (hsub : causes ⊆ causes') {c c' : Core}
    (h : Move causes c c') : Move causes' c c' := by
  cases h with
  | disarmed => exact .disarmed
  | armed pc hc hl hf => exact .armed pc (hsub hc) hl hf
  | focused next hc => exact .focused next (hsub hc)
  | pulled next hc => exact .pulled next (hsub hc)
  | registered => exact .registered
  | settled id => exact .settled id
  | logsEntered hc hn => exact .logsEntered (hsub hc) hn
  | logsLeft => exact .logsLeft
  | retargeted target => exact .retargeted target
  | paneDropped idx => exact .paneDropped idx
  | paneAnswered paneId hc hp => exact .paneAnswered paneId (hsub hc) hp
  | openFailed hc hp => exact .openFailed (hsub hc) hp
  | resized layout focused hc => exact .resized layout focused (hsub hc)

/-- Keys that reach the container list do not move the focus. -/
theorem Core.Move.keeps_focus {c c' : Core} (h : Move {.dockerKey} c c') :
    c'.layout = c.layout ∧ c'.focused = c.focused := by
  cases h with
  | focused next hc => cases hc
  | pulled next hc => cases hc
  | resized layout focused hc => cases hc
  | _ => exact ⟨rfl, rfl⟩

namespace Turn

variable {text : TextOps} {m : Moment} {causes : Set Cause} {t u v : Turn}

theorem Moves.mono {causes' : Set Cause} (hsub : causes ⊆ causes') (h : Moves causes t u) :
    Moves causes' t u := by
  induction h with
  | refl => exact .refl
  | emit _ ha ih => exact ih.emit ha
  | edit _ hf ih => exact ih.edit hf
  | step _ hf ih => exact ih.step (hf.mono hsub)
  | opened _ hc hs ih => exact ih.opened (hsub hc) hs
  | acted _ hc ih => exact ih.acted (hsub hc)

theorem Moves.keeps_focus (h : Moves {.dockerKey} t u) :
    u.app.core.layout = t.app.core.layout ∧ u.app.core.focused = t.app.core.focused := by
  induction h with
  | refl => exact ⟨rfl, rfl⟩
  | emit _ _ ih => exact ih
  | edit _ hf ih =>
    rw [app_edit, hf]
    exact ih
  | step _ hf ih =>
    obtain ⟨hl, hfocus⟩ := hf.keeps_focus
    exact ⟨hl.trans ih.1, hfocus.trans ih.2⟩
  | opened _ hc _ _ => cases hc
  | acted _ _ ih => exact ih

theorem Moves.trans (h : Moves causes t u) (h' : Moves causes u v) : Moves causes t v := by
  induction h' with
  | refl => exact h
  | emit _ ha ih => exact ih.emit ha
  | edit _ hf ih => exact ih.edit hf
  | step _ hf ih => exact ih.step hf
  | opened _ hc hs ih => exact ih.opened hc hs
  | acted _ hc ih => exact ih.acted hc

theorem Moves.draw (h : Moves causes t u) : Moves causes t u.draw := h.emit rfl

theorem Moves.foldl {β : Type} {f : Turn → β → Turn} (h : ∀ t x, Moves causes t (f t x))
    (t : Turn) (xs : List β) : Moves causes t (xs.foldl f t) := by
  induction xs generalizing t with
  | nil => exact .refl
  | cons x xs ih => exact (h t x).trans (ih _)

section Tiles

theorem pushToast_moves (kind : ToastKind) (message : String) :
    Moves causes t (t.pushToast m kind message) :=
  .emit (.emit (.edit .refl rfl) rfl) rfl

theorem eraseAction_moves (id : Nat) : Moves causes t
    (t.edit fun a => { a with pendingActions := a.pendingActions.erase id }) := by
  refine .step .refl ?_
  have hkeys : (t.app.pendingActions.erase id).keys = t.app.core.actions.erase id :=
    AList.keys_erase id t.app.pendingActions
  have hcore : ({ t.app with pendingActions := t.app.pendingActions.erase id } : App).core =
      { t.app.core with actions := t.app.core.actions.erase id } := by
    rw [← hkeys]
    rfl
  rw [hcore]
  exact .settled id

theorem registerAction_moves (description : String) :
    Moves causes t (t.registerAction m description) := by
  refine .step (f := fun a => { a with
    pendingActions := a.pendingActions.insert a.nextSubId
      ⟨m.now + pendingActionTimeout, description⟩, nextSubId := a.nextSubId + 1 }) .refl ?_
  have hkeys : (t.app.pendingActions.insert t.app.nextSubId
      ⟨m.now + pendingActionTimeout, description⟩).keys =
        t.app.core.nextSubId :: t.app.core.actions.erase t.app.core.nextSubId :=
    AList.keys_insert _
  have hmove : Core.Move causes t.app.core _ := .registered
  rw [← hkeys] at hmove
  exact hmove

theorem expirePendingAction_moves (id : Nat) : Moves causes t (t.expirePendingAction m id) := by
  unfold expirePendingAction
  split
  next => exact (eraseAction_moves id).trans (pushToast_moves _ _)
  next => exact .refl

theorem expireConfirm_moves : Moves causes t (t.expireConfirm m) := by
  unfold expireConfirm setDocker
  cases hkept : t.app.docker.pendingConfirm.filter fun pc => m.now < pc.deadline with
  | none => exact .step .refl .disarmed
  | some pc =>
    have hpc : t.app.docker.pendingConfirm = some pc := (Option.filter_eq_some_iff.mp hkept).1
    refine .edit .refl ?_
    rw [← hpc]

theorem sweepExpired_moves : Moves causes t (t.sweepExpired m) := by
  unfold sweepExpired expireToasts
  exact .edit (expireConfirm_moves.trans (.foldl (fun _ id => expirePendingAction_moves id) _ _)) rfl

theorem moveFocusTo_moves (hc : .input ∈ causes) (next : TileId) :
    Moves causes t (t.moveFocusTo next) := by
  unfold moveFocusTo
  split
  next => exact .refl
  next =>
    refine .draw (.emit (.step (f := fun a => { a with
      docker := { a.docker with
        pendingConfirm := if a.view.focused = .docker then none else a.docker.pendingConfirm }
      view := { a.view with focused := next } }) .refl ?_) rfl)
    exact .focused next hc

theorem handleFocusDirection_moves (hc : .input ∈ causes) (dir : FocusDir) :
    Moves causes t (t.handleFocusDirection dir) := by
  unfold handleFocusDirection
  split
  next next _ => exact moveFocusTo_moves hc next
  next => exact .refl

theorem handleFocusCycle_moves (hc : .input ∈ causes) (forward : Bool) :
    Moves causes t (t.handleFocusCycle forward) := by
  unfold handleFocusCycle
  split
  next next _ => exact moveFocusTo_moves hc next
  next => exact .refl

theorem handleHelpToggle_moves : Moves causes t t.handleHelpToggle := .draw (.edit .refl rfl)

theorem openHostPicker_moves : Moves causes t t.openHostPicker := by
  unfold openHostPicker
  split
  next => exact .draw (.edit .refl rfl)
  next => exact .refl

theorem dismissHostPicker_moves : Moves causes t t.dismissHostPicker := by
  unfold dismissHostPicker
  split
  next => exact .draw (.edit .refl rfl)
  next => exact .refl

theorem movePicker_moves (picker : HostPickerModal) (selected : Nat) :
    Moves causes t (t.movePicker picker selected) := by
  unfold movePicker
  split
  next => exact .refl
  next => exact .draw (.edit .refl rfl)

theorem handleMouseHover_moves (x y : Nat) : Moves causes t (t.handleMouseHover x y) := by
  unfold handleMouseHover
  dsimp only
  split
  next => exact .refl
  next => exact .draw (.edit .refl rfl)

theorem inputToHelp_moves (input : InputAction) : Moves causes t (t.inputToHelp input) := by
  unfold inputToHelp
  split
  next => exact handleHelpToggle_moves
  next => exact .draw (.edit .refl rfl)

theorem leaveLogs_moves : Moves causes t t.leaveLogs := by
  unfold leaveLogs
  split
  next => exact .step (.emit .refl rfl) .logsLeft
  next => exact .refl

theorem retargetDocker_moves (newTarget : ScopeTarget) :
    Moves causes t (t.retargetDocker newTarget) := by
  unfold retargetDocker
  split
  next => exact .draw .refl
  next =>
    have hleft : Moves causes t t.leaveLogs := leaveLogs_moves
    exact .draw (.emit (.step (.emit hleft rfl) (.retargeted newTarget)) rfl)

theorem retargetPorts_moves (newTarget : ScopeTarget) :
    Moves causes t (t.retargetPorts newTarget) := by
  unfold retargetPorts
  split
  next => exact .draw .refl
  next => exact .draw (.emit (.edit (.emit .refl rfl) rfl) rfl)

theorem retargetProcesses_moves (newTarget : ScopeTarget) :
    Moves causes t (t.retargetProcesses newTarget) := by
  unfold retargetProcesses
  split
  next => exact .draw .refl
  next => exact .draw (.emit (.edit (.emit .refl rfl) rfl) rfl)

theorem commitHostPicker_moves (picker : HostPickerModal) :
    Moves causes t (t.commitHostPicker picker) := by
  have hclosed : Moves causes t (t.edit ({ · with hostPicker := none })) := .edit .refl rfl
  have hretarget : ∀ newTarget v, Moves causes t
      ((t.edit ({ · with hostPicker := none })).retarget newTarget v) := by
    intro newTarget v
    cases v with
    | docker => exact hclosed.trans (retargetDocker_moves newTarget)
    | ports => exact hclosed.trans (retargetPorts_moves newTarget)
    | processes => exact hclosed.trans (retargetProcesses_moves newTarget)
  unfold commitHostPicker
  dsimp only
  split
  next => exact hclosed.draw
  next => exact hretarget _ _
  next => exact hretarget _ _
  next => exact .refl

theorem handleHostPickerKey_moves (k : ScopeKey) : Moves causes t (t.handleHostPickerKey k) := by
  unfold handleHostPickerKey
  split
  next => exact .refl
  next picker _ =>
    dsimp only
    split
    next => exact movePicker_moves _ _
    next => split; exacts [movePicker_moves _ _, .refl]
    next => exact movePicker_moves _ _
    next => exact movePicker_moves _ _
    next => split; exacts [movePicker_moves _ _, .refl]
    next => split; exacts [movePicker_moves _ _, .refl]
    next => exact commitHostPicker_moves picker
    next => exact dismissHostPicker_moves
    next => exact .refl

theorem hostPickerKeys_moves (ks : List ScopeKey) : Moves causes t (t.hostPickerKeys ks) := by
  induction ks generalizing t with
  | nil => exact .refl
  | cons k ks ih =>
    unfold hostPickerKeys
    dsimp only
    split
    next => exact handleHostPickerKey_moves k
    next => exact (handleHostPickerKey_moves k).trans ih

theorem parseKeys_moves (bytes : List UInt8) : Moves causes t (t.parseKeys bytes).1 := by
  have hcore : ∀ state, ({ t.app with scopeKeyParser := state } : App).core = t.app.core :=
    fun _ => rfl
  exact .edit (f := ({ · with scopeKeyParser := _ })) .refl (hcore _)

theorem inputToPicker_moves (input : InputAction) : Moves causes t (t.inputToPicker input) := by
  unfold inputToPicker
  split
  next => exact dismissHostPicker_moves.trans handleHelpToggle_moves
  next bytes => exact (parseKeys_moves bytes).trans (hostPickerKeys_moves _)
  next => exact dismissHostPicker_moves

end Tiles

section Lists

theorem dispatchDockerAction_moves (hc : .dockerKey ∈ causes) (containerId displayName : String)
    (kind : DockerActionKind) :
    Moves causes t (t.dispatchDockerAction m containerId displayName kind) :=
  .draw (.acted (registerAction_moves _) hc)

theorem issueSelectedDockerAction_moves (hc : .dockerKey ∈ causes) (kind : DockerActionKind) :
    Moves causes t (t.issueSelectedDockerAction text m kind) := by
  unfold issueSelectedDockerAction
  split
  next => exact dispatchDockerAction_moves hc _ _ _
  next => exact .refl

theorem beginConfirm_moves (hc : .dockerKey ∈ causes) (hlogs : t.app.core.logs = none)
    (hfocus : t.app.view.layout.routesToScope t.app.view.focused = some .docker)
    (kind : DockerActionKind) : Moves causes t (t.beginConfirm text m kind) := by
  unfold beginConfirm
  split
  next => exact .draw (.step .refl (.armed _ hc hlogs hfocus))
  next => exact .refl

theorem tryEnterLogsView_moves (hc : .dockerKey ∈ causes)
    (hconfirm : t.app.docker.pendingConfirm = none) : Moves causes t (t.tryEnterLogsView text) := by
  unfold tryEnterLogsView
  split
  next c _ =>
    refine .draw (.emit (.step (f := fun a => { a with
      nextSubId := a.nextSubId + 1
      docker := { a.docker with
        view := .logs (.new c.id (displayNameFor c) a.nextSubId) } }) .refl ?_) rfl)
    exact .logsEntered hc hconfirm
  next => exact .refl

/-- Scrolling, output and the end of the stream keep the subscription. -/
theorem setLogs_moves {logs logs' : LogsView} (hview : t.app.docker.view = .logs logs)
    (hid : logs'.subId = logs.subId) : Moves causes t (t.setLogs logs') := by
  refine .draw (.edit .refl ?_)
  show ({ t.app.core with logs := some logs'.subId } : Core) = t.app.core
  have hlogs : t.app.core.logs = some logs.subId := by
    show t.app.docker.view.logsSub = _
    rw [hview]
    rfl
  rw [hid, ← hlogs]

theorem handleLogsKey_moves {logs : LogsView} (hview : t.app.docker.view = .logs logs)
    (k : ScopeKey) : Moves causes t (t.handleLogsKey logs k) := by
  unfold handleLogsKey
  repeat' split
  · exact leaveLogs_moves.draw
  · exact setLogs_moves hview rfl
  · exact setLogs_moves hview rfl
  · exact setLogs_moves hview rfl
  · exact setLogs_moves hview rfl
  · exact setLogs_moves hview rfl
  · exact setLogs_moves hview rfl
  · exact leaveLogs_moves.draw
  · exact .refl
  · exact .refl

theorem confirmKey_moves (hc : .dockerKey ∈ causes) (pending : PendingConfirm) (k : ScopeKey) :
    Moves causes t (t.confirmKey m pending k) := by
  have hcleared : Moves causes t (t.setDocker { t.app.docker with pendingConfirm := none }) :=
    .step .refl .disarmed
  unfold confirmKey
  dsimp only
  split
  next => exact hcleared.trans (dispatchDockerAction_moves hc _ _ _)
  next =>
    split
    next => exact .refl
    next => exact hcleared.draw

theorem dockerCommand_moves (hc : .dockerKey ∈ causes) (hview : t.app.docker.view = .list)
    (hconfirm : t.app.docker.pendingConfirm = none)
    (hfocus : t.app.view.layout.routesToScope t.app.view.focused = some .docker) (k : ScopeKey) :
    Moves causes t (t.dockerCommand text m k) := by
  have hlogs : t.app.core.logs = none := by
    show t.app.docker.view.logsSub = none
    rw [hview]
    rfl
  unfold dockerCommand
  repeat' split
  · exact issueSelectedDockerAction_moves hc _
  · exact issueSelectedDockerAction_moves hc _
  · exact beginConfirm_moves hc hlogs hfocus _
  · exact beginConfirm_moves hc hlogs hfocus _
  · exact tryEnterLogsView_moves hc hconfirm
  · exact .refl

theorem handleScopeKey_moves (hc : .dockerKey ∈ causes)
    (hfocus : t.app.view.layout.routesToScope t.app.view.focused = some .docker) (k : ScopeKey) :
    Moves causes t (t.handleScopeKey text m k) := by
  unfold handleScopeKey
  split
  next hview => exact handleLogsKey_moves hview k
  next => exact confirmKey_moves hc _ k
  next hview hconfirm =>
    split
    next d hd =>
      obtain ⟨c, -, rfl⟩ := Option.map_eq_some_iff.mp hd
      exact .draw (.edit .refl rfl)
    next =>
      split
      next => exact .refl
      next => exact dockerCommand_moves hc hview hconfirm hfocus k

theorem togglePortsView_moves : Moves causes t t.togglePortsView := .draw (.edit .refl rfl)

theorem handlePortsListKey_moves (k : ScopeKey) : Moves causes t (t.handlePortsListKey text k) := by
  unfold handlePortsListKey
  split
  next => exact .draw (.edit .refl rfl)
  next => exact .refl

theorem handleProcessesListKey_moves (k : ScopeKey) :
    Moves causes t (t.handleProcessesListKey text k) := by
  unfold handleProcessesListKey
  split
  next => exact .draw (.edit .refl rfl)
  next => exact .refl

theorem handlePortsKey_moves (k : ScopeKey) : Moves causes t (t.handlePortsKey text k) := by
  unfold handlePortsKey
  repeat' split
  · exact togglePortsView_moves
  · exact handlePortsListKey_moves k
  · exact togglePortsView_moves
  · exact handleProcessesListKey_moves k

theorem dispatchOpenRemotePane_moves (hc : .input ∈ causes) :
    Moves causes t (t.dispatchOpenRemotePane text m) := by
  unfold dispatchOpenRemotePane
  split
  next => exact Moves.trans (.opened .refl hc rfl) (pushToast_moves _ _)
  next => exact .refl

theorem dispatchFleetReconnect_moves : Moves causes t (t.dispatchFleetReconnect text m) := by
  unfold dispatchFleetReconnect
  split
  next => exact .draw (.emit (registerAction_moves _) rfl)
  next => exact .refl

theorem handleFleetKey_moves (hc : .input ∈ causes) (k : ScopeKey) :
    Moves causes t (t.handleFleetKey text m k) := by
  unfold handleFleetKey
  repeat' split
  · next f hf =>
    obtain ⟨c, -, rfl⟩ := Option.map_eq_some_iff.mp hf
    exact .draw (.edit .refl rfl)
  · exact .refl
  · exact dispatchFleetReconnect_moves
  · exact dispatchOpenRemotePane_moves hc
  · exact .refl

theorem scopeKeys_moves {kind : ScopeKind} (hi : .input ∈ causes) (hk : .dockerKey ∈ causes)
    (hfocus : t.app.view.layout.routesToScope t.app.view.focused = some kind)
    (ks : List ScopeKey) :
    Moves causes t (ks.foldl (fun t k => t.scopeKey text m kind k) t) := by
  cases kind with
  | docker =>
    induction ks generalizing t with
    | nil => exact .refl
    | cons k ks ih =>
      have hkey : Moves {.dockerKey} t (t.handleScopeKey text m k) :=
        handleScopeKey_moves (Set.mem_singleton _) hfocus k
      obtain ⟨hl, hf⟩ : (t.handleScopeKey text m k).app.view.layout = t.app.view.layout ∧
        (t.handleScopeKey text m k).app.view.focused = t.app.view.focused := hkey.keeps_focus
      exact (hkey.mono (Set.singleton_subset_iff.mpr hk)).trans (ih (by rw [hl, hf]; exact hfocus))
  | ports => exact .foldl (fun _ k => handlePortsKey_moves k) t ks
  | fleet => exact .foldl (fun _ k => handleFleetKey_moves hi k) t ks

end Lists

section Mouse

theorem dropPane_moves (idx : Nat) : Moves causes t (t.dropPane idx) := by
  refine .step .refl ?_
  have hmove : Core.Move causes t.app.core _ := .paneDropped idx
  rw [show t.app.core.panes = t.app.paneStack.map (·.ids) from rfl, List.eraseIdx_map] at hmove
  exact hmove

theorem closeActivePane_moves (hc : .input ∈ causes) (h : t.closeActivePane m = some u) :
    Moves causes t u := by
  rcases closeActivePane_cases h with rfl | ⟨removed, -, hclose⟩
  · exact .refl
  have hdropped : Moves causes t (t.dropActive removed) :=
    .emit (.emit (dropPane_moves t.app.activePane) rfl) rfl
  rcases hclose with ⟨-, rfl⟩ | ⟨-, rfl⟩
  · exact .edit (.opened hdropped hc rfl) rfl
  · exact .draw (.edit hdropped rfl)

theorem dispatchPtyClick_moves (hc : .input ∈ causes) {rect : Rect} {x y : Nat}
    (h : t.dispatchPtyClick m rect x y = some u) : Moves causes t u := by
  rcases dispatchPtyClick_cases h with rfl | ⟨idx, -, rfl⟩ | h
  · exact .refl
  · exact .draw (.edit .refl rfl)
  · exact closeActivePane_moves hc h

theorem clickRow_moves (hc : .input ∈ causes) (tileId : TileId) (kind : ScopeKind) (rowIdx : Nat) :
    Moves causes t (t.clickRow text m tileId kind rowIdx) := by
  have hselected : Moves causes t (t.edit fun a => a.scopeSetSelection kind rowIdx) := by
    refine .edit .refl ?_
    unfold App.scopeSetSelection
    split
    next => rfl
    next => split <;> rfl
    next => rfl
  have hclicked : ∀ u : Turn, Moves causes t u →
      Moves causes t (u.edit ({ · with lastClick := some (tileId, rowIdx, m.now) })) :=
    fun u hu => .edit hu rfl
  unfold clickRow
  dsimp only
  split
  next =>
    refine Moves.trans (hclicked _ ?_) (dispatchOpenRemotePane_moves hc)
    split
    exacts [hselected, hselected.draw]
  next =>
    refine hclicked _ ?_
    split
    exacts [hselected, hselected.draw]

theorem dispatchScopeClick_moves (hc : .input ∈ causes) (tileId : TileId) (kind : ScopeKind)
    (rect : Rect) (y : Nat) : Moves causes t (t.dispatchScopeClick text m tileId kind rect y) := by
  unfold dispatchScopeClick
  repeat' split
  · exact .refl
  · exact openHostPicker_moves
  · exact clickRow_moves hc _ _ _
  · exact .refl
  · exact .refl

theorem handleMouseClick_moves (hc : .input ∈ causes) {x y : Nat}
    (h : t.handleMouseClick text m x y = some u) : Moves causes t u := by
  rcases handleMouseClick_cases h with rfl | rfl | rfl | ⟨tile, h⟩
  · exact .draw (.edit .refl rfl)
  · exact dismissHostPicker_moves
  · exact .refl
  · have hmoved : Moves causes t (t.moveFocusTo tile.id) := moveFocusTo_moves hc tile.id
    rcases h with rfl | h | ⟨kind, rfl⟩
    · exact hmoved
    · exact hmoved.trans (dispatchPtyClick_moves hc h)
    · exact hmoved.trans (dispatchScopeClick_moves hc _ _ _ _)

end Mouse

section Input

theorem sendInput_moves {data : List UInt8} (h : t.sendInput data = some u) : Moves causes t u := by
  obtain ⟨entry, -, rfl⟩ := Option.map_eq_some_iff.mp h
  exact .emit .refl rfl

theorem handleForwardBytes_moves (hi : .input ∈ causes) (hk : .dockerKey ∈ causes)
    {bytes : List UInt8} (h : t.handleForwardBytes text m bytes = some u) : Moves causes t u := by
  rcases handleForwardBytes_cases h with h | rfl | ⟨kind, hkind, rfl⟩
  · exact sendInput_moves h
  · exact .refl
  · have hparsed : (t.parseKeys bytes).1.app.view = t.app.view := rfl
    exact (parseKeys_moves bytes).trans (scopeKeys_moves hi hk (by rw [hparsed]; exact hkind) _)

theorem handleTab_moves (hi : .input ∈ causes) {forward : Bool}
    (h : t.handleTab forward = some u) : Moves causes t u := by
  rcases handleTab_cases h with ⟨data, h⟩ | rfl
  · exact sendInput_moves h
  · exact handleFocusCycle_moves hi forward

/-- Input other than bytes does nothing to containers. -/
theorem inputToTiles_moves (hi : .input ∈ causes) {input : InputAction}
    (hk : ∀ bytes, input = .forward bytes → .dockerKey ∈ causes)
    (h : t.inputToTiles text m input = some u) : Moves causes t u := by
  cases input with
  | forward bytes => exact handleForwardBytes_moves hi (hk bytes rfl) h
  | detach => cases Option.some.inj h; exact .emit .refl rfl
  | focusDirection dir => cases Option.some.inj h; exact handleFocusDirection_moves hi dir
  | focusNext => exact handleTab_moves hi h
  | focusPrev => exact handleTab_moves hi h
  | help => cases Option.some.inj h; exact handleHelpToggle_moves
  | openHostPicker => cases Option.some.inj h; exact openHostPicker_moves
  | paneClose =>
    rcases inputToTiles_paneClose h with h | rfl
    · exact closeActivePane_moves hi h
    · exact .refl

theorem handleInput_moves (hi : .input ∈ causes) (hk : .dockerKey ∈ causes) {input : InputAction}
    (h : t.handleInput text m input = some u) : Moves causes t u := by
  rcases handleInput_cases h with rfl | rfl | h
  · exact inputToHelp_moves input
  · exact inputToPicker_moves input
  · exact inputToTiles_moves hi (fun _ _ => hk) h

theorem handleInputs_moves (hi : .input ∈ causes) (hk : .dockerKey ∈ causes)
    {inputs : List InputAction} (h : t.handleInputs text m inputs = some u) : Moves causes t u :=
  handleInputs_rel (fun _ => .refl) (fun _ _ _ => .trans) (fun _ => .emit .refl rfl)
    (fun _ _ _ => handleInput_moves hi hk) h

end Input

section Answers

theorem handleDockerEvent_moves (event : Event) : Moves causes t (t.handleDockerEvent text event) := by
  unfold handleDockerEvent
  split
  next => exact .draw (.edit .refl rfl)
  next => exact .draw (.edit .refl rfl)
  next => exact .refl

theorem handlePortsEvent_moves (event : Event) : Moves causes t (t.handlePortsEvent text event) := by
  unfold handlePortsEvent
  split
  next => exact .draw (.edit .refl rfl)
  next => exact .draw (.edit .refl rfl)
  next => exact .refl

theorem handleProcessesEvent_moves (event : Event) :
    Moves causes t (t.handleProcessesEvent text event) := by
  unfold handleProcessesEvent
  split
  next => exact .draw (.edit .refl rfl)
  next => exact .draw (.edit .refl rfl)
  next => exact .refl

theorem handleFleetEvent_moves (event : Event) :
    Moves causes t (t.handleFleetEvent text m event) := by
  unfold handleFleetEvent
  split
  next => exact .draw (.edit .refl rfl)
  next hostAlias state reason =>
    split
    next hosts states source _ =>
      have hshown : Moves causes t (t.setFleet { t.app.fleet with
          state := .available hosts (states.insert hostAlias state) source }).draw :=
        .draw (.edit .refl rfl)
      repeat' split
      · exact hshown
      · exact hshown.trans (pushToast_moves _ _)
      · exact hshown
      · exact hshown
    next => exact .refl
  next => exact .draw (.edit .refl rfl)
  next => exact .refl

theorem handleLogsEvent_moves (event : Event) : Moves causes t (t.handleLogsEvent text event) := by
  unfold handleLogsEvent
  split
  next hview => exact setLogs_moves hview (LogsView.ingest_subId _ _ _ _)
  next hview => exact setLogs_moves hview (LogsView.endStream_subId _ _ _)
  next => exact .refl

theorem handleDockerActionResult_moves (result : DockerActionResult) :
    Moves causes t (t.handleDockerActionResult m result) := by
  unfold handleDockerActionResult
  dsimp only
  split
  next => exact (eraseAction_moves _).trans (pushToast_moves _ _)
  next => exact (eraseAction_moves _).trans (pushToast_moves _ _)

theorem handleFleetActionResult_moves (result : FleetActionResult) :
    Moves causes t (t.handleFleetActionResult m result) := by
  unfold handleFleetActionResult
  dsimp only
  split
  next => exact (eraseAction_moves _).trans (pushToast_moves _ _)
  next => exact (eraseAction_moves _).trans (pushToast_moves _ _)

theorem feedPane_moves {idx : Nat} {bytes : List UInt8} (h : t.feedPane idx bytes = some u) :
    Moves causes t u := by
  have hfed : Moves causes t (t.fedPane idx bytes) := by
    refine .edit .refl ?_
    exact Core.ext rfl rfl (map_fedPane (fun _ => rfl) _ idx) rfl rfl rfl rfl rfl rfl rfl rfl rfl rfl
  rcases feedPane_cases h with rfl | rfl
  · exact hfed.draw
  · exact hfed

theorem handlePaneExit_moves {idx : Nat} {exitCode : Option Int}
    (h : t.handlePaneExit m idx exitCode = some u) : Moves causes t u := by
  obtain ⟨-, ⟨-, rfl⟩ | ⟨-, detail, rfl⟩⟩ := handlePaneExit_cases h
  · exact .emit (dropPane_moves idx) rfl
  · exact ((Moves.edit (dropPane_moves idx) rfl).trans (pushToast_moves _ _)).draw

theorem handlePaneEvent_moves {idx : Nat} {event : Event}
    (h : t.handlePaneEvent m idx event = some u) : Moves causes t u := by
  rcases handlePaneEvent_cases h with rfl | ⟨bytes, h⟩ | ⟨exitCode, h⟩
  · exact .refl
  · exact feedPane_moves h
  · exact handlePaneExit_moves h

theorem focusPty_moves (hc : .refocus ∈ causes) : Moves causes t t.focusPty := by
  unfold focusPty
  split
  next => exact .emit (.step .refl (.pulled .pty hc)) rfl
  next => exact .refl

theorem handlePaneOpened_moves (ha : .answer ∈ causes) (hr : .refocus ∈ causes) (info : PaneInfo) :
    Moves causes t (t.handlePaneOpened info) := by
  unfold handlePaneOpened
  split
  next => exact .refl
  next pending others hp =>
    have hadded : Moves causes t (t.edit fun a => { a with
        pendingOpens := others
        paneStack := a.paneStack ++ [⟨info.id, pending.subId, paneLabelFromShell info.shell,
          newParser t.app.view.layout⟩]
        activePane := a.paneStack.length }) := by
      refine .step .refl ?_
      have hids : ∀ label parser,
          (t.app.paneStack ++ [PaneEntry.mk info.id pending.subId label parser]).map (·.ids) =
            t.app.core.panes ++ [(info.id, pending.subId)] := fun _ _ => List.map_append
      have hmove : Core.Move causes t.app.core _ := .paneAnswered info.id ha hp
      rw [← hids (paneLabelFromShell info.shell) (newParser t.app.view.layout)] at hmove
      exact hmove
    exact .draw (.emit (.emit (hadded.trans (focusPty_moves hr)) rfl) rfl)

theorem handleError_moves (hc : .answer ∈ causes) (info : ErrorInfo) :
    Moves causes t (t.handleError m info) := by
  unfold handleError
  split
  next hp => exact Moves.trans (.step .refl (.openFailed hc hp)) (pushToast_moves _ _)
  next => exact pushToast_moves _ _

theorem handleEventFrame_moves {id : Nat} {event : Event}
    (h : t.handleEventFrame text m id event = some u) : Moves causes t u := by
  unfold handleEventFrame at h
  split at h
  next => exact handlePaneEvent_moves h
  next => cases Option.some.inj h; exact handleDockerEvent_moves event
  next => cases Option.some.inj h; exact handlePortsEvent_moves event
  next => cases Option.some.inj h; exact handleProcessesEvent_moves event
  next => cases Option.some.inj h; exact handleLogsEvent_moves event
  next => cases Option.some.inj h; exact handleFleetEvent_moves event
  next => cases Option.some.inj h; exact .refl

/-- Only an opened pane takes the focus along. -/
theorem handleDaemonEnvelope_moves (ha : .answer ∈ causes) {env : Envelope}
    (hr : ∀ info, env.payload = .paneOpened info → .refocus ∈ causes)
    (h : t.handleDaemonEnvelope text m env = some u) : Moves causes t u := by
  obtain ⟨version, payload⟩ := env
  cases payload with
  | event id event => exact handleEventFrame_moves h
  | paneOpened info => cases Option.some.inj h; exact handlePaneOpened_moves ha (hr info rfl) info
  | error info => cases Option.some.inj h; exact handleError_moves ha info
  | dockerActionResult result => cases Option.some.inj h; exact handleDockerActionResult_moves result
  | fleetActionResult result => cases Option.some.inj h; exact handleFleetActionResult_moves result
  | _ => cases Option.some.inj h; exact .refl

theorem resizePanes_moves (layout : TileLayout) : Moves causes t (t.resizePanes layout) := by
  have hids : ∀ (rows cols : Nat) (panes : List PaneEntry),
      (panes.map (PaneEntry.setSize rows cols)).map (·.ids) = panes.map (·.ids) := by
    intro rows cols panes
    rw [List.map_map]
    rfl
  unfold resizePanes
  refine Moves.trans (.edit .refl ?_) (.foldl (fun _ p => .emit .refl rfl) _ _)
  exact Core.ext rfl rfl (hids _ _ _) rfl rfl rfl rfl rfl rfl rfl rfl rfl rfl

theorem handleResize_moves (hc : .refocus ∈ causes) {rows cols : Nat}
    (h : t.handleResize rows cols = some u) : Moves causes t u := by
  obtain ⟨layout, -, rfl⟩ := Option.map_eq_some_iff.mp h
  exact (Moves.trans (.step .refl (.resized _ _ hc)) (resizePanes_moves layout)).draw

end Answers

end Turn

def AppEvent.causes : AppEvent → Set Cause
  | .stdinChunk _ => {.dockerKey, .input}
  | .mouseClick _ _ => {.input}
  | .daemonEnvelope _ => {.answer, .refocus}
  | .resize _ _ => {.refocus}
  | _ => ∅

/-- Every event is handled by a sequence of moves that its cause allows. -/
theorem App.handleEvent_moves {text : TextOps} {m : Moment} {a : App} {event : AppEvent} {t : Turn}
    (h : a.handleEvent text m event = some t) : Turn.Moves event.causes ⟨a, []⟩ t := by
  cases event with
  | stdinChunk bytes =>
    exact Turn.Moves.trans (.edit .refl rfl) (Turn.handleInputs_moves (.inr rfl) (.inl rfl) h)
  | daemonEnvelope env => exact Turn.handleDaemonEnvelope_moves (.inl rfl) (fun _ _ => .inr rfl) h
  | resize rows cols => exact Turn.handleResize_moves rfl h
  | tick => cases Option.some.inj h; exact Turn.sweepExpired_moves.draw
  | pendingActionTimeout id => cases Option.some.inj h; exact Turn.expirePendingAction_moves id
  | mouseClick x y => exact Turn.handleMouseClick_moves rfl h
  | mouseHover x y => cases Option.some.inj h; exact Turn.handleMouseHover_moves x y

/-- The app on its own: every sequence of events is a run. -/
def console (text : TextOps) : System App (Moment × AppEvent) AppAction where
  init a := ∃ pane shell rows cols, App.new pane shell rows cols = some a
  step a l := (a.handleEvent text l.1 l.2).map fun t => (t.app, t.actions)

end Tepegoz
