import Tepegoz.Tui.ScopeHandlers

namespace Tepegoz

inductive TabStripHit
  | tab (idx : Nat)
  | closeActive
  deriving DecidableEq

/-- The cells of a tab as the hit test counts them: the characters of the label, cast to `u16`, and
the ornaments around it. -/
def tabCells (active i : Nat) (entry : PaneEntry) : Nat :=
  entry.label.toList.length % (u16Max + 1) + if i = active then tabChromeActive else tabChromeInactive

/-- The column after a tab; the sums saturate. -/
def tabEnd (active i col : Nat) (entry : PaneEntry) : Nat := min (col + tabCells active i entry) u16Max

def hitTab (active stripEnd x : Nat) : Nat → Nat → List PaneEntry → Nat × Option TabStripHit
  | _, col, [] => (col, none)
  | i, col, entry :: entries =>
    let last := tabEnd active i col entry
    if col ≤ x ∧ x < last ∧ last ≤ stripEnd then (col, some (.tab i))
    else hitTab active stripEnd x (i + 1) (min (last + 1) u16Max) entries

/-- What follows the tabs: the counter of those not shown, and the close mark. -/
def hitClose (panes : List PaneEntry) (stripEnd x col : Nat) : Option TabStripHit :=
  let overflow := panes.length - maxTabDigitSlots
  let counter := ("[+" ++ toString overflow ++ "]").toList.length % (u16Max + 1)
  let col := if 0 < overflow then min (min (col + counter) u16Max + 1) u16Max else col
  let closeEnd := min (col + closeAffordanceWidth) u16Max
  if panes ≠ [] ∧ col ≤ x ∧ x < closeEnd ∧ closeEnd ≤ stripEnd then some .closeActive else none

def hitTestTabStrip (panes : List PaneEntry) (active : Nat) (strip : Rect) (x : Nat) :
    Option TabStripHit :=
  if strip.height = 0 ∨ strip.width = 0 then none
  else
    let stripEnd := strip.x + strip.width
    match hitTab active stripEnd x 0 strip.x (panes.take maxTabDigitSlots) with
    | (_, some hit) => some hit
    | (col, none) => hitClose panes stripEnd x col

/-- The part of the app that the events of a subscription go to. -/
inductive Recipient
  | pane (idx : Nat)
  | panel (v : HostPickerTargetTile)
  | logs
  | fleet
  deriving DecidableEq

/-- The inside of a bordered tile. -/
def insetRect (r : Rect) : Option Rect :=
  if r.width < 2 ∨ r.height < 2 then none
  else some (.new (r.x + 1) (r.y + 1) (r.width - 2) (r.height - 2))

namespace App

def cursor (a : App) : ScopeKind → ListCursor
  | .docker => a.docker.toListCursor
  | .ports =>
    match a.ports.active with
    | .ports => a.ports.ports.toListCursor
    | .processes => a.ports.processes.toListCursor
  | .fleet => a.fleet.toListCursor

def scopeFilterVisible (a : App) (kind : ScopeKind) : Bool :=
  (a.cursor kind).filterActive || (a.cursor kind).filter ≠ ""

def scopeSetSelection (a : App) (kind : ScopeKind) (idx : Nat) : App :=
  match kind with
  | .docker => { a with docker := { a.docker with selection := idx } }
  | .ports =>
    match a.ports.active with
    | .ports => { a with ports := { a.ports with ports := { a.ports.ports with selection := idx } } }
    | .processes =>
      { a with ports := { a.ports with processes := { a.ports.processes with selection := idx } } }
  | .fleet => { a with fleet := { a.fleet with selection := idx } }

def scopeVisibleCount (text : TextOps) (a : App) : ScopeKind → Nat
  | .docker => a.docker.visibleCount text
  | .ports =>
    match a.ports.active with
    | .ports => a.ports.ports.visibleCount text
    | .processes => a.ports.processes.visibleCount text
  | .fleet => a.fleet.visibleCount text

def recipient (a : App) (subId : Nat) : Option Recipient :=
  match a.findPaneBySub subId with
  | some idx => some (.pane idx)
  | none =>
    if subId = a.docker.subId then some (.panel .docker)
    else if a.docker.isCurrentLogsSub subId then some .logs
    else if subId = a.ports.portsSubId then some (.panel .ports)
    else if subId = a.ports.processesSubId then some (.panel .processes)
    else if subId = a.fleet.subId then some .fleet
    else none

/-- The list row under screen row `y` of a tile; Docker and Ports have a header row. -/
def rowAt (a : App) (kind : ScopeKind) (inner : Rect) (y : Nat) : Option Nat :=
  let filterOffset := if a.scopeFilterVisible kind then 1 else 0
  let bodyStart := min (min (inner.y + 1) u16Max + filterOffset) u16Max
  let bodyEnd := inner.y + inner.height - 1
  if y < bodyStart ∨ bodyEnd ≤ y then none
  else match kind with
    | .docker | .ports => if y ≤ bodyStart then none else some (y - bodyStart - 1)
    | .fleet => some (y - bodyStart)

end App

namespace Turn

variable (text : TextOps) (m : Moment)

/-- The active index, brought back below the number `n` of panes that are left. -/
def activeAfterClose (active n : Nat) : Nat := if n ≤ active then n - 1 else active

/-- Remove the active pane, and open a local one when it was the last. -/
def closeActivePane (t : Turn) : Option Turn :=
  if t.app.paneStack = [] then some t
  else match t.app.activeEntry with
    | none => none
    | some removed =>
      let rest := t.app.paneStack.eraseIdx t.app.activePane
      let t := ((t.edit ({ · with paneStack := rest })).send (.closePane removed.paneId)).send
        (.unsubscribe removed.subId)
      if rest = [] then
        let spec := openPaneSpec t.app.view.layout m.cwd .localTarget
        some (((t.pushPendingOpen none).send (.openPane spec)).edit ({ · with activePane := 0 }))
      else
        some (t.edit fun a => { a with
          activePane := activeAfterClose a.activePane rest.length }).draw

def dispatchPtyClick (t : Turn) (rect : Rect) (x y : Nat) : Option Turn :=
  match insetRect rect with
  | none => some t
  | some inner =>
    if inner.height < 2 ∨ y ≠ inner.y then some t
    else match hitTestTabStrip t.app.paneStack t.app.activePane
        (.new inner.x inner.y inner.width 1) x with
      | some (.tab idx) =>
        if idx < t.app.paneStack.length ∧ idx ≠ t.app.activePane then
          some (t.edit ({ · with activePane := idx })).draw
        else some t
      | some .closeActive => t.closeActivePane m
      | none => some t

/-- The row was clicked before, in the same tile and within the window. -/
def isDoubleClick (a : App) (tileId : TileId) (rowIdx : Nat) : Bool :=
  match a.lastClick with
  | some (tile, row, time) =>
    tile = tileId ∧ row = rowIdx ∧ m.now - time < doubleClickWindow
  | none => false

def clickRow (t : Turn) (tileId : TileId) (kind : ScopeKind) (rowIdx : Nat) : Turn :=
  let selected := t.edit fun a => a.scopeSetSelection kind rowIdx
  let redrawn := if (t.app.cursor kind).selection = rowIdx then selected else selected.draw
  let clicked := redrawn.edit ({ · with lastClick := some (tileId, rowIdx, m.now) })
  if isDoubleClick m t.app tileId rowIdx ∧ kind = .fleet then clicked.dispatchOpenRemotePane text m
  else clicked

def dispatchScopeClick (t : Turn) (tileId : TileId) (kind : ScopeKind) (rect : Rect) (y : Nat) :
    Turn :=
  match insetRect rect with
  | none => t
  | some inner =>
    if y = rect.y ∧ kind ≠ .fleet then t.openHostPicker
    else match t.app.rowAt kind inner y with
      | some rowIdx =>
        if rowIdx < t.app.scopeVisibleCount text kind then t.clickRow text m tileId kind rowIdx else t
      | none => t

def handleMouseClick (t : Turn) (x y : Nat) : Option Turn :=
  if t.app.helpVisible then some (t.edit ({ · with helpVisible := false })).draw
  else if t.app.hostPicker.isSome then some t.dismissHostPicker
  else match t.app.view.layout.tileAt x y with
    | none => some t
    | some tile =>
      let t := t.moveFocusTo tile.id
      match tile.kind with
      | .pty => t.dispatchPtyClick m tile.rect x y
      | .scope kind => some (t.dispatchScopeClick text m tile.id kind tile.rect y)
      | .placeholder | .tooSmall => some t

def handleMouseHover (t : Turn) (x y : Nat) : Turn :=
  let hovered := (t.app.view.layout.tileAt x y).map (·.id)
  if hovered = t.app.hoveredTile then t else (t.edit ({ · with hoveredTile := hovered })).draw

/-- Input for the pane that is shown; there has to be one. -/
def sendInput (t : Turn) (data : List UInt8) : Option Turn :=
  t.app.activeEntry.map fun entry => t.send (.sendInput entry.paneId data)

def parseKeys (t : Turn) (bytes : List UInt8) : Turn × List ScopeKey :=
  let parsed := ScopeKeyParser.parse t.app.scopeKeyParser bytes
  (t.edit ({ · with scopeKeyParser := parsed.1 }), parsed.2)

def handleForwardBytes (t : Turn) (bytes : List UInt8) : Option Turn :=
  if t.app.view.layout.routesToPty t.app.view.focused then t.sendInput bytes
  else match t.app.view.layout.routesToScope t.app.view.focused with
    | some kind =>
      let parsed := t.parseKeys bytes
      some (parsed.2.foldl (fun t k => t.scopeKey text m kind k) parsed.1)
    | none => some t

def shiftTab : List UInt8 := [esc, csiOpen, key 'Z']

def handleTab (t : Turn) (forward : Bool) : Option Turn :=
  if t.app.view.layout.routesToPty t.app.view.focused then
    t.sendInput (if forward then [tab] else shiftTab)
  else some (t.handleFocusCycle forward)

def inputToHelp (t : Turn) : InputAction → Turn
  | .help => t.handleHelpToggle
  | _ => (t.edit ({ · with helpVisible := false })).draw

def inputToPicker (t : Turn) : InputAction → Turn
  | .help => t.dismissHostPicker.handleHelpToggle
  | .forward bytes =>
    let parsed := t.parseKeys bytes
    parsed.1.hostPickerKeys parsed.2
  | _ => t.dismissHostPicker

def inputToTiles (t : Turn) : InputAction → Option Turn
  | .forward bytes => t.handleForwardBytes text m bytes
  | .detach => some (t.emit (.detach .user))
  | .focusDirection dir => some (t.handleFocusDirection dir)
  | .focusNext => t.handleTab true
  | .focusPrev => t.handleTab false
  | .help => some t.handleHelpToggle
  | .openHostPicker => some t.openHostPicker
  | .paneClose =>
    if t.app.view.layout.routesToPty t.app.view.focused then t.closeActivePane m else some t

/-- One action of the filter, other than a detach. -/
def handleInput (t : Turn) (input : InputAction) : Option Turn :=
  if t.app.helpVisible then some (t.inputToHelp input)
  else if t.app.hostPicker.isSome then some (t.inputToPicker input)
  else t.inputToTiles text m input

def handleInputs (t : Turn) : List InputAction → Option Turn
  | [] => some t
  | .detach :: _ => some (t.emit (.detach .user))
  | input :: inputs => (t.handleInput text m input).bind (·.handleInputs inputs)

theorem handleInputs_cons {text : TextOps} {m : Moment} {t : Turn} {input : InputAction}
    {inputs : List InputAction} (h : input ≠ .detach) :
    t.handleInputs text m (input :: inputs) =
      (t.handleInput text m input).bind fun next => next.handleInputs text m inputs := by
  cases input <;> first | rfl | exact absurd rfl h

section Cases

variable {text : TextOps} {m : Moment} {t u : Turn}

def dropPane (t : Turn) (idx : Nat) : Turn :=
  t.edit ({ · with paneStack := t.app.paneStack.eraseIdx idx })

/-- The active pane taken off the stack, with what is sent about it. -/
def dropActive (t : Turn) (removed : PaneEntry) : Turn :=
  ((t.dropPane t.app.activePane).send (.closePane removed.paneId)).send (.unsubscribe removed.subId)

/-- A pane that is closed leaves the stack, and a new one is asked for if it was the last. -/
theorem closeActivePane_cases (h : t.closeActivePane m = some u) : t = u ∨
    ∃ removed, t.app.activeEntry = some removed ∧
      (t.app.paneStack.eraseIdx t.app.activePane = [] ∧
          (((t.dropActive removed).pushPendingOpen none).send
            (.openPane (openPaneSpec t.app.view.layout m.cwd .localTarget))).edit
              ({ · with activePane := 0 }) = u ∨
        t.app.paneStack.eraseIdx t.app.activePane ≠ [] ∧
          ((t.dropActive removed).edit fun a => { a with
            activePane := activeAfterClose a.activePane
              (t.app.paneStack.eraseIdx t.app.activePane).length }).draw = u) := by
  unfold closeActivePane at h
  split at h
  next => exact .inl (Option.some.inj h)
  next =>
    split at h
    next => cases h
    next removed hentry =>
      dsimp only at h
      split at h
      next hrest => exact .inr ⟨removed, hentry, .inl ⟨hrest, Option.some.inj h⟩⟩
      next hrest => exact .inr ⟨removed, hentry, .inr ⟨hrest, Option.some.inj h⟩⟩

theorem dispatchPtyClick_cases {rect : Rect} {x y : Nat}
    (h : t.dispatchPtyClick m rect x y = some u) :
    t = u ∨ (∃ idx < t.app.paneStack.length, (t.edit ({ · with activePane := idx })).draw = u) ∨
      t.closeActivePane m = some u := by
  unfold dispatchPtyClick at h
  split at h
  next => exact .inl (Option.some.inj h)
  next =>
    split at h
    next => exact .inl (Option.some.inj h)
    next =>
      split at h
      next idx _ =>
        split at h
        next hidx => exact .inr (.inl ⟨idx, hidx.1, Option.some.inj h⟩)
        next => exact .inl (Option.some.inj h)
      next => exact .inr (.inr h)
      next => exact .inl (Option.some.inj h)

/-- A click closes an overlay or misses, or it moves the focus and acts in its tile. -/
theorem handleMouseClick_cases {x y : Nat} (h : t.handleMouseClick text m x y = some u) :
    (t.edit ({ · with helpVisible := false })).draw = u ∨ t.dismissHostPicker = u ∨ t = u ∨
      ∃ tile : TileDef, t.moveFocusTo tile.id = u ∨
        (t.moveFocusTo tile.id).dispatchPtyClick m tile.rect x y = some u ∨
          ∃ kind, (t.moveFocusTo tile.id).dispatchScopeClick text m tile.id kind tile.rect y = u := by
  unfold handleMouseClick at h
  split at h
  next => exact .inl (Option.some.inj h)
  next =>
    split at h
    next => exact .inr (.inl (Option.some.inj h))
    next =>
      split at h
      next => exact .inr (.inr (.inl (Option.some.inj h)))
      next tile _ =>
        refine .inr (.inr (.inr ⟨tile, ?_⟩))
        dsimp only at h
        split at h
        next => exact .inr (.inl h)
        next kind _ => exact .inr (.inr ⟨kind, Option.some.inj h⟩)
        next => exact .inl (Option.some.inj h)
        next => exact .inl (Option.some.inj h)

theorem handleForwardBytes_cases {bytes : List UInt8}
    (h : t.handleForwardBytes text m bytes = some u) : t.sendInput bytes = some u ∨ t = u ∨
      ∃ kind, t.app.view.layout.routesToScope t.app.view.focused = some kind ∧
        (t.parseKeys bytes).2.foldl (fun t k => t.scopeKey text m kind k) (t.parseKeys bytes).1 =
          u := by
  unfold handleForwardBytes at h
  split at h
  next => exact .inl h
  next =>
    split at h
    next kind hkind => exact .inr (.inr ⟨kind, hkind, Option.some.inj h⟩)
    next => exact .inr (.inl (Option.some.inj h))

theorem handleTab_cases {forward : Bool} (h : t.handleTab forward = some u) :
    (∃ data, t.sendInput data = some u) ∨ t.handleFocusCycle forward = u := by
  unfold handleTab at h
  split at h
  next => exact .inl ⟨_, h⟩
  next => exact .inr (Option.some.inj h)

theorem inputToTiles_paneClose (h : t.inputToTiles text m .paneClose = some u) :
    t.closeActivePane m = some u ∨ t = u := by
  change (if _ then _ else _) = _ at h
  split at h
  next => exact .inl h
  next => exact .inr (Option.some.inj h)

end Cases

/-- An input goes to the help, to the picker or to the tiles. -/
theorem handleInput_cases {text : TextOps} {m : Moment} {t u : Turn} {input : InputAction}
    (h : t.handleInput text m input = some u) :
    t.inputToHelp input = u ∨ t.inputToPicker input = u ∨ t.inputToTiles text m input = some u := by
  unfold handleInput at h
  split at h
  next => exact .inl (Option.some.inj h)
  next =>
    split at h
    next => exact .inr (.inl (Option.some.inj h))
    next => exact .inr (.inr h)

/-- What every input does, and a detach, a chunk of inputs does, if it composes. -/
theorem handleInputs_rel {text : TextOps} {m : Moment} {R : Turn → Turn → Prop}
    (refl : ∀ t, R t t) (trans : ∀ t u v, R t u → R u v → R t v)
    (detach : ∀ t, R t (t.emit (.detach .user)))
    (one : ∀ t u input, t.handleInput text m input = some u → R t u) {t u : Turn}
    {inputs : List InputAction} (h : t.handleInputs text m inputs = some u) : R t u := by
  induction inputs generalizing t with
  | nil =>
    cases Option.some.inj h
    exact refl _
  | cons input inputs ih =>
    by_cases hd : input = .detach
    · subst hd
      cases Option.some.inj h
      exact detach _
    · rw [handleInputs_cons hd] at h
      obtain ⟨next, hnext, hrest⟩ := Option.bind_eq_some_iff.mp h
      exact trans _ _ _ (one _ _ _ hnext) (ih hrest)

def handleStdin (t : Turn) (bytes : List UInt8) : Option Turn :=
  let filtered := InputFilter.process t.app.inputFilter [] bytes
  (t.edit ({ · with inputFilter := filtered.1 })).handleInputs text m filtered.2

/-- Give output to the pane at an index, which has to be there. -/
def feedPane (t : Turn) (idx : Nat) (bytes : List UInt8) : Option Turn :=
  if idx < t.app.paneStack.length then
    let fed := t.edit fun a => { a with paneStack := a.paneStack.modify idx (·.process bytes) }
    some (if idx = t.app.activePane then fed.draw else fed)
  else none

/-- The index of the active pane after the one at `idx` was removed and `n` are left. -/
def activeAfterExit (active idx n : Nat) : Nat :=
  if idx ≤ active then min (active - 1) (n - 1) else active

def handlePaneExit (t : Turn) (idx : Nat) (exitCode : Option Int) : Option Turn :=
  match t.app.paneStack[idx]? with
  | none => none
  | some entry =>
    let rest := t.app.paneStack.eraseIdx idx
    let t := t.edit ({ · with paneStack := rest })
    if rest = [] then some (t.emit (.detach (.paneExited exitCode)))
    else
      let t := t.edit fun a => { a with activePane := activeAfterExit a.activePane idx rest.length }
      let detail := match exitCode with
        | some code => "pane " ++ entry.label ++ " exited (code " ++ toString code ++ ")"
        | none => "pane " ++ entry.label ++ " exited"
      some (t.pushToast m .info detail).draw

def handlePaneEvent (t : Turn) (idx : Nat) : Event → Option Turn
  | .paneSnapshot scrollback _ _ =>
    if scrollback = [] then some t else t.feedPane idx scrollback
  | .paneOutput data => t.feedPane idx data
  | .paneExit exitCode => t.handlePaneExit m idx exitCode
  | _ => some t

section Cases

variable {m : Moment} {t u : Turn} {idx : Nat}

def fedPane (t : Turn) (idx : Nat) (bytes : List UInt8) : Turn :=
  t.edit fun a => { a with paneStack := a.paneStack.modify idx (·.process bytes) }

theorem feedPane_cases {bytes : List UInt8} (h : t.feedPane idx bytes = some u) :
    (t.fedPane idx bytes).draw = u ∨ t.fedPane idx bytes = u := by
  unfold feedPane at h
  split at h
  next =>
    have hfed := Option.some.inj h
    split at hfed
    next => exact .inl hfed
    next => exact .inr hfed
  next => cases h

/-- Output does not change what is not the screen of a pane. -/
theorem map_fedPane {α : Type} {f : PaneEntry → α} {bytes : List UInt8}
    (hf : ∀ p : PaneEntry, f (p.process bytes) = f p) (panes : List PaneEntry) (idx : Nat) :
    (panes.modify idx (·.process bytes)).map f = panes.map f := by
  apply List.ext_getElem?
  intro i
  simp only [List.getElem?_map, List.getElem?_modify]
  cases panes[i]? with
  | none => rfl
  | some p =>
    dsimp only [Option.map_eq_map, Option.map_some]
    split
    next => rw [hf]
    next => rfl

/-- A pane that ends leaves the stack, and the client detaches if it was the last. -/
theorem handlePaneExit_cases {exitCode : Option Int} (h : t.handlePaneExit m idx exitCode = some u) :
    idx < t.app.paneStack.length ∧
      (t.app.paneStack.eraseIdx idx = [] ∧
          (t.dropPane idx).emit (.detach (.paneExited exitCode)) = u ∨
        t.app.paneStack.eraseIdx idx ≠ [] ∧ ∃ detail, (((t.dropPane idx).edit fun a => { a with
          activePane := activeAfterExit a.activePane idx
            (t.app.paneStack.eraseIdx idx).length }).pushToast m .info detail).draw = u) := by
  unfold handlePaneExit at h
  split at h
  next => cases h
  next entry hentry =>
    refine ⟨(List.getElem?_eq_some_iff.mp hentry).1, ?_⟩
    dsimp only at h
    split at h
    next hrest => exact .inl ⟨hrest, Option.some.inj h⟩
    next hrest => exact .inr ⟨hrest, _, Option.some.inj h⟩

theorem handlePaneEvent_cases {event : Event} (h : t.handlePaneEvent m idx event = some u) :
    t = u ∨ (∃ bytes, t.feedPane idx bytes = some u) ∨
      ∃ exitCode, t.handlePaneExit m idx exitCode = some u := by
  unfold handlePaneEvent at h
  split at h
  next =>
    split at h
    next => exact .inl (Option.some.inj h)
    next => exact .inr (.inl ⟨_, h⟩)
  next => exact .inr (.inl ⟨_, h⟩)
  next => exact .inr (.inr ⟨_, h⟩)
  next => exact .inl (Option.some.inj h)

end Cases

def focusPty (t : Turn) : Turn :=
  if t.app.view.focused ≠ .pty ∧ (t.app.view.layout.tile .pty).isSome then
    (t.edit fun a => { a with view := { a.view with focused := .pty } }).emit (.focusTile .pty)
  else t

def handlePaneOpened (t : Turn) (info : PaneInfo) : Turn :=
  match t.app.pendingOpens with
  | [] => t
  | pending :: others =>
    let layout := t.app.view.layout
    let dims := ptyContentDims layout
    let entry : PaneEntry :=
      ⟨info.id, pending.subId, paneLabelFromShell info.shell, newParser layout⟩
    let t := t.edit fun a => { a with
      pendingOpens := others, paneStack := a.paneStack ++ [entry], activePane := a.paneStack.length }
    ((t.focusPty.send (.attachPane info.id pending.subId)).send
      (.resizePane info.id dims.1 dims.2)).draw

/-- The daemon's answer to an `OpenPane` that failed. -/
def isOpenFailure (info : ErrorInfo) : Bool :=
  startsWith info.message "open pane" || startsWith info.message "open remote pane"

def handleError (t : Turn) (info : ErrorInfo) : Turn :=
  match isOpenFailure info, t.app.pendingOpens with
  | true, pending :: others =>
    (t.edit ({ · with pendingOpens := others })).pushToast m .error
      ("open pane " ++ pending.hostAlias.getD "local" ++ " failed: " ++ info.message)
  | _, _ => t.pushToast m .error ("daemon error " ++ info.kind.debug ++ ": " ++ info.message)

def handleEventFrame (t : Turn) (subscriptionId : Nat) (event : Event) : Option Turn :=
  match t.app.recipient subscriptionId with
  | some (.pane idx) => t.handlePaneEvent m idx event
  | some (.panel .docker) => some (t.handleDockerEvent text event)
  | some (.panel .ports) => some (t.handlePortsEvent text event)
  | some (.panel .processes) => some (t.handleProcessesEvent text event)
  | some .logs => some (t.handleLogsEvent text event)
  | some .fleet => some (t.handleFleetEvent text m event)
  | none => some t

def handleDaemonEnvelope (t : Turn) (env : Envelope) : Option Turn :=
  match env.payload with
  | .event subscriptionId event => t.handleEventFrame text m subscriptionId event
  | .paneOpened info => some (t.handlePaneOpened info)
  | .error info => some (t.handleError m info)
  | .dockerActionResult result => some (t.handleDockerActionResult m result)
  | .fleetActionResult result => some (t.handleFleetActionResult m result)
  | _ => some t

def resizePanes (t : Turn) (layout : TileLayout) : Turn :=
  let dims := ptyContentDims layout
  let resized := t.edit fun a => { a with paneStack := a.paneStack.map (.setSize dims.1 dims.2) }
  resized.app.paneStack.foldl (fun t p => t.send (.resizePane p.paneId dims.1 dims.2)) resized

theorem resizePanes_app {t : Turn} {layout : TileLayout} : (t.resizePanes layout).app =
    { t.app with
      paneStack := t.app.paneStack.map
        (.setSize (ptyContentDims layout).1 (ptyContentDims layout).2) } := by
  have hsent : ∀ (dims : Nat × Nat) (panes : List PaneEntry) (t : Turn),
      (panes.foldl (fun t p => t.send (.resizePane p.paneId dims.1 dims.2)) t).app = t.app := by
    intro dims panes
    induction panes with
    | nil => exact fun _ => rfl
    | cons p panes ih => exact fun _ => ih _
  exact hsent _ _ _

def handleResize (t : Turn) (rows cols : Nat) : Option Turn :=
  (TileLayout.defaultFor (.new 0 0 cols rows)).map fun layout =>
    let focused := if (layout.tile t.app.view.focused).isSome then t.app.view.focused
      else layout.defaultFocus
    let t := t.edit ({ · with terminalSize := (rows, cols), view := ⟨layout, focused⟩ })
    (t.resizePanes layout).draw

end Turn

/-- `App::handle_event`; `none` stands for a panic. -/
def App.handleEvent (text : TextOps) (m : Moment) (a : App) (event : AppEvent) : Option Turn :=
  let t : Turn := ⟨a, []⟩
  match event with
  | .stdinChunk bytes => t.handleStdin text m bytes
  | .daemonEnvelope env => t.handleDaemonEnvelope text m env
  | .resize rows cols => t.handleResize rows cols
  | .tick => some (t.sweepExpired m).draw
  | .pendingActionTimeout id => some (t.expirePendingAction m id)
  | .mouseClick x y => t.handleMouseClick text m x y
  | .mouseHover x y => some (t.handleMouseHover x y)

end Tepegoz
