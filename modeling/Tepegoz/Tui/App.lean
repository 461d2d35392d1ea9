import Mathlib.Data.List.Basic
import Tepegoz.AgentConnection
import Tepegoz.Tui.Scopes

namespace Tepegoz

def maxToasts : Nat := 3
def doubleClickWindow : Nat := 400
def pendingActionTimeout : Nat := 30000
def pendingConfirmTimeout : Nat := 10000
def maxTabDigitSlots : Nat := 9
def maxLabelChars : Nat := 20
def fallbackPtyRows : Nat := 24
def fallbackPtyCols : Nat := 80
def tabChromeInactive : Nat := 4
def tabChromeActive : Nat := 5
def closeAffordanceWidth : Nat := 3

/-- What an event handler reads from outside: the clock in milliseconds, the working directory and
the order in which a hash map yields its keys. -/
structure Moment where
  now : Nat
  cwd : Option String
  iteration : List Nat → List Nat
  iteration_perm : ∀ ids, (iteration ids).Perm ids

def Moment.at (now : Nat) : Moment := ⟨now, none, id, fun _ => .refl _⟩

/-- A vt100 parser: its screen size and the bytes it was given. -/
structure Parser where
  rows : Nat
  cols : Nat
  processed : List UInt8
  deriving DecidableEq

structure PaneEntry where
  paneId : PaneId
  subId : Nat
  label : String
  parser : Parser
  deriving DecidableEq

def PaneEntry.process (p : PaneEntry) (bytes : List UInt8) : PaneEntry :=
  { p with parser := { p.parser with processed := p.parser.processed ++ bytes } }

def PaneEntry.setSize (rows cols : Nat) (p : PaneEntry) : PaneEntry :=
  { p with parser := { p.parser with rows := rows, cols := cols } }

structure PendingOpen where
  subId : Nat
  hostAlias : Option String
  deriving DecidableEq

structure PendingAction where
  deadline : Nat
  description : String
  deriving DecidableEq

inductive ToastKind
  | info
  | success
  | error
  deriving DecidableEq

def ToastKind.duration : ToastKind → Nat
  | .success => 3000
  | .error => 8000
  | .info => 4000

structure Toast where
  kind : ToastKind
  message : String
  expiresAt : Nat
  deriving DecidableEq

structure View where
  layout : TileLayout
  focused : TileId
  deriving DecidableEq

inductive HostPickerTargetTile
  | docker
  | ports
  | processes
  deriving DecidableEq

structure HostPickerModal where
  targetTile : HostPickerTargetTile
  requiredCapability : String
  selected : Nat
  deriving DecidableEq

inductive HostPickerRow
  | localHost
  | remote (hostAlias : String) (state : HostState) (hasCapability usable : Bool)
  deriving DecidableEq

structure App where
  view : View
  paneStack : List PaneEntry
  activePane : Nat
  pendingOpens : List PendingOpen
  docker : DockerScope
  ports : PortsScope
  fleet : FleetScope
  terminalSize : Nat × Nat
  nextSubId : Nat
  pendingActions : IdMap PendingAction
  toasts : List Toast
  helpVisible : Bool
  hostPicker : Option HostPickerModal
  hostCapabilities : HostMap (List String)
  hoveredTile : Option TileId
  lastClick : Option (TileId × Nat × Nat)
  inputFilter : FilterState
  scopeKeyParser : KeyParserState

inductive AppEvent
  | stdinChunk (bytes : List UInt8)
  | daemonEnvelope (env : Envelope)
  | resize (rows cols : Nat)
  | tick
  | pendingActionTimeout (id : Nat)
  | mouseClick (x y : Nat)
  | mouseHover (x y : Nat)
  deriving DecidableEq

inductive DetachReason
  | user
  | paneExited (exitCode : Option Int)
  deriving DecidableEq

inductive AppAction
  | sendEnvelope (env : Envelope)
  | drawFrame
  | focusTile (id : TileId)
  | detach (reason : DetachReason)
  | showToast (kind : ToastKind) (message : String)
  deriving DecidableEq

def AppAction.command : AppAction → Option Payload
  | .sendEnvelope env => some env.payload
  | _ => none

def ptyTileDims (layout : TileLayout) : Nat × Nat :=
  match layout.rectOf .pty with
  | some r => (max r.height 1, max r.width 1)
  | none => (fallbackPtyRows, fallbackPtyCols)

def ptyContentDims (layout : TileLayout) : Nat × Nat :=
  let dims := ptyTileDims layout
  (max (dims.1 - 1) 1, dims.2)

def newParser (layout : TileLayout) : Parser :=
  let dims := ptyContentDims layout
  ⟨dims.1, dims.2, []⟩

/-- The last component of a path, when it is a name. -/
def fileName (path : String) : Option String :=
  match ((path.toList.splitOn '/').filter fun c => c ≠ [] ∧ c ≠ ['.']).getLast? with
  | some c => if c = ['.', '.'] then none else some (String.ofList c)
  | none => none

def paneLabelFromShell (shell : String) : String :=
  let raw := if startsWith shell "ssh:" ∨ shell = "" then shell else (fileName shell).getD shell
  let trimmed := if raw = "" then "pane" else raw
  if maxLabelChars < trimmed.toList.length then
    String.ofList (trimmed.toList.take maxLabelChars) ++ "…"
  else trimmed

/-- The characters that make up exactly `n` bytes, if a character ends there. -/
def takeBytes : Nat → List Char → Option (List Char)
  | 0, _ => some []
  | _ + 1, [] => none
  | n + 1, c :: cs =>
    if c.utf8Size ≤ n + 1 then (takeBytes (n + 1 - c.utf8Size) cs).map (c :: ·) else none

def displayNameFor (c : DockerContainer) : String :=
  let trimmed := (c.names.head?.map fun raw => raw.toList.dropWhile (· = '/')).getD []
  if trimmed = [] then ((takeBytes 12 c.id.toList).map String.ofList).getD c.id
  else String.ofList trimmed

def actionVerb : DockerActionKind → String
  | .start => "Start"
  | .stop => "Stop"
  | .restart => "Restart"
  | .kill => "Kill"
  | .remove => "Remove"

def fleetActionVerb : FleetActionKind → String
  | .reconnect => "Reconnect"
  | .disconnect => "Disconnect"

def ErrorKind.debug : ErrorKind → String
  | .versionMismatch => "VersionMismatch"
  | .unknownSubscription => "UnknownSubscription"
  | .unknownPane => "UnknownPane"
  | .invalidRequest => "InvalidRequest"
  | .internal => "Internal"

namespace App

def new (pane : PaneId) (shell : String) (rows cols : Nat) : Option App := do
  let layout ← TileLayout.defaultFor (.new 0 0 cols rows)
  some {
    view := ⟨layout, layout.defaultFocus⟩
    paneStack := [⟨pane, 1, paneLabelFromShell shell, newParser layout⟩]
    activePane := 0
    pendingOpens := []
    docker := .new 2
    ports := .new 3 4
    fleet := .new 5
    terminalSize := (rows, cols)
    nextSubId := 6
    pendingActions := ∅
    toasts := []
    helpVisible := false
    hostPicker := none
    hostCapabilities := ∅
    hoveredTile := none
    lastClick := none
    inputFilter := .normal
    scopeKeyParser := .normal }

def activeEntry (a : App) : Option PaneEntry := a.paneStack[a.activePane]?

def findPaneBySub (a : App) (subId : Nat) : Option Nat := a.paneStack.findIdx? (·.subId = subId)

/-- The bootstrap commands; `none` when there is no active pane. -/
def initialActions (a : App) : Option (List AppAction) := do
  let entry ← a.activeEntry
  let dims := ptyContentDims a.view.layout
  let sent := [.attachPane entry.paneId entry.subId, .resizePane entry.paneId dims.1 dims.2,
    .subscribe (.docker a.docker.subId a.docker.target),
    .subscribe (.ports a.ports.portsSubId a.ports.portsTarget),
    .subscribe (.processes a.ports.processesSubId a.ports.processesTarget),
    .subscribe (.fleet a.fleet.subId)].map fun p => AppAction.sendEnvelope (envelope p)
  some (sent ++ [.drawFrame])

def hostPickerRow (a : App) (requiredCapability : String) (states : HostMap HostState)
    (h : HostEntry) : HostPickerRow :=
  let state := (states.lookup h.hostAlias).getD .disconnected
  let hasCapability :=
    (a.hostCapabilities.lookup h.hostAlias).any fun caps => caps.contains requiredCapability
  .remote h.hostAlias state hasCapability (state = .connected ∧ hasCapability)

def hostPickerRows (a : App) (requiredCapability : String) : List HostPickerRow :=
  match a.fleet.state with
  | .available hosts states _ =>
    .localHost :: hosts.map (a.hostPickerRow requiredCapability states)
  | .connecting => [.localHost]

/-- The view that the picker opened on a tile retargets, with the capability it needs. -/
def pickerTarget (a : App) : ScopeKind → Option (HostPickerTargetTile × String × ScopeTarget)
  | .docker => some (.docker, "docker", a.docker.target)
  | .ports =>
    match a.ports.active with
    | .ports => some (.ports, "ports", a.ports.portsTarget)
    | .processes => some (.processes, "processes", a.ports.processesTarget)
  | .fleet => none

end App

def HostPickerRow.isTarget : HostPickerRow → ScopeTarget → Bool
  | .localHost, .localTarget => true
  | .remote hostAlias _ _ _, .remote target => hostAlias = target
  | _, _ => false

/-- `&mut self` and `&mut actions` of a handler. -/
structure Turn where
  app : App
  actions : List AppAction

namespace Turn

def emit (t : Turn) (action : AppAction) : Turn := { t with actions := t.actions ++ [action] }

def draw (t : Turn) : Turn := t.emit .drawFrame

def send (t : Turn) (payload : Payload) : Turn := t.emit (.sendEnvelope (envelope payload))

def edit (t : Turn) (f : App → App) : Turn := { t with app := f t.app }

def setDocker (t : Turn) (d : DockerScope) : Turn := t.edit ({ · with docker := d })

def setPorts (t : Turn) (p : PortsScope) : Turn := t.edit ({ · with ports := p })

def setFleet (t : Turn) (f : FleetScope) : Turn := t.edit ({ · with fleet := f })

def allocSubId (t : Turn) : Turn := t.edit fun a => { a with nextSubId := a.nextSubId + 1 }

section Components

variable (t : Turn) (f : App → App) (action : AppAction) (payload : Payload)

@[simp] theorem app_emit : (t.emit action).app = t.app := rfl
@[simp] theorem app_draw : t.draw.app = t.app := rfl
@[simp] theorem app_send : (t.send payload).app = t.app := rfl
@[simp] theorem app_edit : (t.edit f).app = f t.app := rfl

@[simp] theorem app_setDocker (d : DockerScope) :
    (t.setDocker d).app = { t.app with docker := d } := rfl

@[simp] theorem app_setPorts (p : PortsScope) :
    (t.setPorts p).app = { t.app with ports := p } := rfl

@[simp] theorem app_setFleet (f : FleetScope) :
    (t.setFleet f).app = { t.app with fleet := f } := rfl

@[simp] theorem app_allocSubId :
    t.allocSubId.app = { t.app with nextSubId := t.app.nextSubId + 1 } := rfl

end Components

end Turn

end Tepegoz
