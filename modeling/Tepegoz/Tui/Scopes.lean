import Mathlib.Data.List.AList
import Mathlib.Data.List.Infix
import Tepegoz.Proto
import Tepegoz.Tui.Input

namespace Tepegoz

/-- What the standard library does to text beyond ASCII. -/
structure TextOps where
  toLowercase : String → String
  fromUtf8Lossy : List UInt8 → String

/-- Right for ASCII. -/
def TextOps.ascii : TextOps := ⟨String.toLower, fun bytes => .ofList (bytes.map fun b => .ofNat b.toNat)⟩

def startsWith (s start : String) : Bool := start.toList.isPrefixOf s.toList

def containsText (s part : String) : Bool := part.toList <:+: s.toList

/-- A list scope as its subscription has filled it. -/
inductive ScopeState (Row : Type)
  | connecting
  | available (rows : List Row) (source : String)
  | unavailable (reason : String)
  deriving DecidableEq

def ScopeState.rows {Row : Type} : ScopeState Row → List Row
  | .available rows _ => rows
  | _ => []

structure ListCursor where
  selection : Nat
  filter : String
  filterActive : Bool
  deriving DecidableEq

namespace ListCursor

def fresh : ListCursor := ⟨0, "", false⟩

def clamp (n selection : Nat) : Nat :=
  if n = 0 then 0 else if n ≤ selection then n - 1 else selection

/-- The position of the old key among the visible rows, else the old position clamped. -/
def reanchor {Row Key : Type} [DecidableEq Key] (keyOf : Row → Key) (visible : List Row)
    (oldKey : Option Key) (selection : Nat) : Nat :=
  match oldKey.bind fun k => visible.findIdx? (keyOf · = k) with
  | some idx => idx
  | none => clamp visible.length selection

/-- A key while the filter is typed; `none` when it has no effect. -/
def filterKey (adjust : ListCursor → ListCursor) (c : ListCursor) : ScopeKey → Option ListCursor
  | .escape => some (adjust { c with filter := "", filterActive := false })
  | .enter => some { c with filterActive := false }
  | .backspace =>
    if c.filter = "" then none
    else some (adjust { c with filter := String.ofList c.filter.toList.dropLast })
  | .char b =>
    if 0x20 ≤ b ∧ b ≤ 0x7e then
      some (adjust { c with filter := c.filter.push (Char.ofNat b.toNat) })
    else none
  | _ => none

/-- The keys that move through a list of `n` visible rows. -/
def navKey (n : Nat) (c : ListCursor) (k : ScopeKey) : Option ListCursor :=
  match k.ofLetter with
  | .up => some { c with selection := c.selection - 1 }
  | .down => some { c with selection := if c.selection + 1 < n then c.selection + 1 else c.selection }
  | .top | .home => some { c with selection := 0 }
  | .bottom | .endKey => some { c with selection := n - 1 }
  | .filterStart => some { c with filterActive := true }
  | .char b => if b = key '/' then some { c with filterActive := true } else none
  | _ => none

def listKey (adjust : ListCursor → ListCursor) (n : Nat) (c : ListCursor) (k : ScopeKey) :
    Option ListCursor :=
  if c.filterActive then c.filterKey adjust k else c.navKey n k

end ListCursor

structure LogLine where
  stream : LogStream
  text : String
  deriving DecidableEq

def maxLogLines : Nat := 10000
def logsPageLines : Nat := 10

structure LogsView where
  containerId : String
  containerName : String
  subId : Nat
  lines : List LogLine
  pendingStdout : List UInt8
  pendingStderr : List UInt8
  scrollOffset : Nat
  atTail : Bool
  streamEnded : Option String
  deriving DecidableEq

namespace LogsView

def new (containerId containerName : String) (subId : Nat) : LogsView :=
  ⟨containerId, containerName, subId, [], [], [], 0, true, none⟩

def stripCr (line : List UInt8) : List UInt8 :=
  if line.getLast? = some 0x0d then line.dropLast else line

/-- The complete lines of the bytes and what is left after the last of them. -/
def drainLines (line : List UInt8) : List UInt8 → List (List UInt8) × List UInt8
  | [] => ([], line)
  | b :: rest =>
    if b = 0x0a then
      let drained := drainLines [] rest
      (stripCr line :: drained.1, drained.2)
    else drainLines (line ++ [b]) rest

def pushLine (v : LogsView) (line : LogLine) : LogsView :=
  { v with lines := (if maxLogLines ≤ v.lines.length then v.lines.tail else v.lines) ++ [line] }

def pending (v : LogsView) : LogStream → List UInt8
  | .stdout => v.pendingStdout
  | .stderr => v.pendingStderr

def setPending (v : LogsView) (stream : LogStream) (bytes : List UInt8) : LogsView :=
  match stream with
  | .stdout => { v with pendingStdout := bytes }
  | .stderr => { v with pendingStderr := bytes }

def ingest (text : TextOps) (v : LogsView) (stream : LogStream) (data : List UInt8) : LogsView :=
  let drained := drainLines [] (v.pending stream ++ data)
  drained.1.foldl (fun v line => v.pushLine ⟨stream, text.fromUtf8Lossy line⟩)
    (v.setPending stream drained.2)

def scrollUp (v : LogsView) (n : Nat) : LogsView :=
  let offset := min (v.scrollOffset + n) (v.lines.length - 1)
  { v with scrollOffset := offset, atTail := if 0 < offset then false else v.atTail }

def scrollDown (v : LogsView) (n : Nat) : LogsView :=
  let offset := v.scrollOffset - n
  { v with scrollOffset := offset, atTail := if offset = 0 then true else v.atTail }

def jumpToTail (v : LogsView) : LogsView := { v with scrollOffset := 0, atTail := true }

def flushPending (text : TextOps) (v : LogsView) (stream : LogStream) : LogsView :=
  let tail := v.pending stream
  let v := v.setPending stream []
  if tail = [] then v else v.pushLine ⟨stream, text.fromUtf8Lossy tail⟩

def endStream (text : TextOps) (v : LogsView) (reason : String) : LogsView :=
  let v := (v.flushPending text .stdout).flushPending text .stderr
  { v with streamEnded := some reason, atTail := false }

end LogsView

inductive DockerView
  | list
  | logs (view : LogsView)
  deriving DecidableEq

structure PendingConfirm where
  kind : DockerActionKind
  containerId : String
  containerName : String
  deadline : Nat
  deriving DecidableEq

structure DockerScope extends ListCursor where
  state : ScopeState DockerContainer
  view : DockerView
  subId : Nat
  pendingConfirm : Option PendingConfirm
  target : ScopeTarget
  deriving DecidableEq

section Matching

variable (text : TextOps)

/-- The lower case of the text contains that of the filter. -/
def TextOps.matches (filter s : String) : Bool :=
  containsText (text.toLowercase s) (text.toLowercase filter)

namespace DockerScope

def new (subId : Nat) : DockerScope := ⟨.fresh, .connecting, .list, subId, none, .localTarget⟩

def isCurrentLogsSub (d : DockerScope) (subId : Nat) : Bool :=
  match d.view with
  | .logs logs => logs.subId = subId
  | .list => false

def matchesFilter (d : DockerScope) (c : DockerContainer) : Bool :=
  d.filter = "" || c.names.any (text.matches d.filter) || text.matches d.filter c.image

def visible (d : DockerScope) : List DockerContainer := d.state.rows.filter (d.matchesFilter text)

def visibleCount (d : DockerScope) : Nat := (d.visible text).length

def selectedContainer (d : DockerScope) : Option DockerContainer := (d.visible text)[d.selection]?

def clampSelection (d : DockerScope) : DockerScope :=
  { d with selection := ListCursor.clamp (d.visibleCount text) d.selection }

def listKey (d : DockerScope) (k : ScopeKey) : Option DockerScope :=
  let adjust c := ({ d with toListCursor := c }.clampSelection text).toListCursor
  (d.toListCursor.listKey adjust (d.visibleCount text) k).map ({ d with toListCursor := · })

end DockerScope

structure PortKey where
  protocol : String
  localPort : Nat
  pid : Nat
  deriving DecidableEq

def PortKey.of (p : ProbePort) : PortKey := ⟨p.protocol, p.localPort, p.pid⟩

structure PortsView extends ListCursor where
  state : ScopeState ProbePort
  deriving DecidableEq

namespace PortsView

def matchesFilter (v : PortsView) (p : ProbePort) : Bool :=
  v.filter = "" || text.matches v.filter p.processName || text.matches v.filter p.localIp ||
    containsText (toString p.localPort) (text.toLowercase v.filter) ||
    p.containerId.any (text.matches v.filter)

def visible (v : PortsView) : List ProbePort := v.state.rows.filter (v.matchesFilter text)

def visibleCount (v : PortsView) : Nat := (v.visible text).length

def selectedPort (v : PortsView) : Option ProbePort := (v.visible text)[v.selection]?

def selectedKey (v : PortsView) : Option PortKey := (v.selectedPort text).map .of

def reanchorSelection (v : PortsView) (oldKey : Option PortKey) : PortsView :=
  { v with selection := ListCursor.reanchor .of (v.visible text) oldKey v.selection }

def listKey (v : PortsView) (k : ScopeKey) : Option PortsView :=
  let adjust c :=
    let edited := { v with toListCursor := c }
    (edited.reanchorSelection text (edited.selectedKey text)).toListCursor
  (v.toListCursor.listKey adjust (v.visibleCount text) k).map ({ v with toListCursor := · })

end PortsView

structure ProcessKey where
  pid : Nat
  startTimeUnixSecs : Int
  deriving DecidableEq

def ProcessKey.of (p : ProbeProcess) : ProcessKey := ⟨p.pid, p.startTimeUnixSecs⟩

structure ProcessesView extends ListCursor where
  state : ScopeState ProbeProcess
  deriving DecidableEq

namespace ProcessesView

def matchesFilter (v : ProcessesView) (p : ProbeProcess) : Bool :=
  v.filter = "" || text.matches v.filter p.command ||
    containsText (toString p.pid) (text.toLowercase v.filter)

def visible (v : ProcessesView) : List ProbeProcess := v.state.rows.filter (v.matchesFilter text)

def visibleCount (v : ProcessesView) : Nat := (v.visible text).length

def selectedProcess (v : ProcessesView) : Option ProbeProcess := (v.visible text)[v.selection]?

def selectedKey (v : ProcessesView) : Option ProcessKey := (v.selectedProcess text).map .of

def reanchorSelection (v : ProcessesView) (oldKey : Option ProcessKey) : ProcessesView :=
  { v with selection := ListCursor.reanchor .of (v.visible text) oldKey v.selection }

def listKey (v : ProcessesView) (k : ScopeKey) : Option ProcessesView :=
  let adjust c :=
    let edited := { v with toListCursor := c }
    (edited.reanchorSelection text (edited.selectedKey text)).toListCursor
  (v.toListCursor.listKey adjust (v.visibleCount text) k).map ({ v with toListCursor := · })

end ProcessesView

inductive PortsActiveView
  | ports
  | processes
  deriving DecidableEq

structure PortsScope where
  ports : PortsView
  processes : ProcessesView
  active : PortsActiveView
  portsSubId : Nat
  processesSubId : Nat
  portsTarget : ScopeTarget
  processesTarget : ScopeTarget
  deriving DecidableEq

def PortsScope.new (portsSubId processesSubId : Nat) : PortsScope :=
  ⟨⟨.fresh, .connecting⟩, ⟨.fresh, .connecting⟩, .ports, portsSubId, processesSubId, .localTarget,
    .localTarget⟩

/-- A map keyed by host aliases. -/
abbrev HostMap (β : Type) := AList (fun _ : String => β)

inductive FleetScopeState
  | connecting
  | available (hosts : List HostEntry) (states : HostMap HostState) (source : String)

def FleetScopeState.hosts : FleetScopeState → List HostEntry
  | .available hosts _ _ => hosts
  | .connecting => []

structure FleetScope extends ListCursor where
  state : FleetScopeState
  subId : Nat

namespace FleetScope

def new (subId : Nat) : FleetScope := ⟨.fresh, .connecting, subId⟩

def matchesFilter (f : FleetScope) (h : HostEntry) : Bool :=
  f.filter = "" || text.matches f.filter h.hostAlias || text.matches f.filter h.hostname ||
    text.matches f.filter h.user

def visible (f : FleetScope) : List HostEntry := f.state.hosts.filter (f.matchesFilter text)

def visibleCount (f : FleetScope) : Nat := (f.visible text).length

def selectedHost (f : FleetScope) : Option HostEntry := (f.visible text)[f.selection]?

def selectedKey (f : FleetScope) : Option String := (f.selectedHost text).map (·.hostAlias)

def reanchorSelection (f : FleetScope) (oldKey : Option String) : FleetScope :=
  { f with selection := ListCursor.reanchor (·.hostAlias) (f.visible text) oldKey f.selection }

def listKey (f : FleetScope) (k : ScopeKey) : Option FleetScope :=
  let adjust c :=
    let edited := { f with toListCursor := c }
    (edited.reanchorSelection text (edited.selectedKey text)).toListCursor
  (f.toListCursor.listKey adjust (f.visibleCount text) k).map ({ f with toListCursor := · })

end FleetScope

end Matching

end Tepegoz
