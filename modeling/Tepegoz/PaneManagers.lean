import Mathlib.Algebra.Group.Nat.Defs
import Mathlib.Logic.Function.Basic
import Tepegoz.Lib.Transition
import Tepegoz.HandleCommand

namespace Tepegoz

open Transition

/-- The managers of the local and of the SSH panes, `state.pty` and `state.remote_pty`. -/
inductive PaneManager
  | pty
  | remotePty
  deriving DecidableEq

def PaneTarget.manager : PaneTarget → PaneManager
  | .localTarget => .pty
  | .remote _ => .remotePty

/-- What a manager keeps of a pane. The index of a pane among all that were ever spawned stands for the
`Arc` that points to it. -/
structure ManagedPane where
  id : PaneId
  manager : PaneManager
  shell : String
  rows : Nat
  cols : Nat
  alive : Bool
  deriving DecidableEq

def ManagedPane.info (p : ManagedPane) : PaneInfo := ⟨p.id, p.rows, p.cols, p.shell, p.alive⟩

/-- The map and the counter that both managers have. -/
structure PaneTable where
  panes : IdMap Nat
  nextId : PaneId

/-- `PtyManager::new` and `RemotePaneManager::new`. -/
def PaneManager.new : PaneManager → PaneTable
  | .pty => ⟨∅, 1⟩
  | .remotePty => ⟨∅, 2 ^ 32⟩

/-- What a command wants of the pane that it names. -/
inductive PaneUse
  | attach (subscriptionId : Nat)
  | input (data : List UInt8)
  | resize (rows cols : Nat)
  deriving DecidableEq

def PaneUse.payload (id : PaneId) : PaneUse → Payload
  | .attach subscriptionId => .attachPane id subscriptionId
  | .input data => .sendInput id data
  | .resize rows cols => .resizePane id rows cols

/-- Where a session is in the branch of `handle_command` for a pane command. -/
inductive PaneCall
  | idle
  | opening (spec : OpenPaneSpec)
  | reserved (spec : OpenPaneSpec) (id : PaneId)
  | spawned (spec : OpenPaneSpec) (id : PaneId) (pane : Nat)
  | entered (spec : OpenPaneSpec) (pane : Nat)
  | listing
  | listedLocal (panes : List PaneInfo)
  | finding (use : PaneUse) (id : PaneId)
  | notRemote (use : PaneUse) (id : PaneId)
  | found (use : PaneUse) (id : PaneId) (pane : Nat)
  | closing (id : PaneId)
  | closingIn (manager : PaneManager) (id : PaneId)
  deriving DecidableEq

/-- The two managers with the sessions that use them. -/
structure PaneService where
  spawned : List ManagedPane
  table : PaneManager → PaneTable
  calls : ClientId → PaneCall

/-- `step` is a step that can go only one way. -/
inductive PaneAct
  | ask (c : ClientId) (payload : Payload)
  | step (c : ClientId)
  | spawn (c : ClientId) (outcome : Except String Unit)
  | list (c : ClientId) (panes : List PaneInfo)
  | resized (c : ClientId) (done : Bool)
  | exit (pane : Nat)

/-- A command is answered with the pane that it reached, if any. -/
inductive PaneNote
  | asked (c : ClientId) (payload : Payload)
  | opened (c : ClientId) (pane : Nat) (id : PaneId)
  | closed (id : PaneId)
  | answered (c : ClientId) (payload : Payload) (answers : PaneAnswers) (pane : Option Nat)

/-- `Pane` and `RemotePane` as they are made. -/
def spawnPane (defaultShell : String) (spec : OpenPaneSpec) (id : PaneId) : ManagedPane where
  id := id
  manager := spec.target.manager
  shell := match spec.target with
    | .localTarget => spec.shell.getD defaultShell
    | .remote hostAlias => "ssh:" ++ hostAlias
  rows := spec.rows
  cols := spec.cols
  alive := true

/-- The pane commands. -/
def Payload.paneCall : Payload → Option PaneCall
  | .openPane spec => some (.opening spec)
  | .listPanes => some .listing
  | .attachPane paneId subscriptionId => some (.finding (.attach subscriptionId) paneId)
  | .sendInput paneId data => some (.finding (.input data) paneId)
  | .resizePane paneId rows cols => some (.finding (.resize rows cols) paneId)
  | .closePane paneId => some (.closing paneId)
  | _ => none

namespace PaneService

def new : PaneService := ⟨[], PaneManager.new, fun _ => .idle⟩

def setCall (s : PaneService) (c : ClientId) (call : PaneCall) : PaneService :=
  { s with calls := Function.update s.calls c call }

@[simp] theorem calls_setCall_same (s : PaneService) (c : ClientId) (call : PaneCall) :
    (s.setCall c call).calls c = call := Function.update_self ..

theorem calls_setCall_other {c c' : ClientId} (h : c' ≠ c) (s : PaneService) (call : PaneCall) :
    (s.setCall c call).calls c' = s.calls c' := Function.update_of_ne h ..

def setTable (s : PaneService) (manager : PaneManager) (table : PaneTable) : PaneService :=
  { s with table := Function.update s.table manager table }

/-- The end of a command. -/
def answer (s : PaneService) (c : ClientId) (payload : Payload) (answers : PaneAnswers)
    (pane : Option Nat) : PaneService × List PaneNote :=
  (s.setCall c .idle, [.answered c payload answers pane])

def refuse (s : PaneService) (c : ClientId) (spec : OpenPaneSpec) (e : String) :
    PaneService × List PaneNote :=
  s.answer c (.openPane spec) { PaneAnswers.none with opened := .error e } none

def announce (s : PaneService) (c : ClientId) (spec : OpenPaneSpec) (pane : Nat) (p : ManagedPane) :
    PaneService × List PaneNote :=
  s.answer c (.openPane spec) { PaneAnswers.none with opened := .ok p.info } (some pane)

def reach (s : PaneService) (c : ClientId) (use : PaneUse) (id : PaneId) (pane : Nat) :
    PaneService × List PaneNote :=
  s.answer c (use.payload id) { PaneAnswers.none with known := true } (some pane)

/-- The counter's `fetch_add`. -/
def issue (s : PaneService) (manager : PaneManager) : PaneService :=
  s.setTable manager { s.table manager with nextId := (s.table manager).nextId + 1 }

/-- A local pane has its id before its child is spawned. -/
def reserve (s : PaneService) (c : ClientId) (spec : OpenPaneSpec) : PaneService :=
  (s.issue .pty).setCall c (.reserved spec (s.table .pty).nextId)

def spawn (defaultShell : String) (s : PaneService) (c : ClientId) (spec : OpenPaneSpec) (id : PaneId) :
    PaneService :=
  { s with spawned := s.spawned ++ [spawnPane defaultShell spec id] }.setCall c
    (.spawned spec id s.spawned.length)

/-- A remote pane has its id once the host is connected. -/
def spawnRemote (defaultShell : String) (s : PaneService) (c : ClientId) (spec : OpenPaneSpec) :
    PaneService :=
  (s.issue .remotePty).spawn defaultShell c spec (s.table .remotePty).nextId

def enter (s : PaneService) (c : ClientId) (spec : OpenPaneSpec) (id : PaneId) (pane : Nat) :
    PaneService × List PaneNote :=
  let table := s.table spec.target.manager
  ((s.setTable spec.target.manager { table with panes := table.panes.insert id pane }).setCall c
    (.entered spec pane), [.opened c pane id])

/-- `get`, of the remote manager first. -/
def find (s : PaneService) (c : ClientId) (use : PaneUse) (id : PaneId) : PaneService :=
  match (s.table .remotePty).panes.lookup id with
  | some pane => s.setCall c (.found use id pane)
  | none => s.setCall c (.notRemote use id)

def findLocal (s : PaneService) (c : ClientId) (use : PaneUse) (id : PaneId) :
    PaneService × List PaneNote :=
  match (s.table .pty).panes.lookup id with
  | some pane => (s.setCall c (.found use id pane), [])
  | none => s.answer c (use.payload id) .none none

/-- `contains` of the remote manager tells which manager is to close the pane. -/
def closer (s : PaneService) (id : PaneId) : PaneManager :=
  if id ∈ (s.table .remotePty).panes then .remotePty else .pty

/-- `close` of a manager, which fails if the pane is gone by now. -/
def close (s : PaneService) (c : ClientId) (manager : PaneManager) (id : PaneId) :
    PaneService × List PaneNote :=
  let table := s.table manager
  let done := s.answer c (.closePane id) .none none
  if id ∈ table.panes then
    (done.1.setTable manager { table with panes := table.panes.erase id }, .closed id :: done.2)
  else done

def infos (s : PaneService) (manager : PaneManager) : List PaneInfo :=
  (s.table manager).panes.entries.filterMap fun entry => s.spawned[entry.2]?.map ManagedPane.info

def resizePane (s : PaneService) (pane rows cols : Nat) : PaneService :=
  { s with spawned := s.spawned.modify pane ({ · with rows := rows, cols := cols }) }

def proceed (s : PaneService) (c : ClientId) : Option (PaneService × List PaneNote) :=
  match s.calls c with
  | .opening spec => if spec.target.manager = .pty then some (s.reserve c spec, []) else none
  | .spawned spec id pane => some (s.enter c spec id pane)
  | .entered spec pane => s.spawned[pane]?.map (s.announce c spec pane)
  | .finding use id => some (s.find c use id, [])
  | .notRemote use id => some (s.findLocal c use id)
  | .found (.attach subscriptionId) id pane => some (s.reach c (.attach subscriptionId) id pane)
  | .found (.input data) id pane => some (s.reach c (.input data) id pane)
  | .closing id => some (s.setCall c (.closingIn (s.closer id) id), [])
  | .closingIn manager id => some (s.close c manager id)
  | _ => none

/-- The child is spawned, or the host is connected and gives a shell; or that fails. -/
def spawnStep (defaultShell : String) (s : PaneService) (c : ClientId) (outcome : Except String Unit) :
    Option (PaneService × List PaneNote) :=
  match s.calls c, outcome with
  | .opening spec, .ok () =>
    if spec.target.manager = .pty then none else some (s.spawnRemote defaultShell c spec, [])
  | .opening spec, .error e => if spec.target.manager = .pty then none else some (s.refuse c spec e)
  | .reserved spec id, .ok () => some (s.spawn defaultShell c spec id, [])
  | .reserved spec _, .error e => some (s.refuse c spec e)
  | _, _ => none

/-- A manager lists its panes in any order. -/
def listStep (s : PaneService) (c : ClientId) (panes : List PaneInfo) :
    Option (PaneService × List PaneNote) :=
  match s.calls c with
  | .listing => if panes.isPerm (s.infos .pty) then some (s.setCall c (.listedLocal panes), []) else none
  | .listedLocal listed =>
    if panes.isPerm (s.infos .remotePty) then
      some (s.answer c .listPanes { PaneAnswers.none with listed := listed ++ panes } none)
    else none
  | _ => none

/-- A local pane keeps its size when its pty cannot be resized. -/
def resizeStep (s : PaneService) (c : ClientId) (done : Bool) : Option (PaneService × List PaneNote) :=
  match s.calls c with
  | .found (.resize rows cols) id pane => s.spawned[pane]?.map fun p =>
    (if done ∨ p.manager = .remotePty then s.resizePane pane rows cols else s).reach c
      (.resize rows cols) id pane
  | _ => none

def next (defaultShell : String) (s : PaneService) : PaneAct → Option (PaneService × List PaneNote)
  | .ask c payload =>
    if s.calls c = .idle then payload.paneCall.map fun call => (s.setCall c call, [.asked c payload])
    else none
  | .step c => s.proceed c
  | .spawn c outcome => s.spawnStep defaultShell c outcome
  | .list c panes => s.listStep c panes
  | .resized c done => s.resizeStep c done
  | .exit pane => some ({ s with spawned := s.spawned.modify pane ({ · with alive := false }) }, [])

end PaneService

/-- The pane commands of all sessions, in any interleaving. -/
def paneService (defaultShell : String) : System PaneService PaneAct PaneNote where
  init s := s = .new
  step := PaneService.next defaultShell

/-- The next step hands out the id of a local pane. -/
def PaneCall.reserves : PaneCall → Bool
  | .opening spec => spec.target.manager = .pty
  | _ => false

/-- What the local manager asserts when it hands out an id. -/
def LocalIdsLeft (_ : List PaneNote) (s : PaneService) : PaneAct → Prop
  | .step c => (s.calls c).reserves = true → (s.table .pty).nextId < 2 ^ 32
  | _ => True

instance (tr : List PaneNote) (s : PaneService) : (act : PaneAct) → Decidable (LocalIdsLeft tr s act)
  | .step _ => inferInstanceAs (Decidable (_ → _))
  | .ask _ _ | .spawn _ _ | .list _ _ | .resized _ _ | .exit _ => .isTrue trivial

end Tepegoz
