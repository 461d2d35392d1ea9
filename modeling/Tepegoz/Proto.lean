import Mathlib.Tactic.Common

namespace Tepegoz

abbrev PaneId := Nat

/-- `PROTOCOL_VERSION` of the wire. -/
def protocolVersion : Nat := 12

inductive PaneTarget
  | localTarget
  | remote (hostAlias : String)
  deriving DecidableEq

inductive ScopeTarget
  | localTarget
  | remote (hostAlias : String)
  deriving DecidableEq

structure OpenPaneSpec where
  shell : Option String
  cwd : Option String
  env : List (String × String)
  rows : Nat
  cols : Nat
  target : PaneTarget
  deriving DecidableEq

structure PaneInfo where
  id : PaneId
  rows : Nat
  cols : Nat
  shell : String
  alive : Bool
  deriving DecidableEq

inductive Subscription
  | status (id : Nat)
  | docker (id : Nat) (target : ScopeTarget)
  | dockerLogs (id : Nat) (containerId : String) (follow : Bool) (tailLines : Nat)
      (target : ScopeTarget)
  | dockerStats (id : Nat) (containerId : String) (target : ScopeTarget)
  | ports (id : Nat) (target : ScopeTarget)
  | processes (id : Nat) (target : ScopeTarget)
  | fleet (id : Nat)
  deriving DecidableEq

/-- The client-chosen id that events of the subscription refer to. -/
def Subscription.id : Subscription → Nat
  | .status id | .docker id _ | .dockerLogs id _ _ _ _ | .dockerStats id _ _ | .ports id _
  | .processes id _ | .fleet id => id

structure DockerContainer where
  id : String
  names : List String
  image : String
  deriving DecidableEq

structure ProbePort where
  localIp : String
  localPort : Nat
  protocol : String
  pid : Nat
  processName : String
  containerId : Option String
  deriving DecidableEq

structure ProbeProcess where
  pid : Nat
  startTimeUnixSecs : Int
  command : String
  deriving DecidableEq

structure HostEntry where
  hostAlias : String
  hostname : String
  user : String
  proxyJump : Option String
  deriving DecidableEq

inductive HostState
  | disconnected
  | connecting
  | connected
  | degraded
  | authFailed
  | hostKeyMismatch
  | agentNotDeployed
  | agentVersionMismatch
  deriving DecidableEq

def HostState.isTerminal : HostState → Bool
  | .authFailed | .hostKeyMismatch | .agentNotDeployed | .agentVersionMismatch => true
  | _ => false

inductive LogStream
  | stdout
  | stderr
  deriving DecidableEq

inductive Event
  | status
  | paneSnapshot (scrollback : List UInt8) (rows cols : Nat)
  | paneOutput (data : List UInt8)
  | paneExit (exitCode : Option Int)
  | paneLagged (droppedBytes : Nat)
  | containerList (containers : List DockerContainer) (engineSource : String)
  | dockerUnavailable (reason : String)
  | containerLog (stream : LogStream) (data : List UInt8)
  | containerStats
  | dockerStreamEnded (reason : String)
  | portList (ports : List ProbePort) (source : String)
  | portsUnavailable (reason : String)
  | processList (rows : List ProbeProcess) (source : String)
  | processesUnavailable (reason : String)
  | hostList (hosts : List HostEntry) (source : String)
  | hostStateChanged (hostAlias : String) (state : HostState) (reason : Option String)
  | agentCapabilities (hostAlias : String) (capabilities : List String)
  deriving DecidableEq

inductive DockerActionKind
  | start
  | stop
  | restart
  | kill
  | remove
  deriving DecidableEq

structure DockerActionRequest where
  requestId : Nat
  containerId : String
  kind : DockerActionKind
  target : ScopeTarget
  deriving DecidableEq

inductive DockerActionOutcome
  | success
  | failure (reason : String)
  deriving DecidableEq

structure DockerActionResult where
  requestId : Nat
  containerId : String
  kind : DockerActionKind
  outcome : DockerActionOutcome
  target : ScopeTarget
  deriving DecidableEq

inductive FleetActionKind
  | reconnect
  | disconnect
  deriving DecidableEq

structure FleetActionRequest where
  requestId : Nat
  hostAlias : String
  kind : FleetActionKind
  deriving DecidableEq

inductive FleetActionOutcome
  | success
  | failure (reason : String)
  deriving DecidableEq

structure FleetActionResult where
  requestId : Nat
  hostAlias : String
  kind : FleetActionKind
  outcome : FleetActionOutcome
  deriving DecidableEq

inductive ErrorKind
  | versionMismatch
  | unknownSubscription
  | unknownPane
  | invalidRequest
  | internal
  deriving DecidableEq

structure ErrorInfo where
  kind : ErrorKind
  message : String
  deriving DecidableEq

inductive Payload
  | hello (clientVersion : Nat) (clientName : String)
  | ping
  | subscribe (sub : Subscription)
  | unsubscribe (id : Nat)
  | openPane (spec : OpenPaneSpec)
  | attachPane (paneId : PaneId) (subscriptionId : Nat)
  | closePane (paneId : PaneId)
  | listPanes
  | sendInput (paneId : PaneId) (data : List UInt8)
  | resizePane (paneId : PaneId) (rows cols : Nat)
  | dockerAction (req : DockerActionRequest)
  | fleetAction (req : FleetActionRequest)
  | agentHandshake (requestId : Nat)
  | welcome
  | pong
  | event (subscriptionId : Nat) (event : Event)
  | paneOpened (info : PaneInfo)
  | paneList (panes : List PaneInfo)
  | dockerActionResult (result : DockerActionResult)
  | fleetActionResult (result : FleetActionResult)
  | agentHandshakeResponse (requestId version : Nat) (os arch : String)
      (capabilities : List String)
  | error (info : ErrorInfo)
  deriving DecidableEq

/-- The id of the subscription or request that an answer is about. -/
def Payload.subject : Payload → Option Nat
  | .event subscriptionId _ => some subscriptionId
  | .dockerActionResult result => some result.requestId
  | _ => none

structure Envelope where
  version : Nat
  payload : Payload
  deriving DecidableEq

def envelope (payload : Payload) : Envelope := ⟨protocolVersion, payload⟩

end Tepegoz
