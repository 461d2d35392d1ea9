import Mathlib.Data.List.AList
import Tepegoz.Proto

namespace Tepegoz

/-- A client session stands for its `event_tx`. -/
abbrev ClientId := Nat

abbrev ConnId := Nat

/-- A map keyed by subscription or request ids. -/
abbrev IdMap (β : Type) := AList (fun _ : Nat => β)

inductive RoutedKind
  | subscription
  | oneShot
  deriving DecidableEq

inductive RoutedScope
  | docker
  | dockerLogs
  | dockerStats
  | dockerAction (containerId : String) (actionKind : DockerActionKind)
  | ports
  | processes
  deriving DecidableEq

structure RoutedSub where
  client : ClientId
  clientId : Nat
  kind : RoutedKind
  scope : RoutedScope
  deriving DecidableEq

/-- `driver` tells whether the driver task still holds the receiving end of `writer_tx`, `parser`
whether the envelope parser is still in its loop. -/
structure AgentConnection where
  hostAlias : String
  capabilities : List String
  nextSubId : Nat
  routing : IdMap RoutedSub
  driver : Bool
  parser : Bool

def AgentConnection.spawned (hostAlias : String) (capabilities : List String) : AgentConnection :=
  ⟨hostAlias, capabilities, 1, ∅, true, true⟩

/-- Stands for connections that were not made yet. -/
def AgentConnection.unborn : AgentConnection := ⟨"", [], 1, ∅, false, false⟩

def eventFrame (subscriptionId : Nat) (event : Event) : Envelope :=
  envelope (.event subscriptionId event)

def unavailableEventForScope (scope : RoutedScope) (reason : String) : Event :=
  match scope with
  | .docker | .dockerAction _ _ => .dockerUnavailable reason
  | .dockerLogs | .dockerStats => .dockerStreamEnded reason
  | .ports => .portsUnavailable reason
  | .processes => .processesUnavailable reason

/-- What a drain tells the owner of a routing entry. A pending action is answered with target
`Local`, whatever its request said. -/
def disconnectNotice (hostAlias : String) (routed : RoutedSub) : Envelope :=
  let reason := "agent disconnected: " ++ hostAlias
  match routed.scope with
  | .dockerAction containerId actionKind =>
    envelope (.dockerActionResult
      ⟨routed.clientId, containerId, actionKind, .failure reason, .localTarget⟩)
  | scope => eventFrame routed.clientId (unavailableEventForScope scope reason)

inductive RouteRequest
  | subscribe (sub : Subscription)
  | dockerAction (req : DockerActionRequest)
  deriving DecidableEq

/-- A routed request on its way: the arguments of `route_remote_subscribe` and of
`route_remote_docker_action`. -/
structure RouteCall where
  hostAlias : String
  kind : RoutedKind
  scope : RoutedScope
  requiredCapability : String
  request : RouteRequest
  deriving DecidableEq

/-- The subscription under another id and for the agent's own host. -/
def Subscription.forwarded (daemonId : Nat) : Subscription → Subscription
  | .status _ => .status daemonId
  | .docker _ _ => .docker daemonId .localTarget
  | .dockerLogs _ containerId follow tailLines _ =>
    .dockerLogs daemonId containerId follow tailLines .localTarget
  | .dockerStats _ containerId _ => .dockerStats daemonId containerId .localTarget
  | .ports _ _ => .ports daemonId .localTarget
  | .processes _ _ => .processes daemonId .localTarget
  | .fleet _ => .fleet daemonId

def routeRemoteSubscribe (sub : Subscription) (hostAlias : String) (scope : RoutedScope)
    (requiredCapability : String) : RouteCall :=
  ⟨hostAlias, .subscription, scope, requiredCapability, .subscribe sub⟩

def routeRemoteDockerAction (hostAlias : String) (req : DockerActionRequest) : RouteCall :=
  ⟨hostAlias, .oneShot, .dockerAction req.containerId req.kind, "docker",
    .dockerAction req⟩

namespace RouteCall

def clientId (call : RouteCall) : Nat :=
  match call.request with
  | .subscribe sub => sub.id
  | .dockerAction req => req.requestId

def entry (call : RouteCall) (client : ClientId) : RoutedSub :=
  ⟨client, call.clientId, call.kind, call.scope⟩

def forwarded (call : RouteCall) (daemonId : Nat) : Payload :=
  match call.request with
  | .subscribe sub => .subscribe (sub.forwarded daemonId)
  | .dockerAction req =>
    .dockerAction { req with requestId := daemonId, target := .localTarget }

/-- The synchronous answer when the request cannot be routed. -/
def failure (call : RouteCall) (reason : String) : Envelope :=
  match call.request with
  | .dockerAction req => envelope (.dockerActionResult
      ⟨req.requestId, req.containerId, req.kind, .failure reason, req.target⟩)
  | .subscribe sub => eventFrame sub.id (unavailableEventForScope call.scope reason)

def notConnected (call : RouteCall) : Envelope :=
  call.failure ("agent not connected: " ++ call.hostAlias)

def lacksCapability (call : RouteCall) : Envelope :=
  call.failure ("no " ++ call.requiredCapability ++ " on " ++ call.hostAlias)

def writerClosed (call : RouteCall) : Envelope :=
  call.failure ("agent writer closed: " ++ call.hostAlias)

end RouteCall

end Tepegoz
