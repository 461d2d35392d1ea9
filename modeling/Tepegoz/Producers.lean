import Tepegoz.RoutingIds

namespace Tepegoz

open Transition

/-- What a client can use an id for. -/
inductive IdKind
  | status
  | docker
  | dockerLogs
  | dockerStats
  | ports
  | processes
  | fleet
  | pane
  | action
  deriving DecidableEq

def Subscription.kind : Subscription → IdKind
  | .status _ => .status
  | .docker _ _ => .docker
  | .dockerLogs _ _ _ _ _ => .dockerLogs
  | .dockerStats _ _ _ => .dockerStats
  | .ports _ _ => .ports
  | .processes _ _ => .processes
  | .fleet _ => .fleet

inductive Use
  | subscription (sub : Subscription)
  | pane (paneId : PaneId)
  deriving DecidableEq

def Use.kind : Use → IdKind
  | .subscription sub => sub.kind
  | .pane _ => .pane

/-- The use of the id `i` after a command. -/
def Payload.renew (i : Nat) (current : Option Use) : Payload → Option Use
  | .subscribe sub => if sub.id = i then some (.subscription sub) else current
  | .attachPane paneId id => if id = i then some (.pane paneId) else current
  | .unsubscribe id => if id = i then none else current
  | _ => current

def Obs.renew (c : ClientId) (i : Nat) (current : Option Use) : Obs → Option Use
  | .commanded c' payload => if c' = c then payload.renew i current else current
  | _ => current

/-- What client `c` uses the id `i` for, by its newest command on it. -/
def newest (c : ClientId) (i : Nat) (tr : List Obs) : Option Use :=
  tr.foldl (fun current o => o.renew c i current) none

def Payload.OfKinds (kinds : Nat → IdKind) : Payload → Prop
  | .subscribe sub => kinds sub.id = sub.kind
  | .attachPane _ id => kinds id = .pane
  | .dockerAction req => req.target ≠ .localTarget → kinds req.requestId = .action
  | _ => True

instance (kinds : Nat → IdKind) (payload : Payload) : Decidable (payload.OfKinds kinds) := by
  unfold Payload.OfKinds
  split <;> infer_instance

/-- Every client uses an id for one kind of thing only. -/
def OfKinds (kinds : ClientId → Nat → IdKind) (_ : List Obs) (_ : World) : Act → Prop
  | .command c payload _ => payload.OfKinds (kinds c)
  | _ => True

instance (kinds : ClientId → Nat → IdKind) (tr : List Obs) (w : World) (a : Act) :
    Decidable (OfKinds kinds tr w a) := by
  unfold OfKinds
  split <;> infer_instance

inductive Producer
  | pane (paneId : PaneId)
  | forwarder (map : TaskMap) (task : LocalTask)
  | fleet (task : TaskId)
  | entry (conn : ConnId) (daemonId : Nat)
  deriving DecidableEq

/-- The forwarders that a session holds under an id. -/
def Session.forwarders (s : Session) (i : Nat) : List Producer :=
  (s.paneSubs.lookup i).toList.map .pane ++ (s.fleetSubs.lookup i).toList.map .fleet ++
    [TaskMap.docker, .ports, .processes].flatMap fun map =>
      ((s.tasks map).lookup i).toList.map (.forwarder map)

namespace World

/-- The routing entries that send to client `c` under the id `i`. -/
def entriesOf (w : World) (c : ClientId) (i : Nat) : List (ConnId × Nat) :=
  (List.range w.connCount).flatMap fun k =>
    ((w.conns k).routing.entries.filter
      fun entry => entry.2.client = c ∧ entry.2.clientId = i).map fun entry => (k, entry.1)

def producers (w : World) (c : ClientId) (i : Nat) : List Producer :=
  (w.sessions c).forwarders i ++ (w.entriesOf c i).map fun entry => .entry entry.1 entry.2

end World

/-- The producer sends what the id is used for. -/
def Producer.Serves (w : World) (use : Use) : Producer → Prop
  | .pane paneId => use = .pane paneId
  | .fleet _ => use.kind = .fleet
  | .forwarder _ task => use = .subscription task.sub
  | .entry k _ => ∃ sub, use = .subscription sub ∧
      sub.target = some (.remote (w.conns k).hostAlias)

/-- An id in use has at most one producer, which serves its newest use; other ids have none. -/
def OneProducer (tr : List Obs) (w : World) (c : ClientId) (i : Nat) : Prop :=
  match newest c i tr with
  | some use => (∀ p ∈ w.producers c i, p.Serves w use) ∧
      ∀ p ∈ w.producers c i, ∀ q ∈ w.producers c i, p = q
  | none => w.producers c i = []

/-- The session is still at work on the newest command on the id. -/
def SessionPhase.handles (i : Nat) : SessionPhase → Bool
  | .routing call _ => call.clientId = i
  | .unsubscribing id _ => id = i
  | _ => false

/-- A subscribe finds no producer of its id that its arm leaves alone: no routing entry, and for a
remote target no forwarder either. An unsubscribe finds the routing entries of its id where the
pool leads it. -/
def RetiresPrevious (w : World) : Act → Prop
  | .command c (.subscribe sub) _ =>
    match sub.target with
    | some .localTarget => w.entriesOf c sub.id = []
    | some (.remote _) => w.producers c sub.id = []
    | none => True
  | .unsubscribe c =>
    match (w.sessions c).phase with
    | .unsubscribing id handle => ∀ entry ∈ w.entriesOf c id,
        w.pool handle.hostAlias = some entry.1 ∧ entry.2 = handle.daemonId
    | _ => True
  | _ => True

instance (w : World) (a : Act) : Decidable (RetiresPrevious w a) := by
  unfold RetiresPrevious
  split
  · split <;> infer_instance
  · split <;> infer_instance
  · infer_instance

def OneAtATime (kinds : ClientId → Nat → IdKind) (tr : List Obs) (w : World) (a : Act) : Prop :=
  OfKinds kinds tr w a ∧ RetiresPrevious w a

instance (kinds : ClientId → Nat → IdKind) (tr : List Obs) (w : World) (a : Act) :
    Decidable (OneAtATime kinds tr w a) := inferInstanceAs (Decidable (_ ∧ _))

section Newest

variable {c : ClientId} {i : Nat} {tr out : List Obs}

theorem newest_append (tr out : List Obs) :
    newest c i (tr ++ out) = out.foldl (fun current o => o.renew c i current) (newest c i tr) := by
  simp [newest, List.foldl_append]

theorem newest_append_of_none (h : ∀ payload, .commanded c payload ∉ out) :
    newest c i (tr ++ out) = newest c i tr := by
  rw [newest_append]
  generalize newest c i tr = current
  induction out generalizing current with
  | nil => rfl
  | cons o out ih =>
    have ho : o.renew c i current = current := by
      cases o with
      | commanded c' payload =>
        have hc : c' ≠ c := by rintro rfl; exact h payload (by simp)
        simp [Obs.renew, hc]
      | _ => rfl
    rw [List.foldl_cons, ho]
    exact ih (fun payload hm => h payload (List.mem_cons_of_mem _ hm)) current

theorem newest_append_command (payload : Payload) {replies : List Obs}
    (hr : ∀ o ∈ replies, o.quiet = true) :
    newest c i (tr ++ .commanded c payload :: replies) = payload.renew i (newest c i tr) := by
  have hs : newest c i (tr ++ [.commanded c payload]) = payload.renew i (newest c i tr) := by
    simp [newest_append, Obs.renew]
  rw [List.append_cons, newest_append_of_none ?_, hs]
  intro payload' hm
  simpa [Obs.quiet] using hr _ hm

/-- The client at whose command or on whose call something is observed. -/
def Obs.author : Obs → Option ClientId
  | .commanded c _ => some c
  | .inserted _ _ e => some e.client
  | _ => none

theorem Obs.author_of_quiet {o : Obs} (h : o.quiet = true) : o.author = none := by
  cases o <;> simp_all [Obs.quiet, Obs.author]

theorem RoutingStep.author_client {w w' : World} {a : Act} {o : Obs} {c : ClientId}
    (h : RoutingStep w a w' out) (hm : o ∈ out) (ho : o.author = some c) : a.client = some c := by
  have hquiet : (∀ o ∈ out, o.quiet = true) → a.client = some c := fun hq => by
    simp [Obs.author_of_quiet (hq o hm)] at ho
  cases h with
  | quiet _ _ _ hq => exact hquiet hq
  | drained _ _ _ _ _ _ _ _ _ hq _ => exact hquiet hq
  | @answered k env _ => exact hquiet (w.routeAgentEnvelope_cases k env).2
  | commanded =>
    rcases List.mem_cons.mp hm with rfl | hm
    · exact ho
    · simp [Obs.author_of_quiet (World.replies_quiet o hm)] at ho
  | born | driverEnd | connected | sendFailed | disconnected | teardownLocked | teardownDone =>
    simp at hm
  | inserted =>
    obtain rfl := List.mem_singleton.mp hm
    exact ho
  | refused | allocated | sent | rolledBack =>
    obtain rfl := List.mem_singleton.mp hm
    simp [Obs.author] at ho
  | @unsubscribed c id handle hp | @teardownNext c id handle _ hp =>
    rcases w.release_cases c id handle with hr | ⟨_, -, -, hcases⟩
    · simp [hr] at hm
    · rcases hcases _ hm with ⟨_, -, rfl⟩ | rfl <;> simp [Obs.author] at ho

end Newest

end Tepegoz
