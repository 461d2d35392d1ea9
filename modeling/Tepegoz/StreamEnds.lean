import Mathlib.Data.List.Induction
import Tepegoz.OneProducer
import Tepegoz.PoolOwnership
import Tepegoz.Deliveries
import Tepegoz.RoutedCalls

namespace Tepegoz

open Transition

/-- The daemon with the sources whose stream is over: `forward_docker_logs` and `forward_docker_stats`,
the daemon's and the agent's, return after `DockerStreamEnded`. -/
structure Streams where
  world : World
  returned : List Source

def Event.endsStream : Event → Bool
  | .dockerStreamEnded _ => true
  | _ => false

/-- The forwarder that speaks, and what it says. -/
def Act.speaking : Act → Option (Source × Event)
  | .emit task event => some (.task task, event)
  | .agentFrame k ⟨_, .event d event⟩ => some (.agent k d, event)
  | _ => none

namespace Streams

def note (s : Streams) (a : Act) : List Source :=
  match a.speaking with
  | some (source, event) => if event.endsStream then source :: s.returned else s.returned
  | none => s.returned

def step (s : Streams) (a : Act) : Option (Streams × List Obs) :=
  if a.speaking.any fun said => said.1 ∈ s.returned then none
  else (s.world.step a).map fun next => (⟨next.1, s.note a⟩, next.2)

end Streams

def streams : System Streams Act Obs :=
  ⟨fun s => s.world = .initial ∧ s.returned = [], Streams.step⟩

def IdKind.ofStream : IdKind → Bool
  | .dockerLogs | .dockerStats => true
  | _ => false

def RoutedScope.ofStream : RoutedScope → Bool
  | .dockerLogs | .dockerStats => true
  | _ => false

inductive StreamState
  | idle
  | streaming
  | over
  deriving DecidableEq

def Obs.endsStream (c : ClientId) (i : Nat) : Obs → Bool
  | .toClient c' ⟨_, .event i' event⟩ _ => c' = c ∧ i' = i ∧ event.endsStream
  | _ => false

def Obs.followStream (c : ClientId) (i : Nat) (current : StreamState) : Obs → StreamState
  | .commanded c' (.subscribe sub) =>
    if c' = c ∧ sub.id = i then if sub.kind.ofStream then .streaming else .idle else current
  | o => if o.endsStream c i ∧ current = .streaming then .over else current

/-- How it is with the stream that client `c` subscribed under the id `i`. -/
def streamState (c : ClientId) (i : Nat) (tr : List Obs) : StreamState :=
  tr.foldl (fun current o => o.followStream c i current) .idle

/-- A stream ends once, and the client hears nothing more under its id until it subscribes again. -/
def StreamsEndOnce (tr : List Obs) : Prop :=
  ∀ pre post c env source i event, tr = pre ++ .toClient c env source :: post →
    env.payload = .event i event → streamState c i pre ≠ .over

/-- The forwarder was not aborted. -/
def World.Holds (w : World) (task : TaskId) : Prop :=
  ∀ owner ∈ w.tasks task, ∃ map ∈ [TaskMap.docker, .ports, .processes],
    ((w.sessions owner.1).tasks map).lookup owner.2.id = some ⟨task, owner.2⟩

instance (w : World) (task : TaskId) : Decidable (w.Holds task) :=
  inferInstanceAs (Decidable (∀ owner ∈ w.tasks task, _))

def Act.emitting : Act → Option TaskId
  | .emit task _ => some task
  | _ => none

/-- Ids have one kind and one producer at a time, aborted forwarders are silent, no drain finds an entry
whose stream is over, and a send fails only for a stream whose entry is still there and not over. -/
def StreamsKept (kinds : ClientId → Nat → IdKind) (tr : List Obs) (s : Streams) (a : Act) : Prop :=
  OneAtATime kinds tr s.world a ∧
  (∀ task ∈ a.emitting, s.world.Holds task) ∧
  (∀ k ∈ a.draining s.world, ∀ entry ∈ (s.world.conns k).routing.entries,
    .agent k entry.1 ∉ s.returned) ∧
  ∀ f ∈ a.failing s.world, f.2.1.scope.ofStream = true →
    (s.world.conns f.2.2.1).routing.lookup f.2.2.2 = some (f.2.1.entry f.1) ∧
      .agent f.2.2.1 f.2.2.2 ∉ s.returned

instance (kinds : ClientId → Nat → IdKind) (tr : List Obs) (s : Streams) (a : Act) :
    Decidable (StreamsKept kinds tr s a) :=
  inferInstanceAs (Decidable (_ ∧ _ ∧ _ ∧ _))

section Follow

variable {c : ClientId} {i : Nat} {tr out : List Obs}

/-- An observation starts a stream or frees its id, ends it, or leaves it alone. -/
theorem Obs.followStream_cases (o : Obs) (current : StreamState) :
    (∃ sub, o = .commanded c (.subscribe sub) ∧ sub.id = i ∧
      o.followStream c i current = if sub.kind.ofStream then .streaming else .idle) ∨
    (o.endsStream c i = true ∧ current = .streaming ∧ o.followStream c i current = .over) ∨
    (∀ sub, o = .commanded c (.subscribe sub) → sub.id ≠ i) ∧
      o.followStream c i current = current := by
  by_cases hsub : ∃ sub, o = .commanded c (.subscribe sub) ∧ sub.id = i
  · obtain ⟨sub, rfl, hid⟩ := hsub
    exact .inl ⟨sub, rfl, hid, if_pos ⟨rfl, hid⟩⟩
  · have hfollow : o.followStream c i current =
        if o.endsStream c i ∧ current = .streaming then .over else current := by
      cases o with
      | commanded c' payload =>
        cases payload with
        | subscribe sub =>
          have hne : ¬ (c' = c ∧ sub.id = i) := by
            rintro ⟨rfl, hid⟩
            exact hsub ⟨sub, rfl, hid⟩
          simp [Obs.followStream, Obs.endsStream, hne]
        | _ => rfl
      | _ => rfl
    by_cases hend : o.endsStream c i ∧ current = .streaming
    · exact .inr (.inl ⟨hend.1, hend.2, hfollow.trans (if_pos hend)⟩)
    · exact .inr (.inr ⟨fun sub h hid => hsub ⟨sub, h, hid⟩, hfollow.trans (if_neg hend)⟩)

theorem streamState_snoc (o : Obs) :
    streamState c i (tr ++ [o]) = o.followStream c i (streamState c i tr) := by
  simp [streamState]

/-- A stream that is over after some steps was over before and was not subscribed again, or it ended
on the way. -/
theorem streamState_over (h : streamState c i (tr ++ out) = .over) :
    (streamState c i tr = .over ∧ ∀ sub, .commanded c (.subscribe sub) ∈ out → sub.id ≠ i) ∨
      ∃ o ∈ out, o.endsStream c i = true := by
  induction out using List.reverseRecOn with
  | nil =>
    rw [List.append_nil] at h
    exact .inl ⟨h, fun sub hm => by cases hm⟩
  | append_singleton out o ih =>
    rw [← List.append_assoc, streamState_snoc] at h
    rcases o.followStream_cases (streamState c i (tr ++ out)) with
      ⟨sub, -, -, heq⟩ | ⟨hend, -, -⟩ | ⟨hnew, heq⟩
    · rw [heq] at h
      split at h <;> cases h
    · exact .inr ⟨o, by simp, hend⟩
    · rw [heq] at h
      rcases ih h with ⟨hover, hnone⟩ | ⟨o', ho', hend⟩
      · refine .inl ⟨hover, fun sub hm => ?_⟩
        rcases List.mem_append.mp hm with hm | hm
        · exact hnone sub hm
        · exact hnew sub (List.mem_singleton.mp hm).symm
      · exact .inr ⟨o', List.mem_append_left _ ho', hend⟩

end Follow

section Producers

variable {kind : IdKind} {tr out : List Obs} {w w' : World} {a : Act} {c : ClientId} {i : Nat}

/-- A held forwarder leaves no room for a routed producer of its id. -/
theorem Parts.held_local (h : Parts kind tr w c i) {map : TaskMap} {t : LocalTask}
    (ht : ((w.sessions c).tasks map).lookup i = some t) :
    (∀ k d, ¬ w.Routes c i k d) ∧
      ∀ call stage, (w.sessions c).phase = .routing call stage → call.clientId ≠ i := by
  obtain ⟨huse, -, hlocal⟩ := h.forwarders.task map t ht
  have hremote : ∀ sub hostAlias, newest c i tr = some (.subscription sub) →
      sub.target ≠ some (.remote hostAlias) := by
    intro sub hostAlias hsub htarget
    cases huse.symm.trans hsub
    cases hlocal.symm.trans htarget
  have hcall : ∀ call stage, (w.sessions c).phase = .routing call stage → call.clientId ≠ i := by
    intro call stage hp hid
    obtain ⟨-, ⟨sub, hsub, htarget⟩, -⟩ := h.entries.calling call stage hp hid
    exact hremote sub _ hsub htarget
  refine ⟨fun k d hr => ?_, hcall⟩
  have hhandles : (w.sessions c).phase.handles i = false := by
    cases hp : (w.sessions c).phase with
    | routing call stage => simpa [SessionPhase.handles] using hcall call stage hp
    | unsubscribing id handle =>
      have hid : id ≠ i := by
        rintro rfl
        cases huse.symm.trans (h.entries.dropping handle hp)
      simpa [SessionPhase.handles] using hid
    | _ => rfl
  obtain ⟨sub, hsub, htarget⟩ := h.entries.serves hhandles k d hr
  exact hremote sub _ hsub htarget

/-- At most one forwarder is held under an id. -/
theorem Parts.held_unique (h : Parts kind tr w c i) {map map' : TaskMap} {t t' : LocalTask}
    (ht : ((w.sessions c).tasks map).lookup i = some t)
    (ht' : ((w.sessions c).tasks map').lookup i = some t') : t' = t := by
  obtain ⟨huse, hmap, -⟩ := h.forwarders.task map t ht
  obtain ⟨huse', hmap', -⟩ := h.forwarders.task map' t' ht'
  have hsub : t.sub = t'.sub := Use.subscription.inj (Option.some.inj (huse.symm.trans huse'))
  rw [hsub] at hmap
  obtain rfl : map = map' := Option.some.inj (hmap.symm.trans hmap')
  exact Option.some.inj (ht'.symm.trans ht)

/-- At most one entry routes to an id. -/
theorem Parts.routes_unique (h : Parts kind tr w c i) {k k' : ConnId} {d d' : Nat}
    (hr : w.Routes c i k d) (hr' : w.Routes c i k' d') : k' = k ∧ d' = d := by
  obtain ⟨slot, hslot, -⟩ := h.entries.placed
  exact Prod.mk.inj (Option.some.inj ((hslot k' d' hr').symm.trans (hslot k d hr)))

/-- A call at work on an id has put its entry there. -/
theorem Parts.routes_slot (h : Parts kind tr w c i) {k : ConnId} {d : Nat} (hr : w.Routes c i k d)
    {call : RouteCall} {stage : CallStage} (hp : (w.sessions c).phase = .routing call stage)
    (hid : call.clientId = i) : stage.slot = some (k, d) := by
  obtain ⟨slot, hslot, heq⟩ := h.entries.placed
  have hsame := heq (by rw [hp]; rfl)
  rw [hslot k d hr] at hsame
  simpa [Session.slot, hp, hid] using hsame.symm

/-- A call without an entry finds no producer of its id. -/
theorem Parts.calling_alone (h : Parts kind tr w c i) {call : RouteCall} {stage : CallStage}
    (hp : (w.sessions c).phase = .routing call stage) (hid : call.clientId = i) :
    (∀ map, ((w.sessions c).tasks map).lookup i = none) ∧
      ∀ k d, w.Routes c i k d → stage.slot = some (k, d) := by
  refine ⟨fun map => ?_, fun k d hr => h.routes_slot hr hp hid⟩
  by_contra hne
  obtain ⟨t, ht⟩ := Option.ne_none_iff_exists'.mp hne
  exact (h.held_local ht).2 call stage hp hid

theorem Session.addTask_tasks (s : Session) (map map' : TaskMap) (id : Nat) (t : LocalTask)
    (hid : id ≠ i) : ((s.addTask map id t).tasks map').lookup i = (s.tasks map').lookup i := by
  cases map <;> cases map' <;> first | rfl | exact AList.lookup_insert_ne (Ne.symm hid)

/-- A forwarder that is held was held before, or its subscription was just commanded. -/
theorem RoutingStep.tasks_old (h : RoutingStep w a w' out) {map : TaskMap} {t : LocalTask}
    (ht : ((w'.sessions c).tasks map).lookup i = some t) :
    ((w.sessions c).tasks map).lookup i = some t ∨
      ∃ sub, .commanded c (.subscribe sub) ∈ out ∧ sub.id = i := by
  by_cases hc : a.client = some c
  · have hphase : ∀ phase, (w.setPhase c phase).sessions c = { w.sessions c with phase := phase } :=
      w.sessions_setPhase_same c
    have hsame : ∀ {s' : Session} {phase handles}, w'.sessions c = s' →
        s' = { w.sessions c with phase := phase, clientAgentSubs := handles } →
          ((w.sessions c).tasks map).lookup i = some t := by
      rintro _ phase handles hs rfl
      rw [hs] at ht
      cases map <;> exact ht
    cases h with
    | quiet _ _ hs => rw [hs] at ht; exact .inl ht
    | born _ _ hs => rw [hs] at ht; exact .inl ht
    | drained _ _ _ _ _ _ _ _ hs => rw [hs] at ht; exact .inl ht
    | driverEnd | answered => cases hc
    | connected hp =>
      obtain rfl := Option.some.inj hc
      rw [World.sessions_setSession, Function.update_self] at ht
      cases map <;> cases ht
    | @commanded c' payload panes handled hp heq =>
      obtain rfl := Option.some.inj hc
      subst heq
      rw [World.sessions_setSession, Function.update_self] at ht
      have heffect := (w.sessions c').commandEffect w.taskCount panes payload
      generalize ((w.sessions c').handleCommand w.taskCount panes payload).session = s' at ht heffect
      cases heffect with
      | spawned sub map' _ _ =>
        by_cases hid : sub.id = i
        · exact .inr ⟨sub, List.mem_cons_self, hid⟩
        · rw [Session.addTask_tasks _ _ _ _ _ hid] at ht
          exact .inl ht
      | @unsubscribed id =>
        left
        cases map <;> exact (World.lookup_of_erase ht).1
      | _ => left; cases map <;> exact ht
    | refused | allocated | inserted | sendFailed | rolledBack | teardownLocked | teardownDone =>
      obtain rfl := Option.some.inj hc
      exact .inl (hsame (World.sessions_setPhase_same _ _) rfl)
    | sent =>
      obtain rfl := Option.some.inj hc
      exact .inl (hsame (Function.update_self _ _ _) rfl)
    | @unsubscribed c' id handle | @teardownNext c' id handle todo =>
      obtain rfl := Option.some.inj hc
      exact .inl (hsame ((congrFun (w.sessions_setPhase_release c' id handle _) c').trans (hphase _)) rfl)
    | disconnected hp =>
      obtain rfl := Option.some.inj hc
      rw [World.sessions_setSession, Function.update_self] at ht
      cases map <;> cases ht
  · rw [h.sessions_other hc] at ht
    exact .inl ht

end Producers

section Kinds

variable {ok : List Obs → World → Act → Prop} {kinds : ClientId → Nat → IdKind} {tr out : List Obs}
  {w w' : World} {a : Act} {c : ClientId} {i : Nat} {payload : Payload}

/-- Clients used their ids as they were meant all the time. -/
theorem commanded_ofKinds (h : Run daemon (OneAtATime kinds) tr w) (hm : .commanded c payload ∈ tr) :
    payload.OfKinds (kinds c) := by
  refine h.observed (P := fun o => ∀ c payload, o = .commanded c payload →
    payload.OfKinds (kinds c)) ?_ _ hm c payload rfl
  rintro tr w a w' out - hok hs _ ho c payload rfl
  obtain ⟨panes, rfl⟩ := (World.routingStep_of_step hs).commanded_cases ho
  exact hok.1

/-- A call under the id of a stream is for one. -/
theorem Payload.routed_ofStream {call : RouteCall} {kinds : Nat → IdKind}
    (h : payload.routed = some call) (hk : payload.OfKinds kinds)
    (hs : (kinds call.clientId).ofStream = true) :
    call.scope.ofStream = true ∧ ∃ sub, payload = .subscribe sub ∧ sub.id = call.clientId := by
  unfold routed at h
  split at h
  next sub =>
    split at h
    next hostAlias scope capability _ hscope =>
      cases Option.some.inj h
      have hkind : kinds sub.id = sub.kind := hk
      have hstream : sub.kind.ofStream = true := hkind ▸ hs
      refine ⟨?_, sub, rfl, rfl⟩
      cases sub <;> cases hscope <;> first | rfl | cases hstream
    next => cases h
  next req =>
    split at h
    next hostAlias htarget =>
      cases Option.some.inj h
      have hkind : kinds req.requestId = .action := hk (by simp [htarget])
      have hstream : (kinds req.requestId).ofStream = true := hs
      rw [hkind] at hstream
      cases hstream
    next => cases h
  next => cases h

/-- A supervisor keeps its client and its id; a new one belongs to a fleet subscription. -/
theorem World.supervisor_origin (h : w.step a = some (w', out)) {j : SupId}
    (hb : (w'.supervisors j).phase ≠ .unborn) :
    ((w.supervisors j).phase ≠ .unborn ∧ (w'.supervisors j).client = (w.supervisors j).client ∧
      (w'.supervisors j).fleetId = (w.supervisors j).fleetId) ∨
      ∃ task, (w.sessions (w'.supervisors j).client).fleetSubs.lookup (w'.supervisors j).fleetId =
        some task := by
  have hphase : ∀ {j' phase}, (w.supervisors j').phase ≠ .unborn →
      w'.supervisors = (w.setSupPhase j' phase).supervisors → (w.supervisors j).phase ≠ .unborn ∧
        (w'.supervisors j).client = (w.supervisors j).client ∧
          (w'.supervisors j).fleetId = (w.supervisors j).fleetId := by
    intro j' phase hborn hs
    rw [hs] at hb ⊢
    by_cases hj : j = j'
    · subst hj
      rw [supervisors_setSupPhase_same]
      exact ⟨hborn, rfl, rfl⟩
    · rw [supervisors_setSupPhase_other hj] at hb ⊢
      exact ⟨hb, rfl, rfl⟩
  cases poolStep_of_step h with
  | quiet _ hs _ _ => rw [hs] at hb ⊢; exact .inl ⟨hb, rfl, rfl⟩
  | @spawned j' c' fleetId task hostAlias hu =>
    by_cases hj : j = j'
    · subst hj
      right
      simp only [step, hu] at h
      split at h
      next task' _ hl =>
        refine ⟨task', ?_⟩
        rw [supervisors_setSupervisor, Function.update_self]
        exact hl
      next => cases h
    · left
      rw [supervisors_setSupervisor, Function.update_of_ne hj] at hb ⊢
      exact ⟨hb, rfl, rfl⟩
  | moved hm _ _ hs _ => exact .inl (hphase hm.ne_unborn.1 hs)
  | born hp _ _ hs _ => exact .inl (hphase (by simp [hp]) hs)
  | pooled hp _ _ => exact .inl (hphase (by simp [hp]) rfl)
  | displaced hp _ _ _ hs => exact .inl (hphase (by simp [hp]) hs)
  | replaced hp _ _ hs _ _ => exact .inl (hphase (by simp [hp]) hs)
  | unpooled hp _ => exact .inl (hphase (by simp [hp]) rfl)
  | nothingPooled hp _ _ _ hs _ => exact .inl (hphase (by simp [hp]) hs)
  | aborted hu _ _ _ hs => exact .inl (hphase hu hs)

/-- No supervisor announces anything under the id of something else. -/
theorem fleet_elsewhere (h : Run daemon (OneAtATime kinds) tr w) (hi : (kinds c i).ofStream = true)
    {j : SupId} (hb : (w.supervisors j).phase ≠ .unborn) (hc : (w.supervisors j).client = c) :
    (w.supervisors j).fleetId ≠ i := by
  refine h.invariant (I := fun _ w => ∀ j, (w.supervisors j).phase ≠ .unborn →
    (w.supervisors j).client = c → (w.supervisors j).fleetId ≠ i) ?_ ?_ j hb hc
  · rintro _ rfl j hb
    exact absurd rfl hb
  · intro tr w a w' out hr ih _ hs j hb hc hid
    rcases World.supervisor_origin hs hb with ⟨hb', hc', hid'⟩ | ⟨task, htask⟩
    · exact ih j hb' (hc' ▸ hc) (hid' ▸ hid)
    · have hparts : Parts (kinds c i) tr w c i :=
        parts_of_run hr (by intro ha; rw [ha] at hi; cases hi)
      rw [hc, hid] at htask
      obtain ⟨u, hu, hfleet⟩ := hparts.forwarders.fleet task htask
      rw [← hparts.forwarders.kinded u hu, hfleet] at hi
      cases hi

theorem supervisor_silent (h : Run daemon (OneAtATime kinds) tr w) (hi : (kinds c i).ofStream = true)
    (hs : w.step a = some (w', out)) {version : Nat} {event : Event} {j : SupId} :
    .toClient c ⟨version, .event i event⟩ (.supervisor j) ∉ out := by
  intro ho
  generalize henv : (⟨version, .event i event⟩ : Envelope) = env at ho
  cases World.sends_of_step hs ho with
  | announced hb =>
    cases henv
    exact fleet_elsewhere h hi hb rfl rfl

end Kinds

/-- A client is told something under an id. -/
def Obs.about (c : ClientId) (i : Nat) : Obs → Bool
  | .toClient c' ⟨_, .event i' _⟩ _ => c' = c ∧ i' = i
  | _ => false

theorem Obs.ends_cases {o : Obs} {c : ClientId} {i : Nat} (h : o.endsStream c i = true) :
    ∃ version reason source,
      o = .toClient c ⟨version, .event i (.dockerStreamEnded reason)⟩ source := by
  cases o with
  | toClient c' env source =>
    obtain ⟨version, payload⟩ := env
    cases payload with
    | event i' event =>
      obtain ⟨rfl, rfl, hends⟩ := of_decide_eq_true h
      cases event with
      | dockerStreamEnded reason => exact ⟨version, reason, source, rfl⟩
      | _ => cases hends
    | _ => cases h
  | _ => cases h

theorem Obs.about_cases {o : Obs} {c : ClientId} {i : Nat} (h : o.about c i = true) :
    ∃ version event source, o = .toClient c ⟨version, .event i event⟩ source := by
  cases o with
  | toClient c' env source =>
    obtain ⟨version, payload⟩ := env
    cases payload with
    | event i' event =>
      obtain ⟨rfl, rfl⟩ := of_decide_eq_true h
      exact ⟨version, event, source, rfl⟩
    | _ => cases h
  | _ => cases h

theorem RouteCall.failure_event {call : RouteCall} {reason : String} {i : Nat} {event : Event}
    (h : (call.failure reason).payload = .event i event) : call.clientId = i := by
  have hsubject := call.subject_failure reason
  rw [h] at hsubject
  exact (Option.some.inj hsubject).symm

theorem disconnectNotice_event {hostAlias : String} {e : RoutedSub} {i : Nat} {event : Event}
    (h : (disconnectNotice hostAlias e).payload = .event i event) : e.clientId = i := by
  have hsubject := subject_disconnectNotice hostAlias e
  rw [h] at hsubject
  exact (Option.some.inj hsubject).symm

/-- Whatever can still send under the id is silent. -/
structure Muted (s : Streams) (c : ClientId) (i : Nat) : Prop where
  tasks : ∀ map t, ((s.world.sessions c).tasks map).lookup i = some t → .task t.task ∈ s.returned
  entries : ∀ k d, s.world.Routes c i k d → .agent k d ∈ s.returned
  calls : ∀ call stage, (s.world.sessions c).phase = .routing call stage → call.clientId = i →
    stage.slot ≠ none

namespace Streams

variable {kinds : ClientId → Nat → IdKind} {tr out : List Obs} {s s' : Streams} {a : Act} {c : ClientId}
  {i : Nat}

theorem step_world (h : s.step a = some (s', out)) : s.world.step a = some (s'.world, out) ∧
    s'.returned = s.note a ∧ ∀ source event, a.speaking = some (source, event) →
      source ∉ s.returned := by
  unfold step at h
  split at h
  next => cases h
  next hsaid =>
    obtain ⟨next, hnext, heq⟩ := Option.map_eq_some_iff.mp h
    cases heq
    refine ⟨hnext, rfl, fun source event ha hm => hsaid ?_⟩
    rw [ha]
    exact decide_eq_true hm

theorem returned_note : s.returned ⊆ s.note a := by
  unfold note
  split
  next => split; exacts [List.subset_cons_self _ _, List.Subset.refl _]
  next => exact List.Subset.refl _

theorem daemon_of_run (h : Run streams (StreamsKept kinds) tr s) :
    Run daemon (OneAtATime kinds) tr s.world :=
  h.project (·.world) (fun _ hi => hi.1) (fun _ _ _ _ hs => (step_world hs).1) fun _ _ _ hok => hok.1

/-- Nothing is sent under the id of a stream that is over. -/
theorem silent (h : Run streams (StreamsKept kinds) tr s) (hi : (kinds c i).ofStream = true)
    (hm : Muted s c i) (hok : StreamsKept kinds tr s a) (hs : s.step a = some (s', out))
    {version : Nat} {event : Event} {source : Source}
    (ho : .toClient c ⟨version, .event i event⟩ source ∈ out) : False := by
  obtain ⟨hworld, -, hspeaking⟩ := step_world hs
  have hr := daemon_of_run h
  generalize henv : (⟨version, .event i event⟩ : Envelope) = env at ho
  have hpayload : env.payload = .event i event := by rw [← henv]
  cases World.sends_of_step hworld ho with
  | @replied c payload panes _ hp hreply =>
    have hkinds : payload.OfKinds (kinds c) := hok.1.1
    rw [(Session.replies_own hreply).2 i event hpayload] at hkinds
    have hstatus : kinds c i = .status := hkinds
    rw [hstatus] at hi
    cases hi
  | @refused c call _ hp hrefusal =>
    refine hm.calls call _ hp ?_ rfl
    rcases hrefusal with rfl | rfl
    · exact RouteCall.failure_event hpayload
    · exact RouteCall.failure_event hpayload
  | @failed c call k d hp =>
    have hid : call.clientId = i := RouteCall.failure_event hpayload
    obtain ⟨⟨payload, hcommanded, hrouted⟩, -⟩ := (callsIssued_of_run hr).call c call _ hp
    have hstream := (Payload.routed_ofStream hrouted (commanded_ofKinds hr hcommanded) (hid ▸ hi)).1
    obtain ⟨hthere, hspoken⟩ := hok.2.2.2 (c, call, k, d) (by simp [Act.failing, hp]) hstream
    exact hspoken (hm.entries k d ⟨_, hthere, rfl, hid⟩)
  | @drained _ k d entry hk hl =>
    have hid : entry.clientId = i := disconnectNotice_event hpayload
    exact hok.2.2.1 k hk ⟨d, entry⟩ (AList.mem_lookup_iff.mp hl) (hm.entries k d ⟨entry, hl, rfl, hid⟩)
  | @relayed k d _ event' entry _ hl =>
    cases hpayload
    exact hspeaking _ _ rfl (hm.entries k d ⟨entry, hl, rfl, rfl⟩)
  | answered | acted => cases hpayload
  | @announced j _ _ hb =>
    cases hpayload
    exact fleet_elsewhere hr hi hb rfl rfl
  | @emitted task c sub event' htask _ =>
    cases hpayload
    obtain ⟨map, -, hl⟩ := hok.2.1 task rfl _ htask
    exact hspeaking _ _ rfl (hm.tasks map _ hl)

/-- A muted id stays so until it is subscribed again. -/
theorem keep (hi : (kinds c i).ofStream = true)
    (hm : Muted s c i) (hok : StreamsKept kinds tr s a) (hs : s.step a = some (s', out))
    (hnew : ∀ sub, .commanded c (.subscribe sub) ∈ out → sub.id ≠ i) : Muted s' c i := by
  obtain ⟨hworld, hreturned, -⟩ := step_world hs
  have hstep := World.routingStep_of_step hworld
  have hgrows : s.returned ⊆ s'.returned := hreturned ▸ returned_note
  refine ⟨fun map t ht => ?_, fun k d hr => ?_, fun call stage hp hid => ?_⟩
  · rcases hstep.tasks_old ht with ht | ⟨sub, hsub, hid⟩
    · exact hgrows (hm.tasks map t ht)
    · exact absurd hid (hnew sub hsub)
  · refine hgrows (hm.entries k d (hstep.routes_old hr fun e he hc hid => ?_))
    obtain ⟨c', call, -, hp, rfl, -⟩ := hstep.inserted_call he
    obtain rfl : c' = c := hc
    exact hm.calls call _ hp hid rfl
  · rcases hstep.call_cases hp with ⟨-, payload, hcommanded, hrouted⟩ | ⟨stage', hp', hnext⟩
    · obtain ⟨panes, rfl⟩ := hstep.commanded_cases hcommanded
      obtain ⟨-, sub, rfl, hsub⟩ := Payload.routed_ofStream hrouted hok.1.1 (hid ▸ hi)
      exact absurd (hsub.trans hid) (hnew sub hcommanded)
    · have hslot := hm.calls call stage' hp' hid
      cases hnext with
      | same => exact hslot
      | allocated => exact absurd rfl hslot
      | inserted => exact absurd rfl hslot
      | sendFailed => exact Option.some_ne_none _

/-- A drain tells a client at most one thing under an id. -/
theorem notices_about {kind : IdKind} {w : World} (h : Parts kind tr w c i) (k : ConnId) :
    (w.notices k).countP (Obs.about c i) ≤ 1 := by
  have hroutes : ∀ entry ∈ (w.conns k).routing.entries,
      (Obs.toClient entry.2.client (disconnectNotice (w.conns k).hostAlias entry.2)
        (.drain k entry.1)).about c i = true → w.Routes c i k entry.1 := by
    intro entry hm habout
    obtain ⟨version, event, source, heq⟩ := Obs.about_cases habout
    obtain ⟨hc, henv, -⟩ := Obs.toClient.inj heq
    exact ⟨entry.2, AList.mem_lookup_iff.mpr hm, hc, disconnectNotice_event (by rw [henv])⟩
  have hnotices : w.notices k = (w.conns k).routing.entries.map fun entry =>
      Obs.toClient entry.2.client (disconnectNotice (w.conns k).hostAlias entry.2)
        (.drain k entry.1) := rfl
  have hkeys : (w.conns k).routing.entries.Pairwise fun x y => x.1 ≠ y.1 :=
    List.nodupKeys_iff_pairwise.mp (w.conns k).routing.nodupKeys
  rw [hnotices, List.countP_map, List.countP_eq_length_filter]
  generalize hl : (w.conns k).routing.entries.filter _ = found
  have hfound : ∀ x ∈ found, w.Routes c i k x.1 := by
    intro x hx
    rw [← hl] at hx
    obtain ⟨hm, habout⟩ := List.mem_filter.mp hx
    exact hroutes x hm habout
  have hdistinct : found.Pairwise fun x y => x.1 ≠ y.1 := hl ▸ hkeys.filter _
  match found, hfound, hdistinct with
  | [], _, _ => exact Nat.zero_le 1
  | [_], _, _ => exact Nat.le_refl 1
  | x :: y :: rest, hfound, hdistinct =>
    have hx := hfound x List.mem_cons_self
    have hy := hfound y (List.mem_cons_of_mem x List.mem_cons_self)
    have hne := (List.pairwise_cons.mp hdistinct).1 y List.mem_cons_self
    exact absurd (h.routes_unique hx hy).2.symm hne

theorem countP_about_le (h : out.length ≤ 1) : out.countP (Obs.about c i) ≤ 1 :=
  Nat.le_trans List.countP_le_length h

/-- Each producer of the id was one before. -/
def Inherits (w w' : World) (c : ClientId) (i : Nat) : Prop :=
  (∀ map t, ((w'.sessions c).tasks map).lookup i = some t → ((w.sessions c).tasks map).lookup i = some t) ∧
    ∀ k d, w'.Routes c i k d → w.Routes c i k d

/-- A step that is neither a command nor an insertion adds no producer. -/
theorem inherits_of_step {w w' : World} (hstep : RoutingStep w a w' out)
    (hcommand : ∀ payload panes, a ≠ .command c payload panes)
    (hroute : ∀ call k d, (w.sessions c).phase = .routing call (.allocated k d) → a ≠ .route c) :
    Inherits w w' c i := by
  refine ⟨fun map t ht => ?_, fun k d hroutes => hstep.routes_old hroutes fun e he hc _ => ?_⟩
  · rcases hstep.tasks_old ht with ht | ⟨sub, hsub, -⟩
    · exact ht
    · obtain ⟨panes, ha⟩ := hstep.commanded_cases hsub
      exact absurd ha (hcommand _ _)
  · obtain ⟨c', call, ha, hp, rfl, -⟩ := hstep.inserted_call he
    obtain rfl : c' = c := hc
    exact absurd ha (hroute call k d hp)

section Muting

variable {kind : IdKind} {k : ConnId} {d : Nat}

/-- A call that is over leaves nothing, if its entry is gone. -/
theorem muted_after_call {call : RouteCall} {stage : CallStage} (h : Parts kind tr s.world c i)
    (hp : (s.world.sessions c).phase = .routing call stage) (hid : call.clientId = i)
    (hold : Inherits s.world s'.world c i)
    (hgone : ∀ k d, stage.slot = some (k, d) → ¬ s'.world.Routes c i k d)
    (hready : (s'.world.sessions c).phase = .ready) : Muted s' c i := by
  obtain ⟨htasks, hroutes⟩ := h.calling_alone hp hid
  refine ⟨fun map t ht => ?_, fun k d hroute => ?_, fun call' stage' hp' => ?_⟩
  · cases (htasks map).symm.trans (hold.1 map t ht)
  · exact absurd hroute (hgone k d (hroutes k d (hold.2 k d hroute)))
  · cases hready.symm.trans hp'

/-- Where the id has an entry, only that can go on to send. -/
theorem muted_after_route (h : Parts kind tr s.world c i) (hroute : s.world.Routes c i k d)
    (hold : Inherits s.world s'.world c i)
    (hdone : s'.world.Routes c i k d → .agent k d ∈ s'.returned)
    (hsessions : s'.world.sessions c = s.world.sessions c) : Muted s' c i := by
  refine ⟨fun map t ht => ?_, fun k' d' hroute' => ?_, fun call stage hp hcall => ?_⟩
  · exact absurd hroute ((h.held_local (hold.1 map t ht)).1 k d)
  · obtain ⟨rfl, rfl⟩ := h.routes_unique hroute (hold.2 k' d' hroute')
    exact hdone hroute'
  · rw [hsessions] at hp
    rw [h.routes_slot hroute hp hcall]
    exact Option.some_ne_none _

/-- Where the id has a local forwarder, only that can go on to send. -/
theorem muted_after_task {map : TaskMap} {t : LocalTask} (h : Parts kind tr s.world c i)
    (hheld : ((s.world.sessions c).tasks map).lookup i = some t)
    (hold : Inherits s.world s'.world c i) (hdone : .task t.task ∈ s'.returned)
    (hsessions : s'.world.sessions c = s.world.sessions c) : Muted s' c i := by
  obtain ⟨hnoroute, hnocall⟩ := h.held_local hheld
  refine ⟨fun map' t' ht => ?_, fun k d hroute => ?_, fun call stage hp hcall => ?_⟩
  · obtain rfl := h.held_unique hheld (hold.1 map' t' ht)
    exact hdone
  · exact absurd (hold.2 k d hroute) (hnoroute k d)
  · rw [hsessions] at hp
    exact absurd hcall (hnocall call stage hp)

end Muting

/-- The event that ends a stream mutes its id, and nothing else is said under the id in that step. -/
theorem ended (h : Run streams (StreamsKept kinds) tr s) (hi : (kinds c i).ofStream = true)
    (hok : StreamsKept kinds tr s a) (hs : s.step a = some (s', out)) {version : Nat} {reason : String}
    {source : Source}
    (ho : .toClient c ⟨version, .event i (.dockerStreamEnded reason)⟩ source ∈ out) :
    Muted s' c i ∧ out.countP (Obs.about c i) ≤ 1 := by
  obtain ⟨hworld, hreturned, -⟩ := step_world hs
  have hr := daemon_of_run h
  have hparts : Parts (kinds c i) tr s.world c i :=
    parts_of_run hr (by intro ha; rw [ha] at hi; cases hi)
  have hstep := World.routingStep_of_step hworld
  generalize henv : (⟨version, .event i (.dockerStreamEnded reason)⟩ : Envelope) = env at ho
  have hpayload : env.payload = .event i (.dockerStreamEnded reason) := by rw [← henv]
  cases World.sends_of_step hworld ho with
  | @replied c payload panes _ hp hreply =>
    obtain rfl := (Session.replies_own hreply).2 i _ hpayload
    have hstatus : kinds c i = .status := hok.1.1
    rw [hstatus] at hi
    cases hi
  | @refused c call _ hp hrefusal =>
    have hid : call.clientId = i := by
      rcases hrefusal with rfl | rfl
      · exact RouteCall.failure_event hpayload
      · exact RouteCall.failure_event hpayload
    obtain ⟨hone, hready⟩ := World.route_refused hworld hp
    have hold : Inherits s.world s'.world c i :=
      inherits_of_step hstep (fun _ _ ha => by cases ha) fun call k d hp' => by
        cases hp.symm.trans hp'
    refine ⟨muted_after_call hparts hp hid hold ?_ (hready ⟨_, _, _, ho⟩), countP_about_le hone⟩
    intro k d hslot
    cases hslot
  | @failed c call k d hp =>
    have hid : call.clientId = i := RouteCall.failure_event hpayload
    obtain ⟨hone, hgone, hready⟩ := World.failed_gone hworld hp
    have hold : Inherits s.world s'.world c i :=
      inherits_of_step hstep (fun _ _ ha => by cases ha) fun call k d hp' => by
        cases hp.symm.trans hp'
    refine ⟨muted_after_call hparts hp hid hold ?_ hready, countP_about_le hone⟩
    rintro k' d' hslot ⟨e, he, -⟩
    cases hslot
    cases hgone.symm.trans he
  | @drained _ k d entry hk hl =>
    have hid : entry.clientId = i := disconnectNotice_event hpayload
    obtain ⟨hempty, hsessions, rest, rfl, hrest⟩ := World.drain_out hworld hk
    have hroute : s.world.Routes entry.client i k d := ⟨entry, hl, rfl, hid⟩
    have hnocommand : ∀ payload panes, a ≠ .command entry.client payload panes := by
      rintro payload panes rfl
      cases hk
    have hold : Inherits s.world s'.world entry.client i :=
      inherits_of_step hstep hnocommand fun call k d _ ha => by
        rw [ha] at hk
        cases hk
    refine ⟨muted_after_route hparts hroute hold ?_ (congrFun hsessions _), ?_⟩
    · rintro ⟨e, he, -⟩
      rw [hempty] at he
      cases he
    · have hquiet : rest.countP (Obs.about entry.client i) = 0 := by
        refine List.countP_eq_zero.mpr fun o ho habout => ?_
        obtain ⟨version', event, source, rfl⟩ := Obs.about_cases habout
        obtain ⟨j, rfl⟩ := hrest _ _ _ ho
        exact supervisor_silent hr hi hworld (List.mem_append_right _ ho)
      rw [List.countP_append, hquiet]
      exact notices_about hparts k
  | @relayed k d _ event entry hparser hl =>
    cases hpayload
    have hroute : s.world.Routes entry.client entry.clientId k d := ⟨entry, hl, rfl, rfl⟩
    have hold : Inherits s.world s'.world entry.client entry.clientId :=
      inherits_of_step hstep (fun _ _ ha => by cases ha) fun _ _ _ _ ha => by cases ha
    have hnoted : .agent k d ∈ s'.returned := by
      rw [hreturned]
      exact List.mem_cons_self
    refine ⟨muted_after_route hparts hroute hold (fun _ => hnoted)
      (hstep.sessions_other fun ha => by cases ha), ?_⟩
    simp only [World.step, Option.ite_none_right_eq_some] at hworld
    have hout := congrArg Prod.snd (Option.some.inj hworld.2)
    simp only [World.routeAgentEnvelope, hl] at hout
    subst hout
    exact countP_about_le (Nat.le_refl 1)
  | answered | acted => cases hpayload
  | announced => cases hpayload
  | @emitted task c sub event htask hmay =>
    cases hpayload
    obtain ⟨map, -, hheld⟩ := hok.2.1 task rfl _ htask
    have hold : Inherits s.world s'.world c sub.id :=
      inherits_of_step hstep (fun _ _ ha => by cases ha) fun _ _ _ _ ha => by cases ha
    have hnoted : .task task ∈ s'.returned := by
      rw [hreturned]
      exact List.mem_cons_self
    refine ⟨muted_after_task hparts hheld hold hnoted (hstep.sessions_other fun ha => by cases ha), ?_⟩
    simp only [World.step, htask, hmay, if_true, Option.some.injEq, Prod.mk.injEq] at hworld
    rw [← hworld.2]
    exact countP_about_le (Nat.le_refl 1)

end Streams

section Runs

variable {kinds : ClientId → Nat → IdKind} {tr : List Obs} {s : Streams} {c : ClientId} {i : Nat}

theorem muted_of_run (h : Run streams (StreamsKept kinds) tr s) (hi : (kinds c i).ofStream = true)
    (hover : streamState c i tr = .over) : Muted s c i := by
  refine h.invariant (I := fun tr s => streamState c i tr = .over → Muted s c i) ?_ ?_ hover
  · intro s _ hidle
    cases hidle
  · intro tr s a s' out hr ih hok hs hover
    rcases streamState_over hover with ⟨hbefore, hnew⟩ | ⟨o, ho, hend⟩
    · exact Streams.keep hi (ih hbefore) hok hs hnew
    · obtain ⟨version, reason, source, rfl⟩ := Obs.ends_cases hend
      exact (Streams.ended hr hi hok hs ho).1

/-- An id that has a stream is one for streams. -/
theorem stream_of_subscribed
    (hcommanded : ∀ sub, .commanded c (.subscribe sub) ∈ tr → kinds c sub.id = sub.kind)
    (hover : streamState c i tr ≠ .idle) : (kinds c i).ofStream = true := by
  induction tr using List.reverseRecOn with
  | nil => exact absurd rfl hover
  | append_singleton tr o ih =>
    have hold := ih fun sub hm => hcommanded sub (List.mem_append_left _ hm)
    rw [streamState_snoc] at hover
    rcases Obs.followStream_cases (c := c) (i := i) o (streamState c i tr) with
      ⟨sub, rfl, rfl, heq⟩ | ⟨-, hstream, -⟩ | ⟨-, heq⟩
    · rw [hcommanded sub (by simp)]
      by_contra hne
      rw [heq, if_neg hne] at hover
      exact hover rfl
    · exact hold (by simp [hstream])
    · exact hold (heq ▸ hover)

/-- Nothing is sent under the id of a stream that is over. -/
theorem silent_of_run (h : Run streams (StreamsKept kinds) tr s) :
    ∀ pre o post, tr = pre ++ o :: post → o.about c i = true → (kinds c i).ofStream = true →
      streamState c i pre ≠ .over := by
  refine h.observed_after (P := fun pre o => o.about c i = true → (kinds c i).ofStream = true →
    streamState c i pre ≠ .over) ?_
  intro tr s a s' out hr hok hs pre o post hout habout hi hover
  have ho : o ∈ out := hout ▸ List.mem_append_right _ List.mem_cons_self
  rcases streamState_over hover with ⟨hbefore, -⟩ | ⟨o', ho', hend⟩
  · obtain ⟨version, event, source, rfl⟩ := Obs.about_cases habout
    exact Streams.silent hr hi (muted_of_run hr hi hbefore) hok hs ho
  · obtain ⟨version, reason, source, rfl⟩ := Obs.ends_cases hend
    have hm : .toClient c ⟨version, .event i (.dockerStreamEnded reason)⟩ source ∈ out :=
      hout ▸ List.mem_append_left _ ho'
    have hone := (Streams.ended hr hi hok hs hm).2
    have hfirst : 0 < pre.countP (Obs.about c i) :=
      List.countP_pos_iff.mpr ⟨_, ho', decide_eq_true ⟨rfl, rfl⟩⟩
    rw [hout, List.countP_append, List.countP_cons_of_pos habout] at hone
    omega

end Runs

/-- In every run that keeps its streams, a logs or stats subscription ends once, and its client hears
nothing more of it. -/
theorem streams_end_once {kinds : ClientId → Nat → IdKind} {tr : List Obs} {s : Streams}
    (h : Run streams (StreamsKept kinds) tr s) : StreamsEndOnce tr := by
  intro pre post c env source i event htr henv hover
  obtain ⟨version, payload⟩ := env
  cases henv
  refine silent_of_run h pre _ post htr (decide_eq_true ⟨rfl, rfl⟩) ?_ hover
  have hnotIdle : streamState c i pre ≠ .idle := by simp [hover]
  refine stream_of_subscribed (fun sub hm => ?_) hnotIdle
  exact commanded_ofKinds (Streams.daemon_of_run h) (htr ▸ List.mem_append_left _ hm)

/-- Id `1` is for the fleet, the others are for logs. -/
def logsKinds (_ : ClientId) (i : Nat) : IdKind := if i = 1 then .fleet else .dockerLogs

/-- Client `0` reads the logs of a container of `h`, through a connected agent. -/
def logsBy : List Act :=
  registerBy 0 0 ++ [.command 0 (.subscribe (.dockerLogs 5 "db" true 10 (.remote "h"))) .none,
    .route 0, .route 0, .route 0]

theorem streams_end_once_drained : ∃ tr s, Run streams (StreamsKept logsKinds) tr s ∧
    streamState 0 5 tr = .over ∧ StreamsEndOnce tr := by
  obtain ⟨tr, s, hr, hover⟩ := Run.of_replay streams (StreamsKept logsKinds)
    (fun tr _ => streamState 0 5 tr = .over) (s := ⟨.initial, []⟩) ⟨rfl, rfl⟩
    (logsBy ++ [Act.agentFrame 0 (eventFrame 1 (.containerLog .stdout [])), .parserEnd 0]) (by decide)
  exact ⟨tr, s, hr, hover, streams_end_once hr⟩

/-- The agent ends the stream, then its own stream ends, and the drain ends the first one again. -/
theorem stream_ended_twice : ¬ ∀ (tr : List Obs) (s : Streams), Run streams Free tr s →
    StreamsEndOnce tr := by
  intro hall
  obtain ⟨tr, s, hr, hlast, hover⟩ := Run.of_replay streams Free
    (fun tr _ => tr.getLast? = some (.toClient 0
        (eventFrame 5 (.dockerStreamEnded "agent disconnected: h")) (.drain 0 1)) ∧
      streamState 0 5 tr.dropLast = .over) (s := ⟨.initial, []⟩) ⟨rfl, rfl⟩
    (logsBy ++ [Act.agentFrame 0 (eventFrame 1 (.dockerStreamEnded "stream ended")), .parserEnd 0])
    (by decide)
  have htr : tr = tr.dropLast ++ [_] := (List.dropLast_append_getLast? _ hlast).symm
  exact hall tr s hr tr.dropLast [] 0 _ _ 5 _ htr rfl hover

end Tepegoz
