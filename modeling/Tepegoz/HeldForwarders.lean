import Tepegoz.OneProducer
import Tepegoz.RoutedCalls

namespace Tepegoz

open Transition

/-- The id that a command takes into use. -/
def Payload.takes : Payload → Option Nat
  | .subscribe sub => some sub.id
  | .attachPane _ id => some id
  | _ => none

/-- Client `c` takes only ids into use that it does not use. -/
def TakesUnused (c : ClientId) (tr : List Obs) (_ : World) : Act → Prop
  | .command c' payload _ => c' = c → ∀ i, payload.takes = some i → newest c i tr = none
  | _ => True

/-- The forwarder, the handle and the call that a session holds for an id serve its newest use. -/
structure HeldServes (use : Option Use) (w : World) (c : ClientId) (i : Nat) : Prop where
  task : ∀ map t, ((w.sessions c).tasks map).lookup i = some t → use = some (.subscription t.sub)
  handle : ∀ handle, (w.sessions c).clientAgentSubs.lookup i = some handle →
    ∃ sub, use = some (.subscription sub) ∧ sub.target = some (.remote (w.conns handle.conn).hostAlias)
  calling : ∀ call stage, (w.sessions c).phase = .routing call stage → call.kind = .subscription →
    call.clientId = i → ∃ sub, use = some (.subscription sub) ∧ sub.target = some (.remote call.hostAlias)

/-- The target of the subscription that a source serves. -/
def World.targetOf (w : World) : Source → Option ScopeTarget
  | .task task => (w.tasks task).bind fun owner => owner.2.target
  | .agent k _ => some (.remote (w.conns k).hostAlias)
  | _ => none

/-- The tasks and the routing entries that relay what a subscription brings. -/
def Source.forwards : Source → Bool
  | .task _ | .agent _ _ => true
  | _ => false

/-- The routing entry that a call in progress has put in for a subscription under the id `i`. -/
def SessionPhase.subscribing (i : Nat) : SessionPhase → Option (ConnId × Nat)
  | .routing call stage => if call.kind = .subscription ∧ call.clientId = i then stage.slot else none
  | _ => none

/-- The session of client `c` holds the task or the routing entry under the id `i`: it has not aborted
or given up the one that it started. -/
def World.HoldsSource (w : World) (c : ClientId) (i : Nat) : Source → Prop
  | .task task => ∃ owner ∈ w.tasks task, ∃ map ∈ [TaskMap.docker, .ports, .processes],
      ((w.sessions c).tasks map).lookup i = some ⟨task, owner.2⟩
  | .agent k d => ((w.sessions c).clientAgentSubs.lookup i).map AgentSubHandle.slot = some (k, d) ∨
      (w.sessions c).phase.subscribing i = some (k, d)
  | _ => True

instance (w : World) (c : ClientId) (i : Nat) (source : Source) : Decidable (w.HoldsSource c i source) := by
  unfold World.HoldsSource
  split <;> infer_instance

section Held

variable {use : Option Use} {tr out : List Obs} {w w' : World} {c : ClientId} {i : Nat} {a : Act}

theorem IdLedger.handle_born {id : Nat} {handle : AgentSubHandle} (h : IdLedger tr w)
    (hh : (w.sessions c).clientAgentSubs.lookup id = some handle) : handle.conn < w.connCount := by
  obtain ⟨e, hm, -⟩ := h.handle c id handle (.inl hh)
  exact h.born _ _ _ (h.inserted _ _ _ hm)

/-- A step after which the session holds nothing new for the id. -/
theorem HeldServes.keep (h : HeldServes use w c i) (hl : IdLedger tr w) (hs : RoutingStep w a w' out)
    (htasks : ∀ map t, ((w'.sessions c).tasks map).lookup i = some t →
      ((w.sessions c).tasks map).lookup i = some t)
    (hhandles : ∀ handle, (w'.sessions c).clientAgentSubs.lookup i = some handle →
      (w.sessions c).clientAgentSubs.lookup i = some handle)
    (hcalls : ∀ call stage, (w'.sessions c).phase = .routing call stage → call.kind = .subscription →
      call.clientId = i → ∃ stage', (w.sessions c).phase = .routing call stage') :
    HeldServes use w' c i where
  task map t hl := h.task map t (htasks map t hl)
  handle handle hh := by
    rw [hs.hostAlias_kept (hl.handle_born (hhandles handle hh))]
    exact h.handle handle (hhandles handle hh)
  calling call stage hp hk hid := by
    obtain ⟨stage', hp'⟩ := hcalls call stage hp hk hid
    exact h.calling call stage' hp' hk hid

/-- A step that changes no more than the phase of the session. -/
theorem HeldServes.phase {phase : SessionPhase} (h : HeldServes use w c i) (hl : IdLedger tr w)
    (hs : RoutingStep w a w' out) (hsess : w'.sessions c = { w.sessions c with phase := phase })
    (hcalls : ∀ call stage, phase = .routing call stage →
      ∃ stage', (w.sessions c).phase = .routing call stage') : HeldServes use w' c i := by
  refine h.keep hl hs (fun map t hl => ?_) (fun handle hh => ?_) fun call stage hp _ _ => ?_
  · rw [hsess] at hl
    cases map <;> exact hl
  · rw [hsess] at hh
    exact hh
  · rw [hsess] at hp
    exact hcalls call stage hp

/-- A session that holds nothing for the id. -/
theorem HeldServes.of_empty (htasks : ∀ map, ((w.sessions c).tasks map).lookup i = none)
    (hhandles : (w.sessions c).clientAgentSubs.lookup i = none)
    (hcalls : ∀ call stage, (w.sessions c).phase = .routing call stage → call.kind = .subscription →
      call.clientId ≠ i) : HeldServes use w c i where
  task map t hl := by rw [htasks] at hl; cases hl
  handle handle hh := by rw [hhandles] at hh; cases hh
  calling call stage hp hk hid := absurd hid (hcalls call stage hp hk)

/-- Nothing is held for an id that is not in use. -/
theorem HeldServes.unused (h : HeldServes none w c i) :
    (∀ map, ((w.sessions c).tasks map).lookup i = none) ∧
      (w.sessions c).clientAgentSubs.lookup i = none := by
  refine ⟨fun map => Option.eq_none_iff_forall_ne_some.mpr fun t hl => ?_,
    Option.eq_none_iff_forall_ne_some.mpr fun handle hh => ?_⟩
  · cases h.task map t hl
  · obtain ⟨sub, hu, -⟩ := h.handle handle hh
    cases hu

theorem Session.handleUnsubscribe_idle {s : Session} (hp : s.phase = .ready) (id : Nat) (call : RouteCall)
    (stage : CallStage) : (s.handleUnsubscribe id).phase ≠ .routing call stage := by
  cases hl : s.clientAgentSubs.lookup id <;> simp [handleUnsubscribe, hl, hp]

/-- A new task leaves the routed subscriptions and the phase alone. -/
theorem Session.addTask_frame (s : Session) (map : TaskMap) (id : Nat) (t : LocalTask) :
    (s.addTask map id t).clientAgentSubs = s.clientAgentSubs ∧
      (s.addTask map id t).phase = s.phase := by
  cases map <;> exact ⟨rfl, rfl⟩

section Commands

variable {s' : Session} {sub : Subscription}

/-- A command that starts nothing under the id and ends nothing there. -/
theorem HeldServes.other (h : HeldServes use w c i) (hsess : w'.sessions c = s')
    (hconns : w'.conns = w.conns)
    (htasks : ∀ map, (s'.tasks map).lookup i = ((w.sessions c).tasks map).lookup i)
    (hhandles : s'.clientAgentSubs.lookup i = (w.sessions c).clientAgentSubs.lookup i)
    (hcalls : ∀ call stage, s'.phase = .routing call stage → call.kind = .subscription →
      call.clientId ≠ i) : HeldServes use w' c i where
  task map t hl := by
    rw [hsess, htasks] at hl
    exact h.task map t hl
  handle handle hh := by
    rw [hsess, hhandles] at hh
    rw [hconns]
    exact h.handle handle hh
  calling call stage hp hk hid := by
    rw [hsess] at hp
    exact absurd hid (hcalls call stage hp hk)

theorem HeldServes.spawned {map : TaskMap} {task : TaskId} (h : HeldServes none w c sub.id)
    (hp : (w.sessions c).phase = .ready)
    (hsess : w'.sessions c = (w.sessions c).addTask map sub.id ⟨task, sub⟩) :
    HeldServes (some (.subscription sub)) w' c sub.id := by
  obtain ⟨htasks, hhandles⟩ := h.unused
  obtain ⟨hsame, hphase⟩ := (w.sessions c).addTask_frame map sub.id ⟨task, sub⟩
  refine ⟨fun map' t hl => ?_, fun handle hh => ?_, fun call stage hcall => ?_⟩
  · rw [hsess] at hl
    by_cases he : map' = map
    · subst he
      rw [Session.tasks_addTask_same, AList.lookup_insert] at hl
      obtain rfl := Option.some.inj hl
      rfl
    · rw [Session.tasks_addTask_other _ he, htasks] at hl
      cases hl
  · rw [hsess, hsame, hhandles] at hh
    cases hh
  · rw [hsess, hphase, hp] at hcall
    cases hcall

theorem HeldServes.routed {hostAlias : String} {scope : RoutedScope} {capability : String}
    (h : HeldServes none w c sub.id) (ht : sub.target = some (.remote hostAlias))
    (hsess : w'.sessions c = { w.sessions c with
      phase := .routing (routeRemoteSubscribe sub hostAlias scope capability) .lookup }) :
    HeldServes (some (.subscription sub)) w' c sub.id := by
  obtain ⟨htasks, hhandles⟩ := h.unused
  refine ⟨fun map t hl => ?_, fun handle hh => ?_, fun call stage hcall _ _ => ?_⟩
  · have hold : ((w.sessions c).tasks map).lookup sub.id = some t := by
      rw [hsess] at hl
      cases map <;> exact hl
    cases (htasks map).symm.trans hold
  · rw [hsess] at hh
    cases hhandles.symm.trans hh
  · rw [hsess] at hcall
    obtain ⟨rfl, -⟩ := SessionPhase.routing.inj hcall
    exact ⟨sub, rfl, ht⟩

/-- An unused id is taken for something that is neither forwarded nor routed. -/
theorem HeldServes.taken (h : HeldServes none w c i) (hsess : w'.sessions c = s')
    (htasks : ∀ map, s'.tasks map = (w.sessions c).tasks map)
    (hhandles : s'.clientAgentSubs = (w.sessions c).clientAgentSubs) (hready : s'.phase = .ready)
    (use : Option Use) : HeldServes use w' c i := by
  refine .of_empty (fun map => ?_) ?_ fun call stage hp => ?_
  · rw [hsess, htasks]
    exact h.unused.1 map
  · rw [hsess, hhandles]
    exact h.unused.2
  · rw [hsess, hready] at hp
    cases hp

theorem HeldServes.unsubscribed (hp : (w.sessions c).phase = .ready)
    (hsess : w'.sessions c = (w.sessions c).handleUnsubscribe i) : HeldServes use w' c i := by
  refine .of_empty (fun map => ?_) ?_ fun call stage hphase => ?_
  · rw [hsess]
    cases map <;> exact AList.lookup_erase _ _
  · rw [hsess]
    exact AList.lookup_erase _ _
  · rw [hsess] at hphase
    exact absurd hphase (Session.handleUnsubscribe_idle hp i call stage)

end Commands

/-- Of two commands on an id only the newer one leaves something behind in the session. -/
theorem HeldServes.commanded {payload : Payload} {s' : Session} (h : HeldServes use w c i)
    (hp : (w.sessions c).phase = .ready) (hunused : payload.takes = some i → use = none)
    (heffect : CommandEffect (w.sessions c) w.taskCount payload s')
    (hsess : w'.sessions c = s') (hconns : w'.conns = w.conns) :
    HeldServes (payload.renew i use) w' c i := by
  have hready : ∀ {s : Session}, s.phase = .ready → ∀ call stage, s.phase = .routing call stage →
      call.kind = .subscription → call.clientId ≠ i := by
    intro s hs call stage hphase
    rw [hs] at hphase
    cases hphase
  cases heffect with
  | spawned sub map hm ht =>
    by_cases hid : sub.id = i
    · subst hid
      simp only [Payload.renew, if_true]
      exact (hunused rfl ▸ h).spawned hp hsess
    · simp only [Payload.renew, hid, if_false]
      obtain ⟨hsame, hphase⟩ := (w.sessions c).addTask_frame map sub.id ⟨w.taskCount, sub⟩
      exact h.other hsess hconns (fun map' => Session.lookup_addTask_other _ (Ne.symm hid) _)
        (by rw [hsame]) (hready (hphase.trans hp))
  | @routed sub hostAlias scope capability ht =>
    by_cases hid : sub.id = i
    · subst hid
      simp only [Payload.renew, if_true]
      exact (hunused rfl ▸ h).routed ht hsess
    · simp only [Payload.renew, hid, if_false]
      refine h.other hsess hconns (fun map => by cases map <;> rfl) rfl fun call stage hphase _ => ?_
      obtain ⟨rfl, -⟩ := SessionPhase.routing.inj hphase
      exact hid
  | @status id | @fleet id =>
    by_cases hid : id = i
    · subst hid
      exact (hunused rfl ▸ h).taken hsess (fun map => by cases map <;> rfl) rfl hp _
    · simp only [Payload.renew, Subscription.id, hid, if_false]
      exact h.other hsess hconns (fun map => by cases map <;> rfl) rfl (hready hp)
  | @attached paneId id | @unknownPane paneId id =>
    by_cases hid : id = i
    · subst hid
      exact (hunused rfl ▸ h).taken hsess (fun map => by cases map <;> rfl) rfl hp _
    · simp only [Payload.renew, hid, if_false]
      exact h.other hsess hconns (fun map => by cases map <;> rfl) rfl (hready hp)
  | @action req hostAlias ht =>
    -- the call of an action answers once, it is not one for a subscription
    refine h.other hsess hconns (fun map => by cases map <;> rfl) rfl fun call stage hphase hk => ?_
    obtain ⟨rfl, -⟩ := SessionPhase.routing.inj hphase
    cases hk
  | @unsubscribed id =>
    by_cases hid : id = i
    · subst hid
      exact .unsubscribed hp hsess
    · simp only [Payload.renew, hid, if_false]
      exact h.other hsess hconns (fun map => by cases map <;> exact AList.lookup_erase_ne (Ne.symm hid))
        (AList.lookup_erase_ne (Ne.symm hid))
        fun call stage hphase => absurd hphase (Session.handleUnsubscribe_idle hp id call stage)
  | unchanged hm =>
    have hrenew : payload.renew i use = use := by
      cases payload <;> first | rfl | simp [Payload.managesId] at hm
    rw [hrenew]
    exact h.other hsess hconns (fun _ => rfl) rfl (hready hp)

theorem HeldServes.step (h : ∀ i, HeldServes (newest c i tr) w c i) (hl : IdLedger tr w)
    (hi : CallsIssued tr w) (hok : TakesUnused c tr w a) (hs : RoutingStep w a w' out) :
    ∀ i, HeldServes (newest c i (tr ++ out)) w' c i := by
  intro i
  have hold := h i
  by_cases hc : a.client = some c
  · have hstay : (∀ payload, .commanded c payload ∉ out) → newest c i (tr ++ out) = newest c i tr :=
      newest_append_of_none
    have hphase : ∀ {phase : SessionPhase}, w'.sessions c = { w.sessions c with phase := phase } →
        (∀ call stage, phase = .routing call stage →
          ∃ stage', (w.sessions c).phase = .routing call stage') →
        HeldServes (newest c i tr) w' c i := fun hsess hcalls => hold.phase hl hs hsess hcalls
    cases hs with
    | quiet _ _ hsess hq =>
      rw [hstay fun payload hm => by cases hq _ hm]
      exact hphase (by rw [hsess]) fun call stage hp => ⟨stage, hp⟩
    | born _ _ hsess =>
      rw [hstay (by simp)]
      exact hphase (by rw [hsess]) fun call stage hp => ⟨stage, hp⟩
    | drained _ _ _ _ _ _ _ _ hsess hq =>
      rw [hstay fun payload hm => by cases hq _ hm]
      exact hphase (by rw [hsess]) fun call stage hp => ⟨stage, hp⟩
    | driverEnd | answered => cases hc
    | @connected c' hp =>
      obtain rfl := Option.some.inj hc
      have hsess : (w.setSession c' .fresh).sessions c' = .fresh := by simp
      exact .of_empty (fun map => by rw [hsess]; cases map <;> rfl) (by rw [hsess]; rfl)
        fun call stage hp => by rw [hsess] at hp; cases hp
    | @commanded c' payload panes handled hp heq =>
      obtain rfl := Option.some.inj hc
      subst heq
      rw [newest_append_command payload World.replies_quiet]
      exact hold.commanded hp (hok rfl i) ((w.sessions c').commandEffect w.taskCount panes payload)
        (by simp) rfl
    | @refused c' call env hp | @rolledBack c' call k d hp =>
      obtain rfl := Option.some.inj hc
      rw [hstay (by simp)]
      exact hphase (World.sessions_setPhase_same _ _) fun call' stage heq => by cases heq
    | @allocated c' call k hp hk | @inserted c' call k d hp =>
      obtain rfl := Option.some.inj hc
      rw [hstay (by simp)]
      refine hphase (World.sessions_setPhase_same _ _) fun call' stage heq => ?_
      obtain ⟨rfl, -⟩ := SessionPhase.routing.inj heq
      exact ⟨_, hp⟩
    | @sendFailed c' call k d hp hd =>
      obtain rfl := Option.some.inj hc
      rw [hstay (by simp)]
      refine hphase (World.sessions_setPhase_same _ _) fun call' stage heq => ?_
      obtain ⟨rfl, -⟩ := SessionPhase.routing.inj heq
      exact ⟨_, hp⟩
    | @sent c' call k d handles hp hd heq =>
      obtain rfl := Option.some.inj hc
      rw [hstay (by simp)]
      have hsess : ∀ s : Session, (w.setSession c' s).sessions c' = s := by simp
      refine ⟨fun map t hl' => hold.task map t ?_, fun handle hh => ?_, fun call' stage hp' => ?_⟩
      · rw [hsess] at hl'
        cases map <;> exact hl'
      · rw [hsess] at hh
        simp only [heq] at hh
        split at hh
        next hk =>
          by_cases hid : i = call.clientId
          · -- the new handle leads to the connection that the call has found under its alias
            rw [hid, AList.lookup_insert] at hh
            obtain rfl := Option.some.inj hh
            have halias := (hi.call c' call _ hp).2 k rfl
            obtain ⟨sub, hu, ht⟩ := hold.calling call _ hp hk hid.symm
            exact ⟨sub, hu, by rw [ht, ← halias]; rfl⟩
          · rw [AList.lookup_insert_ne hid] at hh
            exact hold.handle handle hh
        next => exact hold.handle handle hh
      · rw [hsess] at hp'
        cases hp'
    | @unsubscribed c' id handle hp =>
      obtain rfl := Option.some.inj hc
      rw [hstay fun payload hm => by simpa [Obs.author] using World.author_release hm]
      have hafter : ((w.release c' id handle).1.setPhase c' .ready).sessions c' =
          { w.sessions c' with phase := .ready } := by
        rw [World.sessions_setPhase_release, World.sessions_setPhase_same]
      exact hphase hafter fun call' stage heq => by cases heq
    | @teardownNext c' id handle todo hp =>
      obtain rfl := Option.some.inj hc
      rw [hstay fun payload hm => by simpa [Obs.author] using World.author_release hm]
      have hafter : ((w.release c' id handle).1.setPhase c' (.draining todo)).sessions c' =
          { w.sessions c' with phase := .draining todo } := by
        rw [World.sessions_setPhase_release, World.sessions_setPhase_same]
      exact hphase hafter fun call' stage heq => by cases heq
    | @disconnected c' hp =>
      obtain rfl := Option.some.inj hc
      have hsess : (w.setSession c' (w.sessions c').close).sessions c' = (w.sessions c').close := by simp
      refine .of_empty (fun map => by rw [hsess]; cases map <;> rfl) (by rw [hsess]; rfl)
        fun call stage hp => absurd ?_ ((w.sessions c').close_spec.1 call stage)
      rwa [hsess] at hp
    | @teardownLocked c' todo hp | @teardownDone c' hp =>
      obtain rfl := Option.some.inj hc
      rw [hstay (by simp)]
      exact hphase (World.sessions_setPhase_same _ _) fun call' stage heq => by cases heq
  · have hsess := hs.sessions_other hc
    rw [newest_append_of_none fun payload hm => hc (hs.author_client hm rfl)]
    have hsame : w'.sessions c = { w.sessions c with phase := (w.sessions c).phase } := by rw [hsess]
    exact hold.phase hl hs hsame fun call stage hp => ⟨stage, hp⟩

/-- In every run in which the client takes only unused ids, its session holds nothing for an id but what
serves the newest use of it. -/
theorem held_of_run (h : Run daemon (TakesUnused c) tr w) : ∀ i, HeldServes (newest c i tr) w c i := by
  refine h.invariant (I := fun tr w => ∀ i, HeldServes (newest c i tr) w c i) ?_ ?_
  · rintro _ rfl i
    exact .of_empty (fun map => by cases map <;> rfl) rfl fun call stage hp => by cases hp
  · intro tr w a w' out hr ih hok hs
    exact .step ih (idLedger_of_run hr) (callsIssued_of_run hr) hok (World.routingStep_of_step hs)

theorem CallStage.conn_of_slot {stage : CallStage} {k : ConnId} {d : Nat}
    (h : stage.slot = some (k, d)) : stage.conn = some k := by
  cases stage <;> cases h <;> rfl

/-- What the session holds for an id relays its newest subscription, from the target of this. -/
theorem World.HoldsSource.target {source : Source} (hr : Run daemon (TakesUnused c) tr w)
    (hf : source.forwards = true) (h : w.HoldsSource c i source) :
    ∃ sub, newest c i tr = some (.subscription sub) ∧ w.targetOf source = sub.target := by
  have hheld := held_of_run hr i
  cases source with
  | task task =>
    obtain ⟨owner, howner, map, -, hl⟩ := h
    refine ⟨owner.2, hheld.task map _ hl, ?_⟩
    simp [targetOf, Option.mem_def.mp howner]
  | agent k d =>
    rcases h with h | h
    · obtain ⟨handle, hh, hslot⟩ := Option.map_eq_some_iff.mp h
      obtain ⟨rfl, rfl⟩ := Prod.mk.inj hslot
      obtain ⟨sub, hu, ht⟩ := hheld.handle handle hh
      exact ⟨sub, hu, ht.symm⟩
    · unfold SessionPhase.subscribing at h
      split at h
      next call stage hp =>
        obtain ⟨⟨hk, hid⟩, hslot⟩ := Option.ite_none_right_eq_some.mp h
        obtain ⟨sub, hu, ht⟩ := hheld.calling call stage hp hk hid
        have halias := ((callsIssued_of_run hr).call c call stage hp).2 k (CallStage.conn_of_slot hslot)
        exact ⟨sub, hu, by rw [ht, ← halias]; rfl⟩
      next => cases h
  | _ => cases hf

end Held

end Tepegoz
