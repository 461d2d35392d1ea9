import Tepegoz.Producers

namespace Tepegoz

open Transition

/-- A live routing entry that sends to client `c` under the id `i`. -/
def World.Routes (w : World) (c : ClientId) (i : Nat) (k : ConnId) (d : Nat) : Prop :=
  ∃ e, (w.conns k).routing.lookup d = some e ∧ e.client = c ∧ e.clientId = i

theorem IdLedger.routes_born {tr : List Obs} {w : World} {c : ClientId} {i : Nat} {k : ConnId}
    {d : Nat} (h : IdLedger tr w) (hr : w.Routes c i k d) : k < w.connCount := by
  obtain ⟨e, he, -⟩ := hr
  exact h.born _ _ _ (h.inserted _ _ _ (h.entry _ _ _ he))

theorem World.mem_entriesOf {tr : List Obs} {w : World} (hl : IdLedger tr w) {c : ClientId}
    {i : Nat} {k : ConnId} {d : Nat} : (k, d) ∈ w.entriesOf c i ↔ w.Routes c i k d := by
  simp only [entriesOf, List.mem_flatMap, List.mem_range, List.mem_map, List.mem_filter,
    decide_eq_true_eq, Prod.mk.injEq]
  constructor
  · rintro ⟨k', -, ⟨d', e⟩, ⟨hm, hc⟩, rfl, rfl⟩
    exact ⟨e, AList.mem_lookup_iff.mpr hm, hc⟩
  · rintro ⟨e, he, hc⟩
    exact ⟨k, hl.routes_born ⟨e, he, hc⟩, ⟨d, e⟩, ⟨AList.mem_lookup_iff.mp he, hc⟩, rfl, rfl⟩

/-- Where a call has put its routing entry. -/
def CallStage.slot : CallStage → Option (ConnId × Nat)
  | .lookup | .allocated _ _ => none
  | .inserted k d | .rollback k d => some (k, d)

def AgentSubHandle.slot (handle : AgentSubHandle) : ConnId × Nat := (handle.conn, handle.daemonId)

/-- Where the routing entry for an id can be, as far as a running session knows. -/
def Session.slot (s : Session) (i : Nat) : Option (ConnId × Nat) :=
  let held := (s.clientAgentSubs.lookup i).map AgentSubHandle.slot
  match s.phase with
  | .ready => held
  | .routing call stage => if call.clientId = i then stage.slot else held
  | .unsubscribing id handle => if id = i then some handle.slot else held
  | _ => none

/-- The session has not begun to end. -/
def SessionPhase.running : SessionPhase → Bool
  | .closing _ | .draining _ | .gone => false
  | _ => true

/-- The forwarders of an id serve its newest use. -/
structure LocalPart (kind : IdKind) (use : Option Use) (s : Session) (i : Nat) : Prop where
  kinded : ∀ u, use = some u → u.kind = kind
  task : ∀ map t, (s.tasks map).lookup i = some t → use = some (.subscription t.sub) ∧
    t.sub.taskMap = some map ∧ t.sub.target = some .localTarget
  pane : ∀ paneId, s.paneSubs.lookup i = some paneId → use = some (.pane paneId)
  fleet : ∀ t, s.fleetSubs.lookup i = some t → ∃ u, use = some u ∧ u.kind = .fleet

/-- The routing entries of an id are in one slot, and once its newest command is handled they serve
its newest use. -/
structure RemotePart (use : Option Use) (w : World) (c : ClientId) (i : Nat) : Prop where
  calling : ∀ call stage, (w.sessions c).phase = .routing call stage → call.clientId = i →
    call.kind = .subscription ∧ (∃ sub, use = some (.subscription sub) ∧
      sub.target = some (.remote call.hostAlias)) ∧
    ∀ k, stage.conn = some k → (w.conns k).hostAlias = call.hostAlias
  dropping : ∀ handle, (w.sessions c).phase = .unsubscribing i handle → use = none
  placed : ∃ slot, (∀ k d, w.Routes c i k d → slot = some (k, d)) ∧
    ((w.sessions c).phase.running = true → slot = (w.sessions c).slot i)
  serves : (w.sessions c).phase.handles i = false → ∀ k d, w.Routes c i k d →
    ∃ sub, use = some (.subscription sub) ∧ sub.target = some (.remote (w.conns k).hostAlias)

section Parts

variable {kind : IdKind} {use : Option Use} {s s' : Session} {tr out : List Obs} {w w' : World}
  {c : ClientId} {i : Nat}

theorem LocalPart.no_forwarders (use : Option Use) (kinded : ∀ u, use = some u → u.kind = kind)
    (h : s.forwarders i = []) : LocalPart kind use s i := by
  simp only [Session.forwarders, List.append_eq_nil_iff, List.map_eq_nil_iff,
    Option.toList_eq_nil_iff, List.flatMap_eq_nil_iff] at h
  obtain ⟨⟨hp, hf⟩, ht⟩ := h
  refine ⟨kinded, fun map t hl => ?_, by simp [hp], by simp [hf]⟩
  have := ht map (by cases map <;> simp)
  simp [this] at hl

/-- Without routing entries only the phase matters. -/
theorem RemotePart.of_empty (hnone : ∀ k d, ¬ w.Routes c i k d)
    (calling : ∀ call stage, (w.sessions c).phase = .routing call stage → call.clientId = i →
      call.kind = .subscription ∧ (∃ sub, use = some (.subscription sub) ∧
        sub.target = some (.remote call.hostAlias)) ∧
      ∀ k, stage.conn = some k → (w.conns k).hostAlias = call.hostAlias)
    (dropping : ∀ handle, (w.sessions c).phase = .unsubscribing i handle → use = none) :
    RemotePart use w c i where
  calling := calling
  dropping := dropping
  placed := ⟨(w.sessions c).slot i, fun k d h => absurd h (hnone k d), fun _ => rfl⟩
  serves _ k d h := absurd h (hnone k d)

theorem RemotePart.empty_of_slot (h : RemotePart use w c i)
    (hrun : (w.sessions c).phase.running = true) (hs : (w.sessions c).slot i = none) :
    ∀ k d, ¬ w.Routes c i k d := by
  obtain ⟨slot, hslot, heq⟩ := h.placed
  intro k d hr
  have := hslot k d hr
  rw [heq hrun, hs] at this
  cases this

theorem RemotePart.of_slot (h : RemotePart use w c i) (hrun : (w.sessions c).phase.running = true)
    {k k' : ConnId} {d d' : Nat} (hs : (w.sessions c).slot i = some (k, d))
    (hr : w.Routes c i k' d') : k' = k ∧ d' = d := by
  obtain ⟨slot, hslot, heq⟩ := h.placed
  have heq' := (hslot k' d' hr).symm.trans ((heq hrun).trans hs)
  simpa using heq'

/-- A session that is not at work on the id keeps its part when no entry comes up for it. -/
theorem RemotePart.shrink (h : RemotePart use w c i) (hl : IdLedger tr w)
    (hroutes : ∀ k d, w'.Routes c i k d → w.Routes c i k d)
    (hkept : ∀ k, k < w.connCount → (w'.conns k).hostAlias = (w.conns k).hostAlias)
    (hbefore : (w.sessions c).phase.handles i = false)
    (hafter : (w'.sessions c).phase.handles i = false)
    (hslot : (w'.sessions c).phase.running = true →
      (w.sessions c).phase.running = true ∧ (w'.sessions c).slot i = (w.sessions c).slot i) :
    RemotePart use w' c i where
  calling call stage hp hc := by simp [hp, SessionPhase.handles, hc] at hafter
  dropping handle hp := by simp [hp, SessionPhase.handles] at hafter
  placed := by
    obtain ⟨slot, hs, heq⟩ := h.placed
    refine ⟨slot, fun k d hr => hs k d (hroutes k d hr), fun hrun => ?_⟩
    obtain ⟨hrun', heq'⟩ := hslot hrun
    exact (heq hrun').trans heq'.symm
  serves _ k d hr := by
    rw [hkept k (hl.routes_born (hroutes k d hr))]
    exact h.serves hbefore k d (hroutes k d hr)

/-- The steps of others leave the part alone. -/
theorem RemotePart.frame (h : RemotePart use w c i) (hl : IdLedger tr w)
    (hroutes : ∀ k d, w'.Routes c i k d → w.Routes c i k d)
    (hkept : ∀ k, k < w.connCount → (w'.conns k).hostAlias = (w.conns k).hostAlias)
    (hs : w'.sessions c = w.sessions c) : RemotePart use w' c i where
  calling call stage hp hc := by
    rw [hs] at hp
    obtain ⟨hk, hsub, hconn⟩ := h.calling call stage hp hc
    refine ⟨hk, hsub, fun k hk => ?_⟩
    rw [hkept k (hl.stage_born hp hk)]
    exact hconn k hk
  dropping := by rw [hs]; exact h.dropping
  placed := by
    obtain ⟨slot, hslot, heq⟩ := h.placed
    rw [hs]
    exact ⟨slot, fun k d hr => hslot k d (hroutes k d hr), heq⟩
  serves hh k d hr := by
    rw [hs] at hh
    rw [hkept k (hl.routes_born (hroutes k d hr))]
    exact h.serves hh k d (hroutes k d hr)

end Parts

/-- What is known of the producers of one id of a client. -/
structure Parts (kind : IdKind) (tr : List Obs) (w : World) (c : ClientId) (i : Nat) : Prop where
  forwarders : LocalPart kind (newest c i tr) (w.sessions c) i
  entries : RemotePart (newest c i tr) w c i

section Step

variable {kinds : ClientId → Nat → IdKind} {kind : IdKind} {use : Option Use} {tr out : List Obs}
  {w w' : World} {c : ClientId} {i : Nat}

theorem RoutingStep.routes_old {a : Act} (h : RoutingStep w a w' out) {k : ConnId} {d : Nat}
    (hr : w'.Routes c i k d) (hnew : ∀ e, .inserted k d e ∈ out → e.client = c → e.clientId ≠ i) :
    w.Routes c i k d := by
  obtain ⟨e, he, hc, hi⟩ := hr
  rcases h.lookup_old he with hold | hm
  · exact ⟨e, hold, hc, hi⟩
  · exact absurd hi (hnew e hm hc)

/-- A step that leaves the session of the client alone keeps both parts. -/
theorem Parts.frame {a : Act} (h : Parts kind tr w c i) (hl : IdLedger tr w)
    (hs : RoutingStep w a w' out) (hsess : w'.sessions c = w.sessions c)
    (ho : ∀ o ∈ out, o.author ≠ some c) : Parts kind (tr ++ out) w' c i := by
  have hnew : newest c i (tr ++ out) = newest c i tr :=
    newest_append_of_none fun payload hm => ho _ hm rfl
  refine ⟨by rw [hnew, hsess]; exact h.forwarders, ?_⟩
  rw [hnew]
  refine h.entries.frame hl (fun k d hr => ?_) (fun k => hs.hostAlias_kept) hsess
  exact hs.routes_old hr fun e hm hc => absurd (by simp [Obs.author, hc]) (ho _ hm)

theorem LocalPart.congr {s s' : Session} (h : LocalPart kind use s i)
    (htasks : ∀ map, (s'.tasks map).lookup i = (s.tasks map).lookup i)
    (hpanes : s'.paneSubs.lookup i = s.paneSubs.lookup i)
    (hfleets : s'.fleetSubs.lookup i = s.fleetSubs.lookup i) : LocalPart kind use s' i where
  kinded := h.kinded
  task map t hl := h.task map t (htasks map ▸ hl)
  pane p hl := h.pane p (hpanes ▸ hl)
  fleet t hl := h.fleet t (hfleets ▸ hl)

theorem Session.forwarders_empty {s : Session} (hp : s.paneSubs = ∅) (hf : s.fleetSubs = ∅)
    (ht : ∀ map, s.tasks map = ∅) : s.forwarders i = [] := by
  simp [forwarders, hp, hf, ht]

theorem World.author_release {id : Nat} {handle : AgentSubHandle} {o : Obs}
    (hm : o ∈ (w.release c id handle).2) : o.author = none := by
  rcases w.release_cases c id handle with hr | ⟨_, -, -, hcases⟩
  · simp [hr] at hm
  · rcases hcases _ hm with ⟨_, -, rfl⟩ | rfl <;> rfl

/-- The await of an unsubscribe, once it has the lock of the pool. -/
theorem Parts.unsubscribed {id : Nat} {handle : AgentSubHandle} (h : Parts kind tr w c i)
    (hl : IdLedger tr w) (hp : (w.sessions c).phase = .unsubscribing id handle)
    (hok : RetiresPrevious w (.unsubscribe c)) :
    RemotePart (newest c i tr) ((w.release c id handle).1.setPhase c .ready) c i := by
  have hs := RoutingStep.unsubscribed hp
  have hroutes : ∀ k d, ((w.release c id handle).1.setPhase c .ready).Routes c i k d →
      w.Routes c i k d := by
    intro k d hr
    exact hs.routes_old hr fun e hm => absurd (World.author_release hm) (by simp [Obs.author])
  have hready : (((w.release c id handle).1.setPhase c .ready).sessions c) =
      { w.sessions c with phase := .ready } := by
    rw [World.sessions_setPhase_release, World.sessions_setPhase_same]
  by_cases hid : id = i
  · subst hid
    refine .of_empty (fun k d hr => ?_) (by simp [hready]) (by simp [hready])
    have hm := (World.mem_entriesOf hl).mpr (hroutes k d hr)
    simp only [RetiresPrevious, hp] at hok
    obtain ⟨hpool, hd⟩ := hok _ hm
    obtain ⟨e, he, -⟩ := hr
    rw [World.conns_setPhase, World.release_pooled hpool, World.conns_setRouting_same, ← hd] at he
    simp [AList.lookup_erase] at he
  · refine h.entries.shrink hl hroutes (fun k => hs.hostAlias_kept) ?_ ?_ ?_
    · simp [hp, SessionPhase.handles, hid]
    · simp [hready, SessionPhase.handles]
    · intro _
      simp [hp, hready, SessionPhase.running, Session.slot, hid]

/-- A step that changes the phase and the handles of the session at most. -/
theorem Parts.after {phase : SessionPhase} {handles : IdMap AgentSubHandle}
    (h : Parts kind tr w c i) (hnew : ∀ payload, .commanded c payload ∉ out)
    (hsess : w'.sessions c = { w.sessions c with phase := phase, clientAgentSubs := handles })
    (hrem : RemotePart (newest c i tr) w' c i) : Parts kind (tr ++ out) w' c i := by
  have hsame : newest c i (tr ++ out) = newest c i tr := newest_append_of_none hnew
  rw [← hsame] at hrem
  refine ⟨?_, hrem⟩
  rw [hsame, hsess]
  exact h.forwarders.congr (fun map => by cases map <;> rfl) rfl rfl

/-- A call for another id moves on. -/
theorem Parts.otherCall {call : RouteCall} {stage : CallStage} (h : Parts kind tr w c i)
    (hl : IdLedger tr w) (hs : RoutingStep w (.route c) w' out)
    (hp : (w.sessions c).phase = .routing call stage) (hid : call.clientId ≠ i)
    (hafter : (w'.sessions c).phase = .ready ∨
      ∃ stage', (w'.sessions c).phase = .routing call stage')
    (hhandles : (w'.sessions c).clientAgentSubs.lookup i =
      (w.sessions c).clientAgentSubs.lookup i)
    (hnew : ∀ k d e, .inserted k d e ∈ out → e.clientId = call.clientId) :
    RemotePart (newest c i tr) w' c i := by
  refine h.entries.shrink hl (fun k d hr => ?_) (fun k => hs.hostAlias_kept) ?_ ?_ ?_
  · exact hs.routes_old hr fun e hm _ => hnew k d e hm ▸ hid
  · simp [hp, SessionPhase.handles, hid]
  · rcases hafter with ha | ⟨_, ha⟩ <;> simp [ha, SessionPhase.handles, hid]
  · intro _
    rcases hafter with ha | ⟨_, ha⟩ <;>
      simp [hp, ha, SessionPhase.running, Session.slot, hid, hhandles]

/-- A call for the id is at a stage without an entry. -/
theorem Parts.callEmpty {call : RouteCall} {stage : CallStage} (h : Parts kind tr w c i)
    (hp : (w.sessions c).phase = .routing call stage) (hid : call.clientId = i)
    (hnone : ∀ k d, ¬ w'.Routes c i k d)
    (hafter : (w'.sessions c).phase = .ready ∨
      ∃ k d, (w'.sessions c).phase = .routing call (.allocated k d) ∧
        (w'.conns k).hostAlias = call.hostAlias) :
    RemotePart (newest c i tr) w' c i := by
  refine .of_empty hnone (fun call' stage' hp' _ => ?_) (fun handle hp' => ?_)
  · rcases hafter with ha | ⟨k, d, ha, halias⟩
    · simp [ha] at hp'
    · obtain ⟨rfl, rfl⟩ := SessionPhase.routing.inj (ha.symm.trans hp')
      obtain ⟨hk, hsub, -⟩ := h.entries.calling _ _ hp hid
      refine ⟨hk, hsub, fun k' hk' => ?_⟩
      obtain rfl := Option.some.inj hk'
      exact halias
  · rcases hafter with ha | ⟨k, d, ha, -⟩ <;> simp [ha] at hp'

/-- A call for the id has put its entry into a slot. -/
theorem Parts.callPlaced {call : RouteCall} {stage : CallStage} {k : ConnId} (d : Nat)
    (h : Parts kind tr w c i) (hp : (w.sessions c).phase = .routing call stage)
    (hid : call.clientId = i) (hconn : stage.conn = some k)
    (hplaced : ∀ k' d', w'.Routes c i k' d' → k' = k ∧ d' = d)
    (halias : (w'.conns k).hostAlias = (w.conns k).hostAlias)
    (hafter : (∃ stage', (w'.sessions c).phase = .routing call stage' ∧ stage'.conn = some k ∧
        stage'.slot = some (k, d)) ∨
      (w'.sessions c).phase = .ready ∧
        (w'.sessions c).clientAgentSubs.lookup i = some ⟨call.hostAlias, d, k⟩) :
    RemotePart (newest c i tr) w' c i := by
  obtain ⟨hkind, ⟨sub, hsub, htarget⟩, hhost⟩ := h.entries.calling _ _ hp hid
  refine ⟨?_, ?_, ⟨some (k, d), ?_, ?_⟩, ?_⟩
  · intro call' stage₁ hp' _
    rcases hafter with ⟨_, ha, hc, -⟩ | ⟨ha, -⟩
    · obtain ⟨rfl, rfl⟩ := SessionPhase.routing.inj (ha.symm.trans hp')
      refine ⟨hkind, ⟨sub, hsub, htarget⟩, fun k' hk' => ?_⟩
      obtain rfl : k = k' := Option.some.inj (hc.symm.trans hk')
      exact halias.trans (hhost k hconn)
    · simp [ha] at hp'
  · intro handle hp'
    rcases hafter with ⟨_, ha, -⟩ | ⟨ha, -⟩ <;> simp [ha] at hp'
  · intro k' d' hr
    obtain ⟨rfl, rfl⟩ := hplaced k' d' hr
    rfl
  · intro _
    rcases hafter with ⟨_, ha, -, hs⟩ | ⟨ha, hheld⟩
    · simp [Session.slot, ha, hid, hs]
    · simp [Session.slot, ha, hheld, AgentSubHandle.slot]
  · intro hh k' d' hr
    obtain ⟨rfl, rfl⟩ := hplaced k' d' hr
    refine ⟨sub, hsub, ?_⟩
    rw [halias, hhost _ hconn]
    exact htarget

/-- Before its insertion a call for the id finds no entry. -/
theorem Parts.no_entry {call : RouteCall} {stage : CallStage} (h : Parts kind tr w c i)
    (hp : (w.sessions c).phase = .routing call stage) (hid : call.clientId = i)
    (hs : stage.slot = none) : ∀ k d, ¬ w.Routes c i k d :=
  h.entries.empty_of_slot (by simp [hp, SessionPhase.running]) (by simp [Session.slot, hp, hid, hs])

theorem Parts.entry_slot {call : RouteCall} {stage : CallStage} {k k' : ConnId} {d d' : Nat}
    (h : Parts kind tr w c i) (hp : (w.sessions c).phase = .routing call stage)
    (hid : call.clientId = i) (hs : stage.slot = some (k, d)) (hr : w.Routes c i k' d') :
    k' = k ∧ d' = d :=
  h.entries.of_slot (by simp [hp, SessionPhase.running]) (by simp [Session.slot, hp, hid, hs]) hr

theorem Parts.refused {call : RouteCall} (env : Envelope) (h : Parts kind tr w c i)
    (hl : IdLedger tr w) (hp : (w.sessions c).phase = .routing call .lookup) :
    RemotePart (newest c i tr) (w.setPhase c .ready) c i := by
  have hsess := w.sessions_setPhase_same c .ready
  by_cases hid : call.clientId = i
  · exact h.callEmpty hp hid (h.no_entry hp hid rfl) (.inl (by rw [hsess]))
  · have hs : RoutingStep w (.route c) _ [.toClient c env .session] := .refused hp
    exact h.otherCall hl hs hp hid (.inl (by rw [hsess])) (by rw [hsess]) (by simp)

theorem Parts.allocated {call : RouteCall} {k : ConnId} (h : Parts kind tr w c i)
    (hl : IdLedger tr w) (hpool : PoolAliased w)
    (hp : (w.sessions c).phase = .routing call .lookup) (hk : w.pool call.hostAlias = some k)
    (hw : w' = (w.setConn k { w.conns k with nextSubId := (w.conns k).nextSubId + 1 }).setPhase c
      (.routing call (.allocated k (w.conns k).nextSubId))) :
    RemotePart (newest c i tr) w' c i := by
  have hs := RoutingStep.allocated hp hk
  rw [← hw] at hs
  have hsess : w'.sessions c = { w.sessions c with
      phase := .routing call (.allocated k (w.conns k).nextSubId) } := by
    rw [hw, World.sessions_setPhase_same]; rfl
  by_cases hid : call.clientId = i
  · refine h.callEmpty hp hid (fun k' d' hr => h.no_entry hp hid rfl k' d' ?_)
      (.inr ⟨k, _, by rw [hsess], ?_⟩)
    · exact hs.routes_old hr (by simp)
    · rw [hw]; simp [hpool.pool _ _ hk]
  · exact h.otherCall hl hs hp hid (.inr ⟨_, by rw [hsess]⟩) (by rw [hsess]) (by simp)

theorem Parts.inserted {call : RouteCall} {k : ConnId} {d : Nat} (h : Parts kind tr w c i)
    (hl : IdLedger tr w) (hp : (w.sessions c).phase = .routing call (.allocated k d))
    (hw : w' = (w.setRouting k ((w.conns k).routing.insert d (call.entry c))).setPhase c
      (.routing call (.inserted k d))) : RemotePart (newest c i tr) w' c i := by
  have hs := RoutingStep.inserted hp
  rw [← hw] at hs
  have hsess : w'.sessions c = { w.sessions c with phase := .routing call (.inserted k d) } := by
    rw [hw, World.sessions_setPhase_same]; rfl
  by_cases hid : call.clientId = i
  · refine h.callPlaced d hp hid rfl (fun k' d' hr => ?_) ?_ (.inl ⟨_, by rw [hsess], rfl, rfl⟩)
    · by_contra hne
      refine h.no_entry hp hid rfl k' d' (hs.routes_old hr fun e hm => ?_)
      obtain ⟨rfl, rfl, -⟩ := Obs.inserted.inj (List.mem_singleton.mp hm)
      exact absurd ⟨rfl, rfl⟩ hne
    · rw [hw]; exact World.hostAlias_setRouting k k _
  · refine h.otherCall hl hs hp hid (.inr ⟨_, by rw [hsess]⟩) (by rw [hsess]) fun k' d' e hm => ?_
    obtain ⟨-, -, rfl⟩ := Obs.inserted.inj (List.mem_singleton.mp hm)
    rfl

theorem Parts.sent {call : RouteCall} {k : ConnId} {d : Nat} {handles : IdMap AgentSubHandle}
    (h : Parts kind tr w c i) (hl : IdLedger tr w)
    (hp : (w.sessions c).phase = .routing call (.inserted k d)) (hd : (w.conns k).driver = true)
    (heq : handles = if call.kind = .subscription then
      (w.sessions c).clientAgentSubs.insert call.clientId ⟨call.hostAlias, d, k⟩
      else (w.sessions c).clientAgentSubs) :
    RemotePart (newest c i tr)
      (w.setSession c { w.sessions c with phase := .ready, clientAgentSubs := handles }) c i := by
  have hsess : ∀ s : Session, (w.setSession c s).sessions c = s := fun s => by simp
  by_cases hid : call.clientId = i
  · refine h.callPlaced d hp hid rfl (fun k' d' hr => ?_) rfl (.inr ⟨by rw [hsess], ?_⟩)
    · exact h.entry_slot hp hid rfl hr
    · rw [hsess, heq, if_pos (h.entries.calling _ _ hp hid).1, hid]
      exact AList.lookup_insert _
  · refine h.otherCall hl (.sent hp hd heq) hp hid (.inl (by rw [hsess])) ?_ (by simp)
    rw [hsess, heq]
    split
    next => exact AList.lookup_insert_ne (Ne.symm hid)
    next => rfl

theorem Parts.sendFailed {call : RouteCall} {k : ConnId} {d : Nat} (h : Parts kind tr w c i)
    (hl : IdLedger tr w) (hp : (w.sessions c).phase = .routing call (.inserted k d))
    (hd : (w.conns k).driver = false) :
    RemotePart (newest c i tr) (w.setPhase c (.routing call (.rollback k d))) c i := by
  have hsess := w.sessions_setPhase_same c (.routing call (.rollback k d))
  by_cases hid : call.clientId = i
  · refine h.callPlaced d hp hid rfl (fun k' d' hr => ?_) rfl (.inl ⟨_, by rw [hsess], rfl, rfl⟩)
    exact h.entry_slot hp hid rfl hr
  · exact h.otherCall hl (.sendFailed hp hd) hp hid (.inr ⟨_, by rw [hsess]⟩) (by rw [hsess])
      (by simp)

theorem Parts.rolledBack {call : RouteCall} {k : ConnId} {d : Nat} (h : Parts kind tr w c i)
    (hl : IdLedger tr w) (hp : (w.sessions c).phase = .routing call (.rollback k d))
    (hw : w' = (w.setRouting k ((w.conns k).routing.erase d)).setPhase c .ready) :
    RemotePart (newest c i tr) w' c i := by
  have hs := RoutingStep.rolledBack hp
  rw [← hw] at hs
  have hsess : w'.sessions c = { w.sessions c with phase := .ready } := by
    rw [hw, World.sessions_setPhase_same]; rfl
  by_cases hid : call.clientId = i
  · refine h.callEmpty hp hid (fun k' d' hr => ?_) (.inl (by rw [hsess]))
    obtain ⟨rfl, rfl⟩ := h.entry_slot hp hid rfl (hs.routes_old hr (by simp))
    obtain ⟨e, he, -⟩ := hr
    rw [hw, World.conns_setPhase, World.conns_setRouting_same] at he
    simp [AList.lookup_erase] at he
  · exact h.otherCall hl hs hp hid (.inl (by rw [hsess])) (by rw [hsess]) (by simp)

/-- An ended session releases what it held. -/
theorem Parts.tornDown {a : Act} (h : Parts kind tr w c i) (hl : IdLedger tr w)
    (hs : RoutingStep w a w' out) (ho : ∀ o ∈ out, o.author ≠ some c)
    (hbefore : (w.sessions c).phase.handles i = false)
    (hafter : (w'.sessions c).phase.handles i = false ∧
      (w'.sessions c).phase.running = false) : RemotePart (newest c i tr) w' c i := by
  refine h.entries.shrink hl (fun k d hr => hs.routes_old hr fun e hm hc => ?_)
    (fun k => hs.hostAlias_kept) hbefore hafter.1 (by simp [hafter.2])
  exact absurd (by simp [Obs.author, hc]) (ho _ hm)

theorem Session.close_phase (s : Session) (i : Nat) :
    s.close.phase.handles i = false ∧ s.close.phase.running = false := by
  unfold close
  dsimp only
  split <;> exact ⟨rfl, rfl⟩

/-- The kinds of subscriptions that take a target. -/
def IdKind.targeted : IdKind → Bool
  | .docker | .dockerLogs | .dockerStats | .ports | .processes => true
  | _ => false

theorem Subscription.targeted_of_taskMap {sub : Subscription} {map : TaskMap}
    (h : sub.taskMap = some map) : sub.kind.targeted = true := by
  cases sub <;> first | rfl | simp [taskMap] at h

theorem Subscription.targeted_of_target {sub : Subscription} {target : ScopeTarget}
    (h : sub.target = some target) : sub.kind.targeted = true := by
  cases sub <;> first | rfl | simp [Subscription.target] at h

theorem Subscription.taskMap_of_kind {sub sub' : Subscription} (h : sub.kind = sub'.kind) :
    sub.taskMap = sub'.taskMap := by
  cases sub <;> cases sub' <;> first | rfl | simp [kind] at h

theorem LocalPart.no_tasks {s : Session} (h : LocalPart kind use s i) (hk : kind.targeted = false)
    (map : TaskMap) (t : LocalTask) : (s.tasks map).lookup i ≠ some t := by
  intro hl
  obtain ⟨hu, hm, -⟩ := h.task map t hl
  have := Subscription.targeted_of_taskMap hm
  rw [show t.sub.kind = kind from h.kinded _ hu] at this
  exact Bool.false_ne_true (hk.symm.trans this)

theorem LocalPart.no_pane {s : Session} (h : LocalPart kind use s i) (hk : kind ≠ .pane)
    (p : PaneId) : s.paneSubs.lookup i ≠ some p :=
  fun hl => hk (h.kinded _ (h.pane p hl)).symm

theorem LocalPart.no_fleet {s : Session} (h : LocalPart kind use s i) (hk : kind ≠ .fleet)
    (t : TaskId) : s.fleetSubs.lookup i ≠ some t := by
  intro hl
  obtain ⟨u, hu, hkind⟩ := h.fleet t hl
  exact hk ((h.kinded _ hu).symm.trans hkind)

/-- An id of a kind without targets has no routing entry. -/
theorem Parts.untargeted (h : Parts kind tr w c i) (hk : kind.targeted = false)
    (hp : (w.sessions c).phase.handles i = false) : ∀ k d, ¬ w.Routes c i k d := by
  intro k d hr
  obtain ⟨sub, hu, ht⟩ := h.entries.serves hp k d hr
  have := Subscription.targeted_of_target ht
  rw [show sub.kind = kind from h.forwarders.kinded _ hu] at this
  exact Bool.false_ne_true (hk.symm.trans this)

theorem Session.tasks_addTask_same (s : Session) (map : TaskMap) (id : Nat) (t : LocalTask) :
    (s.addTask map id t).tasks map = (s.tasks map).insert id t := by cases map <;> rfl

theorem Session.tasks_addTask_other (s : Session) {map map' : TaskMap} (h : map' ≠ map) (id : Nat)
    (t : LocalTask) : (s.addTask map id t).tasks map' = s.tasks map' := by
  cases map <;> cases map' <;> first | rfl | exact absurd rfl h

theorem Session.lookup_addTask_other (s : Session) {map map' : TaskMap} {id : Nat} (h : i ≠ id)
    (t : LocalTask) :
    ((s.addTask map id t).tasks map').lookup i = (s.tasks map').lookup i := by
  by_cases hm : map' = map
  · subst hm
    rw [tasks_addTask_same]
    exact AList.lookup_insert_ne h
  · rw [tasks_addTask_other s hm]

/-- The session spawns a forwarder for the id. -/
theorem LocalPart.spawned {s : Session} {sub : Subscription} {map : TaskMap} (task : TaskId)
    (h : LocalPart sub.kind use s sub.id) (hm : sub.taskMap = some map)
    (ht : sub.target = some .localTarget) :
    LocalPart sub.kind (some (.subscription sub)) (s.addTask map sub.id ⟨task, sub⟩) sub.id where
  kinded u hu := by obtain rfl := Option.some.inj hu; rfl
  task map' t hl := by
    by_cases he : map' = map
    · subst he
      rw [Session.tasks_addTask_same, AList.lookup_insert, Option.some.injEq] at hl
      subst hl
      exact ⟨rfl, hm, ht⟩
    · rw [Session.tasks_addTask_other s he] at hl
      obtain ⟨hu, hm', -⟩ := h.task map' t hl
      rw [Subscription.taskMap_of_kind (h.kinded _ hu), hm] at hm'
      exact absurd (Option.some.inj hm').symm he
  pane p hl := by
    have hl : s.paneSubs.lookup sub.id = some p := by cases map <;> exact hl
    have htargeted := Subscription.targeted_of_taskMap hm
    refine absurd hl (h.no_pane ?_ p)
    intro hk
    simp [hk, IdKind.targeted] at htargeted
  fleet t hl := by
    have hl : s.fleetSubs.lookup sub.id = some t := by cases map <;> exact hl
    have htargeted := Subscription.targeted_of_taskMap hm
    refine absurd hl (h.no_fleet ?_ t)
    intro hk
    simp [hk, IdKind.targeted] at htargeted

/-- An id of a kind without targets gets a new use. -/
theorem LocalPart.renewed {s s' : Session} {u : Use} (h : LocalPart kind use s i)
    (hk : kind.targeted = false) (hu : u.kind = kind)
    (htasks : ∀ map, s'.tasks map = s.tasks map)
    (hpane : ∀ p, s'.paneSubs.lookup i = some p → u = .pane p)
    (hfleet : ∀ t, s'.fleetSubs.lookup i = some t → u.kind = .fleet) :
    LocalPart kind (some u) s' i where
  kinded u' hu' := by obtain rfl := Option.some.inj hu'; exact hu
  task map t hl := absurd (htasks map ▸ hl) (h.no_tasks hk map t)
  pane p hl := by rw [hpane p hl]
  fleet t hl := ⟨u, rfl, hfleet t hl⟩

/-- The forwarders of the id are aborted. -/
theorem LocalPart.unsubscribed (s : Session) : LocalPart kind none (s.handleUnsubscribe i) i := by
  refine .no_forwarders _ (by simp) ?_
  simp only [Session.forwarders, List.append_eq_nil_iff, List.map_eq_nil_iff,
    Option.toList_eq_nil_iff, List.flatMap_eq_nil_iff]
  refine ⟨⟨AList.lookup_erase _ _, AList.lookup_erase _ _⟩, fun map _ => ?_⟩
  cases map <;> exact AList.lookup_erase _ _

theorem Session.slot_handleUnsubscribe {s : Session} {id : Nat} (hp : s.phase = .ready)
    (hid : id ≠ i) : (s.handleUnsubscribe id).slot i = s.slot i := by
  have he : (s.clientAgentSubs.erase id).lookup i = s.clientAgentSubs.lookup i :=
    AList.lookup_erase_ne (Ne.symm hid)
  cases hl : s.clientAgentSubs.lookup id <;>
    simp [Session.slot, Session.handleUnsubscribe, hl, hp, hid, he]

theorem Session.handles_handleUnsubscribe {s : Session} {id : Nat} (hp : s.phase = .ready)
    (hid : id ≠ i) : (s.handleUnsubscribe id).phase.handles i = false := by
  cases hl : s.clientAgentSubs.lookup id <;>
    simp [Session.handleUnsubscribe, hl, hp, SessionPhase.handles, hid]

section Commands

variable {s' : Session} {spawned : Option Subscription} {acting : Option DockerActionRequest}

theorem RemotePart.commanded_empty (hnone : ∀ k d, ¬ w.Routes c i k d) (hp : s'.phase = .ready) :
    RemotePart use (((w.addTask c spawned).addAction c acting).setSession c s') c i := by
  have hsess : (((w.addTask c spawned).addAction c acting).setSession c s').sessions c = s' := by simp
  exact .of_empty hnone (by simp [hsess, hp]) (by simp [hsess, hp])

/-- A command on another id leaves the use of the id and its entry. -/
theorem Parts.commanded_other (h : Parts kind tr w c i) (hl : IdLedger tr w)
    (hp : (w.sessions c).phase = .ready)
    (htasks : ∀ map, (s'.tasks map).lookup i = ((w.sessions c).tasks map).lookup i)
    (hpane : s'.paneSubs.lookup i = (w.sessions c).paneSubs.lookup i)
    (hfleet : s'.fleetSubs.lookup i = (w.sessions c).fleetSubs.lookup i)
    (hhandles : s'.phase.handles i = false)
    (hslot : s'.phase.running = true → s'.slot i = (w.sessions c).slot i) :
    LocalPart kind (newest c i tr) s' i ∧
      RemotePart (newest c i tr) (((w.addTask c spawned).addAction c acting).setSession c s') c i := by
  have hsess : (((w.addTask c spawned).addAction c acting).setSession c s').sessions c = s' := by simp
  have hready : (w.sessions c).phase.handles i = false := by simp [hp, SessionPhase.handles]
  refine ⟨h.forwarders.congr htasks hpane hfleet,
    h.entries.shrink hl (fun _ _ hr => hr) (fun _ _ => rfl) hready ?_ ?_⟩
  · rw [hsess]
    exact hhandles
  · rw [hsess]
    exact fun hrun => ⟨by simp [hp, SessionPhase.running], hslot hrun⟩

/-- An id of a kind without targets gets a new use, and has no entry. -/
theorem Parts.commanded_untargeted {u : Use} (h : Parts kind tr w c i)
    (hp : (w.sessions c).phase = .ready) (hk : kind.targeted = false) (hu : u.kind = kind)
    (htasks : ∀ map, s'.tasks map = (w.sessions c).tasks map)
    (hpane : ∀ p, s'.paneSubs.lookup i = some p → u = .pane p)
    (hfleet : ∀ t, s'.fleetSubs.lookup i = some t → u.kind = .fleet) (hp' : s'.phase = .ready) :
    LocalPart kind (some u) s' i ∧ RemotePart (some u) (((w.addTask c spawned).addAction c acting).setSession c s') c i := by
  have hready : (w.sessions c).phase.handles i = false := by simp [hp, SessionPhase.handles]
  exact ⟨h.forwarders.renewed hk hu htasks hpane hfleet,
    .commanded_empty (h.untargeted hk hready) hp'⟩

/-- A local subscription takes an id without an entry. -/
theorem Parts.commanded_spawned {sub : Subscription} {map : TaskMap}
    (h : Parts sub.kind tr w c sub.id) (hl : IdLedger tr w) (hp : (w.sessions c).phase = .ready)
    (hm : sub.taskMap = some map) (ht : sub.target = some .localTarget)
    (hnone : w.entriesOf c sub.id = []) (task : TaskId) :
    LocalPart sub.kind (some (.subscription sub))
        ((w.sessions c).addTask map sub.id ⟨task, sub⟩) sub.id ∧
      RemotePart (some (.subscription sub)) (((w.addTask c spawned).addAction c acting).setSession c
        ((w.sessions c).addTask map sub.id ⟨task, sub⟩)) c sub.id := by
  refine ⟨h.forwarders.spawned task hm ht, .commanded_empty (fun k d hr => ?_) ?_⟩
  · have hmem := (World.mem_entriesOf hl).mpr hr
    simp [hnone] at hmem
  · cases map <;> exact hp

/-- A call for a subscription takes an id without a producer. -/
theorem Parts.commanded_routed {sub : Subscription} {hostAlias : String} {scope : RoutedScope}
    {capability : String} (hl : IdLedger tr w) (ht : sub.target = some (.remote hostAlias))
    (hnone : w.producers c sub.id = []) :
    let s' := { w.sessions c with
      phase := .routing (routeRemoteSubscribe sub hostAlias scope capability) .lookup }
    LocalPart sub.kind (some (.subscription sub)) s' sub.id ∧
      RemotePart (some (.subscription sub)) (((w.addTask c spawned).addAction c acting).setSession c s') c sub.id := by
  intro s'
  have hsess : (((w.addTask c spawned).addAction c acting).setSession c s').sessions c = s' := by simp
  obtain ⟨hf, he⟩ := List.append_eq_nil_iff.mp hnone
  refine ⟨.no_forwarders _ ?_ hf, .of_empty (fun k d hr => ?_) ?_ (by simp [hsess, s'])⟩
  · rintro u hu
    obtain rfl := Option.some.inj hu
    rfl
  · have hmem := (World.mem_entriesOf hl).mpr hr
    simp [List.map_eq_nil_iff.mp he] at hmem
  · intro call stage hphase _
    rw [hsess] at hphase
    obtain ⟨rfl, rfl⟩ := SessionPhase.routing.inj hphase
    exact ⟨rfl, ⟨sub, rfl, ht⟩, by simp [CallStage.conn]⟩

/-- An unsubscribe aborts the forwarders and leaves the entry, if there is one, to be dropped. -/
theorem Parts.commanded_unsubscribed (h : Parts kind tr w c i)
    (hp : (w.sessions c).phase = .ready) :
    LocalPart kind none ((w.sessions c).handleUnsubscribe i) i ∧
      RemotePart none (((w.addTask c spawned).addAction c acting).setSession c
        ((w.sessions c).handleUnsubscribe i)) c i := by
  refine ⟨.unsubscribed _, ?_⟩
  have hrunning : (w.sessions c).phase.running = true := by simp [hp, SessionPhase.running]
  cases hheld : (w.sessions c).clientAgentSubs.lookup i with
  | none =>
    refine .commanded_empty (h.entries.empty_of_slot hrunning ?_) ?_
    · simp [Session.slot, hp, hheld]
    · simp [Session.handleUnsubscribe, hheld, hp]
  | some handle =>
    have hphase : ((w.sessions c).handleUnsubscribe i).phase = .unsubscribing i handle := by
      simp [Session.handleUnsubscribe, hheld]
    refine ⟨by simp [hphase], fun _ _ => rfl, ⟨some handle.slot, fun k d hr => ?_, ?_⟩, ?_⟩
    · obtain ⟨rfl, rfl⟩ := h.entries.of_slot (k := handle.conn) (d := handle.daemonId) hrunning
        (by simp [Session.slot, hp, hheld, AgentSubHandle.slot]) hr
      rfl
    · intro _
      rw [World.sessions_setSession, Function.update_self, Session.slot, hphase]
      simp
    · simp [hphase, SessionPhase.handles]

/-- A command on the id finds no entry, or ends the use of the id. -/
theorem Parts.commanded {payload : Payload} {panes : PaneAnswers}
    (h : Parts (kinds c i) tr w c i) (hl : IdLedger tr w)
    (hok : OneAtATime kinds tr w (.command c payload panes)) (hi : kinds c i ≠ .action)
    (hp : (w.sessions c).phase = .ready)
    (heffect : CommandEffect (w.sessions c) w.taskCount payload s') :
    LocalPart (kinds c i) (payload.renew i (newest c i tr)) s' i ∧
      RemotePart (payload.renew i (newest c i tr)) (((w.addTask c spawned).addAction c acting).setSession c s') c i := by
  obtain ⟨hkinds, hretires⟩ := hok
  have hready : (w.sessions c).phase.handles i = false := by simp [hp, SessionPhase.handles]
  cases heffect with
  | spawned sub map hm ht =>
    by_cases hid : sub.id = i
    · subst hid
      have hk : kinds c sub.id = sub.kind := hkinds
      rw [hk] at h ⊢
      simp only [Payload.renew, if_true]
      exact h.commanded_spawned hl hp hm ht (by simpa [RetiresPrevious, ht] using hretires) _
    · simp only [Payload.renew, hid, if_false]
      refine h.commanded_other hl hp
        (fun map' => Session.lookup_addTask_other _ (Ne.symm hid) _) ?_ ?_ ?_ fun _ => ?_
      · cases map <;> rfl
      · cases map <;> rfl
      · cases map <;> exact hready
      · cases map <;> simp [Session.slot, Session.addTask, hp]
  | @routed sub hostAlias scope capability ht =>
    by_cases hid : sub.id = i
    · subst hid
      have hk : kinds c sub.id = sub.kind := hkinds
      rw [hk]
      simp only [Payload.renew, if_true]
      exact Parts.commanded_routed hl ht (by simpa [RetiresPrevious, ht] using hretires)
    · simp only [Payload.renew, hid, if_false]
      refine h.commanded_other hl hp (fun map => by cases map <;> rfl) rfl rfl ?_ ?_
      · simp [SessionPhase.handles, RouteCall.clientId, routeRemoteSubscribe, hid]
      · simp [Session.slot, RouteCall.clientId, routeRemoteSubscribe, hid, hp]
  | @status id =>
    by_cases hid : id = i
    · subst hid
      have hk : kinds c id = .status := hkinds
      simp only [Payload.renew, Subscription.id, if_true]
      refine h.commanded_untargeted hp (by rw [hk]; rfl) hk.symm (fun map => by cases map <;> rfl)
        ?_ ?_ hp
      · exact fun p hl => absurd hl (h.forwarders.no_pane (by simp [hk]) p)
      · exact fun t hl => absurd hl (h.forwarders.no_fleet (by simp [hk]) t)
    · simp only [Payload.renew, Subscription.id, hid, if_false]
      exact h.commanded_other hl hp (fun map => by cases map <;> rfl) rfl rfl hready fun _ => rfl
  | @fleet id =>
    by_cases hid : id = i
    · subst hid
      have hk : kinds c id = .fleet := hkinds
      simp only [Payload.renew, Subscription.id, if_true]
      refine h.commanded_untargeted hp (by rw [hk]; rfl) hk.symm (fun map => by cases map <;> rfl)
        ?_ (fun _ _ => rfl) hp
      exact fun p hl => absurd hl (h.forwarders.no_pane (by simp [hk]) p)
    · simp only [Payload.renew, Subscription.id, hid, if_false]
      exact h.commanded_other hl hp (fun map => by cases map <;> rfl) rfl
        (AList.lookup_insert_ne (Ne.symm hid)) hready fun _ => rfl
  | @action req hostAlias ht =>
    have hid : req.requestId ≠ i := by
      rintro rfl
      exact hi (hkinds (by simp [ht]))
    refine h.commanded_other hl hp (fun map => by cases map <;> rfl) rfl rfl ?_ ?_
    · simp [SessionPhase.handles, RouteCall.clientId, routeRemoteDockerAction, hid]
    · simp [Session.slot, RouteCall.clientId, routeRemoteDockerAction, hid, hp]
  | @unsubscribed id =>
    by_cases hid : id = i
    · subst hid
      simp only [Payload.renew, if_true]
      exact h.commanded_unsubscribed hp
    · simp only [Payload.renew, hid, if_false]
      refine h.commanded_other hl hp (fun map => ?_) (AList.lookup_erase_ne (Ne.symm hid))
        (AList.lookup_erase_ne (Ne.symm hid)) (Session.handles_handleUnsubscribe hp hid)
        fun _ => Session.slot_handleUnsubscribe hp hid
      cases map <;> exact AList.lookup_erase_ne (Ne.symm hid)
  | @attached paneId id =>
    by_cases hid : id = i
    · subst hid
      have hk : kinds c id = .pane := hkinds
      simp only [Payload.renew, if_true]
      refine h.commanded_untargeted hp (by rw [hk]; rfl) hk.symm (fun map => by cases map <;> rfl)
        ?_ ?_ hp
      · intro p hl
        rw [AList.lookup_insert, Option.some.injEq] at hl
        rw [hl]
      · exact fun t hl => absurd hl (h.forwarders.no_fleet (by simp [hk]) t)
    · simp only [Payload.renew, hid, if_false]
      exact h.commanded_other hl hp (fun map => by cases map <;> rfl)
        (AList.lookup_insert_ne (Ne.symm hid)) rfl hready fun _ => rfl
  | @unknownPane paneId id =>
    by_cases hid : id = i
    · subst hid
      have hk : kinds c id = .pane := hkinds
      simp only [Payload.renew, if_true]
      refine h.commanded_untargeted hp (by rw [hk]; rfl) hk.symm (fun map => by cases map <;> rfl)
        ?_ ?_ hp
      · intro p hl
        simp [AList.lookup_erase] at hl
      · exact fun t hl => absurd hl (h.forwarders.no_fleet (by simp [hk]) t)
    · simp only [Payload.renew, hid, if_false]
      exact h.commanded_other hl hp (fun map => by cases map <;> rfl)
        (AList.lookup_erase_ne (Ne.symm hid)) rfl hready fun _ => rfl
  | unchanged hm =>
    have hrenew : payload.renew i (newest c i tr) = newest c i tr := by
      cases payload <;> first | rfl | simp [Payload.managesId] at hm
    rw [hrenew]
    exact h.commanded_other hl hp (fun _ => rfl) rfl rfl hready fun _ => rfl

end Commands

theorem Parts.step {a : Act} (h : Parts (kinds c i) tr w c i) (hl : IdLedger tr w)
    (hpool : PoolAliased w) (hok : OneAtATime kinds tr w a) (hi : kinds c i ≠ .action)
    (hs : RoutingStep w a w' out) : Parts (kinds c i) (tr ++ out) w' c i := by
  by_cases hc : a.client = some c
  · have hstep := hs
    have hquiet : (∀ o ∈ out, o.quiet = true) → ∀ o ∈ out, o.author ≠ some c := fun hq o ho => by
      simp [Obs.author_of_quiet (hq o ho)]
    have hset : ∀ phase, (w.setPhase c phase).sessions c = { w.sessions c with phase := phase } :=
      w.sessions_setPhase_same c
    cases hs with
    | quiet _ _ hsess hq => exact h.frame hl hstep (by rw [hsess]) (hquiet hq)
    | born _ _ hsess => exact h.frame hl hstep (by rw [hsess]) (by simp)
    | drained _ _ _ _ _ _ _ _ hsess hq _ => exact h.frame hl hstep (by rw [hsess]) (hquiet hq)
    | driverEnd | answered => simp [Act.client] at hc
    | connected hp =>
      obtain rfl := (Option.some.inj hc).symm
      have hnone := h.entries.empty_of_slot (by simp [hp, SessionPhase.running])
        (by simp [Session.slot, hp])
      have hs : (w.setSession c .fresh).sessions c = .fresh := by simp
      rw [List.append_nil]
      refine ⟨?_, .of_empty hnone (by simp [Session.fresh]) (by simp [Session.fresh])⟩
      rw [hs]
      refine .no_forwarders _ h.forwarders.kinded (Session.forwarders_empty rfl rfl ?_)
      intro map
      cases map <;> rfl
    | @commanded _ payload panes handled hp heq =>
      obtain rfl := (Option.some.inj hc).symm
      subst heq
      obtain ⟨hloc, hrem⟩ := h.commanded hl hok hi hp ((w.sessions c).commandEffect _ panes payload)
      refine ⟨?_, ?_⟩
      · rw [newest_append_command payload World.replies_quiet]
        simpa using hloc
      · rw [newest_append_command payload World.replies_quiet]
        exact hrem
    | @refused _ call env hp =>
      obtain rfl := (Option.some.inj hc).symm
      exact h.after (by simp) (hset _) (h.refused env hl hp)
    | @allocated _ call k hp hk =>
      obtain rfl := (Option.some.inj hc).symm
      exact h.after (by simp) (World.sessions_setPhase_same _ _) (h.allocated hl hpool hp hk rfl)
    | @inserted _ call k d hp =>
      obtain rfl := (Option.some.inj hc).symm
      exact h.after (by simp) (World.sessions_setPhase_same _ _) (h.inserted hl hp rfl)
    | @sent _ call k d handles hp hd heq =>
      obtain rfl := (Option.some.inj hc).symm
      exact h.after (by simp) (Function.update_self _ _ _) (h.sent hl hp hd heq)
    | @sendFailed _ call k d hp hd =>
      obtain rfl := (Option.some.inj hc).symm
      exact h.after (by simp) (hset _) (h.sendFailed hl hp hd)
    | @rolledBack _ call k d hp =>
      obtain rfl := (Option.some.inj hc).symm
      exact h.after (by simp) (World.sessions_setPhase_same _ _) (h.rolledBack hl hp rfl)
    | @unsubscribed _ id handle hp =>
      obtain rfl := (Option.some.inj hc).symm
      have hsess := congrFun (w.sessions_setPhase_release c id handle .ready) c
      refine h.after (fun payload hm => ?_) (hsess.trans (hset _)) (h.unsubscribed hl hp hok.2)
      exact absurd (World.author_release hm) (by simp [Obs.author])
    | disconnected hp =>
      obtain rfl := (Option.some.inj hc).symm
      have hs : (w.setSession c (w.sessions c).close).sessions c = (w.sessions c).close := by simp
      obtain ⟨hhandles, hrun⟩ := (w.sessions c).close_phase i
      rw [List.append_nil]
      refine ⟨?_, h.entries.shrink hl (fun _ _ hr => hr) (fun _ _ => rfl) ?_ ?_ ?_⟩
      · rw [hs]
        refine .no_forwarders _ h.forwarders.kinded (Session.forwarders_empty rfl rfl ?_)
        intro map
        cases map <;> rfl
      · simp [hp, SessionPhase.handles]
      · rw [hs]; exact hhandles
      · rw [hs]; simp [hrun]
    | @teardownLocked _ todo hp =>
      obtain rfl := (Option.some.inj hc).symm
      exact h.after (by simp) (World.sessions_setPhase_same _ _)
        (h.tornDown hl hstep (by simp) (by simp [hp, SessionPhase.handles])
          ⟨by rw [World.sessions_setPhase_same]; rfl, by rw [World.sessions_setPhase_same]; rfl⟩)
    | @teardownNext _ id handle todo hp =>
      obtain rfl := (Option.some.inj hc).symm
      have hsess := (congrFun (w.sessions_setPhase_release c id handle (.draining todo)) c).trans
        (hset _)
      have hnone : ∀ o ∈ (w.release c id handle).2, o.author ≠ some c := fun o hm => by
        simp [World.author_release hm]
      exact h.after (fun payload hm => hnone _ hm rfl) hsess
        (h.tornDown hl hstep hnone (by simp [hp, SessionPhase.handles])
          ⟨by rw [hsess]; rfl, by rw [hsess]; rfl⟩)
    | teardownDone hp =>
      obtain rfl := (Option.some.inj hc).symm
      exact h.after (by simp) (World.sessions_setPhase_same _ _)
        (h.tornDown hl hstep (by simp) (by simp [hp, SessionPhase.handles])
          ⟨by rw [World.sessions_setPhase_same]; rfl, by rw [World.sessions_setPhase_same]; rfl⟩)
  · exact h.frame hl hs (hs.sessions_other hc) fun o ho ha => hc (hs.author_client ho ha)

theorem parts_of_run (h : Run daemon (OneAtATime kinds) tr w) (hi : kinds c i ≠ .action) :
    Parts (kinds c i) tr w c i := by
  refine h.invariant (I := fun tr w => Parts (kinds c i) tr w c i) ?_ ?_
  · rintro _ rfl
    refine ⟨.no_forwarders _ (by simp [newest]) rfl, .of_empty ?_ ?_ ?_⟩
    · rintro k d ⟨e, he, -⟩
      simp [World.initial, AgentConnection.unborn] at he
    · simp [World.initial, Session.absent]
    · simp [World.initial, Session.absent]
  · intro tr w a w' out hr ih hok hs
    exact ih.step (idLedger_of_run hr) (poolAliased_of_run hr) hok hi (World.routingStep_of_step hs)

end Step

/-- Where a session and its daemon can keep a producer. -/
inductive Place
  | pane
  | fleet
  | forwarder (map : TaskMap)
  | entry
  deriving DecidableEq

def Producer.place : Producer → Place
  | .pane _ => .pane
  | .fleet _ => .fleet
  | .forwarder map _ => .forwarder map
  | .entry _ _ => .entry

/-- The place of the producers that can serve a use. -/
def Use.place : Use → Option Place
  | .pane _ => some .pane
  | .subscription sub =>
    match sub.target with
    | some .localTarget => sub.taskMap.map .forwarder
    | some (.remote _) => some .entry
    | none => if sub.kind = .fleet then some .fleet else none

section Producers

variable {kind : IdKind} {use : Option Use} {tr : List Obs} {w : World} {c : ClientId} {i : Nat}

theorem Use.place_of_fleet {u : Use} (h : u.kind = .fleet) : u.place = some .fleet := by
  cases u with
  | pane => simp [kind] at h
  | subscription sub => cases sub <;> first | rfl | simp [Use.kind, Subscription.kind] at h

theorem Session.mem_forwarders {s : Session} {p : Producer} : p ∈ s.forwarders i ↔
    match p with
    | .pane paneId => s.paneSubs.lookup i = some paneId
    | .fleet task => s.fleetSubs.lookup i = some task
    | .forwarder map task => (s.tasks map).lookup i = some task
    | .entry _ _ => False := by
  cases p with
  | forwarder map task => cases map <;> simp [forwarders]
  | _ => simp [forwarders]

/-- A forwarder serves the newest use, from the place of that use. -/
theorem LocalPart.serves {s : Session} (h : LocalPart kind use s i) {p : Producer}
    (hp : p ∈ s.forwarders i) : ∃ u, use = some u ∧ p.Serves w u ∧ u.place = some p.place := by
  have hp := Session.mem_forwarders.mp hp
  cases p with
  | pane paneId => exact ⟨_, h.pane paneId hp, rfl, rfl⟩
  | fleet task =>
    obtain ⟨u, hu, hk⟩ := h.fleet task hp
    exact ⟨u, hu, hk, Use.place_of_fleet hk⟩
  | forwarder map task =>
    obtain ⟨hu, hm, ht⟩ := h.task map task hp
    exact ⟨_, hu, rfl, by simp [Use.place, ht, hm, Producer.place]⟩
  | entry k d => exact hp.elim

theorem Session.forwarders_place {s : Session} {p q : Producer} (hp : p ∈ s.forwarders i)
    (hq : q ∈ s.forwarders i) (h : p.place = q.place) : p = q := by
  have hp := mem_forwarders.mp hp
  have hq := mem_forwarders.mp hq
  cases p <;> cases q <;> simp only [Producer.place, reduceCtorEq, Place.forwarder.injEq] at h
  case pane => rw [Option.some.inj (hp.symm.trans hq)]
  case fleet => rw [Option.some.inj (hp.symm.trans hq)]
  case forwarder => subst h; rw [Option.some.inj (hp.symm.trans hq)]
  case entry => exact hp.elim

/-- A producer is a forwarder or sits in a slot of the routing tables. -/
theorem World.mem_producers (hl : IdLedger tr w) {p : Producer} : p ∈ w.producers c i ↔
    p ∈ (w.sessions c).forwarders i ∨ ∃ k d, p = .entry k d ∧ w.Routes c i k d := by
  simp only [producers, List.mem_append, List.mem_map, Prod.exists]
  refine or_congr Iff.rfl ⟨?_, ?_⟩
  · rintro ⟨k, d, hm, rfl⟩
    exact ⟨k, d, rfl, (mem_entriesOf hl).mp hm⟩
  · rintro ⟨k, d, rfl, hr⟩
    exact ⟨k, d, (mem_entriesOf hl).mpr hr, rfl⟩

theorem Parts.serves (h : Parts kind tr w c i) (hl : IdLedger tr w)
    (hh : (w.sessions c).phase.handles i = false) {p : Producer} (hp : p ∈ w.producers c i) :
    ∃ u, newest c i tr = some u ∧ p.Serves w u ∧ u.place = some p.place := by
  rcases (World.mem_producers hl).mp hp with hp | ⟨k, d, rfl, hr⟩
  · exact h.forwarders.serves hp
  · obtain ⟨sub, hu, ht⟩ := h.entries.serves hh k d hr
    exact ⟨_, hu, ⟨sub, rfl, ht⟩, by simp [Use.place, ht, Producer.place]⟩

theorem Parts.place_unique (h : Parts kind tr w c i) (hl : IdLedger tr w) {p q : Producer}
    (hp : p ∈ w.producers c i) (hq : q ∈ w.producers c i) (hpq : p.place = q.place) : p = q := by
  rcases (World.mem_producers hl).mp hp with hfp | ⟨k, d, rfl, hr⟩ <;>
    rcases (World.mem_producers hl).mp hq with hfq | ⟨k', d', rfl, hr'⟩
  · exact Session.forwarders_place hfp hfq hpq
  · have hfp := Session.mem_forwarders.mp hfp
    cases p <;> first | exact hfp.elim | simp [Producer.place] at hpq
  · have hfq := Session.mem_forwarders.mp hfq
    cases q <;> first | exact hfq.elim | simp [Producer.place] at hpq
  · obtain ⟨slot, hslot, -⟩ := h.entries.placed
    obtain ⟨rfl, rfl⟩ := Prod.mk.inj (Option.some.inj ((hslot k d hr).symm.trans (hslot k' d' hr')))
    rfl

end Producers

/-- When every command finds the previous producer of its id retired, or retires it, an id has one
producer at most, for its newest use. -/
theorem one_producer {kinds : ClientId → Nat → IdKind} {tr : List Obs} {w : World}
    (h : Run daemon (OneAtATime kinds) tr w) : ∀ c i, kinds c i ≠ .action →
    (w.sessions c).phase.handles i = false → OneProducer tr w c i := by
  intro c i hi hh
  have hparts := parts_of_run h hi
  have hl := idLedger_of_run h
  have hserves := fun p => hparts.serves (p := p) hl hh
  unfold OneProducer
  cases hn : newest c i tr with
  | none =>
    refine List.eq_nil_iff_forall_not_mem.mpr fun p hp => ?_
    obtain ⟨u, hu, -⟩ := hserves p hp
    simp [hn] at hu
  | some use =>
    refine ⟨fun p hp => ?_, fun p hp q hq => ?_⟩
    · obtain ⟨u, hu, hs, -⟩ := hserves p hp
      obtain rfl := Option.some.inj (hn.symm.trans hu)
      exact hs
    · obtain ⟨u, hu, -, hpp⟩ := hserves p hp
      obtain ⟨u', hu', -, hpq⟩ := hserves q hq
      obtain rfl := Option.some.inj (hu.symm.trans hu')
      exact hparts.place_unique hl hp hq (Option.some.inj (hpp.symm.trans hpq))

/-- Id `1` is for the fleet, the others are for containers. -/
def dockerKinds (_ : ClientId) (i : Nat) : IdKind := if i = 1 then .fleet else .docker

theorem one_producer_switched : ∃ tr w, Run daemon (OneAtATime dockerKinds) tr w ∧
    w.producers 0 5 = [.entry 0 1] ∧ OneProducer tr w 0 5 := by
  obtain ⟨tr, w, hr, hp, hh⟩ := Run.of_replay daemon (OneAtATime dockerKinds)
    (fun _ w => w.producers 0 5 = [.entry 0 1] ∧ (w.sessions 0).phase.handles 5 = false) rfl
    (registerBy 0 0 ++ [Act.command 0 (.subscribe (.docker 5 .localTarget)) .none,
      .command 0 (.unsubscribe 5) .none] ++ routeBy 0 5) (by decide)
  exact ⟨tr, w, hr, hp, one_producer hr 0 5 (by decide) hh⟩

/-- A subscription that moves from a remote host to the local engine keeps its routing entry. -/
theorem two_producers : ¬ ∀ (kinds : ClientId → Nat → IdKind) (tr : List Obs) (w : World),
    Run daemon (OfKinds kinds) tr w → ∀ c i, kinds c i ≠ .action →
    (w.sessions c).phase.handles i = false → OneProducer tr w c i := by
  intro hall
  obtain ⟨tr, w, hr, hn, he, ht, hh⟩ := Run.of_replay daemon (OfKinds dockerKinds)
    (fun tr w => newest 0 5 tr = some (.subscription (.docker 5 .localTarget)) ∧
      .entry 0 1 ∈ w.producers 0 5 ∧
      .forwarder .docker ⟨2, .docker 5 .localTarget⟩ ∈ w.producers 0 5 ∧
      (w.sessions 0).phase.handles 5 = false) rfl
    (registerBy 0 0 ++ routeBy 0 5 ++
      [Act.command 0 (.subscribe (.docker 5 .localTarget)) .none]) (by decide)
  have h := hall dockerKinds tr w hr 0 5 (by decide) hh
  rw [OneProducer, hn] at h
  have := h.2 _ he _ ht
  cases this

end Tepegoz
