import Tepegoz.PoolSteps

namespace Tepegoz

open Transition

/-- Handles that a session has taken from its map and not yet released. -/
def SessionPhase.pending : SessionPhase → List (Nat × AgentSubHandle)
  | .unsubscribing id handle => [(id, handle)]
  | .closing todo | .draining todo => todo
  | _ => []

def Session.Holds (s : Session) (id : Nat) (handle : AgentSubHandle) : Prop :=
  s.clientAgentSubs.lookup id = some handle ∨ (id, handle) ∈ s.phase.pending

/-- The client, the id and the handle of the release that a step makes. -/
def Act.releasing (w : World) : Act → Option (ClientId × Nat × AgentSubHandle)
  | .unsubscribe c =>
    match (w.sessions c).phase with
    | .unsubscribing id handle => some (c, id, handle)
    | _ => none
  | .teardown c =>
    match (w.sessions c).phase with
    | .draining ((id, handle) :: _) => some (c, id, handle)
    | _ => none
  | _ => none

/-- The observations that the ledger of agent-side ids is kept by. -/
def Obs.ledger : Obs → Bool
  | .allocated _ _ _ | .inserted _ _ _ => true
  | _ => false

theorem Obs.ledger_of_quiet {o : Obs} (h : o.quiet = true) : o.ledger = false := by
  cases o <;> simp_all [Obs.quiet, Obs.ledger]

/-- The connection that a route call has cloned out of the pool. -/
def CallStage.conn : CallStage → Option ConnId
  | .lookup => none
  | .allocated k _ | .inserted k _ | .rollback k _ => some k

/-- What the trace says about the id that a call works with. -/
def CallStage.Recorded (tr : List Obs) (c : ClientId) (call : RouteCall) : CallStage → Prop
  | .lookup => True
  | .allocated k d => .allocated c k d ∈ tr ∧ ∀ e, .inserted k d e ∉ tr
  | .inserted k d | .rollback k d => .inserted k d (call.entry c) ∈ tr

def HandleRecorded (tr : List Obs) (c : ClientId) (id : Nat) (handle : AgentSubHandle) : Prop :=
  ∃ e, .inserted handle.conn handle.daemonId e ∈ tr ∧ e.client = c ∧ e.clientId = id

/-- An agent-side id is allocated once on its connection, to one client, and names at most one
routing entry ever. -/
structure IdLedger (tr : List Obs) (w : World) : Prop where
  born : ∀ c k d, .allocated c k d ∈ tr → k < w.connCount
  blank : ∀ k, w.connCount ≤ k → (w.conns k).nextSubId = 1
  fresh : ∀ c k d, .allocated c k d ∈ tr → d < (w.conns k).nextSubId
  owner : ∀ c c' k d, .allocated c k d ∈ tr → .allocated c' k d ∈ tr → c = c'
  stage : ∀ c call stage, (w.sessions c).phase = .routing call stage → stage.Recorded tr c call
  inserted : ∀ k d e, .inserted k d e ∈ tr → .allocated e.client k d ∈ tr
  unique : ∀ k d e e', .inserted k d e ∈ tr → .inserted k d e' ∈ tr → e = e'
  entry : ∀ k d e, (w.conns k).routing.lookup d = some e → .inserted k d e ∈ tr
  handle : ∀ c id handle, (w.sessions c).Holds id handle → HandleRecorded tr c id handle

theorem idLedger_initial : IdLedger [] .initial where
  born := by simp
  blank _ _ := rfl
  fresh := by simp
  owner := by simp
  stage := by simp [World.initial, Session.absent]
  inserted := by simp
  unique := by simp
  entry := by simp [World.initial, AgentConnection.unborn]
  handle := by simp [World.initial, Session.absent, Session.Holds, SessionPhase.pending]

theorem IdLedger.stage_born {tr : List Obs} {w : World} {c : ClientId} {call : RouteCall}
    {stage : CallStage} {k : ConnId} (h : IdLedger tr w)
    (hp : (w.sessions c).phase = .routing call stage) (hk : stage.conn = some k) :
    k < w.connCount := by
  have hrec := h.stage c call stage hp
  cases stage with
  | lookup => simp [CallStage.conn] at hk
  | allocated k' d =>
    obtain rfl := Option.some.inj hk
    exact h.born _ _ _ hrec.1
  | inserted k' d | rollback k' d =>
    obtain rfl := Option.some.inj hk
    exact h.born _ _ _ (h.inserted _ _ _ hrec)

section Keep

variable {tr out : List Obs} {w w' : World}

theorem mem_append_of_ledger {o : Obs} (ho : ∀ o ∈ out, o.ledger = false) (hl : o.ledger = true) :
    o ∈ tr ++ out ↔ o ∈ tr := by
  rw [List.mem_append, or_iff_left]
  intro h
  simp [ho o h] at hl

theorem CallStage.Recorded.keep {c : ClientId} {call : RouteCall} {stage : CallStage}
    (h : stage.Recorded tr c call) (ho : ∀ o ∈ out, o.ledger = false) :
    stage.Recorded (tr ++ out) c call := by
  cases stage with
  | lookup => trivial
  | allocated k d =>
    refine ⟨List.mem_append_left _ h.1, fun e he => h.2 e ?_⟩
    exact (mem_append_of_ledger ho rfl).mp he
  | inserted k d => exact List.mem_append_left out h
  | rollback k d => exact List.mem_append_left out h

theorem HandleRecorded.keep {c : ClientId} {id : Nat} {handle : AgentSubHandle}
    (h : HandleRecorded tr c id handle) : HandleRecorded (tr ++ out) c id handle := by
  obtain ⟨e, he, hc⟩ := h
  exact ⟨e, List.mem_append_left _ he, hc⟩

/-- Nothing that the ledger is about gets lost on the side of the connections. -/
structure ConnsKept (w w' : World) : Prop where
  count : w.connCount ≤ w'.connCount
  next : ∀ k, (w.conns k).nextSubId ≤ (w'.conns k).nextSubId
  blank : ∀ k, w'.connCount ≤ k → (w'.conns k).nextSubId = 1
  routing : ∀ k d e, (w'.conns k).routing.lookup d = some e →
    (w.conns k).routing.lookup d = some e

theorem ConnsKept.setPhase {c : ClientId} {phase : SessionPhase} (h : ConnsKept w w') :
    ConnsKept w (w'.setPhase c phase) := ⟨h.count, h.next, h.blank, h.routing⟩

theorem IdLedger.connsKept (h : IdLedger tr w) (hn : w'.connCount = w.connCount)
    (hnext : ∀ k, (w'.conns k).nextSubId = (w.conns k).nextSubId)
    (hr : ∀ k d e, (w'.conns k).routing.lookup d = some e →
      (w.conns k).routing.lookup d = some e) : ConnsKept w w' where
  count := Nat.le_of_eq hn.symm
  next k := Nat.le_of_eq (hnext k).symm
  blank k hk := (hnext k).trans (h.blank k (hn ▸ hk))
  routing := hr

/-- The ledger survives a step that neither allocates nor inserts. -/
theorem IdLedger.keep (h : IdLedger tr w) (hk : ConnsKept w w')
    (ho : ∀ o ∈ out, o.ledger = false)
    (hp : ∀ c call stage, (w'.sessions c).phase = .routing call stage → stage.Recorded tr c call)
    (hh : ∀ c id handle, (w'.sessions c).Holds id handle → HandleRecorded tr c id handle) :
    IdLedger (tr ++ out) w' where
  born c k d ha := Nat.lt_of_lt_of_le (h.born c k d ((mem_append_of_ledger ho rfl).mp ha)) hk.count
  blank := hk.blank
  fresh c k d ha :=
    Nat.lt_of_lt_of_le (h.fresh c k d ((mem_append_of_ledger ho rfl).mp ha)) (hk.next k)
  owner c c' k d ha ha' :=
    h.owner c c' k d ((mem_append_of_ledger ho rfl).mp ha) ((mem_append_of_ledger ho rfl).mp ha')
  stage c call stage hs := (hp c call stage hs).keep ho
  inserted k d e he :=
    List.mem_append_left _ (h.inserted k d e ((mem_append_of_ledger ho rfl).mp he))
  unique k d e e' he he' :=
    h.unique k d e e' ((mem_append_of_ledger ho rfl).mp he) ((mem_append_of_ledger ho rfl).mp he')
  entry k d e he := List.mem_append_left _ (h.entry k d e (hk.routing k d e he))
  handle c id handle hs := (hh c id handle hs).keep

/-- The same for a step of one session. -/
theorem IdLedger.keepSession {c : ClientId} {s : Session} (h : IdLedger tr w)
    (hk : ConnsKept w w') (ho : ∀ o ∈ out, o.ledger = false)
    (hsess : w'.sessions = Function.update w.sessions c s)
    (hp : ∀ call stage, s.phase = .routing call stage → stage.Recorded tr c call)
    (hh : ∀ id handle, s.Holds id handle → HandleRecorded tr c id handle) :
    IdLedger (tr ++ out) w' := by
  refine h.keep hk ho ?_ ?_
  · intro c' call stage hphase
    rw [hsess] at hphase
    by_cases hc : c' = c
    · subst hc
      rw [Function.update_self] at hphase
      exact hp call stage hphase
    · rw [Function.update_of_ne hc] at hphase
      exact h.stage c' call stage hphase
  · intro c' id handle hhold
    rw [hsess] at hhold
    by_cases hc : c' = c
    · subst hc
      rw [Function.update_self] at hhold
      exact hh id handle hhold
    · rw [Function.update_of_ne hc] at hhold
      exact h.handle c' id handle hhold

/-- The same for a session that only moves to another phase. -/
theorem IdLedger.keepPhase {c : ClientId} {phase : SessionPhase} (h : IdLedger tr w)
    (hk : ConnsKept w w') (ho : ∀ o ∈ out, o.ledger = false)
    (hsess : w'.sessions = (w.setPhase c phase).sessions)
    (hp : ∀ call stage, phase = .routing call stage → stage.Recorded tr c call)
    (hpending : phase.pending ⊆ (w.sessions c).phase.pending) : IdLedger (tr ++ out) w' := by
  refine h.keepSession hk ho hsess hp fun id handle hhold => h.handle c id handle ?_
  rcases hhold with hhold | hhold
  · exact .inl hhold
  · exact .inr (hpending hhold)

end Keep

section Session

variable {s : Session} {id : Nat} {handle : AgentSubHandle}

theorem Session.Holds.of_phase {phase : SessionPhase} (hp : phase.pending ⊆ s.phase.pending)
    (h : ({ s with phase := phase } : Session).Holds id handle) : s.Holds id handle := by
  rcases h with h | h
  · exact .inl h
  · exact .inr (hp h)

/-- A phase without a handle in it adds nothing to what is held. -/
theorem World.holds_of_setPhase {w : World} {c c' : ClientId} {phase : SessionPhase}
    (hp : phase.pending = []) (h : ((w.setPhase c phase).sessions c').Holds id handle) :
    (w.sessions c').Holds id handle := by
  by_cases hc : c' = c
  · subst hc
    rw [sessions_setPhase_same] at h
    exact h.of_phase (by simp [hp])
  · rwa [sessions_setPhase_other hc] at h

/-- A command takes no new handle, and a call that it starts has no id yet. -/
theorem Session.handleCommand_spec (hp : s.phase = .ready) (task : TaskId) (panes : PaneAnswers)
    (payload : Payload) :
    (∀ call stage, (s.handleCommand task panes payload).session.phase = .routing call stage →
      stage = .lookup) ∧
    ∀ id handle, (s.handleCommand task panes payload).session.Holds id handle →
      s.Holds id handle := by
  have hkeep : ∀ s' : Session, s'.phase = s.phase → s'.clientAgentSubs = s.clientAgentSubs →
      (∀ call stage, s'.phase = .routing call stage → stage = .lookup) ∧
      ∀ id handle, s'.Holds id handle → s.Holds id handle := by
    intro s' hphase hsubs
    refine ⟨fun call stage h => by simp [hphase, hp] at h, fun id handle h => ?_⟩
    rwa [Session.Holds, hphase, hsubs] at h
  have hcall : ∀ call : RouteCall,
      (∀ call' stage, ({ s with phase := .routing call .lookup } : Session).phase =
        .routing call' stage → stage = .lookup) ∧
      ∀ id handle, ({ s with phase := .routing call .lookup } : Session).Holds id handle →
        s.Holds id handle := by
    intro call
    refine ⟨fun call' stage h => ?_, fun id handle h => h.of_phase (by simp [SessionPhase.pending])⟩
    simp only [SessionPhase.routing.injEq] at h
    exact h.2.symm
  have heffect := s.commandEffect task panes payload
  generalize (s.handleCommand task panes payload).session = s' at heffect ⊢
  cases heffect with
  | spawned sub map => cases map <;> exact hkeep _ rfl rfl
  | routed | action => exact hcall _
  | status | fleet | attached | unknownPane | unchanged => exact hkeep _ rfl rfl
  | @unsubscribed i =>
    cases hl : s.clientAgentSubs.lookup i with
    | none =>
      refine ⟨fun call stage h => ?_, fun id handle h => ?_⟩
      · simp [Session.handleUnsubscribe, hl, hp] at h
      · rcases h with h | h
        · exact .inl (World.lookup_of_erase h).1
        · simp [Session.handleUnsubscribe, hl, hp, SessionPhase.pending] at h
    | some held =>
      refine ⟨fun call stage h => ?_, fun id handle h => ?_⟩
      · simp [Session.handleUnsubscribe, hl] at h
      · rcases h with h | h
        · exact .inl (World.lookup_of_erase h).1
        · simp only [Session.handleUnsubscribe, hl, SessionPhase.pending, List.mem_singleton,
            Prod.mk.injEq] at h
          obtain ⟨rfl, rfl⟩ := h
          exact .inl hl

theorem Session.close_spec (s : Session) : (∀ call stage, s.close.phase ≠ .routing call stage) ∧
    ∀ id handle, s.close.Holds id handle → s.Holds id handle := by
  have hempty : s.close.clientAgentSubs = ∅ := rfl
  constructor
  · intro call stage h
    simp only [Session.close] at h
    split at h <;> simp at h
  · intro id handle h
    rcases h with h | h
    · simp [hempty] at h
    · left
      simp only [Session.close] at h
      split at h
      next => simp [SessionPhase.pending] at h
      next =>
        obtain ⟨entry, he, heq⟩ := List.mem_map.mp h
        obtain ⟨rfl, rfl⟩ := Prod.mk.inj heq
        exact AList.mem_lookup_iff.mpr he

end Session

section Step

variable {tr out : List Obs} {w w' : World}

theorem IdLedger.allocate {c : ClientId} {call : RouteCall} {k : ConnId} (h : IdLedger tr w)
    (hborn : k < w.connCount) :
    IdLedger (tr ++ [.allocated c k (w.conns k).nextSubId])
      ((w.setConn k { w.conns k with nextSubId := (w.conns k).nextSubId + 1 }).setPhase c
        (.routing call (.allocated k (w.conns k).nextSubId))) := by
  have hfresh : ∀ {c'}, .allocated c' k (w.conns k).nextSubId ∉ tr := by
    intro c' hm
    exact Nat.lt_irrefl _ (h.fresh c' k _ hm)
  have hins : ∀ {k' d e}, .inserted k' d e ∈ tr ++ [.allocated c k (w.conns k).nextSubId] ↔
      .inserted k' d e ∈ tr := by simp
  have halloc : ∀ {c' k' d}, .allocated c' k' d ∈ tr ++ [.allocated c k (w.conns k).nextSubId] ↔
      .allocated c' k' d ∈ tr ∨ c' = c ∧ k' = k ∧ d = (w.conns k).nextSubId := by simp
  refine ⟨?_, ?_, ?_, ?_, ?_, ?_, ?_, ?_, ?_⟩
  · intro c' k' d hm
    rcases halloc.mp hm with hm | ⟨-, rfl, -⟩
    · exact h.born c' k' d hm
    · exact hborn
  · intro k' hk
    have hne : k' ≠ k := by rintro rfl; exact absurd hborn (Nat.not_lt.mpr hk)
    simpa [hne] using h.blank k' hk
  · intro c' k' d hm
    by_cases hk : k' = k
    · subst hk
      simp only [World.conns_setPhase, World.conns_setConn, Function.update_self]
      rcases halloc.mp hm with hm | ⟨-, -, rfl⟩
      · exact Nat.lt_succ_of_lt (h.fresh c' k' d hm)
      · exact Nat.lt_succ_self _
    · simp only [World.conns_setPhase, World.conns_setConn, Function.update_of_ne hk]
      exact h.fresh c' k' d ((halloc.mp hm).resolve_right fun hh => hk hh.2.1)
  · intro c₁ c₂ k' d hm hm'
    rcases halloc.mp hm with hold | ⟨hc, hk, hd⟩ <;>
      rcases halloc.mp hm' with hold' | ⟨hc', hk', hd'⟩
    · exact h.owner c₁ c₂ k' d hold hold'
    · subst hk' hd'; exact absurd hold hfresh
    · subst hk hd; exact absurd hold' hfresh
    · exact hc.trans hc'.symm
  · intro c' call' stage hphase
    by_cases hc : c' = c
    · subst hc
      rw [World.sessions_setPhase_same] at hphase
      obtain ⟨rfl, rfl⟩ := SessionPhase.routing.inj hphase
      exact ⟨by simp, fun e he => hfresh (h.inserted _ _ e (hins.mp he))⟩
    · rw [World.sessions_setPhase_other hc] at hphase
      have hrec := h.stage c' call' stage hphase
      cases stage with
      | lookup => trivial
      | allocated k' d => exact ⟨List.mem_append_left _ hrec.1, fun e he => hrec.2 e (hins.mp he)⟩
      | inserted k' d => exact List.mem_append_left _ hrec
      | rollback k' d => exact List.mem_append_left _ hrec
  · intro k' d e he
    exact List.mem_append_left _ (h.inserted k' d e (hins.mp he))
  · intro k' d e e' he he'
    exact h.unique k' d e e' (hins.mp he) (hins.mp he')
  · intro k' d e he
    refine List.mem_append_left _ (h.entry k' d e ?_)
    by_cases hk : k' = k
    · subst hk; simpa using he
    · simpa [hk] using he
  · intro c' id handle hhold
    exact (h.handle c' id handle (World.holds_of_setPhase rfl hhold)).keep

theorem IdLedger.insert {c : ClientId} {call : RouteCall} {k : ConnId} {d : Nat}
    (h : IdLedger tr w) (hphase : (w.sessions c).phase = .routing call (.allocated k d)) :
    IdLedger (tr ++ [.inserted k d (call.entry c)])
      ((w.setRouting k ((w.conns k).routing.insert d (call.entry c))).setPhase c
        (.routing call (.inserted k d))) := by
  obtain ⟨hown, hnew⟩ : Obs.allocated c k d ∈ tr ∧ ∀ e, Obs.inserted k d e ∉ tr :=
    h.stage c call _ hphase
  have halloc : ∀ {c' k' d'}, .allocated c' k' d' ∈ tr ++ [.inserted k d (call.entry c)] ↔
      .allocated c' k' d' ∈ tr := by simp
  have hins : ∀ {k' d' e}, .inserted k' d' e ∈ tr ++ [.inserted k d (call.entry c)] ↔
      .inserted k' d' e ∈ tr ∨ k' = k ∧ d' = d ∧ e = call.entry c := by simp
  refine ⟨?_, ?_, ?_, ?_, ?_, ?_, ?_, ?_, ?_⟩
  · intro c' k' d' hm
    exact h.born c' k' d' (halloc.mp hm)
  · intro k' hk
    rw [World.conns_setPhase, World.nextSubId_setRouting]
    exact h.blank k' hk
  · intro c' k' d' hm
    rw [World.conns_setPhase, World.nextSubId_setRouting]
    exact h.fresh c' k' d' (halloc.mp hm)
  · intro c₁ c₂ k' d' hm hm'
    exact h.owner c₁ c₂ k' d' (halloc.mp hm) (halloc.mp hm')
  · intro c' call' stage hp
    by_cases hc : c' = c
    · subst hc
      rw [World.sessions_setPhase_same] at hp
      obtain ⟨rfl, rfl⟩ := SessionPhase.routing.inj hp
      exact List.mem_append_right _ (List.mem_singleton.mpr rfl)
    · rw [World.sessions_setPhase_other hc] at hp
      have hrec := h.stage c' call' stage hp
      cases stage with
      | lookup => trivial
      | allocated k' d' =>
        refine ⟨List.mem_append_left _ hrec.1, fun e he => ?_⟩
        rcases hins.mp he with he | ⟨rfl, rfl, -⟩
        · exact hrec.2 e he
        · exact hc (h.owner c' c _ _ hrec.1 hown)
      | inserted k' d' => exact List.mem_append_left _ hrec
      | rollback k' d' => exact List.mem_append_left _ hrec
  · intro k' d' e he
    rcases hins.mp he with he | ⟨rfl, rfl, rfl⟩
    · exact List.mem_append_left _ (h.inserted k' d' e he)
    · exact List.mem_append_left _ hown
  · intro k' d' e e' he he'
    rcases hins.mp he with hold | ⟨hk, hd, heq⟩ <;> rcases hins.mp he' with hold' | ⟨hk', hd', heq'⟩
    · exact h.unique k' d' e e' hold hold'
    · subst hk' hd'; exact absurd hold (hnew e)
    · subst hk hd; exact absurd hold' (hnew e')
    · exact heq.trans heq'.symm
  · intro k' d' e he
    refine hins.mpr ?_
    by_cases hk : k' = k
    · subst hk
      rw [World.conns_setPhase, World.conns_setRouting_same] at he
      by_cases hd : d' = d
      · subst hd
        rw [AList.lookup_insert, Option.some.injEq] at he
        exact .inr ⟨rfl, rfl, he.symm⟩
      · rw [AList.lookup_insert_ne hd] at he
        exact .inl (h.entry _ _ _ he)
    · rw [World.conns_setPhase, World.conns_setRouting_other hk] at he
      exact .inl (h.entry _ _ _ he)
  · intro c' id handle hhold
    exact (h.handle c' id handle (World.holds_of_setPhase rfl hhold)).keep

theorem IdLedger.release_kept (h : IdLedger tr w) (c : ClientId) (id : Nat)
    (handle : AgentSubHandle) : ConnsKept w (w.release c id handle).1 ∧
      ∀ o ∈ (w.release c id handle).2, o.ledger = false := by
  obtain ⟨-, -, hn, -⟩ := w.pool_release c id handle
  rcases w.release_cases c id handle with hr | ⟨k, -, hr, ho⟩
  · rw [hr]
    exact ⟨h.connsKept rfl (fun _ => rfl) fun _ _ _ he => he, by simp⟩
  · refine ⟨h.connsKept hn ?_ ?_, fun o hm => ?_⟩
    · intro k'; rw [hr]; exact World.nextSubId_setRouting k k' _
    · intro k' d e he; rw [hr] at he; exact World.lookup_of_eraseRouting he
    · rcases ho o hm with ⟨e, -, rfl⟩ | rfl <;> rfl

theorem IdLedger.step {a : Act} (h : IdLedger tr w) (hpool : PoolBorn w)
    (hs : RoutingStep w a w' out) : IdLedger (tr ++ out) w' := by
  have hrefl : ∀ {w'' : World}, w''.conns = w.conns → w''.connCount = w.connCount →
      ConnsKept w w'' := by
    intro w'' hc hn
    exact h.connsKept hn (fun k => by rw [hc]) fun k d e he => by rwa [hc] at he
  have hstay : ∀ {w'' : World}, w''.sessions = w.sessions → ConnsKept w w'' →
      (∀ o ∈ out, o.ledger = false) → IdLedger (tr ++ out) w'' := by
    intro w'' hsess hk ho
    exact h.keep hk ho (by rw [hsess]; exact h.stage) (by rw [hsess]; exact h.handle)
  cases hs with
  | quiet hc hn hsess ho => exact hstay hsess (hrefl hc hn) fun o hm => Obs.ledger_of_quiet (ho o hm)
  | born hc hn hsess =>
    refine hstay hsess ⟨by omega, fun k => ?_, fun k hk => ?_, fun k d e he => ?_⟩ (by simp)
    · rw [hc]
      by_cases hk : k = w.connCount
      · subst hk
        rw [Function.update_self, h.blank _ (Nat.le_refl _)]
        exact Nat.le_refl 1
      · rw [Function.update_of_ne hk]
    · rw [hn] at hk
      rw [hc, Function.update_of_ne (Nat.ne_of_gt hk)]
      exact h.blank k (Nat.le_of_lt hk)
    · rw [hc] at he
      by_cases hk : k = w.connCount
      · subst hk; simp [AgentConnection.spawned] at he
      · rwa [Function.update_of_ne hk] at he
  | @drained a w' out k conn hrout hnext _ _ _ hc hn hsess ho _ =>
    refine hstay hsess (h.connsKept hn (fun k' => ?_) fun k' d e he => ?_)
      fun o hm => Obs.ledger_of_quiet (ho o hm)
    · rw [hc]
      by_cases hk : k' = k
      · subst hk; rw [Function.update_self, hnext]
      · rw [Function.update_of_ne hk]
    · rw [hc] at he
      by_cases hk : k' = k
      · subst hk; rw [Function.update_self, hrout] at he; simp at he
      · rwa [Function.update_of_ne hk] at he
  | @driverEnd k =>
    refine hstay rfl (h.connsKept rfl (fun k' => ?_) fun k' d e he => ?_) (by simp)
    · by_cases hk : k' = k
      · subst hk; simp
      · simp [hk]
    · by_cases hk : k' = k
      · subst hk; simpa using he
      · simpa [hk] using he
  | @answered k env _ =>
    obtain ⟨hw, ho⟩ := w.routeAgentEnvelope_cases k env
    have hlout := fun o hm => Obs.ledger_of_quiet (ho o hm)
    rcases hw with hw | ⟨d, hw⟩
    · rw [hw]; exact hstay rfl (hrefl rfl rfl) hlout
    · rw [hw]
      exact hstay rfl (h.connsKept rfl (World.nextSubId_setRouting k · _)
        fun k' d' e he => World.lookup_of_eraseRouting he) hlout
  | @connected c _ =>
    refine h.keepSession (hrefl rfl rfl) (by simp) rfl ?_ ?_
    · simp [Session.fresh]
    · simp [Session.fresh, Session.absent, Session.Holds, SessionPhase.pending]
  | @commanded c payload panes handled hp heq =>
    obtain ⟨hstage, hhold⟩ := Session.handleCommand_spec hp w.taskCount panes payload
    subst heq
    refine h.keepSession (hrefl rfl rfl) ?_ rfl ?_ ?_
    · intro o hm
      rcases List.mem_cons.mp hm with rfl | hm
      · rfl
      · exact Obs.ledger_of_quiet (World.replies_quiet o hm)
    · intro call stage hphase
      rw [hstage call stage hphase]
      trivial
    · exact fun id handle hh => h.handle c id handle (hhold id handle hh)
  | @refused c call env hp =>
    exact h.keepPhase (hrefl rfl rfl) (by simp [Obs.ledger]) rfl (by simp)
      (by simp [SessionPhase.pending])
  | @allocated c call k hp hk => exact h.allocate (hpool.pool _ _ hk)
  | @inserted c call k d hp => exact h.insert hp
  | @sent c call k d handles hp _ heq =>
    have hrec : .inserted k d (call.entry c) ∈ tr := h.stage c call _ hp
    refine h.keepSession (hrefl rfl rfl) (by simp [Obs.ledger]) rfl (by simp) ?_
    intro id handle hhold
    rcases hhold with hhold | hhold
    · simp only [heq] at hhold
      split at hhold
      next =>
        by_cases hid : id = call.clientId
        · subst hid
          rw [AList.lookup_insert, Option.some.injEq] at hhold
          subst hhold
          exact ⟨call.entry c, hrec, rfl, rfl⟩
        · rw [AList.lookup_insert_ne hid] at hhold
          exact h.handle c id handle (.inl hhold)
      next => exact h.handle c id handle (.inl hhold)
    · simp [SessionPhase.pending] at hhold
  | @sendFailed c call k d hp _ =>
    refine h.keepPhase (hrefl rfl rfl) (by simp) rfl ?_ (by simp [SessionPhase.pending])
    intro call' stage heq
    obtain ⟨rfl, rfl⟩ := SessionPhase.routing.inj heq
    exact h.stage c call (.inserted k d) hp
  | @rolledBack c call k d hp =>
    refine h.keepPhase (h.connsKept rfl (World.nextSubId_setRouting k · _)
      fun k' d' e he => World.lookup_of_eraseRouting he) (by simp [Obs.ledger]) rfl (by simp)
      (by simp [SessionPhase.pending])
  | @unsubscribed c id handle hp =>
    obtain ⟨hk, ho⟩ := h.release_kept c id handle
    exact h.keepPhase hk.setPhase ho (w.sessions_setPhase_release c id handle _) (by simp)
      (by simp [SessionPhase.pending])
  | @disconnected c hp =>
    obtain ⟨hstage, hhold⟩ := (w.sessions c).close_spec
    exact h.keepSession (hrefl rfl rfl) (by simp) rfl (fun call stage he => absurd he (hstage _ _))
      fun id handle hh => h.handle c id handle (hhold id handle hh)
  | @teardownLocked c todo hp =>
    refine h.keepPhase (hrefl rfl rfl) (by simp) rfl (by simp) ?_
    simp [hp, SessionPhase.pending]
  | @teardownNext c id handle todo hp =>
    obtain ⟨hk, ho⟩ := h.release_kept c id handle
    exact h.keepPhase hk.setPhase ho (w.sessions_setPhase_release c id handle _) (by simp)
      (by simp [hp, SessionPhase.pending])
  | @teardownDone c hp =>
    refine h.keepPhase (hrefl rfl rfl) (by simp) rfl (by simp) (by simp [SessionPhase.pending])

theorem idLedger_of_run {ok : List Obs → World → Act → Prop} (h : Run daemon ok tr w) :
    IdLedger tr w := by
  refine h.invariant ?_ ?_
  · rintro _ rfl
    exact idLedger_initial
  · intro tr w a w' out hr hi _ hs
    exact hi.step (poolBorn_of_run hr) (World.routingStep_of_step hs)

end Step

/-- How a step takes a routing entry away. -/
inductive Taken (w : World) (k : ConnId) (d : Nat) : RoutedSub → Act → List Obs → Prop
  | drained {e : RoutedSub} {a : Act} {out : List Obs} : w.notices k ⊆ out → Taken w k d e a out
  | answered {e : RoutedSub} {version : Nat} {result : DockerActionResult} : result.requestId = d →
      Taken w k d e (.agentFrame k ⟨version, .dockerActionResult result⟩)
        (w.routeAgentEnvelope k ⟨version, .dockerActionResult result⟩).2
  | rolledBack {c : ClientId} {call : RouteCall} :
      (w.sessions c).phase = .routing call (.rollback k d) →
      Taken w k d (call.entry c) (.route c) [.toClient c call.writerClosed (.failedCall k d)]
  | released {e : RoutedSub} {a : Act} {c : ClientId} {id : Nat} {handle : AgentSubHandle} :
      a.releasing w = some (c, id, handle) → .released c id k d e ∈ (w.release c id handle).2 →
      Taken w k d e a (w.release c id handle).2

section Entries

variable {tr out : List Obs} {w w' : World} {a : Act} {k : ConnId} {d : Nat} {e : RoutedSub}

theorem World.answered_taken {k' : ConnId} {env : Envelope}
    (he : (w.conns k).routing.lookup d = some e) :
    ((w.routeAgentEnvelope k' env).1.conns k).routing.lookup d = some e ∨
      Taken w k d e (.agentFrame k' env) (w.routeAgentEnvelope k' env).2 := by
  obtain ⟨version, payload⟩ := env
  cases payload with
  | event d' event =>
    left
    unfold routeAgentEnvelope
    dsimp only
    split <;> exact he
  | dockerActionResult result =>
    by_cases hkd : k = k' ∧ result.requestId = d
    · obtain ⟨rfl, hd⟩ := hkd
      exact .inr (.answered hd)
    · left
      unfold routeAgentEnvelope
      dsimp only
      split
      next =>
        by_cases hk : k = k'
        · subst hk
          rw [conns_setRouting_same]
          exact (AList.lookup_erase_ne fun hd => hkd ⟨rfl, hd.symm⟩).trans he
        · rw [conns_setRouting_other hk]
          exact he
      next => exact he
  | _ => exact .inl he

/-- A routing entry outlives the step, or the step takes it. -/
theorem RoutingStep.lookup_or_taken (h : RoutingStep w a w' out) (hl : IdLedger tr w)
    (he : (w.conns k).routing.lookup d = some e) :
    (w'.conns k).routing.lookup d = some e ∨ Taken w k d e a out := by
  have hins := hl.entry k d e he
  cases h with
  | quiet hc => left; rwa [hc]
  | born hc =>
    left
    have hk : k ≠ w.connCount := Nat.ne_of_lt (hl.born _ _ _ (hl.inserted _ _ _ hins))
    rwa [hc, Function.update_of_ne hk]
  | @drained _ _ _ k' conn _ _ _ _ _ hc _ _ _ hout =>
    by_cases hk : k = k'
    · subst hk; exact .inr (.drained hout)
    · left; rwa [hc, Function.update_of_ne hk]
  | @driverEnd k' =>
    left
    by_cases hk : k = k'
    · subst hk; simpa using he
    · simpa [hk] using he
  | answered => exact World.answered_taken he
  | connected | commanded | refused | sent | sendFailed | disconnected | teardownLocked
  | teardownDone => exact .inl he
  | @allocated c call k' hp hk' =>
    left
    by_cases hk : k = k'
    · subst hk; simpa using he
    · simpa [hk] using he
  | @inserted c call k' d' hp =>
    left
    obtain ⟨-, hnew⟩ : Obs.allocated c k' d' ∈ tr ∧ ∀ e, Obs.inserted k' d' e ∉ tr :=
      hl.stage c call _ hp
    by_cases hk : k = k'
    · subst hk
      have hd : d ≠ d' := by rintro rfl; exact hnew e hins
      rw [World.conns_setPhase, World.conns_setRouting_same]
      exact (AList.lookup_insert_ne hd).trans he
    · rw [World.conns_setPhase, World.conns_setRouting_other hk]
      exact he
  | @rolledBack c call k' d' hp =>
    have hown : Obs.inserted k' d' (call.entry c) ∈ tr := hl.stage c call (.rollback k' d') hp
    by_cases hk : k = k'
    · subst hk
      by_cases hd : d = d'
      · subst hd
        obtain rfl := hl.unique _ _ _ _ hins hown
        exact .inr (.rolledBack hp)
      · left
        rw [World.conns_setPhase, World.conns_setRouting_same]
        exact (AList.lookup_erase_ne hd).trans he
    · left
      rw [World.conns_setPhase, World.conns_setRouting_other hk]
      exact he
  | @unsubscribed c id handle hp =>
    exact (w.release_lookup c id handle he).imp_right
      (.released (by simp [Act.releasing, hp]))
  | @teardownNext c id handle todo hp =>
    exact (w.release_lookup c id handle he).imp_right
      (.released (by simp [Act.releasing, hp]))

end Entries

end Tepegoz
