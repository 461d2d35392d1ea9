import Tepegoz.Lib.Stretch
import Tepegoz.PaneManagers

namespace Tepegoz

open Transition Stretch

/-- The ids that a manager hands out. -/
def PaneManager.owns : PaneManager → PaneId → Prop
  | .pty, id => id < 2 ^ 32
  | .remotePty, id => 2 ^ 32 ≤ id

def OpenAt (id : PaneId) (log : List PaneNote) : Prop :=
  (∃ c pane, .opened c pane id ∈ log) ∧ .closed id ∉ log

def PaneNote.asks (c : ClientId) : PaneNote → Prop
  | .asked c' _ => c' = c
  | _ => False

/-- Each pane is listed that was there all the time, and none that was not there at any time. -/
structure Lists (owned : PaneId → Prop) (before since : List PaneNote) (panes : List PaneInfo) : Prop where
  nodup : (panes.map (·.id)).Nodup
  found : ∀ id ∈ panes.map (·.id), owned id ∧ During (OpenAt id) before since
  all : ∀ id, owned id → Throughout (OpenAt id) before since → id ∈ panes.map (·.id)

/-- The pane that a command reached was there, and if it reached none then there was none. -/
structure Reaches (id : PaneId) (before since : List PaneNote) (pane : Option Nat) : Prop where
  reached : ∀ p ∈ pane, During (fun log => OpenAt id log ∧ ∃ c, .opened c p id ∈ log) before since
  missed : pane = none → During (fun log => ¬ OpenAt id log) before since

/-- An answer to a command that was asked at the end of `before` says how things were since. -/
def PaneAnswers.Justified (before since : List PaneNote) (c : ClientId) (answers : PaneAnswers)
    (pane : Option Nat) : Payload → Prop
  | .openPane spec => ∀ info, answers.opened = .ok info →
    spec.target.manager.owns info.id ∧ ∃ p ∈ pane, .opened c p info.id ∈ since
  | .listPanes => Lists (fun _ => True) before since answers.listed
  | .attachPane id _ | .sendInput id _ | .resizePane id _ _ =>
    answers.known = pane.isSome ∧ Reaches id before since pane
  | .closePane id => During (fun log => ¬ OpenAt id log) before since
  | _ => True

/-- What a note says is so, by the notes before it. -/
def PaneNote.Due (past : List PaneNote) : PaneNote → Prop
  | .asked _ _ => True
  | .opened _ _ id => ∀ c pane, .opened c pane id ∉ past
  | .closed id => OpenAt id past
  | .answered c payload answers pane => ∃ before since,
    Since (PaneNote.asks c) (.asked c payload) past before since ∧
      answers.Justified before since c pane payload

def PaneCall.claims : PaneCall → Option (PaneManager × PaneId)
  | .reserved spec id | .spawned spec id _ => some (spec.target.manager, id)
  | _ => none

/-- How far a call has got. -/
def PaneCall.Kept (before since : List PaneNote) (c : ClientId) (payload : Payload) : PaneCall → Prop
  | .idle => False
  | .opening spec | .reserved spec _ | .spawned spec _ _ => payload = .openPane spec
  | .entered spec pane => payload = .openPane spec ∧
    ∃ id, spec.target.manager.owns id ∧ .opened c pane id ∈ since
  | .listing => payload = .listPanes
  | .listedLocal panes => payload = .listPanes ∧ Lists PaneManager.pty.owns before since panes
  | .finding use id => payload = use.payload id
  | .notRemote use id => payload = use.payload id ∧
    (PaneManager.remotePty.owns id → During (fun log => ¬ OpenAt id log) before since)
  | .found use id pane => payload = use.payload id ∧
    During (fun log => OpenAt id log ∧ ∃ c, .opened c pane id ∈ log) before since
  | .closing id => payload = .closePane id
  | .closingIn manager id => payload = .closePane id ∧
    (manager.owns id ∨ During (fun log => ¬ OpenAt id log) before since)

section Lists

variable {before since out : List PaneNote} {c : ClientId} {payload : Payload} {call : PaneCall}
  {panes panes' : List PaneInfo} {id : PaneId}

theorem PaneManager.owns_unique {manager manager' : PaneManager} (h : manager.owns id)
    (h' : manager'.owns id) : manager = manager' := by
  cases manager <;> cases manager'
  · rfl
  · exact absurd h' (Nat.not_le.mpr h)
  · exact absurd h (Nat.not_le.mpr h')
  · rfl

theorem PaneManager.owns_some (id : PaneId) : ∃ manager : PaneManager, manager.owns id := by
  rcases Nat.lt_or_ge id (2 ^ 32) with hlt | hge
  · exact ⟨.pty, hlt⟩
  · exact ⟨.remotePty, hge⟩

theorem Lists.later {owned : PaneId → Prop} (h : Lists owned before since panes) (out : List PaneNote) :
    Lists owned before (since ++ out) panes where
  nodup := h.nodup
  found id hm := ⟨(h.found id hm).1, (h.found id hm).2.later out⟩
  all id hid ht := h.all id hid ht.earlier

/-- The lists of the two managers make one. -/
theorem Lists.append (h : Lists PaneManager.pty.owns before since panes)
    (h' : Lists PaneManager.remotePty.owns before since panes') :
    Lists (fun _ => True) before since (panes ++ panes') where
  nodup := by
    rw [List.map_append]
    refine h.nodup.append h'.nodup fun id hm hm' => ?_
    exact absurd (PaneManager.owns_unique (h.found id hm).1 (h'.found id hm').1) nofun
  found id hm := by
    rw [List.map_append] at hm
    rcases List.mem_append.mp hm with hm | hm
    · exact ⟨trivial, (h.found id hm).2⟩
    · exact ⟨trivial, (h'.found id hm).2⟩
  all id _ ht := by
    rw [List.map_append]
    obtain ⟨manager, howns⟩ := PaneManager.owns_some id
    cases manager with
    | pty => exact List.mem_append_left _ (h.all id howns ht)
    | remotePty => exact List.mem_append_right _ (h'.all id howns ht)

theorem PaneCall.Kept.later (h : call.Kept before since c payload) (out : List PaneNote) :
    call.Kept before (since ++ out) c payload := by
  cases call with
  | idle | opening | reserved | spawned | listing | finding | closing => exact h
  | entered spec pane =>
    obtain ⟨hpayload, id, howns, hm⟩ := h
    exact ⟨hpayload, id, howns, List.mem_append_left _ hm⟩
  | listedLocal panes => exact ⟨h.1, h.2.later out⟩
  | notRemote use id => exact ⟨h.1, fun howns => (h.2 howns).later out⟩
  | found use id pane => exact ⟨h.1, h.2.later out⟩
  | closingIn manager id => exact ⟨h.1, h.2.imp_right (·.later out)⟩

end Lists

namespace PaneService

def Issued (s : PaneService) (id : PaneId) : Prop :=
  ∀ manager : PaneManager, manager.owns id → id < (s.table manager).nextId

/-- The id is the call's to open a pane with. -/
structure Claim (tr : List PaneNote) (s : PaneService) (c : ClientId) (manager : PaneManager)
    (id : PaneId) : Prop where
  owned : manager.owns id
  issued : s.Issued id
  unopened : ∀ c' pane, .opened c' pane id ∉ tr
  alone : ∀ c' manager', (s.calls c').claims = some (manager', id) → c' = c

/-- A pane keeps its id. -/
def SameNames (spawned spawned' : List ManagedPane) : Prop :=
  ∀ (pane : Nat) (p : ManagedPane), spawned[pane]? = some p → ∃ p', spawned'[pane]? = some p' ∧ p'.id = p.id

structure Sound (tr : List PaneNote) (s : PaneService) : Prop where
  table : ∀ manager id pane, (s.table manager).panes.lookup id = some pane ↔
    manager.owns id ∧ (∃ c, .opened c pane id ∈ tr) ∧ .closed id ∉ tr
  once : ∀ c pane c' pane' id, .opened c pane id ∈ tr → .opened c' pane' id ∈ tr → pane = pane'
  shut : ∀ id, .closed id ∈ tr → ∃ c pane, .opened c pane id ∈ tr
  named : ∀ c pane id, .opened c pane id ∈ tr → ∃ p, s.spawned[pane]? = some p ∧ p.id = id
  issued : ∀ c pane id, .opened c pane id ∈ tr → s.Issued id
  local_le : (s.table .pty).nextId ≤ 2 ^ 32
  remote_le : 2 ^ 32 ≤ (s.table .remotePty).nextId
  claimed : ∀ c manager id, (s.calls c).claims = some (manager, id) → s.Claim tr c manager id
  held : ∀ c spec id pane, s.calls c = .spawned spec id pane →
    ∃ p, s.spawned[pane]? = some p ∧ p.id = id
  calls : ∀ c, s.calls c ≠ .idle → ∃ payload before since,
    Since (PaneNote.asks c) (.asked c payload) tr before since ∧
      (s.calls c).Kept before since c payload

section Sound

variable {defaultShell : String} {tr out : List PaneNote} {s s' : PaneService} {c : ClientId}
  {call : PaneCall} {payload : Payload} {before since : List PaneNote} {id : PaneId}
  {manager : PaneManager}

theorem SameNames.refl (spawned : List ManagedPane) : SameNames spawned spawned := fun _ p hp => ⟨p, hp, rfl⟩

theorem SameNames.append (spawned more : List ManagedPane) : SameNames spawned (spawned ++ more) :=
  fun _ p hp => ⟨p, by rw [List.getElem?_append_left (List.getElem?_eq_some_iff.mp hp).1, hp], rfl⟩

theorem SameNames.modify {f : ManagedPane → ManagedPane} (hf : ∀ p, (f p).id = p.id)
    (spawned : List ManagedPane) (pane : Nat) : SameNames spawned (spawned.modify pane f) := by
  intro pane' p hp
  rw [List.getElem?_modify, hp]
  split
  · exact ⟨f p, rfl, hf p⟩
  · exact ⟨p, rfl, rfl⟩

theorem sound_new : Sound [] new where
  table manager id pane := by cases manager <;> simp [new, PaneManager.new]
  once _ _ _ _ _ h := absurd h List.not_mem_nil
  shut _ h := absurd h List.not_mem_nil
  named _ _ _ h := absurd h List.not_mem_nil
  issued _ _ _ h := absurd h List.not_mem_nil
  local_le := by decide
  remote_le := by decide
  claimed _ _ _ h := nomatch h
  held _ _ _ _ h := nomatch h
  calls _ h := absurd rfl h

namespace Sound

theorem openAt_iff (h : Sound tr s) : OpenAt id tr ↔ ∃ manager, id ∈ (s.table manager).panes := by
  constructor
  · rintro ⟨⟨c, pane, hopened⟩, hclosed⟩
    obtain ⟨manager, howns⟩ := PaneManager.owns_some id
    have hlookup := (h.table manager id pane).mpr ⟨howns, ⟨c, hopened⟩, hclosed⟩
    exact ⟨manager, AList.lookup_isSome.mp (by simp [hlookup])⟩
  · rintro ⟨manager, hm⟩
    obtain ⟨pane, hlookup⟩ := Option.isSome_iff_exists.mp (AList.lookup_isSome.mpr hm)
    obtain ⟨-, ⟨c, hopened⟩, hclosed⟩ := (h.table manager id pane).mp hlookup
    exact ⟨⟨c, pane, hopened⟩, hclosed⟩

theorem owned (h : Sound tr s) (hm : id ∈ (s.table manager).panes) : manager.owns id := by
  obtain ⟨pane, hlookup⟩ := Option.isSome_iff_exists.mp (AList.lookup_isSome.mpr hm)
  exact ((h.table manager id pane).mp hlookup).1

/-- A manager that does not have one of its ids shows that no such pane is open. -/
theorem not_openAt (h : Sound tr s) (howns : manager.owns id) (hm : id ∉ (s.table manager).panes) :
    ¬ OpenAt id tr := fun hopen => by
  obtain ⟨manager', hm'⟩ := h.openAt_iff.mp hopen
  exact hm (PaneManager.owns_unique howns (h.owned hm') ▸ hm')

theorem openAt_of_lookup (h : Sound tr s) {pane : Nat} (hl : (s.table manager).panes.lookup id = some pane) :
    OpenAt id tr ∧ ∃ c, .opened c pane id ∈ tr := by
  obtain ⟨-, ⟨c, hopened⟩, hclosed⟩ := (h.table manager id pane).mp hl
  exact ⟨⟨⟨c, pane, hopened⟩, hclosed⟩, c, hopened⟩

theorem infos_ids (h : Sound tr s) (manager : PaneManager) :
    (s.infos manager).map (·.id) = (s.table manager).panes.keys := by
  have hids : ∀ entries : List ((_ : Nat) × Nat),
      (∀ e ∈ entries, ∃ p, s.spawned[e.2]? = some p ∧ p.id = e.1) →
      (entries.filterMap fun e => s.spawned[e.2]?.map ManagedPane.info).map (·.id) =
        entries.map (·.1) := by
    intro entries
    induction entries with
    | nil => exact fun _ => rfl
    | cons e entries ih =>
      intro hnamed
      obtain ⟨p, hp, hid⟩ := hnamed e List.mem_cons_self
      simp [hp, ManagedPane.info, hid, ih fun e he => hnamed e (List.mem_cons_of_mem _ he)]
  refine hids _ fun e he => ?_
  have hlookup : (s.table manager).panes.lookup e.1 = some e.2 :=
    AList.mem_lookup_iff.mpr he
  obtain ⟨-, ⟨c, hopened⟩, -⟩ := (h.table manager _ _).mp hlookup
  exact h.named c _ _ hopened

theorem lists (h : Sound tr s) {question : PaneNote} (hs : Since (PaneNote.asks c) question tr before since)
    {panes : List PaneInfo} (hp : panes.isPerm (s.infos manager)) :
    Lists manager.owns before since panes := by
  have hids : (panes.map (·.id)).Perm (s.table manager).panes.keys :=
    h.infos_ids manager ▸ (List.isPerm_iff.mp hp).map _
  refine ⟨hids.nodup_iff.mpr (s.table manager).panes.keys_nodup, fun id hm => ?_, fun id howns ht => ?_⟩
  · have hmem : id ∈ (s.table manager).panes := hids.mem_iff.mp hm
    exact ⟨h.owned hmem, hs.during_now (h.openAt_iff.mpr ⟨manager, hmem⟩)⟩
  · obtain ⟨manager', hm⟩ := h.openAt_iff.mp (hs.of_throughout ht)
    obtain rfl := PaneManager.owns_unique howns (h.owned hm)
    exact hids.mem_iff.mpr hm

theorem claim_congr (h : s.Claim tr c manager id) (hi : ∀ id, s.Issued id → s'.Issued id)
    (ho : ∀ c' pane, .opened c' pane id ∈ out → False)
    (hc : ∀ c' manager', (s'.calls c').claims = some (manager', id) → c' ≠ c →
      (s.calls c').claims = some (manager', id)) : s'.Claim (tr ++ out) c manager id where
  owned := h.owned
  issued := hi id h.issued
  unopened c' pane hm := (List.mem_append.mp hm).elim (h.unopened c' pane) (ho c' pane)
  alone c' manager' hcl := by
    by_contra hne
    exact hne (h.alone c' manager' (hc c' manager' hcl hne))

/-- A step of one session that opens and closes no pane. -/
theorem moved (h : Sound tr s) (htable : s'.table = s.table)
    (hcalls : s'.calls = Function.update s.calls c call)
    (hspawned : SameNames s.spawned s'.spawned)
    (hopened : ∀ c' pane id, .opened c' pane id ∉ out) (hclosed : ∀ id, .closed id ∉ out)
    (hasks : ∀ x ∈ out, ∀ c' ≠ c, ¬ x.asks c')
    (hclaims : ∀ manager id, call.claims = some (manager, id) → s.Claim tr c manager id)
    (hheld : ∀ spec id pane, call = .spawned spec id pane → ∃ p, s'.spawned[pane]? = some p ∧ p.id = id)
    (hkept : call ≠ .idle → ∃ payload before since,
      Since (PaneNote.asks c) (.asked c payload) (tr ++ out) before since ∧
        call.Kept before since c payload) : Sound (tr ++ out) s' := by
  have hopen : ∀ c' pane id, .opened c' pane id ∈ tr ++ out ↔ .opened c' pane id ∈ tr := fun c' pane id =>
    ⟨fun hm => (List.mem_append.mp hm).resolve_right (hopened c' pane id), List.mem_append_left _⟩
  have hclose : ∀ id, .closed id ∈ tr ++ out ↔ .closed id ∈ tr := fun id =>
    ⟨fun hm => (List.mem_append.mp hm).resolve_right (hclosed id), List.mem_append_left _⟩
  have hissued : ∀ id, s.Issued id → s'.Issued id := fun id hi => by
    unfold Issued
    rw [htable]
    exact hi
  have hother : ∀ c' ≠ c, s'.calls c' = s.calls c' := fun c' hne => by
    rw [hcalls, Function.update_of_ne hne]
  have hself : s'.calls c = call := by rw [hcalls, Function.update_self]
  constructor
  · simp only [htable, hopen, hclose]
    exact h.table
  · simp only [hopen]
    exact h.once
  · simp only [hopen, hclose]
    exact h.shut
  · intro c' pane id hm
    obtain ⟨p, hp, rfl⟩ := h.named c' pane id ((hopen _ _ _).mp hm)
    exact hspawned pane p hp
  · exact fun c' pane id hm => hissued id (h.issued c' pane id ((hopen _ _ _).mp hm))
  · exact htable ▸ h.local_le
  · exact htable ▸ h.remote_le
  · intro c' manager id hcl
    by_cases hne : c' = c
    · subst hne
      rw [hself] at hcl
      refine claim_congr (hclaims manager id hcl) hissued (fun _ _ hm => hopened _ _ _ hm) ?_
      intro c'' manager' hcl' hne'
      rwa [hother c'' hne'] at hcl'
    · rw [hother c' hne] at hcl
      refine claim_congr (h.claimed c' manager id hcl) hissued (fun _ _ hm => hopened _ _ _ hm) ?_
      intro c'' manager' hcl' hne'
      by_cases hc'' : c'' = c
      · subst hc''
        rw [hself] at hcl'
        exact absurd ((hclaims manager' id hcl').alone c' manager hcl).symm hne'
      · rwa [hother c'' hc''] at hcl'
  · intro c' spec id pane hcall
    by_cases hne : c' = c
    · subst hne
      exact hheld spec id pane (hself ▸ hcall)
    · rw [hother c' hne] at hcall
      obtain ⟨p, hp, rfl⟩ := h.held c' spec id pane hcall
      exact hspawned pane p hp
  · intro c' hbusy
    by_cases hne : c' = c
    · subst hne
      rw [hself] at hbusy ⊢
      exact hkept hbusy
    · rw [hother c' hne] at hbusy ⊢
      obtain ⟨payload, before, since, hsince, hk⟩ := h.calls c' hbusy
      exact ⟨payload, before, since ++ out, hsince.later fun x hx => hasks x hx c' hne, hk.later out⟩

/-- The same without a note. -/
theorem moved_on (h : Sound tr s) (htable : s'.table = s.table)
    (hcalls : s'.calls = Function.update s.calls c call) (hspawned : SameNames s.spawned s'.spawned)
    (hclaims : ∀ manager id, call.claims = some (manager, id) → s.Claim tr c manager id)
    (hheld : ∀ spec id pane, call = .spawned spec id pane → ∃ p, s'.spawned[pane]? = some p ∧ p.id = id)
    (hkept : call ≠ .idle → ∃ payload before since,
      Since (PaneNote.asks c) (.asked c payload) tr before since ∧ call.Kept before since c payload) :
    Sound tr s' := by
  have hdone : Sound (tr ++ []) s' := by
    refine h.moved htable hcalls hspawned ?_ ?_ ?_ hclaims hheld ?_
    · simp
    · simp
    · simp
    · simpa using hkept
  exact List.append_nil tr ▸ hdone

theorem issue_panes (s : PaneService) (manager manager' : PaneManager) :
    ((s.issue manager).table manager').panes = (s.table manager').panes := by
  unfold issue setTable
  by_cases hm : manager' = manager
  · subst hm
    simp
  · simp [hm]

theorem issue_nextId (s : PaneService) (manager manager' : PaneManager) :
    ((s.issue manager).table manager').nextId =
      (s.table manager').nextId + if manager' = manager then 1 else 0 := by
  unfold issue setTable
  by_cases hm : manager' = manager
  · subst hm
    simp
  · simp [hm]

theorem issued_issue {id : PaneId} (hi : s.Issued id) (manager : PaneManager) :
    (s.issue manager).Issued id := fun manager' howns => by
  rw [issue_nextId]
  exact Nat.lt_of_lt_of_le (hi manager' howns) (Nat.le_add_right _ _)

theorem issue (h : Sound tr s) (hnext : manager.owns (s.table manager).nextId) :
    Sound tr (s.issue manager) := by
  constructor
  · simp only [issue_panes]
    exact h.table
  · exact h.once
  · exact h.shut
  · exact h.named
  · exact fun c pane id hm => issued_issue (h.issued c pane id hm) manager
  · rw [issue_nextId]
    cases manager with
    | pty => exact hnext
    | remotePty => exact h.local_le
  · rw [issue_nextId]
    exact Nat.le_trans h.remote_le (Nat.le_add_right _ _)
  · intro c manager' id hcl
    have hclaim := h.claimed c manager' id hcl
    exact ⟨hclaim.owned, issued_issue hclaim.issued manager, hclaim.unopened, hclaim.alone⟩
  · exact h.held
  · exact h.calls

/-- The id that is handed out is new. -/
theorem claim_issue (h : Sound tr s) (hnext : manager.owns (s.table manager).nextId) (c : ClientId) :
    (s.issue manager).Claim tr c manager (s.table manager).nextId where
  owned := hnext
  issued manager' howns := by
    obtain rfl := PaneManager.owns_unique hnext howns
    rw [issue_nextId, if_pos rfl]
    exact Nat.lt_succ_self _
  unopened c' pane hm := absurd (h.issued c' pane _ hm manager hnext) (lt_irrefl _)
  alone c' manager' hcl := absurd ((h.claimed c' manager' _ hcl).issued manager hnext) (lt_irrefl _)

theorem setTable_table (s : PaneService) (manager manager' : PaneManager) (table : PaneTable) :
    (s.setTable manager table).table manager' = if manager' = manager then table else s.table manager' := by
  unfold setTable
  by_cases hm : manager' = manager
  · subst hm
    simp
  · simp [hm]

/-- The map of a manager changes, and its counter does not. -/
theorem issued_setPanes {panes : IdMap Nat} {id : PaneId} (hi : s.Issued id) :
    (s.setTable manager { s.table manager with panes := panes }).Issued id := fun manager' howns => by
  rw [setTable_table]
  split
  next hm => exact hm ▸ hi manager' howns
  next => exact hi manager' howns

/-- The map of a manager changes as the note says. -/
theorem setPanes (h : Sound tr s) {panes : IdMap Nat} {note : PaneNote}
    (htable : ∀ id pane, panes.lookup id = some pane ↔
      manager.owns id ∧ (∃ c, .opened c pane id ∈ tr ++ [note]) ∧ .closed id ∉ tr ++ [note])
    (hother : ∀ id, ¬ manager.owns id → (∀ c pane, .opened c pane id ≠ note) ∧ .closed id ≠ note)
    (honce : ∀ c pane c' pane' id, .opened c pane id ∈ tr ++ [note] →
      .opened c' pane' id ∈ tr ++ [note] → pane = pane')
    (hshut : ∀ id, .closed id ∈ tr ++ [note] → ∃ c pane, .opened c pane id ∈ tr ++ [note])
    (hopened : ∀ c pane id, .opened c pane id ∈ tr ++ [note] →
      (∃ p, s.spawned[pane]? = some p ∧ p.id = id) ∧ s.Issued id)
    (hclaims : ∀ c manager' id, (s.calls c).claims = some (manager', id) → ∀ c' pane, .opened c' pane id ≠ note)
    (hasks : ∀ c, ¬ note.asks c) :
    Sound (tr ++ [note]) (s.setTable manager { s.table manager with panes := panes }) where
  table manager' id pane := by
    rw [setTable_table]
    split
    next hm => exact hm ▸ htable id pane
    next hm =>
      rw [h.table manager' id pane]
      refine and_congr_right fun howns => ?_
      have hid := hother id fun howns' => hm (PaneManager.owns_unique howns howns')
      simp [hid.1, hid.2]
  once := honce
  shut := hshut
  named c pane id hm := (hopened c pane id hm).1
  issued c pane id hm := issued_setPanes (hopened c pane id hm).2
  local_le := by
    rw [setTable_table]
    split
    next hm => exact hm ▸ h.local_le
    next => exact h.local_le
  remote_le := by
    rw [setTable_table]
    split
    next hm => exact hm ▸ h.remote_le
    next => exact h.remote_le
  claimed c manager' id hcl := by
    refine claim_congr (h.claimed c manager' id hcl) (fun _ => issued_setPanes) (fun c' pane hm => ?_)
      fun _ _ hcl' _ => hcl'
    exact hclaims c manager' id hcl c' pane (List.mem_singleton.mp hm)
  held := h.held
  calls c hbusy := by
    obtain ⟨payload, before, since, hsince, hk⟩ := h.calls c hbusy
    refine ⟨payload, before, since ++ [note], hsince.later fun x hx => ?_, hk.later _⟩
    exact List.mem_singleton.mp hx ▸ hasks c

theorem enter (h : Sound tr s) {pane : Nat} (howns : manager.owns id) (hissued : s.Issued id)
    (hnew : ∀ c' pane, .opened c' pane id ∉ tr)
    (hfree : ∀ c' manager', (s.calls c').claims ≠ some (manager', id))
    (hnamed : ∃ p, s.spawned[pane]? = some p ∧ p.id = id) :
    Sound (tr ++ [.opened c pane id]) (s.setTable manager
      { s.table manager with panes := (s.table manager).panes.insert id pane }) := by
  have hmem : ∀ c' pane' id', .opened c' pane' id' ∈ tr ++ [.opened c pane id] ↔
      .opened c' pane' id' ∈ tr ∨ c' = c ∧ pane' = pane ∧ id' = id := by simp
  have hclosed : .closed id ∉ tr := fun hm => by
    obtain ⟨c', pane', hm⟩ := h.shut id hm
    exact hnew c' pane' hm
  refine h.setPanes (fun id' pane' => ?_) (fun id' hid => ?_) ?_ ?_ ?_ ?_ fun _ h => h
  · by_cases hid : id' = id
    · subst hid
      simp [hmem, hnew, howns, hclosed, eq_comm]
    · rw [AList.lookup_insert_ne hid, h.table manager id' pane']
      simp [hid]
  · refine ⟨?_, nofun⟩
    rintro _ _ ⟨⟩
    exact hid howns
  · intro c₁ pane₁ c₂ pane₂ id' hm₁ hm₂
    rcases (hmem _ _ _).mp hm₁ with hm₁ | ⟨-, hpane₁, hid⟩ <;>
      rcases (hmem _ _ _).mp hm₂ with hm₂ | ⟨-, hpane₂, hid'⟩
    · exact h.once _ _ _ _ _ hm₁ hm₂
    · exact absurd (hid' ▸ hm₁) (hnew _ _)
    · exact absurd (hid ▸ hm₂) (hnew _ _)
    · exact hpane₁.trans hpane₂.symm
  · intro id' hm
    obtain ⟨c', pane', hm⟩ := h.shut id' (by simpa using hm)
    exact ⟨c', pane', List.mem_append_left _ hm⟩
  · intro c' pane' id' hm
    rcases (hmem _ _ _).mp hm with hm | ⟨-, rfl, rfl⟩
    · exact ⟨h.named c' pane' id' hm, h.issued c' pane' id' hm⟩
    · exact ⟨hnamed, hissued⟩
  · rintro c' manager' _ hcl _ _ ⟨⟩
    exact hfree c' manager' hcl

theorem shutDown (h : Sound tr s) (hm : id ∈ (s.table manager).panes) :
    Sound (tr ++ [.closed id]) (s.setTable manager
      { s.table manager with panes := (s.table manager).panes.erase id }) := by
  have hopen : ∀ c' pane' id', .opened c' pane' id' ∈ tr ++ [.closed id] ↔ .opened c' pane' id' ∈ tr := by
    simp
  refine h.setPanes (fun id' pane' => ?_) (fun id' hid => ?_) ?_ ?_ ?_ (fun _ _ _ _ _ _ => nofun) fun _ h => h
  · by_cases hid : id' = id
    · subst hid
      simp [AList.lookup_erase]
    · rw [AList.lookup_erase_ne hid, h.table manager id' pane']
      simp [hid]
  · refine ⟨nofun, ?_⟩
    rintro ⟨⟩
    exact hid (h.owned hm)
  · simp only [hopen]
    exact h.once
  · intro id' hm'
    simp only [hopen]
    rcases List.mem_append.mp hm' with hm' | hm'
    · exact h.shut id' hm'
    · obtain rfl : id' = id := by simpa using hm'
      exact (h.openAt_iff.mpr ⟨manager, hm⟩).1
  · simp only [hopen]
    exact fun c' pane' id' hm' => ⟨h.named c' pane' id' hm', h.issued c' pane' id' hm'⟩

theorem respawned (h : Sound tr s) {spawned : List ManagedPane} (hn : SameNames s.spawned spawned) :
    Sound tr { s with spawned := spawned } := by
  have hcalls : s.calls = Function.update s.calls 0 (s.calls 0) := (Function.update_eq_self 0 s.calls).symm
  refine h.moved_on rfl hcalls hn (h.claimed 0) (fun spec id pane hcall => ?_) (h.calls 0)
  obtain ⟨p, hp, rfl⟩ := h.held 0 spec id pane hcall
  exact hn pane p hp

/-- A call goes on, and has no id to open a pane with. -/
theorem advanced (h : Sound tr s) {question : Payload}
    (hs : Since (PaneNote.asks c) (.asked c question) tr before since)
    (hk : call.Kept before since c question) (hcl : call.claims = none) : Sound tr (s.setCall c call) := by
  refine h.moved_on rfl rfl (.refl _) (fun manager id heq => ?_) ?_ fun _ => ⟨question, before, since, hs, hk⟩
  · cases hcl.symm.trans heq
  · rintro spec id pane rfl
    cases hcl

theorem idle (h : Sound tr s) (c : ClientId) : Sound tr (s.setCall c .idle) := by
  refine h.moved_on rfl rfl (.refl _) (fun _ _ heq => ?_) (fun _ _ _ heq => ?_) fun hne => absurd rfl hne
  · cases heq
  · cases heq

theorem asked (h : Sound tr s) (hcall : payload.paneCall = some call) :
    Sound (tr ++ [.asked c payload]) (s.setCall c call) := by
  have hkept : call.claims = none ∧ call.Kept (tr ++ [.asked c payload]) [] c payload := by
    unfold Payload.paneCall at hcall
    split at hcall <;> cases hcall <;> exact ⟨rfl, rfl⟩
  refine h.moved rfl rfl (.refl _) (by simp) (by simp) ?_ (fun manager id heq => ?_) ?_ fun _ => ?_
  · simp only [List.mem_singleton]
    rintro x rfl c' hne rfl
    exact hne rfl
  · cases hkept.1.symm.trans heq
  · rintro spec id pane rfl
    cases hkept.1
  · exact ⟨payload, _, [], Since.asked _ _ _, hkept.2⟩

theorem answered (h : Sound tr s) {answers : PaneAnswers} {pane : Option Nat}
    (hs : Since (PaneNote.asks c) (.asked c payload) tr before since)
    (hj : answers.Justified before since c pane payload) :
    Sound (tr ++ (s.answer c payload answers pane).2) (s.answer c payload answers pane).1 ∧
      Each PaneNote.Due tr (s.answer c payload answers pane).2 := by
  have hcalls : (s.answer c payload answers pane).1.calls = Function.update s.calls c .idle := rfl
  refine ⟨?_, ⟨before, since, hs, hj⟩, trivial⟩
  refine h.moved rfl hcalls (.refl _) ?_ ?_ ?_ (fun _ _ heq => ?_) (fun _ _ _ heq => ?_) fun hne => absurd rfl hne
  · simp [answer]
  · simp [answer]
  · simp [answer, PaneNote.asks]
  · cases heq
  · cases heq

theorem found (h : Sound tr s) {use : PaneUse} {pane : Nat} {question : Payload}
    (hs : Since (PaneNote.asks c) (.asked c question) tr before since) (hq : question = use.payload id)
    (hl : (s.table manager).panes.lookup id = some pane) : Sound tr (s.setCall c (.found use id pane)) :=
  h.advanced hs ⟨hq, hs.during_now (h.openAt_of_lookup hl)⟩ rfl

theorem find (h : Sound tr s) {use : PaneUse} {question : Payload}
    (hs : Since (PaneNote.asks c) (.asked c question) tr before since) (hq : question = use.payload id) :
    Sound tr (s.find c use id) := by
  unfold PaneService.find
  split
  next hl => exact h.found hs hq hl
  next hl =>
    refine h.advanced hs ⟨hq, fun howns => hs.during_now (h.not_openAt howns ?_)⟩ rfl
    exact AList.lookup_eq_none.mp hl

theorem justified_use {use : PaneUse} {answers : PaneAnswers} {pane : Option Nat}
    (hk : answers.known = pane.isSome) (hr : Reaches id before since pane) :
    answers.Justified before since c pane (use.payload id) := by
  cases use <;> exact ⟨hk, hr⟩

theorem findLocal (h : Sound tr s) {use : PaneUse} {question : Payload}
    (hs : Since (PaneNote.asks c) (.asked c question) tr before since)
    (hk : (PaneCall.notRemote use id).Kept before since c question) :
    Sound (tr ++ (s.findLocal c use id).2) (s.findLocal c use id).1 ∧
      Each PaneNote.Due tr (s.findLocal c use id).2 := by
  obtain ⟨rfl, hremote⟩ := hk
  unfold PaneService.findLocal
  split
  next hl =>
    rw [List.append_nil]
    exact ⟨h.found hs rfl hl, trivial⟩
  next hl =>
    refine h.answered hs (justified_use rfl ⟨nofun, fun _ => ?_⟩)
    obtain ⟨manager, howns⟩ := PaneManager.owns_some id
    cases manager with
    | pty => exact hs.during_now (h.not_openAt howns (AList.lookup_eq_none.mp hl))
    | remotePty => exact hremote howns

theorem reach (h : Sound tr s) {use : PaneUse} {pane : Nat} {question : Payload}
    (hs : Since (PaneNote.asks c) (.asked c question) tr before since)
    (hk : (PaneCall.found use id pane).Kept before since c question) :
    Sound (tr ++ (s.reach c use id pane).2) (s.reach c use id pane).1 ∧
      Each PaneNote.Due tr (s.reach c use id pane).2 := by
  obtain ⟨rfl, hfound⟩ := hk
  refine h.answered hs (justified_use rfl ⟨fun p hp => ?_, nofun⟩)
  exact Option.some.inj hp ▸ hfound

theorem closer (h : Sound tr s) {question : Payload}
    (hs : Since (PaneNote.asks c) (.asked c question) tr before since) (hq : question = .closePane id) :
    Sound tr (s.setCall c (.closingIn (s.closer id) id)) := by
  refine h.advanced hs ⟨hq, ?_⟩ rfl
  unfold PaneService.closer
  split
  next hm => exact .inl (h.owned hm)
  next hm =>
    obtain ⟨manager, howns⟩ := PaneManager.owns_some id
    cases manager with
    | pty => exact .inl howns
    | remotePty => exact .inr (hs.during_now (h.not_openAt howns hm))

theorem close (h : Sound tr s) {question : Payload}
    (hs : Since (PaneNote.asks c) (.asked c question) tr before since)
    (hk : (PaneCall.closingIn manager id).Kept before since c question) :
    Sound (tr ++ (s.close c manager id).2) (s.close c manager id).1 ∧
      Each PaneNote.Due tr (s.close c manager id).2 := by
  obtain ⟨rfl, hgone⟩ := hk
  unfold PaneService.close
  dsimp only
  split
  next hm =>
    have hshut : Sound (tr ++ [.closed id]) (s.setTable manager
      { s.table manager with panes := (s.table manager).panes.erase id }) := h.shutDown hm
    have hsince : Since (PaneNote.asks c) (.asked c (.closePane id)) (tr ++ [.closed id]) before
      (since ++ [.closed id]) := hs.later (by simp [PaneNote.asks])
    have hnow : ¬ OpenAt id (tr ++ [.closed id]) := fun hopen => hopen.2 (by simp)
    have hj : PaneAnswers.none.Justified before (since ++ [.closed id]) c none (.closePane id) :=
      hsince.during_now (P := fun log => ¬ OpenAt id log) hnow
    obtain ⟨hsound, hdue⟩ := hshut.answered hsince hj
    refine ⟨?_, h.openAt_iff.mpr ⟨manager, hm⟩, hdue⟩
    rw [List.append_cons]
    exact hsound
  next hm =>
    refine h.answered hs ?_
    rcases hgone with howns | hgone
    · exact hs.during_now (P := fun log => ¬ OpenAt id log) (h.not_openAt howns hm)
    · exact hgone

theorem reserve (h : Sound tr s) {spec : OpenPaneSpec}
    (hs : Since (PaneNote.asks c) (.asked c (.openPane spec)) tr before since)
    (hm : spec.target.manager = .pty) (hleft : (s.table .pty).nextId < 2 ^ 32) :
    Sound tr (s.reserve c spec) := by
  have hnext : PaneManager.pty.owns (s.table .pty).nextId := hleft
  refine (h.issue hnext).moved_on rfl rfl (.refl _) (fun manager id hcl => ?_) (fun _ _ _ heq => ?_)
    fun _ => ⟨.openPane spec, before, since, hs, rfl⟩
  · obtain ⟨rfl, rfl⟩ := Prod.mk.inj (Option.some.inj hcl)
    rw [hm]
    exact h.claim_issue hnext c
  · cases heq

theorem spawn (h : Sound tr s) {spec : OpenPaneSpec}
    (hs : Since (PaneNote.asks c) (.asked c (.openPane spec)) tr before since)
    (hcl : s.Claim tr c spec.target.manager id) : Sound tr (s.spawn defaultShell c spec id) := by
  refine h.moved_on rfl rfl (.append _ _) (fun manager id' heq => ?_) (fun spec' id' pane heq => ?_)
    fun _ => ⟨.openPane spec, before, since, hs, rfl⟩
  · obtain ⟨rfl, rfl⟩ := Prod.mk.inj (Option.some.inj heq)
    exact hcl
  · obtain ⟨rfl, rfl, rfl⟩ := PaneCall.spawned.inj heq
    exact ⟨spawnPane defaultShell spec id, by simp [PaneService.spawn, setCall], rfl⟩

theorem spawnRemote (h : Sound tr s) {spec : OpenPaneSpec}
    (hs : Since (PaneNote.asks c) (.asked c (.openPane spec)) tr before since)
    (hm : spec.target.manager = .remotePty) : Sound tr (s.spawnRemote defaultShell c spec) := by
  have hnext : PaneManager.remotePty.owns (s.table .remotePty).nextId := h.remote_le
  exact (h.issue hnext).spawn hs (hm ▸ h.claim_issue hnext c)

theorem entered (h : Sound tr s) {spec : OpenPaneSpec} {pane : Nat}
    (hs : Since (PaneNote.asks c) (.asked c (.openPane spec)) tr before since)
    (hcall : s.calls c = .spawned spec id pane) :
    Sound (tr ++ (s.enter c spec id pane).2) (s.enter c spec id pane).1 ∧
      Each PaneNote.Due tr (s.enter c spec id pane).2 := by
  have hclaim : s.Claim tr c spec.target.manager id := h.claimed c _ _ (by rw [hcall]; rfl)
  have hsince : Since (PaneNote.asks c) (.asked c (.openPane spec)) (tr ++ [.opened c pane id]) before
    (since ++ [.opened c pane id]) := hs.later (by simp [PaneNote.asks])
  have hidle : Sound tr (s.setCall c .idle) := h.idle c
  have hfree : ∀ c' manager', ((s.setCall c .idle).calls c').claims ≠ some (manager', id) := by
    intro c' manager' hcl
    by_cases hne : c' = c
    · subst hne
      simp [PaneCall.claims] at hcl
    · rw [calls_setCall_other hne] at hcl
      exact hne (hclaim.alone c' manager' hcl)
  have hopened := hidle.enter (c := c) hclaim.owned hclaim.issued hclaim.unopened hfree
    (h.held c spec id pane hcall)
  have hkept : (PaneCall.entered spec pane).Kept before (since ++ [.opened c pane id]) c (.openPane spec) :=
    ⟨rfl, id, hclaim.owned, by simp⟩
  have hdone := hopened.advanced hsince hkept rfl
  refine ⟨?_, hclaim.unopened, trivial⟩
  simpa [PaneService.enter, setCall, setTable] using hdone

theorem opened (h : Sound tr s) {spec : OpenPaneSpec} {pane : Nat} {p : ManagedPane} {question : Payload}
    (hs : Since (PaneNote.asks c) (.asked c question) tr before since)
    (hk : (PaneCall.entered spec pane).Kept before since c question) (hp : s.spawned[pane]? = some p) :
    Sound (tr ++ (s.announce c spec pane p).2) (s.announce c spec pane p).1 ∧
      Each PaneNote.Due tr (s.announce c spec pane p).2 := by
  obtain ⟨rfl, id, howns, hm⟩ := hk
  refine h.answered hs fun info heq => ?_
  obtain rfl : p.info = info := Except.ok.inj heq
  obtain ⟨p', hp', rfl⟩ := h.named c pane id (hs.log_eq ▸ List.mem_append_right _ hm)
  obtain rfl := Option.some.inj (hp.symm.trans hp')
  exact ⟨howns, pane, rfl, hm⟩

theorem busy (h : Sound tr s) (hcall : s.calls c = call) (hne : call ≠ .idle) :
    ∃ question before since, Since (PaneNote.asks c) (.asked c question) tr before since ∧
      call.Kept before since c question := by
  subst hcall
  exact h.calls c hne

variable {r : PaneService × List PaneNote}

theorem proceed (h : Sound tr s) (hok : LocalIdsLeft tr s (.step c)) (hs : s.proceed c = some r) :
    Sound (tr ++ r.2) r.1 ∧ Each PaneNote.Due tr r.2 := by
  have hquiet : ∀ {s'}, Sound tr s' → Sound (tr ++ []) s' ∧ Each PaneNote.Due tr [] := fun h' =>
    ⟨(List.append_nil tr).symm ▸ h', trivial⟩
  unfold PaneService.proceed at hs
  split at hs
  next spec hcall =>
    obtain ⟨_, before, since, hsince, rfl⟩ := h.busy hcall nofun
    split at hs
    next hm =>
      obtain rfl := Option.some.inj hs
      exact hquiet (h.reserve hsince hm (hok (by simp [hcall, PaneCall.reserves, hm])))
    next => cases hs
  next spec id pane hcall =>
    obtain ⟨_, before, since, hsince, rfl⟩ := h.busy hcall nofun
    obtain rfl := Option.some.inj hs
    exact h.entered hsince hcall
  next spec pane hcall =>
    obtain ⟨_, before, since, hsince, hk⟩ := h.busy hcall nofun
    obtain ⟨p, hp, rfl⟩ := Option.map_eq_some_iff.mp hs
    exact h.opened hsince hk hp
  next use id hcall =>
    obtain ⟨_, before, since, hsince, hk⟩ := h.busy hcall nofun
    obtain rfl := Option.some.inj hs
    exact hquiet (h.find hsince hk)
  next use id hcall =>
    obtain ⟨_, before, since, hsince, hk⟩ := h.busy hcall nofun
    obtain rfl := Option.some.inj hs
    exact h.findLocal hsince hk
  next subscriptionId id pane hcall =>
    obtain ⟨_, before, since, hsince, hk⟩ := h.busy hcall nofun
    obtain rfl := Option.some.inj hs
    exact h.reach hsince hk
  next data id pane hcall =>
    obtain ⟨_, before, since, hsince, hk⟩ := h.busy hcall nofun
    obtain rfl := Option.some.inj hs
    exact h.reach hsince hk
  next id hcall =>
    obtain ⟨_, before, since, hsince, hk⟩ := h.busy hcall nofun
    obtain rfl := Option.some.inj hs
    exact hquiet (h.closer hsince hk)
  next manager id hcall =>
    obtain ⟨_, before, since, hsince, hk⟩ := h.busy hcall nofun
    obtain rfl := Option.some.inj hs
    exact h.close hsince hk
  next => cases hs

theorem refuse (h : Sound tr s) {spec : OpenPaneSpec} {e : String}
    (hs : Since (PaneNote.asks c) (.asked c (.openPane spec)) tr before since) :
    Sound (tr ++ (s.refuse c spec e).2) (s.refuse c spec e).1 ∧
      Each PaneNote.Due tr (s.refuse c spec e).2 := h.answered hs fun _ heq => nomatch heq

theorem spawnStep (h : Sound tr s) {outcome : Except String Unit}
    (hs : s.spawnStep defaultShell c outcome = some r) :
    Sound (tr ++ r.2) r.1 ∧ Each PaneNote.Due tr r.2 := by
  have hquiet : ∀ {s'}, Sound tr s' → Sound (tr ++ []) s' ∧ Each PaneNote.Due tr [] := fun h' =>
    ⟨(List.append_nil tr).symm ▸ h', trivial⟩
  unfold PaneService.spawnStep at hs
  split at hs
  next spec hcall =>
    obtain ⟨_, before, since, hsince, rfl⟩ := h.busy hcall nofun
    split at hs
    next => cases hs
    next hm =>
      obtain rfl := Option.some.inj hs
      refine hquiet (h.spawnRemote hsince ?_)
      cases htarget : spec.target.manager with
      | pty => exact absurd htarget hm
      | remotePty => rfl
  next spec e hcall =>
    obtain ⟨_, before, since, hsince, rfl⟩ := h.busy hcall nofun
    split at hs
    next => cases hs
    next =>
      obtain rfl := Option.some.inj hs
      exact h.refuse hsince
  next spec id hcall =>
    obtain ⟨_, before, since, hsince, rfl⟩ := h.busy hcall nofun
    obtain rfl := Option.some.inj hs
    exact hquiet (h.spawn hsince (h.claimed c _ _ (by rw [hcall]; rfl)))
  next spec id e hcall =>
    obtain ⟨_, before, since, hsince, rfl⟩ := h.busy hcall nofun
    obtain rfl := Option.some.inj hs
    exact h.refuse hsince
  next => cases hs

theorem listStep (h : Sound tr s) {panes : List PaneInfo} (hs : s.listStep c panes = some r) :
    Sound (tr ++ r.2) r.1 ∧ Each PaneNote.Due tr r.2 := by
  unfold PaneService.listStep at hs
  split at hs
  next hcall =>
    obtain ⟨_, before, since, hsince, rfl⟩ := h.busy hcall nofun
    split at hs
    next hp =>
      obtain rfl := Option.some.inj hs
      have hlisted : Sound tr (s.setCall c (.listedLocal panes)) :=
        h.advanced hsince ⟨rfl, h.lists hsince hp⟩ rfl
      exact ⟨(List.append_nil tr).symm ▸ hlisted, trivial⟩
    next => cases hs
  next listed hcall =>
    obtain ⟨_, before, since, hsince, rfl, hlisted⟩ := h.busy hcall nofun
    split at hs
    next hp =>
      obtain rfl := Option.some.inj hs
      exact h.answered hsince (hlisted.append (h.lists hsince hp))
    next => cases hs
  next => cases hs

theorem resizeStep (h : Sound tr s) {done : Bool} (hs : s.resizeStep c done = some r) :
    Sound (tr ++ r.2) r.1 ∧ Each PaneNote.Due tr r.2 := by
  unfold PaneService.resizeStep at hs
  split at hs
  next rows cols id pane hcall =>
    obtain ⟨_, before, since, hsince, hk⟩ := h.busy hcall nofun
    obtain ⟨p, hp, rfl⟩ := Option.map_eq_some_iff.mp hs
    have hresized : Sound tr (s.resizePane pane rows cols) :=
      h.respawned (.modify (fun _ => by rfl) _ _)
    split
    next => exact hresized.reach hsince hk
    next => exact h.reach hsince hk
  next => cases hs

theorem step (h : Sound tr s) {act : PaneAct} (hok : LocalIdsLeft tr s act)
    (hs : s.next defaultShell act = some r) : Sound (tr ++ r.2) r.1 ∧ Each PaneNote.Due tr r.2 := by
  cases act with
  | ask c payload =>
    simp only [PaneService.next] at hs
    split at hs
    next =>
      obtain ⟨call, hcall, rfl⟩ := Option.map_eq_some_iff.mp hs
      exact ⟨h.asked hcall, trivial, trivial⟩
    next => cases hs
  | step c => exact h.proceed hok hs
  | spawn c outcome => exact h.spawnStep hs
  | list c panes => exact h.listStep hs
  | resized c done => exact h.resizeStep hs
  | exit pane =>
    obtain rfl := Option.some.inj hs
    have hdone : Sound tr { s with spawned := s.spawned.modify pane ({ · with alive := false }) } :=
      h.respawned (.modify (fun _ => by rfl) _ _)
    exact ⟨(List.append_nil tr).symm ▸ hdone, trivial⟩

theorem of_run (h : Run (paneService defaultShell) LocalIdsLeft tr s) : Sound tr s := by
  refine h.invariant (fun s hs => ?_) fun tr s act s' out _ hi hok hs => (hi.step hok hs).1
  cases hs
  exact sound_new

end Sound

end Sound

/-- Whatever the sessions do to the panes at the same time: an id is used for one pane only, a command
that names a pane reaches that pane if it is there all along, and it is told that there is none only if
there was none at some time; a list has the panes that were there all along, and none that never was. The
panes of both managers are those that were opened and not closed. -/
theorem panes_answered {defaultShell : String} {tr : List PaneNote} {s : PaneService}
    (h : Run (paneService defaultShell) LocalIdsLeft tr s) :
    (∀ pre x post, tr = pre ++ x :: post → x.Due pre) ∧
      ∀ id, OpenAt id tr ↔ ∃ manager, id ∈ (s.table manager).panes := by
  refine ⟨h.observed_after fun tr s act s' out hr hok hs pre x post hout => ?_, fun id =>
    (Sound.of_run h).openAt_iff⟩
  exact ((Sound.of_run hr).step hok hs).2.split pre x post hout

/-- One client lists the panes while another closes one. -/
def listWhileClosing : List PaneAct :=
  [.ask 0 (.openPane ⟨none, none, [], 40, 120, .localTarget⟩), .step 0, .spawn 0 (.ok ()),
    .ask 1 (.openPane ⟨none, none, [], 24, 80, .remote "h"⟩), .spawn 1 (.ok ()), .step 1, .step 0,
    .ask 2 .listPanes, .list 2 [⟨1, 40, 120, "/bin/zsh", true⟩], .step 0, .ask 0 (.closePane 1), .step 0,
    .step 0, .list 2 [⟨2 ^ 32, 24, 80, "ssh:h", true⟩], .ask 2 (.attachPane (2 ^ 32) 9), .step 2, .step 2]

theorem panes_answered_listing : ∃ tr s, Run (paneService "/bin/zsh") LocalIdsLeft tr s ∧
    ¬ OpenAt 1 tr ∧ OpenAt (2 ^ 32) tr := by
  obtain ⟨tr, s, hr, hlocal, hremote, hm⟩ := Run.of_replay (paneService "/bin/zsh") LocalIdsLeft
    (fun _ s => 1 ∉ (s.table .pty).panes ∧ 1 ∉ (s.table .remotePty).panes ∧
      2 ^ 32 ∈ (s.table .remotePty).panes)
    rfl listWhileClosing (by decide +kernel)
  have hopen := (panes_answered hr).2
  refine ⟨tr, s, hr, fun h => ?_, (hopen _).mpr ⟨.remotePty, hm⟩⟩
  obtain ⟨manager, hm'⟩ := (hopen 1).mp h
  cases manager with
  | pty => exact hlocal hm'
  | remotePty => exact hremote hm'

end PaneService

end Tepegoz
