import Tepegoz.Lib.Transition

namespace Tepegoz

open Transition

/-- The errors of russh's check, `other` with the text it displays. -/
inductive RusshError
  | keyChanged (line : Nat)
  | other (message : String)
  deriving DecidableEq

/-- What the program uses of russh: its functions on a known-hosts file, and the keys that such a
file holds for a host and port. -/
structure Russh (File Key Algorithm : Type) where
  algorithm : Key → Algorithm
  stored : File → String → Nat → List Key
  checkKnownHostsPath : String → Nat → Key → File → Except RusshError Bool
  learnKnownHostsPath : String → Nat → Key → File → Except String Unit × File

/-- A key that the check accepts is in the file; one that it does not know has an algorithm of its
own there. Learning appends an entry for the host and port, or fails and adds none. -/
structure Russh.Documented {File Key Algorithm : Type} (russh : Russh File Key Algorithm) :
    Prop where
  check_true : ∀ {host port key file}, russh.checkKnownHostsPath host port key file = .ok true →
    key ∈ russh.stored file host port
  check_false : ∀ {host port key file}, russh.checkKnownHostsPath host port key file = .ok false →
    ∀ k ∈ russh.stored file host port, russh.algorithm k ≠ russh.algorithm key
  learn_ok : ∀ {host port key file file'},
    russh.learnKnownHostsPath host port key file = (.ok (), file') →
      russh.stored file' host port = russh.stored file host port ++ [key]
  learn_error : ∀ {host port key file message file'},
    russh.learnKnownHostsPath host port key file = (.error message, file') →
      russh.stored file' host port = russh.stored file host port
  learn_other : ∀ {host port key file host' port'}, (host', port') ≠ (host, port) →
    russh.stored (russh.learnKnownHostsPath host port key file).2 host' port' =
      russh.stored file host' port'

inductive HostKeyVerdict
  | trusted
  | unknown
  | mismatch (storedLine : Nat)
  deriving DecidableEq

/-- `SshError::KnownHosts`. -/
structure KnownHostsError where
  path : String
  reason : String
  deriving DecidableEq

structure KnownHostsStore where
  path : String

section Store

variable {File Key Algorithm : Type} (russh : Russh File Key Algorithm) (store : KnownHostsStore)

def KnownHostsStore.check (hostname : String) (port : Nat) (key : Key) (file : File) :
    Except KnownHostsError HostKeyVerdict :=
  match russh.checkKnownHostsPath hostname port key file with
  | .ok true => .ok .trusted
  | .ok false => .ok .unknown
  | .error (.keyChanged line) => .ok (.mismatch line)
  | .error (.other message) => .error ⟨store.path, message⟩

def KnownHostsStore.trust (hostname : String) (port : Nat) (key : Key) (file : File) :
    Except KnownHostsError Unit × File :=
  match russh.learnKnownHostsPath hostname port key file with
  | (.ok (), file') => (.ok (), file')
  | (.error message, file') => (.error ⟨store.path, message⟩, file')

end Store

structure TofuOutcome where
  verdict : Option HostKeyVerdict
  trustError : Option KnownHostsError
  deriving DecidableEq

/-- A server's key, offered to the handler of one connection attempt. -/
structure KeyOffer (Key : Type) where
  hostname : String
  port : Nat
  key : Key
  deriving DecidableEq

def KeyOffer.isFor {Key : Type} (offer : KeyOffer Key) (host : String) (port : Nat) : Prop :=
  offer.hostname = host ∧ offer.port = port

instance {Key : Type} (offer : KeyOffer Key) (host : String) (port : Nat) :
    Decidable (offer.isFor host port) := inferInstanceAs (Decidable (_ ∧ _))

/-- What `check_server_key` returns, with the outcome that it leaves for its caller. -/
structure KeyAnswer (Key : Type) where
  offer : KeyOffer Key
  accepted : Bool
  outcome : TofuOutcome
  deriving DecidableEq

/-- The file, and the handlers between their check and their trust. -/
structure TofuState (File Key : Type) where
  file : File
  trusting : List (KeyOffer Key)

inductive TofuAct (Key : Type)
  | check (offer : KeyOffer Key)
  | trust (n : Nat)

section Handler

variable {File Key Algorithm : Type} (russh : Russh File Key Algorithm) (store : KnownHostsStore)
  (s : TofuState File Key)

namespace TofuState

/-- `check_server_key` up to its second access to the file, if it comes to one. -/
def checkServerKey (offer : KeyOffer Key) : TofuState File Key × List (KeyAnswer Key) :=
  match store.check russh offer.hostname offer.port offer.key s.file with
  | .ok .trusted => (s, [⟨offer, true, ⟨some .trusted, none⟩⟩])
  | .ok .unknown => ({ s with trusting := s.trusting ++ [offer] }, [])
  | .ok (.mismatch storedLine) => (s, [⟨offer, false, ⟨some (.mismatch storedLine), none⟩⟩])
  | .error e => (s, [⟨offer, false, ⟨none, some e⟩⟩])

/-- The rest of `check_server_key` for an unknown key. -/
def trustUnknown (n : Nat) (offer : KeyOffer Key) : TofuState File Key × List (KeyAnswer Key) :=
  match store.trust russh offer.hostname offer.port offer.key s.file with
  | (.error e, file) => (⟨file, s.trusting.eraseIdx n⟩, [⟨offer, false, ⟨none, some e⟩⟩])
  | (.ok (), file) => (⟨file, s.trusting.eraseIdx n⟩, [⟨offer, true, ⟨some .unknown, none⟩⟩])

def step : TofuAct Key → Option (TofuState File Key × List (KeyAnswer Key))
  | .check offer => some (s.checkServerKey russh store offer)
  | .trust n =>
    match s.trusting[n]? with
    | some offer => some (s.trustUnknown russh store n offer)
    | none => none

end TofuState

/-- Connection attempts, from a store without an entry for `host` and `port`. -/
def tofu (host : String) (port : Nat) : System (TofuState File Key) (TofuAct Key) (KeyAnswer Key) :=
  ⟨fun s => russh.stored s.file host port = [] ∧ s.trusting = [],
    fun s a => s.step russh store a⟩

/-- A key is checked for `host` and `port` only while, if keys are stored there, one has its
algorithm, and if none is, no other key is about to be trusted there. -/
def FirstUse (host : String) (port : Nat) (_ : List (KeyAnswer Key)) (s : TofuState File Key) :
    TofuAct Key → Prop
  | .check offer => offer.isFor host port →
    (∃ k ∈ russh.stored s.file host port, russh.algorithm k = russh.algorithm offer.key) ∨
      russh.stored s.file host port = [] ∧
        ∀ other ∈ s.trusting, other.isFor host port → other.key = offer.key
  | .trust _ => True

instance [DecidableEq Key] [DecidableEq Algorithm] (host : String) (port : Nat)
    (tr : List (KeyAnswer Key)) (s : TofuState File Key) :
    (a : TofuAct Key) → Decidable (FirstUse russh host port tr s a)
  | .check _ => inferInstanceAs (Decidable (_ → _ ∨ _ ∧ _))
  | .trust _ => .isTrue trivial

end Handler

section Check

variable {File Key Algorithm : Type} {russh : Russh File Key Algorithm} {store : KnownHostsStore}
  {host : String} {port : Nat} {key : Key} {file file' : File}

theorem check_trusted (laws : russh.Documented)
    (h : store.check russh host port key file = .ok .trusted) :
    key ∈ russh.stored file host port := by
  unfold KnownHostsStore.check at h
  split at h
  next hc => exact laws.check_true hc
  all_goals cases h

theorem check_unknown (laws : russh.Documented)
    (h : store.check russh host port key file = .ok .unknown) :
    ∀ k ∈ russh.stored file host port, russh.algorithm k ≠ russh.algorithm key := by
  unfold KnownHostsStore.check at h
  split at h
  next => cases h
  next hc => exact laws.check_false hc
  all_goals cases h

theorem trust_stored (laws : russh.Documented)
    (h : store.trust russh host port key file = (.ok (), file')) :
    russh.stored file' host port = russh.stored file host port ++ [key] := by
  unfold KnownHostsStore.trust at h
  split at h
  next hl =>
    cases h
    exact laws.learn_ok hl
  next => cases h

/-- Trusting a key adds that key to its host or nothing, and nothing to the other hosts. -/
theorem trust_appends (laws : russh.Documented) {result : Except KnownHostsError Unit}
    (h : store.trust russh host port key file = (result, file')) (host' : String) (port' : Nat) :
    russh.stored file' host' port' = russh.stored file host' port' ∨
      (host' = host ∧ port' = port) ∧
        russh.stored file' host' port' = russh.stored file host' port' ++ [key] := by
  have hfile : file' = (russh.learnKnownHostsPath host port key file).2 := by
    unfold KnownHostsStore.trust at h
    split at h
    next hl => cases h; rw [hl]
    next hl => cases h; rw [hl]
  by_cases hsame : (host', port') = (host, port)
  · obtain ⟨rfl, rfl⟩ := Prod.mk.inj hsame
    rcases hl : russh.learnKnownHostsPath host' port' key file with ⟨learned, written⟩
    rw [hl] at hfile
    subst hfile
    cases learned with
    | ok u => exact .inr ⟨⟨rfl, rfl⟩, laws.learn_ok hl⟩
    | error message => exact .inl (laws.learn_error hl)
  · rw [hfile]
    exact .inl (laws.learn_other hsame)

end Check

section Runs

variable {File Key Algorithm : Type} {russh : Russh File Key Algorithm} {store : KnownHostsStore}
  {host : String} {port : Nat} {tr out : List (KeyAnswer Key)} {s s' : TofuState File Key}
  {a : TofuAct Key}

/-- The keys of a host and port that are stored or about to be. -/
def TofuState.Holds (russh : Russh File Key Algorithm) (host : String) (port : Nat)
    (s : TofuState File Key) (k : Key) : Prop :=
  k ∈ russh.stored s.file host port ∨ ∃ offer ∈ s.trusting, offer.isFor host port ∧ offer.key = k

/-- One key is held, and whatever was accepted is stored. -/
structure Pinned (russh : Russh File Key Algorithm) (host : String) (port : Nat)
    (tr : List (KeyAnswer Key)) (s : TofuState File Key) : Prop where
  one_key : ∀ k k', s.Holds russh host port k → s.Holds russh host port k' → k = k'
  accepted_stored : ∀ answer ∈ tr, answer.accepted = true → answer.offer.isFor host port →
    answer.offer.key ∈ russh.stored s.file host port

variable (store) in
theorem checkServerKey_pinned (laws : russh.Documented) (h : Pinned russh host port tr s)
    {offer : KeyOffer Key} (hok : FirstUse russh host port tr s (.check offer)) :
    Pinned russh host port (tr ++ (s.checkServerKey russh store offer).2)
      (s.checkServerKey russh store offer).1 := by
  have hrefused : ∀ outcome, Pinned russh host port (tr ++ [⟨offer, false, outcome⟩]) s := by
    refine fun outcome => ⟨h.one_key, fun answer hm hacc hfor => ?_⟩
    rcases List.mem_append.mp hm with hm | hm
    · exact h.accepted_stored answer hm hacc hfor
    · obtain rfl := List.mem_singleton.mp hm
      cases hacc
  unfold TofuState.checkServerKey
  split
  next hcheck =>
    refine ⟨h.one_key, fun answer hm hacc hfor => ?_⟩
    rcases List.mem_append.mp hm with hm | hm
    · exact h.accepted_stored answer hm hacc hfor
    · obtain rfl := List.mem_singleton.mp hm
      obtain ⟨rfl, rfl⟩ := hfor
      exact check_trusted laws hcheck
  next hcheck =>
    have hnew : offer.isFor host port → ∀ k, s.Holds russh host port k → k = offer.key := by
      rintro hfor k hk
      have hunlike := check_unknown laws hcheck
      rw [hfor.1, hfor.2] at hunlike
      rcases hok hfor with ⟨k', hk', halg⟩ | ⟨hempty, hothers⟩
      · exact absurd halg (hunlike k' hk')
      · rcases hk with hk | ⟨other, hm, hother, rfl⟩
        · rw [hempty] at hk
          cases hk
        · exact hothers other hm hother
    have hheld : ∀ k, TofuState.Holds russh host port { s with trusting := s.trusting ++ [offer] } k →
        s.Holds russh host port k ∨ offer.isFor host port ∧ k = offer.key := by
      rintro k (hk | ⟨other, hm, hother, rfl⟩)
      · exact .inl (.inl hk)
      · rcases List.mem_append.mp hm with hm | hm
        · exact .inl (.inr ⟨other, hm, hother, rfl⟩)
        · obtain rfl := List.mem_singleton.mp hm
          exact .inr ⟨hother, rfl⟩
    refine ⟨fun k k' hk hk' => ?_, by simpa using h.accepted_stored⟩
    rcases hheld k hk with hk | ⟨hfor, rfl⟩ <;> rcases hheld k' hk' with hk' | ⟨hfor', rfl⟩
    · exact h.one_key k k' hk hk'
    · exact hnew hfor' k hk
    · exact (hnew hfor k' hk').symm
    · rfl
  next => exact hrefused _
  next => exact hrefused _

variable (store) in
theorem trustUnknown_pinned (laws : russh.Documented) (h : Pinned russh host port tr s) {n : Nat}
    {offer : KeyOffer Key} (hn : s.trusting[n]? = some offer) :
    Pinned russh host port (tr ++ (s.trustUnknown russh store n offer).2)
      (s.trustUnknown russh store n offer).1 := by
  have hpending : offer ∈ s.trusting := List.mem_of_getElem? hn
  rcases ht : store.trust russh offer.hostname offer.port offer.key s.file with ⟨result, file⟩
  have happends := trust_appends laws ht host port
  have hkept : ∀ k ∈ russh.stored s.file host port, k ∈ russh.stored file host port := by
    intro k hk
    rcases happends with heq | ⟨-, heq⟩ <;> rw [heq]
    · exact hk
    · exact List.mem_append_left _ hk
  have hheld : ∀ k, TofuState.Holds russh host port ⟨file, s.trusting.eraseIdx n⟩ k →
      s.Holds russh host port k := by
    rintro k (hk | ⟨other, hm, hother⟩)
    · rcases happends with heq | ⟨hfor, heq⟩
      · exact .inl (heq ▸ hk)
      · rw [heq] at hk
        rcases List.mem_append.mp hk with hk | hk
        · exact .inl hk
        · exact .inr ⟨offer, hpending, ⟨hfor.1.symm, hfor.2.symm⟩, (List.mem_singleton.mp hk).symm⟩
    · exact .inr ⟨other, List.mem_of_mem_eraseIdx hm, hother⟩
  have hone : ∀ k k', TofuState.Holds russh host port ⟨file, s.trusting.eraseIdx n⟩ k →
      TofuState.Holds russh host port ⟨file, s.trusting.eraseIdx n⟩ k' → k = k' :=
    fun k k' hk hk' => h.one_key k k' (hheld k hk) (hheld k' hk')
  unfold TofuState.trustUnknown
  rw [ht]
  cases result with
  | error e =>
    refine ⟨hone, fun answer hm hacc hfor => ?_⟩
    rcases List.mem_append.mp hm with hm | hm
    · exact hkept _ (h.accepted_stored answer hm hacc hfor)
    · obtain rfl := List.mem_singleton.mp hm
      cases hacc
  | ok u =>
    refine ⟨hone, fun answer hm hacc hfor => ?_⟩
    rcases List.mem_append.mp hm with hm | hm
    · exact hkept _ (h.accepted_stored answer hm hacc hfor)
    · obtain rfl := List.mem_singleton.mp hm
      obtain ⟨rfl, rfl⟩ := hfor
      rw [trust_stored laws ht]
      exact List.mem_append_right _ (List.mem_singleton.mpr rfl)

theorem pinned_of_run (laws : russh.Documented)
    (h : Run (tofu russh store host port) (FirstUse russh host port) tr s) :
    Pinned russh host port tr s := by
  refine h.invariant ?_ ?_
  · rintro s ⟨hstored, htrusting⟩
    have hnone : ∀ k, ¬ s.Holds russh host port k := by
      rintro k (hk | ⟨offer, hm, -⟩)
      · rw [hstored] at hk
        cases hk
      · rw [htrusting] at hm
        cases hm
    exact ⟨fun k k' hk _ => absurd hk (hnone k), fun answer hm => by cases hm⟩
  · intro tr s a s' out hr hp hok hs
    cases a with
    | check offer =>
      have hout : s.checkServerKey russh store offer = (s', out) := Option.some.inj hs
      have hkept := checkServerKey_pinned store laws hp hok
      rwa [hout] at hkept
    | trust n =>
      simp only [tofu, TofuState.step] at hs
      split at hs
      next offer hn =>
        have hout : s.trustUnknown russh store n offer = (s', out) := Option.some.inj hs
        have hkept := trustUnknown_pinned store laws hp hn
        rwa [hout] at hkept
      next => cases hs

/-- Trust on first use: all attempts that accept a key for the host and port accept the same one. -/
theorem trust_on_first_use (laws : russh.Documented)
    (h : Run (tofu russh store host port) (FirstUse russh host port) tr s)
    {first later : KeyAnswer Key} (hfirst : first ∈ tr) (hlater : later ∈ tr)
    (hfor : first.offer.isFor host port) (hfor' : later.offer.isFor host port)
    (hacc : first.accepted = true) (hacc' : later.accepted = true) :
    later.offer.key = first.offer.key := by
  have hp := pinned_of_run laws h
  exact hp.one_key _ _ (.inl (hp.accepted_stored later hlater hacc' hfor'))
    (.inl (hp.accepted_stored first hfirst hacc hfor))

/-- A file of plain entries, and keys that are an algorithm's number with what else there is. -/
def plainRussh : Russh (List (KeyOffer (Nat × Nat))) (Nat × Nat) Nat where
  algorithm := Prod.fst
  stored file host port := (file.filter (·.isFor host port)).map KeyOffer.key
  checkKnownHostsPath host port key file :=
    let keys := (file.filter (·.isFor host port)).map KeyOffer.key
    if key ∈ keys then .ok true
    else if ∃ k ∈ keys, k.1 = key.1 then
      .error (.keyChanged (file.findIdx (fun e => e.isFor host port ∧ e.key.1 = key.1) + 1))
    else .ok false
  learnKnownHostsPath host port key file := (.ok (), file ++ [⟨host, port, key⟩])

theorem plainRussh_documented : plainRussh.Documented where
  check_true h := by
    simp only [plainRussh] at h ⊢
    split at h
    next hm => exact hm
    next => split at h <;> cases h
  check_false h k hk := by
    simp only [plainRussh] at h hk ⊢
    split at h
    next => cases h
    next =>
      split at h
      next => cases h
      next hnone => exact fun halg => hnone ⟨k, hk, halg⟩
  learn_ok h := by
    cases h
    simp [plainRussh, KeyOffer.isFor]
  learn_error h := by cases h
  learn_other {host port key file host' port'} h := by
    have hother : ¬ (⟨host, port, key⟩ : KeyOffer (Nat × Nat)).isFor host' port' :=
      fun hfor => h (Prod.ext hfor.1.symm hfor.2.symm)
    simp [plainRussh, hother]

/-- The key is stored, offered again and accepted both times. -/
theorem trust_on_first_use_again : ∃ tr s,
    Run (tofu plainRussh ⟨"known_hosts"⟩ "db" 22) (FirstUse plainRussh "db" 22) tr s ∧
      ∃ first later : KeyAnswer (Nat × Nat), first ∈ tr ∧ later ∈ tr ∧
        first.outcome.verdict = some .unknown ∧ later.outcome.verdict = some .trusted ∧
        later.offer.key = first.offer.key := by
  obtain ⟨tr, s, hr, hfirst, hlater⟩ := Run.of_replay
    (tofu plainRussh ⟨"known_hosts"⟩ "db" 22) (FirstUse plainRussh "db" 22)
    (fun tr _ => (⟨⟨"db", 22, (0, 7)⟩, true, ⟨some .unknown, none⟩⟩ : KeyAnswer (Nat × Nat)) ∈ tr ∧
      ⟨⟨"db", 22, (0, 7)⟩, true, ⟨some .trusted, none⟩⟩ ∈ tr) (s := ⟨[], []⟩) ⟨rfl, rfl⟩
    [.check ⟨"db", 22, (0, 7)⟩, .check ⟨"db", 22, (0, 7)⟩, .trust 1, .check ⟨"db", 22, (0, 7)⟩]
    (by decide)
  exact ⟨tr, s, hr, _, _, hfirst, hlater, rfl, rfl, trust_on_first_use plainRussh_documented hr
    hfirst hlater ⟨rfl, rfl⟩ ⟨rfl, rfl⟩ rfl rfl⟩

/-- A key of another algorithm is unknown, however well known the host is; and two attempts that
check before either trusts accept two keys of one algorithm. -/
theorem second_key_accepted :
    (∃ tr s, Run (tofu plainRussh ⟨"known_hosts"⟩ "db" 22) Free tr s ∧
      ⟨⟨"db", 22, (0, 7)⟩, true, ⟨some .unknown, none⟩⟩ ∈ tr ∧
      ⟨⟨"db", 22, (1, 8)⟩, true, ⟨some .unknown, none⟩⟩ ∈ tr) ∧
    ∃ tr s, Run (tofu plainRussh ⟨"known_hosts"⟩ "db" 22) Free tr s ∧
      ⟨⟨"db", 22, (0, 7)⟩, true, ⟨some .unknown, none⟩⟩ ∈ tr ∧
      ⟨⟨"db", 22, (0, 8)⟩, true, ⟨some .unknown, none⟩⟩ ∈ tr := by
  constructor
  · exact Run.of_replay (tofu plainRussh ⟨"known_hosts"⟩ "db" 22) Free
      (fun tr _ => ⟨⟨"db", 22, (0, 7)⟩, true, ⟨some .unknown, none⟩⟩ ∈ tr ∧
        ⟨⟨"db", 22, (1, 8)⟩, true, ⟨some .unknown, none⟩⟩ ∈ tr) (s := ⟨[], []⟩) ⟨rfl, rfl⟩
      [.check ⟨"db", 22, (0, 7)⟩, .trust 0, .check ⟨"db", 22, (1, 8)⟩, .trust 0] (by decide)
  · exact Run.of_replay (tofu plainRussh ⟨"known_hosts"⟩ "db" 22) Free
      (fun tr _ => ⟨⟨"db", 22, (0, 7)⟩, true, ⟨some .unknown, none⟩⟩ ∈ tr ∧
        ⟨⟨"db", 22, (0, 8)⟩, true, ⟨some .unknown, none⟩⟩ ∈ tr) (s := ⟨[], []⟩) ⟨rfl, rfl⟩
      [.check ⟨"db", 22, (0, 7)⟩, .check ⟨"db", 22, (0, 8)⟩, .trust 0, .trust 0] (by decide)

end Runs

end Tepegoz
