import Mathlib.Data.List.Basic
import Mathlib.Tactic.Common

namespace Broadcast

/-- A bounded broadcast channel. The log of everything sent stands for its ring: a receiver that
is more than the capacity behind the end of the log has lost what lies before. -/
structure Channel (α : Type) where
  sent : List α
  senders : Nat

/-- A receiver is its position in the log. -/
structure Receiver where
  next : Nat
  deriving DecidableEq

inductive Recv (α : Type)
  | value (a : α)
  | lagged (skipped : Nat)
  | empty
  | closed

variable {α : Type} {c : Channel α} {r r' : Receiver} {cap : Nat}

namespace Channel

def send (c : Channel α) (a : α) : Channel α := { c with sent := c.sent ++ [a] }

def dropSender (c : Channel α) : Channel α := { c with senders := c.senders - 1 }

def subscribe (c : Channel α) : Receiver := ⟨c.sent.length⟩

/-- What the receiver has still to read. -/
def unread (c : Channel α) (r : Receiver) : List α := c.sent.drop r.next

def unreadBy (c : Channel α) : Option Receiver → List α
  | some r => c.unread r
  | none => []

def recv (cap : Nat) (c : Channel α) (r : Receiver) : Recv α × Receiver :=
  if cap < c.sent.length - r.next then
    (.lagged (c.sent.length - cap - r.next), ⟨c.sent.length - cap⟩)
  else match c.sent[r.next]? with
    | some a => (.value a, ⟨r.next + 1⟩)
    | none => (if c.senders = 0 then .closed else .empty, r)

@[simp] theorem sent_send (c : Channel α) (a : α) : (c.send a).sent = c.sent ++ [a] := rfl

@[simp] theorem senders_send (c : Channel α) (a : α) : (c.send a).senders = c.senders := rfl

@[simp] theorem sent_dropSender (c : Channel α) : c.dropSender.sent = c.sent := rfl

@[simp] theorem unread_dropSender (c : Channel α) (r : Receiver) :
    c.dropSender.unread r = c.unread r := rfl

@[simp] theorem unread_subscribe (c : Channel α) : c.unread c.subscribe = [] := by
  simp [unread, subscribe]

theorem unread_send (h : r.next ≤ c.sent.length) (a : α) :
    (c.send a).unread r = c.unread r ++ [a] := by
  simp [unread, List.drop_append_of_le_length h]

/-- A receiver that is not too far behind gets the next message. -/
theorem recv_of_unread {a : α} {rest : List α} (h : c.unread r = a :: rest)
    (hcap : rest.length < cap) : c.recv cap r = (.value a, ⟨r.next + 1⟩) := by
  have hlen := congrArg List.length h
  simp only [unread, List.length_drop, List.length_cons] at hlen
  have hget : c.sent[r.next]? = some a := by
    have hhead := congrArg List.head? h
    rwa [unread, List.head?_drop] at hhead
  rw [recv, if_neg (by omega), hget]

theorem recv_of_behind (h : cap < (c.unread r).length) :
    c.recv cap r = (.lagged (c.sent.length - cap - r.next), ⟨c.sent.length - cap⟩) := by
  rw [unread, List.length_drop] at h
  rw [recv, if_pos h]

theorem recv_value {a : α} (h : c.recv cap r = (.value a, r')) :
    c.unread r = a :: c.unread r' ∧ r'.next ≤ c.sent.length := by
  unfold recv at h
  split at h
  next => simp at h
  next =>
    split at h
    next b hb =>
      obtain ⟨hv, rfl⟩ := Prod.mk.inj h
      obtain rfl := Recv.value.inj hv
      obtain ⟨hi, rfl⟩ := List.getElem?_eq_some_iff.mp hb
      exact ⟨List.drop_eq_getElem_cons hi, hi⟩
    next => split at h <;> simp at h

/-- A lagging receiver skips the oldest messages and is told their number. -/
theorem recv_lagged {n : Nat} (h : c.recv cap r = (.lagged n, r')) :
    c.unread r' = (c.unread r).drop n ∧ 0 < n ∧ r'.next ≤ c.sent.length := by
  unfold recv at h
  split at h
  next hlag =>
    obtain ⟨hn, rfl⟩ := Prod.mk.inj h
    obtain rfl := Recv.lagged.inj hn
    refine ⟨?_, by omega, by simp⟩
    simp only [unread, List.drop_drop]
    congr 1
    omega
  next =>
    split at h
    next => simp at h
    next => split at h <;> simp at h

/-- It is told no more than it had still to read. -/
theorem recv_lagged_le {n : Nat} (h : c.recv cap r = (.lagged n, r')) :
    n ≤ (c.unread r).length := by
  unfold recv at h
  split at h
  next =>
    obtain ⟨hn, -⟩ := Prod.mk.inj h
    obtain rfl := Recv.lagged.inj hn
    rw [unread, List.length_drop]
    omega
  next =>
    split at h
    next => simp at h
    next => split at h <;> simp at h

theorem recv_closed (h : c.recv cap r = (.closed, r')) : c.senders = 0 ∧ c.unread r = [] := by
  unfold recv at h
  split at h
  next => simp at h
  next =>
    split at h
    next => simp at h
    next hn =>
      split at h
      next hz => exact ⟨hz, by simpa [unread] using hn⟩
      next => simp at h

end Channel

end Broadcast
