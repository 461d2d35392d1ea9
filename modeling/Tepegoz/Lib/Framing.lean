import Mathlib.Algebra.Group.Nat.Defs
import Mathlib.Data.List.Basic
import Mathlib.Tactic.Common

namespace Framing

def be32 (n : Nat) : List UInt8 :=
  [.ofNat (n / 2 ^ 24), .ofNat (n / 2 ^ 16), .ofNat (n / 2 ^ 8), .ofNat n]

def be32Value (bytes : List UInt8) : Nat :=
  bytes.foldl (fun value byte => value * 256 + byte.toNat) 0

@[simp] theorem be32_length (n : Nat) : (be32 n).length = 4 := rfl

theorem be32Value_be32 {n : Nat} (h : n < 2 ^ 32) : be32Value (be32 n) = n := by
  simp only [be32Value, be32, List.foldl_cons, List.foldl_nil, UInt8.toNat_ofNat']
  omega

def frame (body : List UInt8) : List UInt8 := be32 body.length ++ body

/-- The stream a sequence of bodies is sent as. -/
def stream (bodies : List (List UInt8)) : List UInt8 := (bodies.map frame).flatten

/-- The announced length, once the four bytes of the prefix are there. -/
def announced (progress : List UInt8) : Nat := be32Value (progress.take 4)

/-- How many bytes a reader wants to have consumed before it goes on: the length prefix, then the
body, or `excess` further bytes when the announced length is over the limit. -/
def wanted (limit excess : Nat) (progress : List UInt8) : Nat :=
  if progress.length < 4 then 4
  else if limit < announced progress then 4 + excess
  else 4 + announced progress

section Frame

variable {limit excess : Nat} {body progress rest socket : List UInt8}

@[simp] theorem frame_length (body : List UInt8) : (frame body).length = 4 + body.length := by
  simp [frame]

@[simp] theorem stream_nil : stream [] = [] := rfl

@[simp] theorem stream_cons (body : List UInt8) (bodies : List (List UInt8)) :
    stream (body :: bodies) = frame body ++ stream bodies := by simp [stream]

theorem stream_append (xs ys : List (List UInt8)) : stream (xs ++ ys) = stream xs ++ stream ys := by
  simp [stream]

theorem stream_eq_nil {bodies : List (List UInt8)} (h : stream bodies = []) : bodies = [] := by
  cases bodies with
  | nil => rfl
  | cons body bodies =>
    have := congrArg List.length h
    simp at this

theorem announced_of_part (hb : body.length < 2 ^ 32) (hp : progress <+: frame body)
    (hl : 4 ≤ progress.length) : announced progress = body.length := by
  obtain ⟨rest, hrest⟩ := hp
  have htake : progress.take 4 = be32 body.length := by
    have happ : (progress ++ rest).take 4 = progress.take 4 := List.take_append_of_le_length hl
    rw [← happ, hrest, frame]
    exact List.take_left' (be32_length _)
  rw [announced, htake, be32Value_be32 hb]

/-- Inside a frame within the limit the reader never wants to go past the end of the frame, and past
the length prefix it wants exactly the frame. -/
theorem wanted_of_part (excess : Nat) (hlimit : limit < 2 ^ 32) (hb : body.length ≤ limit)
    (hp : progress <+: frame body) :
    wanted limit excess progress = if progress.length < 4 then 4 else (frame body).length := by
  unfold wanted
  split
  next => rfl
  next hl =>
    rw [announced_of_part (by omega) hp (by omega), if_neg (by omega), frame_length]

/-- One read of at most the wanted number of bytes stays inside the frame, and the reader has what
it wanted exactly when it reached the end of the frame. -/
theorem read_inside {n : Nat} (hlimit : limit < 2 ^ 32) (hb : body.length ≤ limit)
    (hs : progress ++ socket = frame body ++ rest) (hl : progress.length < (frame body).length)
    (hn : n ≤ wanted limit excess progress - progress.length) :
    progress ++ socket.take n <+: frame body ∧
      ((progress ++ socket.take n).length = wanted limit excess (progress ++ socket.take n) ↔
        progress ++ socket.take n = frame body) := by
  have hp : progress <+: frame body :=
    List.prefix_of_prefix_length_le ⟨socket, hs⟩ (List.prefix_append _ _) (Nat.le_of_lt hl)
  have hw := wanted_of_part excess hlimit hb hp
  have hle : (progress ++ socket.take n).length ≤ (frame body).length := by
    rw [hw] at hn
    simp only [List.length_append, List.length_take, frame_length] at hn hl ⊢
    split at hn <;> omega
  have hfull : progress ++ socket.take n ++ socket.drop n = frame body ++ rest := by
    rw [List.append_assoc, List.take_append_drop, hs]
  have hp' : progress ++ socket.take n <+: frame body :=
    List.prefix_of_prefix_length_le ⟨socket.drop n, hfull⟩ (List.prefix_append _ _) hle
  refine ⟨hp', ?_⟩
  rw [wanted_of_part excess hlimit hb hp']
  constructor
  · intro hc
    split at hc
    next => omega
    next => exact hp'.eq_of_length hc
  · intro he
    rw [he, if_neg (by simp)]

/-- Of a frame over the limit no more is read than a part, as `excess` is less than the limit. -/
theorem read_inside_oversized {n : Nat} (hb : body.length < 2 ^ 32) (hlimit : limit < body.length)
    (hexcess : excess ≤ limit) (hs : progress ++ socket = frame body ++ rest)
    (hl : progress.length < (frame body).length) (hpos : 0 < n)
    (hn : n ≤ wanted limit excess progress - progress.length) :
    progress ++ socket.take n <+: frame body ∧ (progress ++ socket.take n).length < (frame body).length := by
  have hp : progress <+: frame body :=
    List.prefix_of_prefix_length_le ⟨socket, hs⟩ (List.prefix_append _ _) (Nat.le_of_lt hl)
  have hwanted : wanted limit excess progress ≤ 4 + excess := by
    unfold wanted
    split
    next => omega
    next hfour =>
      exact Nat.le_of_eq (by rw [announced_of_part hb hp (by omega), if_pos hlimit])
  have hlt : (progress ++ socket.take n).length < (frame body).length := by
    simp only [List.length_append, List.length_take, frame_length]
    omega
  have hfull : progress ++ socket.take n ++ socket.drop n = frame body ++ rest := by
    rw [List.append_assoc, List.take_append_drop, hs]
  exact ⟨List.prefix_of_prefix_length_le ⟨socket.drop n, hfull⟩ (List.prefix_append _ _)
    (Nat.le_of_lt hlt), hlt⟩

end Frame

/-- Read exactly `n` bytes from a socket that yields its bytes in pieces. -/
def readExact : Nat → List (List UInt8) → Option (List UInt8 × List (List UInt8))
  | n, [] => if n = 0 then some ([], []) else none
  | n, piece :: pieces =>
    if n ≤ piece.length then some (piece.take n, piece.drop n :: pieces)
    else (readExact (n - piece.length) pieces).map fun r => (piece ++ r.1, r.2)

section Exact

variable {n : Nat} {pieces : List (List UInt8)}

theorem readExact_of_le (h : n ≤ pieces.flatten.length) : ∃ rest,
    readExact n pieces = some (pieces.flatten.take n, rest) ∧
      rest.flatten = pieces.flatten.drop n := by
  induction pieces generalizing n with
  | nil =>
    have hn : n = 0 := by simpa using h
    exact ⟨[], by simp [readExact, hn], by simp⟩
  | cons piece pieces ih =>
    simp only [List.flatten_cons, List.length_append] at h ⊢
    by_cases hle : n ≤ piece.length
    · refine ⟨piece.drop n :: pieces, ?_, ?_⟩
      · rw [readExact, if_pos hle, List.take_append_of_le_length hle]
      · rw [List.flatten_cons, List.drop_append_of_le_length hle]
    · have hge : piece.length ≤ n := by omega
      obtain ⟨rest, hread, hrest⟩ := ih (n := n - piece.length) (by omega)
      refine ⟨rest, ?_, ?_⟩
      · rw [readExact, if_neg hle, hread, List.take_append, List.take_of_length_le hge]
        rfl
      · rw [hrest, List.drop_append, List.drop_eq_nil_of_le hge, List.nil_append]

theorem readExact_of_lt (h : pieces.flatten.length < n) : readExact n pieces = none := by
  induction pieces generalizing n with
  | nil =>
    have hn : n ≠ 0 := by simp at h; omega
    simp [readExact, hn]
  | cons piece pieces ih =>
    simp only [List.flatten_cons, List.length_append] at h
    rw [readExact, if_neg (by omega), ih (by omega)]
    rfl

end Exact

end Framing
