import Tepegoz.Lib.Text

namespace Tepegoz

open Text

def statusBarNonSourceComfort : Nat := 24
def statusBarNonSourceTruncate : Nat := 30
def sourceMinChars : Nat := 8

/-- `none` stands for the panic of the slice. -/
def shortSource (s : List Char) (max : Nat) : Option (List Char) :=
  if byteLen s ≤ max - statusBarNonSourceComfort then some s
  else
    let budget := max - statusBarNonSourceTruncate
    if budget < sourceMinChars then some (s.take sourceMinChars)
    else (splitAtByte (byteLen s - budget) s).map fun cut => '…' :: cut.2

/-- The texts of the status bar, from left to right. -/
def renderStatusBar (total visible : Nat) (source : List Char) (width : Nat) :
    Option (List (List Char)) :=
  (shortSource source width).map fun shown =>
    [s!"{visible}/{total} hosts".toList, "  ".toList, "source: ".toList ++ shown,
      " procs: — (per-host count v1.1 — `Ctrl-b t` retargets Processes tile to a host)".toList]

/-- What is shown for a source: all of it, its start, or its end behind an ellipsis. -/
def ShortFor (source : List Char) (width : Nat) (shown : List Char) : Prop :=
  (shown = source ∨ (shown <+: source ∧ shown.length ≤ sourceMinChars) ∨
    ∃ back, back <:+ source ∧ shown = '…' :: back) ∧
  shown.length ≤ max sourceMinChars (width - statusBarNonSourceComfort)

/-- The source is not cut by bytes, or the bytes that are kept begin a character. -/
def CutAtCharacter (source : List Char) (width : Nat) : Prop :=
  byteLen source ≤ width - statusBarNonSourceComfort ∨
    width < statusBarNonSourceTruncate + sourceMinChars ∨
    ∃ front back, source = front ++ back ∧ byteLen back = width - statusBarNonSourceTruncate

section Sources

variable {source shown : List Char} {width : Nat}

/-- Whatever is returned is the source as it may be shown. -/
theorem shortFor_of_shortSource (h : shortSource source width = some shown) :
    ShortFor source width shown := by
  unfold shortSource at h
  split at h
  next hfits =>
    cases h
    have hlen := length_le_byteLen source
    exact ⟨.inl rfl, by omega⟩
  next hlong =>
    dsimp only at h
    split at h
    next hsmall =>
      cases h
      have hlen : (source.take sourceMinChars).length ≤ sourceMinChars := List.length_take_le ..
      exact ⟨.inr (.inl ⟨List.take_prefix .., hlen⟩), by omega⟩
    next hbudget =>
      obtain ⟨⟨front, back⟩, hcut, rfl⟩ := Option.map_eq_some_iff.mp h
      obtain ⟨rfl, hfront⟩ := eq_of_splitAtByte hcut
      have hback := length_le_byteLen back
      rw [byteLen_append] at hfront hlong
      refine ⟨.inr (.inr ⟨back, List.suffix_append .., rfl⟩), ?_⟩
      show back.length + 1 ≤ _
      unfold statusBarNonSourceComfort statusBarNonSourceTruncate sourceMinChars at *
      omega

theorem shortSource_isSome : (∃ shown, shortSource source width = some shown) ↔
    CutAtCharacter source width := by
  unfold shortSource CutAtCharacter
  by_cases hfits : byteLen source ≤ width - statusBarNonSourceComfort
  · rw [if_pos hfits]
    exact ⟨fun _ => .inl hfits, fun _ => ⟨source, rfl⟩⟩
  by_cases hsmall : width - statusBarNonSourceTruncate < sourceMinChars
  · rw [if_neg hfits, if_pos hsmall]
    refine ⟨fun _ => .inr (.inl ?_), fun _ => ⟨_, rfl⟩⟩
    unfold statusBarNonSourceTruncate sourceMinChars at *
    omega
  have hwide : ¬ width < statusBarNonSourceTruncate + sourceMinChars := by
    unfold statusBarNonSourceTruncate sourceMinChars at *
    omega
  have hlong : width - statusBarNonSourceTruncate ≤ byteLen source := by
    unfold statusBarNonSourceComfort statusBarNonSourceTruncate at *
    omega
  rw [if_neg hfits, if_neg hsmall]
  simp only [hfits, hwide, false_or]
  constructor
  · rintro ⟨shown, h⟩
    obtain ⟨⟨front, back⟩, hcut, -⟩ := Option.map_eq_some_iff.mp h
    obtain ⟨rfl, hfront⟩ := eq_of_splitAtByte hcut
    refine ⟨front, back, rfl, ?_⟩
    rw [byteLen_append] at hfront hlong
    omega
  · rintro ⟨front, back, rfl, hback⟩
    have hcut : byteLen (front ++ back) - (width - statusBarNonSourceTruncate) = byteLen front := by
      rw [byteLen_append]
      omega
    rw [hcut, splitAtByte_append]
    exact ⟨_, rfl⟩

/-- The bar is drawn, without a panic, exactly where its source can be shortened. -/
theorem renderStatusBar_isSome (total visible : Nat) :
    (renderStatusBar total visible source width).isSome ↔ CutAtCharacter source width := by
  rw [← shortSource_isSome, renderStatusBar, Option.isSome_map, Option.isSome_iff_exists]

end Sources

/-- The source is shown, shortened as far as the bar needs it, exactly when the bytes that are kept
begin a character. -/
theorem short_source_shown (source : List Char) (width : Nat) :
    (∃ shown, shortSource source width = some shown ∧ ShortFor source width shown) ↔
      CutAtCharacter source width := by
  rw [← shortSource_isSome]
  exact exists_congr fun shown => and_iff_left_of_imp shortFor_of_shortSource

/-- Of eight letters of two bytes each the last nine bytes are to be kept. -/
theorem accented_source_panics : ¬ ∀ source width, ∃ shown,
    shortSource source width = some shown ∧ ShortFor source width shown := by
  intro h
  obtain ⟨shown, hshown, -⟩ := h "éééééééé".toList 39
  have hnone : shortSource "éééééééé".toList 39 = none := by decide
  rw [hnone] at hshown
  cases hshown

end Tepegoz
