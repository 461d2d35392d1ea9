import Mathlib.Data.List.Pairwise
import Tepegoz.Tui.Tile

namespace Tepegoz

/-- No cell is in both. -/
def Rect.Disjoint (r s : Rect) : Prop := ∀ x y, ¬ (r.contains x y ∧ s.contains x y)

instance : Std.Symm Rect.Disjoint where
  symm _ _ h x y hc := h x y hc.symm

/-- The tiles share out the cells of the area. -/
structure TileLayout.Partitions (layout : TileLayout) (area : Rect) : Prop where
  five : layout.tiles.length = 5
  nonempty : ∀ tile ∈ layout.tiles, 0 < tile.rect.width ∧ 0 < tile.rect.height
  disjoint : (layout.tiles.map (·.rect)).Pairwise Rect.Disjoint
  inside : ∀ rect ∈ layout.tiles.map (·.rect), ∀ x y, rect.contains x y → area.contains x y
  covered : ∀ x y, area.contains x y →
    ∃! rect, rect ∈ layout.tiles.map (·.rect) ∧ rect.contains x y

/-- A cell of one of some disjoint rectangles is in no other of them. -/
theorem Rect.existsUnique_of_disjoint {rects : List Rect} (hd : rects.Pairwise Rect.Disjoint)
    {x y : Nat} (h : ∃ rect ∈ rects, rect.contains x y) :
    ∃! rect, rect ∈ rects ∧ rect.contains x y := by
  obtain ⟨rect, hm, hc⟩ := h
  refine ⟨rect, ⟨hm, hc⟩, ?_⟩
  rintro other ⟨ho, hother⟩
  by_contra hne
  exact hd.forall ho hm hne x y ⟨hother, hc⟩

theorem Rect.contains_iff {r : Rect} {x y : Nat} : r.contains x y ↔
    (r.x ≤ x ∧ x < r.x + r.width) ∧ r.y ≤ y ∧ y < r.y + r.height := by
  simp [Rect.contains, and_assoc]

/-- Whoever is wholly left of or above another has no cell in common with it. -/
theorem Rect.disjoint_of_apart {r s : Rect}
    (h : r.x + r.width ≤ s.x ∨ r.y + r.height ≤ s.y) : r.Disjoint s := by
  rintro x y ⟨hr, hs⟩
  have hr' := Rect.contains_iff.mp hr
  have hs' := Rect.contains_iff.mp hs
  omega

namespace TileLayout

theorem partitions_of_defaultFor {area : Rect} {layout : TileLayout}
    (h : defaultFor area = some layout) (hcols : minCols ≤ area.width)
    (hrows : minRows ≤ area.height) : layout.Partitions area := by
  obtain ⟨ptyRows, scopeRows, scopeCol, fleetW, rfl, hpty, hscope, hheight, hcol, hfleet, hwidth⟩ :=
    defaultFor_split h hcols hrows
  have hr := area.right_le
  have hb := area.bottom_le
  have hclaude : 0 < claudeRows := by decide
  have hwide : 0 < area.width := by omega
  rw [Rect.new_eq (by omega) (by omega), Rect.new_eq (by omega) (by omega),
    Rect.new_eq (by omega) (by omega), Rect.new_eq (by omega) (by omega),
    Rect.new_eq (by omega) (by omega)]
  -- rows of tiles one below the other, and in the middle one columns side by side
  have hdisjoint : List.Pairwise Rect.Disjoint
      [⟨area.x, area.y, area.width, ptyRows, by omega, by omega⟩,
        ⟨area.x, area.y + ptyRows, scopeCol, scopeRows, by omega, by omega⟩,
        ⟨area.x + scopeCol, area.y + ptyRows, scopeCol, scopeRows, by omega, by omega⟩,
        ⟨area.x + scopeCol + scopeCol, area.y + ptyRows, fleetW, scopeRows, by omega, by omega⟩,
        ⟨area.x, area.y + ptyRows + scopeRows, area.width, claudeRows, by omega, by omega⟩] := by
    simp only [List.pairwise_cons, List.forall_mem_cons, List.not_mem_nil, false_implies,
      implies_true, and_true, List.Pairwise.nil]
    refine ⟨⟨?_, ?_, ?_, ?_⟩, ⟨?_, ?_, ?_⟩, ⟨?_, ?_⟩, ?_⟩ <;> apply Rect.disjoint_of_apart <;>
      simp only <;> omega
  refine ⟨rfl, ?_, hdisjoint, ?_, fun x y hcell => Rect.existsUnique_of_disjoint hdisjoint ?_⟩
  · simp only [List.forall_mem_cons, List.not_mem_nil, false_implies, implies_true, and_true]
    omega
  · simp only [List.map_cons, List.map_nil, List.forall_mem_cons, List.not_mem_nil, false_implies,
      implies_true, and_true, Rect.contains_iff]
    refine ⟨?_, ?_, ?_, ?_, ?_⟩ <;> intro x y hcell <;> omega
  · simp only [List.exists_mem_cons_iff, List.not_mem_nil, false_and, exists_false, or_false,
      Rect.contains_iff] at hcell ⊢
    omega

/-- The layout of a terminal that has room for the tiles gives every cell to one of them, if and
only if three times its rows, the strip at the bottom not counted, fit in `u16`. -/
theorem layout_partitions (area : Rect) (hcols : minCols ≤ area.width)
    (hrows : minRows ≤ area.height) :
    (∃ layout, defaultFor area = some layout ∧ layout.Partitions area) ↔ area.height ≤ 21848 := by
  have hfits : (area.height - claudeRows) * 3 ≤ u16Max ↔ area.height ≤ 21848 := by
    unfold claudeRows u16Max
    omega
  rw [← hfits, ← defaultFor_isSome hcols hrows]
  constructor
  · rintro ⟨layout, h, -⟩
    exact Option.isSome_of_eq_some h
  · intro hsome
    obtain ⟨layout, h⟩ := Option.isSome_iff_exists.mp hsome
    exact ⟨layout, h, partitions_of_defaultFor h hcols hrows⟩

theorem layout_partitions_smallest :
    ∃ layout, defaultFor (.new 0 0 80 24) = some layout ∧ layout.Partitions (.new 0 0 80 24) :=
  (layout_partitions (.new 0 0 80 24) (by decide) (by decide)).mpr (by decide)

theorem tall_terminal_overflows : ¬ ∀ area : Rect, area.x = 0 → area.y = 0 →
    minCols ≤ area.width → minRows ≤ area.height →
      ∃ layout, defaultFor area = some layout ∧ layout.Partitions area := by
  intro h
  obtain ⟨layout, hl, -⟩ := h (.new 0 0 80 21849) rfl rfl (by decide) (by decide)
  have hnone : defaultFor (.new 0 0 80 21849) = none := by decide
  rw [hnone] at hl
  cases hl

end TileLayout

end Tepegoz
