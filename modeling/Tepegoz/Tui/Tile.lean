import Mathlib.Data.List.MinMax
import Mathlib.Data.Prod.Lex
import Mathlib.Tactic.Common

namespace Tepegoz

def u16Max : Nat := 65535

/-- Checked arithmetic on `u16`: `none` stands for the panic. -/
def checkedU16 (n : Nat) : Option Nat := if n ≤ u16Max then some n else none

def checkedSub (a b : Nat) : Option Nat := if b ≤ a then some (a - b) else none

theorem checkedU16_eq {n : Nat} (h : n ≤ u16Max) : checkedU16 n = some n := if_pos h

theorem checkedSub_eq {a b : Nat} (h : b ≤ a) : checkedSub a b = some (a - b) := if_pos h

theorem checkedU16_some {n v : Nat} (h : checkedU16 n = some v) : v = n := by
  unfold checkedU16 at h
  split at h
  next => exact (Option.some.inj h).symm
  next => cases h

theorem checkedSub_some {a b v : Nat} (h : checkedSub a b = some v) : b ≤ a ∧ v = a - b := by
  unfold checkedSub at h
  split at h
  next hle => exact ⟨hle, (Option.some.inj h).symm⟩
  next => cases h

/-- A rectangle of terminal cells; its far edges fit in `u16`. -/
structure Rect where
  x : Nat
  y : Nat
  width : Nat
  height : Nat
  right_le : x + width ≤ u16Max
  bottom_le : y + height ≤ u16Max
  deriving DecidableEq

namespace Rect

def new (x y width height : Nat) : Rect where
  x := min x u16Max
  y := min y u16Max
  width := min width (u16Max - min x u16Max)
  height := min height (u16Max - min y u16Max)
  right_le := by omega
  bottom_le := by omega

def contains (r : Rect) (x y : Nat) : Bool :=
  r.x ≤ x ∧ x < r.x + r.width ∧ r.y ≤ y ∧ y < r.y + r.height

/-- Arguments that fit are kept. -/
theorem new_eq {x y width height : Nat} (hright : x + width ≤ u16Max)
    (hbottom : y + height ≤ u16Max) : new x y width height = ⟨x, y, width, height, hright, hbottom⟩ := by
  have hx : min x u16Max = x := by omega
  have hy : min y u16Max = y := by omega
  simp only [new, hx, hy, Rect.mk.injEq, true_and]
  omega

end Rect

inductive ScopeKind
  | docker
  | ports
  | fleet
  deriving DecidableEq

inductive TileId
  | pty
  | docker
  | ports
  | fleet
  | claudeCode
  | tooSmall
  deriving DecidableEq

inductive TileKind
  | pty
  | scope (kind : ScopeKind)
  | placeholder
  | tooSmall
  deriving DecidableEq

inductive FocusDir
  | left
  | right
  | up
  | down
  deriving DecidableEq

structure TileDef where
  id : TileId
  kind : TileKind
  rect : Rect
  deriving DecidableEq

structure TileLayout where
  tiles : List TileDef
  defaultFocus : TileId
  deriving DecidableEq

def minCols : Nat := 80
def minRows : Nat := 24
def claudeRows : Nat := 3

namespace TileLayout

def tinyFallback (area : Rect) : TileLayout := ⟨[⟨.tooSmall, .tooSmall, area⟩], .tooSmall⟩

/-- The rows of the pty tile; the product is taken in `u16`. -/
def ptyRowsOf (remaining : Nat) : Option Nat :=
  (checkedU16 (remaining * 3)).map fun product => max (product / 5) 6

def defaultFor (area : Rect) : Option TileLayout :=
  if area.width < minCols ∨ area.height < minRows then some (tinyFallback area)
  else do
    let remaining ← checkedSub area.height claudeRows
    let ptyRows ← ptyRowsOf remaining
    let scopeRows ← checkedSub remaining ptyRows
    let scopeCol := area.width / 3
    let doubled ← checkedU16 (2 * scopeCol)
    let fleetW ← checkedSub area.width doubled
    let scopeY ← checkedU16 (area.y + ptyRows)
    let portsX ← checkedU16 (area.x + scopeCol)
    let fleetX ← checkedU16 (portsX + scopeCol)
    let claudeY ← checkedU16 (scopeY + scopeRows)
    some ⟨[⟨.pty, .pty, .new area.x area.y area.width ptyRows⟩,
      ⟨.docker, .scope .docker, .new area.x scopeY scopeCol scopeRows⟩,
      ⟨.ports, .scope .ports, .new portsX scopeY scopeCol scopeRows⟩,
      ⟨.fleet, .scope .fleet, .new fleetX scopeY fleetW scopeRows⟩,
      ⟨.claudeCode, .placeholder, .new area.x claudeY area.width claudeRows⟩], .pty⟩

def tile (layout : TileLayout) (id : TileId) : Option TileDef :=
  layout.tiles.find? (·.id = id)

def rectOf (layout : TileLayout) (id : TileId) : Option Rect := (layout.tile id).map (·.rect)

def tileAt (layout : TileLayout) (x y : Nat) : Option TileDef :=
  layout.tiles.find? (·.rect.contains x y)

/-- The candidate lies wholly on that side of the origin. -/
def beyond (dir : FocusDir) (origin candidate : Rect) : Bool :=
  match dir with
  | .up => candidate.y + candidate.height ≤ origin.y
  | .down => origin.y + origin.height ≤ candidate.y
  | .left => candidate.x + candidate.width ≤ origin.x
  | .right => origin.x + origin.width ≤ candidate.x

/-- The tuple order of the source, built on the plain order of `Int` so that it stays
executable. -/
instance focusOrder : Preorder (Int ×ₗ Int) :=
  @Prod.Lex.instPreorder Int Int Int.instLinearOrder.toPreorder Int.instLinearOrder.toPreorder

/-- The gap in the direction of travel, then the misalignment across it. -/
def focusDistance (dir : FocusDir) (origin candidate : Rect) : Int ×ₗ Int :=
  let across : Int := match dir with
    | .up | .down => ((candidate.x : Int) - origin.x).natAbs
    | .left | .right => ((candidate.y : Int) - origin.y).natAbs
  toLex <| match dir with
    | .up => ((origin.y : Int) - (candidate.y + candidate.height), across)
    | .down => ((candidate.y : Int) - (origin.y + origin.height), across)
    | .left => ((origin.x : Int) - (candidate.x + candidate.width), across)
    | .right => ((candidate.x : Int) - (origin.x + origin.width), across)

def nextFocus (layout : TileLayout) (origin : TileId) (dir : FocusDir) : Option TileId :=
  if origin = .tooSmall then none
  else do
    let originRect ← layout.rectOf origin
    let candidates := (layout.tiles.filter fun t => t.id ≠ origin ∧ t.id ≠ .tooSmall).filter
      fun t => beyond dir originRect t.rect
    let nearest ← candidates.argmin fun t => focusDistance dir originRect t.rect
    some nearest.id

def routesToPty (layout : TileLayout) (id : TileId) : Bool :=
  (layout.tile id).map (·.kind) = some .pty

def routesToScope (layout : TileLayout) (id : TileId) : Option ScopeKind :=
  match layout.tile id with
  | some ⟨_, .scope kind, _⟩ => some kind
  | _ => none

def cycleOrder : List TileId := [.pty, .docker, .ports, .fleet, .claudeCode]

/-- The first tile of the layout among the ones that follow `start` in the cycle. -/
def cycleFocus (layout : TileLayout) (origin : TileId) (forward : Bool) : Option TileId :=
  if origin = .tooSmall then none
  else do
    let start ← cycleOrder.findIdx? (· = origin)
    let n := cycleOrder.length
    let following := (List.range n).filterMap fun step =>
      cycleOrder[if forward then (start + (step + 1)) % n else (start + n - (step + 1)) % n]?
    following.find? fun candidate => (layout.tile candidate).isSome

end TileLayout

/-- The terminal sizes for which `3 * (rows - CLAUDE_ROWS)` fits in `u16`. -/
def LayoutFits (rows cols : Nat) : Prop := cols < minCols ∨ rows ≤ 21848

instance (rows cols : Nat) : Decidable (LayoutFits rows cols) :=
  inferInstanceAs (Decidable (_ ∨ _))

namespace TileLayout

/-- Of the operations in `default_for` only the product for the pty rows can overflow. -/
theorem defaultFor_isSome {area : Rect} (hcols : minCols ≤ area.width)
    (hrows : minRows ≤ area.height) :
    (defaultFor area).isSome ↔ (area.height - claudeRows) * 3 ≤ u16Max := by
  have hr := area.right_le
  have hb := area.bottom_le
  unfold minRows at hrows
  unfold defaultFor ptyRowsOf
  rw [if_neg (by simp only [minCols, minRows] at *; omega),
    checkedSub_eq (by unfold claudeRows; omega)]
  simp only [Option.bind_eq_bind, Option.bind_some]
  generalize hrem : area.height - claudeRows = remaining
  have hremaining : 21 ≤ remaining := by unfold claudeRows at hrem; omega
  have hclaude : area.y + remaining ≤ u16Max := by omega
  by_cases hp : remaining * 3 ≤ u16Max
  · have hpty : max (remaining * 3 / 5) 6 ≤ remaining := by omega
    simp only [checkedU16_eq hp, Option.map_some, Option.bind_some, checkedSub_eq hpty]
    generalize max (remaining * 3 / 5) 6 = ptyRows at hpty
    rw [checkedU16_eq (by omega), Option.bind_some, checkedSub_eq (by omega), Option.bind_some,
      checkedU16_eq (by omega), Option.bind_some, checkedU16_eq (by omega), Option.bind_some,
      checkedU16_eq (by omega), Option.bind_some, checkedU16_eq (by omega), Option.bind_some]
    simp [hp]
  · have hover : checkedU16 (remaining * 3) = none := if_neg hp
    simp only [hover, Option.map_none, Option.bind_none, Option.isSome_none, hp, Bool.false_eq_true]

/-- The tiles of an area that has room for them, with the rows and columns shared out. -/
theorem defaultFor_split {area : Rect} {layout : TileLayout} (h : defaultFor area = some layout)
    (hcols : minCols ≤ area.width) (hrows : minRows ≤ area.height) :
    ∃ ptyRows scopeRows scopeCol fleetW, layout =
        ⟨[⟨.pty, .pty, .new area.x area.y area.width ptyRows⟩,
          ⟨.docker, .scope .docker, .new area.x (area.y + ptyRows) scopeCol scopeRows⟩,
          ⟨.ports, .scope .ports, .new (area.x + scopeCol) (area.y + ptyRows) scopeCol scopeRows⟩,
          ⟨.fleet, .scope .fleet,
            .new (area.x + scopeCol + scopeCol) (area.y + ptyRows) fleetW scopeRows⟩,
          ⟨.claudeCode, .placeholder,
            .new area.x (area.y + ptyRows + scopeRows) area.width claudeRows⟩], .pty⟩ ∧
      6 ≤ ptyRows ∧ 9 ≤ scopeRows ∧ ptyRows + scopeRows + claudeRows = area.height ∧
      2 ≤ scopeCol ∧ 2 ≤ fleetW ∧ scopeCol + scopeCol + fleetW = area.width := by
  unfold minRows at hrows
  unfold minCols at hcols
  unfold defaultFor at h
  rw [if_neg (by unfold minCols minRows; omega)] at h
  simp only [Option.bind_eq_bind, Option.bind_eq_some_iff] at h
  obtain ⟨remaining, hrem, ptyRows, hpty, scopeRows, hscope, doubled, hdoubled, fleetW, hfleet, scopeY,
    hscopeY, portsX, hportsX, fleetX, hfleetX, claudeY, hclaude, h⟩ := h
  obtain ⟨hremLe, rfl⟩ := checkedSub_some hrem
  obtain ⟨product, hproduct, rfl⟩ := Option.map_eq_some_iff.mp hpty
  obtain rfl := checkedU16_some hproduct
  obtain ⟨hscopeLe, rfl⟩ := checkedSub_some hscope
  obtain rfl := checkedU16_some hdoubled
  obtain ⟨hfleetLe, rfl⟩ := checkedSub_some hfleet
  obtain rfl := checkedU16_some hscopeY
  obtain rfl := checkedU16_some hportsX
  obtain rfl := checkedU16_some hfleetX
  obtain rfl := checkedU16_some hclaude
  unfold claudeRows at hremLe hscopeLe h ⊢
  exact ⟨_, _, _, _, (Option.some.inj h).symm, by omega, by omega, by omega, by omega, by omega,
    by omega⟩

theorem defaultFor_fits {rows cols : Nat} :
    (defaultFor (.new 0 0 cols rows)).isSome ↔ LayoutFits rows cols := by
  have hw : (Rect.new 0 0 cols rows).width = min cols u16Max := by simp [Rect.new]
  have hh : (Rect.new 0 0 cols rows).height = min rows u16Max := by simp [Rect.new]
  by_cases h : minCols ≤ (Rect.new 0 0 cols rows).width ∧ minRows ≤ (Rect.new 0 0 cols rows).height
  · rw [defaultFor_isSome h.1 h.2, hh]
    simp only [hw, hh, minCols, minRows, u16Max, claudeRows, LayoutFits] at *
    omega
  · have ht : defaultFor (.new 0 0 cols rows) = some (tinyFallback (.new 0 0 cols rows)) := by
      unfold defaultFor
      exact if_pos (by omega)
    rw [ht, hw, hh] at *
    simp only [minCols, minRows, u16Max, LayoutFits, Option.isSome_some, true_iff] at *
    omega

end TileLayout

end Tepegoz
