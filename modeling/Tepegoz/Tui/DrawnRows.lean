import Tepegoz.Tui.PtyGeometry

namespace Tepegoz

open Transition

section Render

variable (text : TextOps) (inner : Rect) (y : Nat)

end Render

namespace App

end App

namespace App

variable {text : TextOps} {a : App} {kind : ScopeKind} {rect : Rect} {y : Nat}

theorem InRange.cursor (ha : a.InRange text) (hpos : 0 < a.scopeVisibleCount text kind) :
    (a.cursor kind).selection < a.scopeVisibleCount text kind := by
  have hle : (a.cursor kind).selection ≤ a.scopeVisibleCount text kind - 1 := by
    cases kind with
    | docker => exact ha.docker
    | ports =>
      unfold App.cursor scopeVisibleCount
      dsimp only
      split
      · exact ha.ports
      · exact ha.processes
    | fleet => exact ha.fleet
  omega

end App

namespace Turn

variable {text : TextOps} {m : Moment} {t : Turn} {tileId : TileId} {kind : ScopeKind} {rect : Rect}
  {y : Nat}

end Turn

end Tepegoz
