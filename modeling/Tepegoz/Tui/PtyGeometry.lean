import Tepegoz.Tui.Screen

namespace Tepegoz

open Transition

/-- What is left of a block for its content when it has borders on all sides. -/
def Rect.blockInner (r : Rect) : Rect where
  x := min (r.x + 1) (r.x + r.width)
  y := min (r.y + 1) (r.y + r.height)
  width := r.width - 2
  height := r.height - 2
  right_le := by have := r.right_le; omega
  bottom_le := by have := r.bottom_le; omega

/-- The part of the pty tile that the cells of the active pane are drawn in, below the tab strip. -/
def ptyContentRect (area : Rect) : Rect :=
  let inner := area.blockInner
  if 2 ≤ inner.height then .new inner.x (inner.y + 1) inner.width (inner.height - 1) else inner

def Rect.dims (r : Rect) : Nat × Nat := (r.height, r.width)

namespace App

/-- Where the active pane is drawn, when the layout has a tile for it. -/
def ptyContent (a : App) : Option Rect := (a.view.layout.rectOf .pty).map ptyContentRect

/-- The panes, and the sizes asked for in what was sent, have the size of the area they are drawn in. -/
def PtyMatches (a : App) (sent : List AppAction) : Prop :=
  ∀ content ∈ a.ptyContent, (∀ p ∈ a.paneStack, p.parser.dims = content.dims) ∧
    ∀ action ∈ sent, ∀ dims ∈ action.dims, dims = content.dims

end App

/-- The terminal is not too small for the tiles. -/
def App.Roomy (a : App) : Prop := minRows ≤ a.terminalSize.1 ∧ minCols ≤ a.terminalSize.2

theorem Rect.new_dims {x y width height : Nat} (hright : x + width ≤ u16Max)
    (hbottom : y + height ≤ u16Max) : (Rect.new x y width height).dims = (height, width) := by
  rw [Rect.new_eq hright hbottom]
  rfl

/-- The tiles of a terminal that has room for them. -/
theorem TileLayout.defaultFor_roomy {rows cols : Nat} {layout : TileLayout}
    (h : defaultFor (.new 0 0 cols rows) = some layout) (hrows : minRows ≤ rows) (hcols : minCols ≤ cols) :
    ∃ width ptyRows scopeRows scopeCol fleetW, layout.tiles =
        [⟨.pty, .pty, .new 0 0 width ptyRows⟩,
          ⟨.docker, .scope .docker, .new 0 ptyRows scopeCol scopeRows⟩,
          ⟨.ports, .scope .ports, .new scopeCol ptyRows scopeCol scopeRows⟩,
          ⟨.fleet, .scope .fleet, .new (scopeCol + scopeCol) ptyRows fleetW scopeRows⟩,
          ⟨.claudeCode, .placeholder, .new 0 (ptyRows + scopeRows) width claudeRows⟩] ∧
      6 ≤ ptyRows ∧ 9 ≤ scopeRows ∧ 2 ≤ scopeCol ∧ 2 ≤ fleetW ∧ ptyRows + scopeRows ≤ u16Max ∧
      scopeCol + scopeCol + fleetW = width ∧ width ≤ u16Max := by
  have hw : (Rect.new 0 0 cols rows).width = min cols u16Max := by simp [Rect.new]
  have hh : (Rect.new 0 0 cols rows).height = min rows u16Max := by simp [Rect.new]
  have hx : (Rect.new 0 0 cols rows).x = 0 := by simp [Rect.new]
  have hy : (Rect.new 0 0 cols rows).y = 0 := by simp [Rect.new]
  have hwidth : minCols ≤ (Rect.new 0 0 cols rows).width := by
    simp only [hw, minCols, u16Max] at *
    omega
  have hheight : minRows ≤ (Rect.new 0 0 cols rows).height := by
    simp only [hh, minRows, u16Max] at *
    omega
  obtain ⟨ptyRows, scopeRows, scopeCol, fleetW, rfl, hpty, hscope, hsum, hcol, hfleet, hwsum⟩ :=
    defaultFor_split h hwidth hheight
  rw [hx, hy, Nat.zero_add, Nat.zero_add]
  exact ⟨_, ptyRows, scopeRows, scopeCol, fleetW, rfl, hpty, hscope, hcol, hfleet, by omega, hwsum,
    by omega⟩

theorem TileLayout.rectOf_pty {rows cols : Nat} {layout : TileLayout}
    (h : defaultFor (.new 0 0 cols rows) = some layout) (hrows : minRows ≤ rows)
    (hcols : minCols ≤ cols) :
    ∃ rect, layout.rectOf .pty = some rect ∧ 6 ≤ rect.height ∧ 2 ≤ rect.width := by
  obtain ⟨width, ptyRows, scopeRows, scopeCol, fleetW, htiles, hpty, -, hcol, -, hheight, hwidth, hle⟩ :=
    defaultFor_roomy h hrows hcols
  have hdims : (Rect.new 0 0 width ptyRows).dims = (ptyRows, width) := Rect.new_dims (by omega) (by omega)
  obtain ⟨hh, hw⟩ := Prod.mk.inj hdims
  refine ⟨.new 0 0 width ptyRows, ?_, by omega, by omega⟩
  simp [rectOf, tile, htiles]

/-- The size that is asked for counts the borders of the tile in. -/
theorem ptyContentDims_off {layout : TileLayout} {rect : Rect} (h : layout.rectOf .pty = some rect)
    (hheight : 6 ≤ rect.height) (hwidth : 2 ≤ rect.width) : ptyContentDims layout =
      ((ptyContentRect rect).height + 2, (ptyContentRect rect).width + 2) := by
  have hright := rect.blockInner.right_le
  have hbottom := rect.blockInner.bottom_le
  have hinner : rect.blockInner.height = rect.height - 2 ∧ rect.blockInner.width = rect.width - 2 :=
    ⟨rfl, rfl⟩
  have hcontent : (ptyContentRect rect).dims = (rect.blockInner.height - 1, rect.blockInner.width) := by
    unfold ptyContentRect
    rw [if_pos (by omega)]
    exact Rect.new_dims hright (by omega)
  obtain ⟨hrows, hcols⟩ := Prod.mk.inj hcontent
  unfold ptyContentDims ptyTileDims
  rw [h, hrows, hcols]
  refine Prod.ext ?_ ?_
  · show max (max rect.height 1 - 1) 1 = rect.blockInner.height - 1 + 2
    omega
  · show max rect.width 1 = rect.blockInner.width + 2
    omega

theorem App.ptyContent_off {text : TextOps} {a : App} (ha : a.OnScreen text) (hroomy : a.Roomy) :
    ∃ content, a.ptyContent = some content ∧
      ptyContentDims a.view.layout = (content.height + 2, content.width + 2) := by
  obtain ⟨rect, hrect, hheight, hwidth⟩ := TileLayout.rectOf_pty ha.layout hroomy.1 hroomy.2
  exact ⟨ptyContentRect rect, by simp [ptyContent, hrect], ptyContentDims_off hrect hheight hwidth⟩

/-- In a terminal of sufficient size a pane's parser, and every size asked for a pane, is two rows higher
and two columns wider than the area in which the pane is drawn, in every run. So they never match. -/
theorem pty_never_matches {text : TextOps} {tr : List AppAction} {a : App}
    (h : Run (console text) Free tr a) :
    (∀ sent, a.initialActions = some sent → a.Roomy → ¬ a.PtyMatches sent) ∧
      ∀ m event t, a.handleEvent text m event = some t → t.app.Roomy →
        ∃ content, t.app.ptyContent = some content ∧
          (∀ p ∈ t.app.paneStack, p.parser.dims = (content.height + 2, content.width + 2)) ∧
          (∀ action ∈ t.actions, ∀ dims ∈ action.dims, dims = (content.height + 2, content.width + 2)) ∧
          (t.app.PtyMatches t.actions →
            t.app.paneStack = [] ∧ ∀ action ∈ t.actions, action.dims = none) := by
  have hscreen := onScreen_of_run h
  refine ⟨fun sent hsent hroomy hmatches => ?_, fun m event t ht hroomy => ?_⟩
  · obtain ⟨content, hcontent, hoff⟩ := App.ptyContent_off hscreen hroomy
    obtain ⟨entry, hentry, -⟩ := Option.bind_eq_some_iff.mp hsent
    have hmem : entry ∈ a.paneStack := List.mem_of_getElem? hentry
    have hdims := (hmatches content hcontent).1 entry hmem
    rw [hscreen.panes entry hmem, hoff] at hdims
    have hheight : content.height + 2 = content.height := (Prod.mk.inj hdims).1
    omega
  · obtain ⟨hscreen', hsized⟩ := App.handleEvent_onScreen ht hscreen
    obtain ⟨content, hcontent, hoff⟩ := App.ptyContent_off hscreen' hroomy
    have hne : (content.height + 2, content.width + 2) ≠ content.dims := fun heq => by
      have hheight : content.height + 2 = content.height := (Prod.mk.inj heq).1
      omega
    refine ⟨content, hcontent, fun p hp => (hscreen'.panes p hp).trans hoff,
      fun action hact dims hdims => (hsized.requests action hact dims hdims).trans hoff, fun hm => ⟨?_, ?_⟩⟩
    · refine List.eq_nil_iff_forall_not_mem.mpr fun p hp => hne ?_
      rw [← hoff, ← hscreen'.panes p hp]
      exact (hm content hcontent).1 p hp
    · refine fun action hact => Option.eq_none_iff_forall_not_mem.mpr fun dims hdims => hne ?_
      rw [← hoff, ← hsized.requests action hact dims hdims]
      exact (hm content hcontent).2 action hact dims hdims

theorem pty_never_matches_resized : ∃ t content,
    sampleApp.handleEvent .ascii (.at 0) (.resize 50 200) = some t ∧ t.app.ptyContent = some content ∧
      (∀ p ∈ t.app.paneStack, p.parser.dims = (content.height + 2, content.width + 2)) ∧
      ¬ t.app.PtyMatches t.actions := by
  have hrun : Run (console .ascii) Free [] sampleApp := .start ⟨_, _, _, _, sampleApp_new⟩
  obtain ⟨t, ht, hroomy, hpane⟩ : ∃ t, sampleApp.handleEvent .ascii (.at 0) (.resize 50 200) = some t ∧
      t.app.Roomy ∧ t.app.paneStack ≠ [] :=
    ⟨_, rfl, ⟨by decide, by decide⟩, by decide⟩
  obtain ⟨content, hcontent, hpanes, -, hnever⟩ := (pty_never_matches hrun).2 _ _ t ht hroomy
  exact ⟨t, content, ht, hcontent, hpanes, fun hm => hpane (hnever hm).1⟩

/-- In a terminal of 40 rows the first pane gets 21 of them, and 19 are drawn. -/
theorem first_pane_clipped : ∃ sent content, sampleApp.initialActions = some sent ∧
    .sendEnvelope (envelope (.resizePane 7 21 120)) ∈ sent ∧ sampleApp.ptyContent = some content ∧
    content.dims = (19, 118) ∧ ¬ sampleApp.PtyMatches sent := by
  obtain ⟨sent, hsent, hasked⟩ : ∃ sent, sampleApp.initialActions = some sent ∧
      .sendEnvelope (envelope (.resizePane 7 21 120)) ∈ sent := ⟨_, rfl, by decide⟩
  obtain ⟨content, hcontent, hdims⟩ : ∃ content, sampleApp.ptyContent = some content ∧
      content.dims = (19, 118) := ⟨_, rfl, by decide⟩
  refine ⟨sent, content, hsent, hasked, hcontent, hdims, fun hm => ?_⟩
  have hsize : (21, 120) = content.dims := (hm content hcontent).2 _ hasked _ rfl
  rw [hdims] at hsize
  cases hsize

end Tepegoz
