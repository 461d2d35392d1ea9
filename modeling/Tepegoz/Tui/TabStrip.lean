import Tepegoz.Tui.HandleEvent

namespace Tepegoz

/-- How many cells a text takes on the screen: one for a printable ASCII character and for the
multiplication sign of the close mark. -/
structure DisplayWidth where
  cells : String → Nat
  ascii : ∀ s : String, (∀ c ∈ s.toList, 0x20 ≤ c.toNat ∧ c.toNat ≤ 0x7e) → cells s = s.toList.length
  closeMark : cells "[×]" = 3

inductive StripPart
  | tab (idx : Nat)
  | separator
  | overflow
  | close
  deriving DecidableEq

/-- What a click on a part of the strip is for. -/
def StripPart.hit : StripPart → Option TabStripHit
  | .tab idx => some (.tab idx)
  | .close => some .closeActive
  | .separator | .overflow => none

def tabText (active i : Nat) (entry : PaneEntry) : String :=
  let star := if i = active then "*" else ""
  s!"[{i + 1} {entry.label}{star}]"

def tabSpans (active : Nat) : Nat → List PaneEntry → List (StripPart × String)
  | _, [] => []
  | i, entry :: entries =>
    (.tab i, tabText active i entry) :: (.separator, " ") :: tabSpans active (i + 1) entries

def closeSpans (panes : List PaneEntry) : List (StripPart × String) :=
  let overflow := panes.length - maxTabDigitSlots
  (if 0 < overflow then [(.overflow, "[+" ++ toString overflow ++ "]"), (.separator, " ")] else []) ++
    if panes = [] then [] else [(.close, "[×]")]

def renderTabStrip (panes : List PaneEntry) (active : Nat) : List (StripPart × String) :=
  tabSpans active 0 (panes.take maxTabDigitSlots) ++ closeSpans panes

namespace DisplayWidth

variable (d : DisplayWidth)

/-- The columns that the spans take together. -/
def total : List (StripPart × String) → Nat
  | [] => 0
  | span :: spans => d.cells span.2 + total spans

/-- The part that draws column `x`, of spans that begin at `col`. -/
def partAt (col x : Nat) : List (StripPart × String) → Option StripPart
  | [] => none
  | span :: spans =>
    if col ≤ x ∧ x < col + d.cells span.2 then some span.1 else partAt (col + d.cells span.2) x spans

/-- The part of the tab strip that is drawn at column `x`. -/
def drawnAt (panes : List PaneEntry) (active : Nat) (strip : Rect) (x : Nat) : Option StripPart :=
  if strip.height = 0 then none else d.partAt strip.x x (renderTabStrip panes active)

/-- A tab is drawn in as many cells as its characters are counted for. -/
def CountsCells (active i : Nat) (entry : PaneEntry) : Prop :=
  d.cells (tabText active i entry) = tabCells active i entry

end DisplayWidth

/-- The hit test from the tab with index `i` on, which begins at `col`. -/
def hitFrom (panes : List PaneEntry) (active stripEnd x i col : Nat) (entries : List PaneEntry) :
    Option TabStripHit :=
  match hitTab active stripEnd x i col entries with
  | (_, some hit) => some hit
  | (col, none) => hitClose panes stripEnd x col

/-- The close mark is the last of the spans. -/
theorem closeSpans_append {panes : List PaneEntry} (hp : panes ≠ [])
    (spans : List (StripPart × String)) :
    ∃ front, spans ++ closeSpans panes = front ++ [(.close, "[×]")] := by
  unfold closeSpans
  rw [if_neg hp, ← List.append_assoc]
  exact ⟨_, rfl⟩

section Hits

variable {panes entries : List PaneEntry} {entry : PaneEntry} {active stripEnd x i col : Nat}

theorem hitFrom_cons : hitFrom panes active stripEnd x i col (entry :: entries) =
    if col ≤ x ∧ x < tabEnd active i col entry ∧ tabEnd active i col entry ≤ stripEnd then
      some (.tab i)
    else hitFrom panes active stripEnd x (i + 1) (min (tabEnd active i col entry + 1) u16Max)
      entries := by
  unfold hitFrom
  rw [hitTab]
  by_cases h : col ≤ x ∧ x < tabEnd active i col entry ∧ tabEnd active i col entry ≤ stripEnd
  · rw [if_pos h, if_pos h]
  · rw [if_neg h, if_neg h]

theorem hitClose_eq_none (h : x < col ∨ stripEnd < col) (hcol : col ≤ u16Max) :
    hitClose panes stripEnd x col = none := by
  refine if_neg ?_
  rintro ⟨-, hx, hlt, hle⟩
  split at hx
  next hover =>
    rw [if_pos hover] at hlt hle
    omega
  next hover =>
    rw [if_neg hover] at hlt hle
    omega

/-- Nothing is hit to the left of where the test begins, nor by a tab or mark that would begin behind
the end of the strip. -/
theorem hitFrom_eq_none (h : x < col ∨ stripEnd < col) (hcol : col ≤ u16Max) :
    hitFrom panes active stripEnd x i col entries = none := by
  induction entries generalizing i col with
  | nil => exact hitClose_eq_none h hcol
  | cons entry entries ih =>
    have hend : col ≤ tabEnd active i col entry := by
      unfold tabEnd
      omega
    rw [hitFrom_cons, if_neg (by omega)]
    exact ih (by omega) (by omega)

end Hits

namespace DisplayWidth

variable {d : DisplayWidth} {panes : List PaneEntry} {spans rest : List (StripPart × String)}
  {stripEnd x col : Nat}

theorem cells_separator : d.cells " " = 1 := d.ascii " " (by simp)

theorem cells_counter (n : Nat) :
    d.cells ("[+" ++ toString n ++ "]") = ("[+" ++ toString n ++ "]").toList.length := by
  refine d.ascii _ fun c hc => ?_
  rw [String.toList_append, String.toList_append, List.mem_append, List.mem_append,
    Nat.toString_eq_ofList_toDigits] at hc
  rcases hc with (hopen | hdigit) | hclose
  · rcases (show c = '[' ∨ c = '+' by simpa using hopen) with rfl | rfl <;> decide
  · rw [String.toList_ofList] at hdigit
    have hd : c.isDigit = true := Nat.isDigit_of_mem_toDigits (b := 10) (by decide) (by decide) hdigit
    have hrange : 48 ≤ c.toNat ∧ c.toNat ≤ 57 := Char.isDigit_iff_toNat.mp hd
    omega
  · obtain rfl : c = ']' := by simpa using hclose
    decide

theorem partAt_eq_none (h : x < col) : d.partAt col x spans = none := by
  induction spans generalizing col with
  | nil => rfl
  | cons span spans ih =>
    rw [partAt, if_neg (by omega)]
    exact ih (by omega)

theorem partAt_append (h : col + d.total spans ≤ x) :
    d.partAt col x (spans ++ rest) = d.partAt (col + d.total spans) x rest := by
  induction spans generalizing col with
  | nil => rfl
  | cons span spans ih =>
    rw [total] at h ⊢
    rw [List.cons_append, partAt, if_neg (by omega), ih (by omega), Nat.add_assoc]

@[simp] theorem total_append : d.total (spans ++ rest) = d.total spans + d.total rest := by
  induction spans with
  | nil => simp [total]
  | cons span spans ih => simp [total, ih, Nat.add_assoc]

theorem exists_close (hp : panes ≠ []) (col : Nat) (spans : List (StripPart × String)) :
    ∃ x, d.partAt col x (spans ++ closeSpans panes) = some .close := by
  obtain ⟨front, hfront⟩ := closeSpans_append hp spans
  refine ⟨col + d.total front, ?_⟩
  rw [hfront, partAt_append (Nat.le_refl _), partAt, if_pos (by rw [d.closeMark]; omega)]

/-- The counter and the close mark are hit where they are drawn. -/
theorem hitClose_eq (hwide : col + d.total (closeSpans panes) ≤ stripEnd) (hend : stripEnd ≤ u16Max) :
    hitClose panes stripEnd x col = (d.partAt col x (closeSpans panes)).bind StripPart.hit := by
  by_cases hp : panes = []
  · subst hp
    rfl
  unfold hitClose closeSpans at *
  generalize panes.length - maxTabDigitSlots = overflow at *
  have hmark := d.closeMark
  have hfits : ∀ c, c + 3 ≤ stripEnd → (panes ≠ [] ∧ c ≤ x ∧ x < min (c + closeAffordanceWidth) u16Max ∧
      min (c + closeAffordanceWidth) u16Max ≤ stripEnd ↔ c ≤ x ∧ x < c + 3) := by
    intro c hc
    unfold closeAffordanceWidth
    rw [Nat.min_eq_left (by omega), and_iff_right hp]
    omega
  by_cases ho : 0 < overflow
  · have hcounter := cells_counter (d := d) overflow
    have hsep := cells_separator (d := d)
    simp only [ho, hp, ↓reduceIte, List.cons_append, List.nil_append, total, partAt, hmark, hsep,
      hcounter] at hwide ⊢
    generalize ("[+" ++ toString overflow ++ "]").toList.length = counter at *
    rw [Nat.mod_eq_of_lt (by omega), Nat.min_eq_left (by omega), Nat.min_eq_left (by omega),
      if_congr (hfits _ (by omega)) rfl rfl]
    by_cases hcount : col ≤ x ∧ x < col + counter
    · rw [if_pos hcount, if_neg (by omega)]
      rfl
    · rw [if_neg hcount]
      by_cases hspace : col + counter ≤ x ∧ x < col + counter + 1
      · rw [if_pos hspace, if_neg (by omega)]
        rfl
      · rw [if_neg hspace]
        split <;> rfl
  · simp only [ho, hp, ↓reduceIte, List.nil_append, total, partAt, hmark] at hwide ⊢
    rw [if_congr (hfits _ (by omega)) rfl rfl]
    split <;> rfl

/-- A click on what is drawn from `col` on: the tab that begins there or what comes after it. -/
theorem drawn_cons {entries : List PaneEntry} {entry : PaneEntry} {active i : Nat} :
    (d.partAt col x (tabSpans active i (entry :: entries) ++ rest)).bind StripPart.hit =
      if col ≤ x ∧ x < col + d.cells (tabText active i entry) then some (.tab i)
      else (d.partAt (col + d.cells (tabText active i entry) + 1) x
        (tabSpans active (i + 1) entries ++ rest)).bind StripPart.hit := by
  rw [tabSpans, List.cons_append, List.cons_append, partAt, partAt, cells_separator]
  by_cases htab : col ≤ x ∧ x < col + d.cells (tabText active i entry)
  · rw [if_pos htab, if_pos htab]
    rfl
  · rw [if_neg htab, if_neg htab]
    -- a click on the separator hits nothing
    by_cases hspace : col + d.cells (tabText active i entry) ≤ x ∧
        x < col + d.cells (tabText active i entry) + 1
    · rw [if_pos hspace, partAt_eq_none hspace.2]
      rfl
    · rw [if_neg hspace]

section Tabs

variable {entries : List PaneEntry} {entry : PaneEntry} {active i : Nat}

/-- A tab that is counted wrongly is hit where it is not drawn, or not hit where it is, or nothing
behind it is hit any more. -/
theorem exists_miss (hp : panes ≠ [])
    (hwide : col + d.cells (tabText active i entry) + 1 ≤ stripEnd) (hend : stripEnd ≤ u16Max)
    (hcount : ¬ d.CountsCells active i entry) :
    ∃ x, hitFrom panes active stripEnd x i col (entry :: entries) ≠
      (d.partAt col x (tabSpans active i (entry :: entries) ++ closeSpans panes)).bind
        StripPart.hit := by
  unfold CountsCells at hcount
  have hlast : tabEnd active i col entry = min (col + tabCells active i entry) u16Max := rfl
  by_cases hfits : tabEnd active i col entry ≤ stripEnd
  · by_cases hless : d.cells (tabText active i entry) < tabCells active i entry
    · refine ⟨col + d.cells (tabText active i entry), ?_⟩
      rw [hitFrom_cons, drawn_cons, if_pos (by omega), if_neg (by omega),
        partAt_eq_none (by omega)]
      exact Option.some_ne_none _
    · refine ⟨col + tabCells active i entry, ?_⟩
      rw [hitFrom_cons, drawn_cons, if_neg (by omega), if_pos (by omega),
        hitFrom_eq_none (by omega) (by omega)]
      exact (Option.some_ne_none _).symm
  · obtain ⟨x, hx⟩ := exists_close (d := d) hp col (tabSpans active i (entry :: entries))
    refine ⟨x, ?_⟩
    rw [hitFrom_cons, if_neg (by omega), hitFrom_eq_none (by omega) (by omega), hx]
    exact (Option.some_ne_none _).symm

theorem hits_iff (hp : entries ≠ [] → panes ≠ [])
    (hwide : col + d.total (tabSpans active i entries ++ closeSpans panes) ≤ stripEnd)
    (hend : stripEnd ≤ u16Max) :
    (∀ x, hitFrom panes active stripEnd x i col entries =
      (d.partAt col x (tabSpans active i entries ++ closeSpans panes)).bind StripPart.hit) ↔
    ∀ k entry, entries[k]? = some entry → d.CountsCells active (i + k) entry := by
  induction entries generalizing i col with
  | nil =>
    refine ⟨fun _ k entry hk => ?_, fun _ x => ?_⟩
    · simp at hk
    · exact hitClose_eq hwide hend
  | cons entry entries ih =>
    have hpanes := hp (List.cons_ne_nil _ _)
    have hfirst : col + d.cells (tabText active i entry) + 1 +
        d.total (tabSpans active (i + 1) entries ++ closeSpans panes) ≤ stripEnd := by
      simp only [tabSpans, List.cons_append, total, cells_separator] at hwide
      omega
    by_cases hcount : d.CountsCells active i entry
    · have hlast : tabEnd active i col entry = col + d.cells (tabText active i entry) := by
        rw [hcount, tabEnd]
        rw [hcount] at hfirst
        omega
      have hnext : min (tabEnd active i col entry + 1) u16Max =
          col + d.cells (tabText active i entry) + 1 := by omega
      -- the cells of this tab are of no account behind it
      have hstep : ∀ x, hitFrom panes active stripEnd x i col (entry :: entries) =
            (d.partAt col x (tabSpans active i (entry :: entries) ++ closeSpans panes)).bind
              StripPart.hit ↔
          hitFrom panes active stripEnd x (i + 1) (col + d.cells (tabText active i entry) + 1)
              entries =
            (d.partAt (col + d.cells (tabText active i entry) + 1) x
              (tabSpans active (i + 1) entries ++ closeSpans panes)).bind StripPart.hit := by
        intro x
        rw [hitFrom_cons, drawn_cons, hnext]
        by_cases htab : col ≤ x ∧ x < col + d.cells (tabText active i entry)
        · rw [if_pos (by omega), if_pos htab, hitFrom_eq_none (by omega) (by omega),
            partAt_eq_none (by omega)]
          exact iff_of_true rfl rfl
        · rw [if_neg (by omega), if_neg htab]
      rw [forall_congr' hstep, ih (fun _ => hpanes) hfirst]
      constructor
      · rintro h (_ | k) other hk
        · cases hk
          exact hcount
        · rw [Nat.add_comm k 1, ← Nat.add_assoc]
          exact h k other hk
      · intro h k other hk
        rw [Nat.add_assoc, Nat.add_comm 1 k]
        exact h (k + 1) other hk
    · refine ⟨fun h => ?_, fun h => absurd (h 0 entry rfl) hcount⟩
      have hle : col + d.cells (tabText active i entry) + 1 ≤ stripEnd := by omega
      obtain ⟨x, hx⟩ := exists_miss hpanes hle hend hcount
      exact absurd (h x) hx

end Tabs

end DisplayWidth

/-- In a strip that is wide enough for what is drawn, a click hits what is drawn under it if and only
if the strip is not drawn or each tab that is shown takes as many cells as it is counted for. -/
theorem tab_strip_hits (d : DisplayWidth) (panes : List PaneEntry) (active : Nat) (strip : Rect)
    (hwide : d.total (renderTabStrip panes active) ≤ strip.width) :
    (∀ x, hitTestTabStrip panes active strip x =
      (d.drawnAt panes active strip x).bind StripPart.hit) ↔
    strip.height = 0 ∨ ∀ i entry, (panes.take maxTabDigitSlots)[i]? = some entry →
      d.CountsCells active i entry := by
  have hright := strip.right_le
  by_cases hflat : strip.height = 0
  · refine ⟨fun _ => .inl hflat, fun _ x => ?_⟩
    rw [hitTestTabStrip, if_pos (.inl hflat), DisplayWidth.drawnAt, if_pos hflat]
    rfl
  have hpanes : panes.take maxTabDigitSlots ≠ [] → panes ≠ [] := by
    rintro h rfl
    exact h rfl
  have hfrom : ∀ x, hitTestTabStrip panes active strip x =
      hitFrom panes active (strip.x + strip.width) x 0 strip.x (panes.take maxTabDigitSlots) := by
    intro x
    unfold hitTestTabStrip
    by_cases hnarrow : strip.width = 0
    · obtain rfl : panes = [] := by
        by_contra hp
        obtain ⟨front, hfront⟩ := closeSpans_append hp (tabSpans active 0 (panes.take maxTabDigitSlots))
        rw [renderTabStrip, hfront, DisplayWidth.total_append] at hwide
        simp only [DisplayWidth.total, d.closeMark] at hwide
        omega
      rw [if_pos (.inr hnarrow)]
      rfl
    · rw [if_neg (not_or.mpr ⟨hflat, hnarrow⟩)]
      rfl
  have hfits : strip.x + d.total (tabSpans active 0 (panes.take maxTabDigitSlots) ++ closeSpans panes) ≤
      strip.x + strip.width := Nat.add_le_add_left hwide strip.x
  have hiff := DisplayWidth.hits_iff hpanes hfits hright
  simp only [Nat.zero_add] at hiff
  rw [or_iff_right hflat, ← hiff]
  refine forall_congr' fun x => ?_
  rw [hfrom, DisplayWidth.drawnAt, if_neg hflat]
  exact Iff.rfl

/-- Combining marks take no cell; the characters of East Asian scripts take two. -/
def charCells (c : Char) : Nat :=
  let n := c.toNat
  if 0x300 ≤ n ∧ n ≤ 0x36f then 0
  else if (0x1100 ≤ n ∧ n ≤ 0x115f) ∨ (0x2e80 ≤ n ∧ n ≤ 0xa4cf) ∨ (0xac00 ≤ n ∧ n ≤ 0xd7a3) ∨
    (0xff01 ≤ n ∧ n ≤ 0xff60) then 2
  else 1

theorem foldl_charCells_ascii {text : List Char} (h : ∀ c ∈ text, 0x20 ≤ c.toNat ∧ c.toNat ≤ 0x7e)
    (n : Nat) : text.foldl (fun n c => n + charCells c) n = n + text.length := by
  induction text generalizing n with
  | nil => rfl
  | cons c text ih =>
    obtain ⟨hc, htext⟩ := List.forall_mem_cons.mp h
    have hone : charCells c = 1 := by
      simp only [charCells]
      rw [if_neg (by omega), if_neg (by omega)]
    rw [List.foldl_cons, ih htext, hone, List.length_cons]
    omega

def DisplayWidth.eastAsian : DisplayWidth where
  cells s := s.toList.foldl (fun n c => n + charCells c) 0
  ascii s h := (foldl_charCells_ascii h 0).trans (Nat.zero_add _)
  closeMark := by decide

theorem tab_strip_hits_two :
    hitTestTabStrip [⟨1, 2, "zsh", ⟨24, 80, []⟩⟩, ⟨2, 3, "top", ⟨24, 80, []⟩⟩] 0 (.new 0 0 40 1) 10 =
      some (.tab 1) := by
  rw [(tab_strip_hits .eastAsian [⟨1, 2, "zsh", ⟨24, 80, []⟩⟩, ⟨2, 3, "top", ⟨24, 80, []⟩⟩] 0
    (.new 0 0 40 1) (by decide)).mpr (.inr ?_) 10]
  · decide
  · rintro (_ | _ | i) entry h
    · cases h
      show _ = _
      decide
    · cases h
      show _ = _
      decide
    · simp [maxTabDigitSlots] at h

/-- Two characters of two cells each: the last cell of the tab closes the pane. -/
theorem wide_label_closed : ¬ ∀ (d : DisplayWidth) (panes : List PaneEntry) (active : Nat)
    (strip : Rect), d.total (renderTabStrip panes active) ≤ strip.width →
      ∀ x, hitTestTabStrip panes active strip x =
        (d.drawnAt panes active strip x).bind StripPart.hit := by
  intro h
  have hx := h .eastAsian [⟨1, 2, "日本", ⟨24, 80, []⟩⟩] 0 (.new 0 0 40 1) (by decide) 8
  revert hx
  decide

end Tepegoz
