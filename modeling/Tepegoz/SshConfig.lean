import Mathlib.Data.Finset.Insert
import Tepegoz.Lib.Text

namespace Tepegoz

open Lines Text

/-- A token of a `Host` line is taken unless it is a pattern or the negation of one. -/
def insertAlias (aliases : Finset (List Char)) (token : List Char) : Finset (List Char) :=
  if '*' ∈ token ∨ '?' ∈ token then aliases
  else if token.head? = some '!' then aliases
  else if token = [] then aliases
  else insert token aliases

/-- What a turn does after slicing off four bytes. The byte at 4 is the first of the character
behind them. -/
def takeHostTokens (aliases : Finset (List Char)) (trimmed keyword behind : List Char) :
    Option (Finset (List Char)) :=
  if ¬ eqIgnoreAsciiCase keyword "host".toList ∨ ¬ behind.head?.any isAsciiWhitespace then
    some aliases
  else (splitAtByte 5 trimmed).map fun cut => (splitWhitespace cut.2).foldl insertAlias aliases

/-- One turn of the loop over the lines; `none` stands for the panic of a slice. -/
def scanHostLine (aliases : Finset (List Char)) (line : List Char) : Option (Finset (List Char)) :=
  let trimmed := trim line
  if trimmed = [] ∨ trimmed.head? = some '#' then some aliases
  else if byteLen trimmed < 5 then some aliases
  else (splitAtByte 4 trimmed).bind fun cut => takeHostTokens aliases trimmed cut.1 cut.2

/-- The scan of `parse_all_ssh_config`, before the hosts are resolved one by one. -/
def parseAllSshConfigAliases (raw : List Char) : Option (Finset (List Char)) :=
  (lines raw).foldlM scanHostLine ∅

/-- The line, trimmed, is the keyword `Host`, one white space and the patterns. -/
def HostLine (line patterns : List Char) : Prop :=
  (trim line).head? ≠ some '#' ∧ ∃ keyword space, trim line = keyword ++ space :: patterns ∧
    eqIgnoreAsciiCase keyword "host".toList = true ∧ isAsciiWhitespace space = true

def LineAlias (line name : List Char) : Prop :=
  ∃ patterns, HostLine line patterns ∧ name ∈ splitWhitespace patterns ∧
    ('*' ∉ name ∧ '?' ∉ name) ∧ name.head? ≠ some '!'

/-- No character of the trimmed line lies across its fourth byte, if the line is looked at that
far. -/
def Sliceable (line : List Char) : Prop :=
  trim line = [] ∨ (trim line).head? = some '#' ∨ byteLen (trim line) < 5 ∨
    ∃ start behind, trim line = start ++ behind ∧ byteLen start = 4

section Aliases

variable {aliases : Finset (List Char)} {line patterns name : List Char}

theorem mem_foldl_insertAlias {tokens : List (List Char)} : name ∈ tokens.foldl insertAlias aliases ↔
    name ∈ aliases ∨
      (name ∈ tokens ∧ name ≠ []) ∧ ('*' ∉ name ∧ '?' ∉ name) ∧ name.head? ≠ some '!' := by
  induction tokens generalizing aliases with
  | nil => simp
  | cons token tokens ih =>
    rw [List.foldl_cons, ih, insertAlias]
    by_cases hpattern : '*' ∈ token ∨ '?' ∈ token
    · grind
    · by_cases hneg : token.head? = some '!'
      · grind
      · by_cases hempty : token = []
        · grind
        · grind

theorem ne_nil_of_mem_splitWhitespace (h : name ∈ splitWhitespace patterns) : name ≠ [] := by
  simpa using (List.mem_filter.mp h).2

/-- The keyword takes four bytes and the white space one. -/
theorem HostLine.cut (h : HostLine line patterns) : ∃ keyword space,
    splitAtByte 4 (trim line) = some (keyword, space :: patterns) ∧
    splitAtByte 5 (trim line) = some (keyword ++ [space], patterns) ∧
    eqIgnoreAsciiCase keyword "host".toList = true ∧ isAsciiWhitespace space = true := by
  obtain ⟨-, keyword, space, htrim, hkey, hspace⟩ := h
  have hfour : byteLen keyword = 4 := byteLen_of_eqIgnoreAsciiCase hkey
  have hone : space.utf8Size = 1 := by
    simp only [isAsciiWhitespace, Bool.or_eq_true, decide_eq_true_eq] at hspace
    rcases hspace with (((rfl | rfl) | rfl) | rfl) | rfl <;> rfl
  refine ⟨keyword, space, splitAtByte_eq_some.mpr ⟨htrim, hfour⟩,
    splitAtByte_eq_some.mpr ⟨by rw [htrim]; simp, ?_⟩, hkey, hspace⟩
  rw [byteLen_append, hfour, byteLen, byteLen, hone]

theorem HostLine.not_skipped (h : HostLine line patterns) :
    ¬ (trim line = [] ∨ (trim line).head? = some '#') ∧ ¬ byteLen (trim line) < 5 := by
  obtain ⟨keyword, space, -, hcut, -, -⟩ := h.cut
  obtain ⟨htrim, hfive⟩ := eq_of_splitAtByte hcut
  refine ⟨?_, ?_⟩
  · rintro (hnil | hcomment)
    · rw [hnil] at htrim
      simp at htrim
    · exact h.1 hcomment
  · rw [htrim, byteLen_append, hfive]
    omega

/-- On a line without `Host` nothing is added. -/
theorem no_alias_of_skipped
    (h : (trim line = [] ∨ (trim line).head? = some '#') ∨ byteLen (trim line) < 5) :
    ¬ LineAlias line name := by
  rintro ⟨patterns, hl, -⟩
  exact h.elim hl.not_skipped.1 hl.not_skipped.2

theorem scanHostLine_unsliceable (h : ¬ Sliceable line) : scanHostLine aliases line = none := by
  obtain ⟨hnil, h⟩ := not_or.mp h
  obtain ⟨hcomment, h⟩ := not_or.mp h
  obtain ⟨hlong, hcut⟩ := not_or.mp h
  have hnone : splitAtByte 4 (trim line) = none := by
    rw [Option.eq_none_iff_forall_ne_some]
    rintro ⟨start, behind⟩ hs
    exact hcut ⟨start, behind, splitAtByte_eq_some.mp hs⟩
  unfold scanHostLine
  rw [if_neg (not_or.mpr ⟨hnil, hcomment⟩), if_neg hlong, hnone]
  rfl

/-- What lies behind the keyword decides which tokens there are. -/
theorem HostLine.lineAlias_iff (h : HostLine line patterns) : LineAlias line name ↔
    name ∈ splitWhitespace patterns ∧ ('*' ∉ name ∧ '?' ∉ name) ∧ name.head? ≠ some '!' := by
  refine ⟨?_, fun hn => ⟨patterns, h, hn⟩⟩
  rintro ⟨patterns', h', hn⟩
  obtain ⟨_, _, -, hcut, -, -⟩ := h.cut
  obtain ⟨_, _, -, hcut', -, -⟩ := h'.cut
  obtain ⟨-, rfl⟩ := Prod.mk.inj (Option.some.inj (hcut.symm.trans hcut'))
  exact hn

theorem HostLine.takeHostTokens_eq (h : HostLine line patterns) {keyword behind : List Char}
    (hcut : splitAtByte 4 (trim line) = some (keyword, behind)) :
    takeHostTokens aliases (trim line) keyword behind =
      some ((splitWhitespace patterns).foldl insertAlias aliases) := by
  obtain ⟨_, space, hcut', hfive, hkey, hspace⟩ := h.cut
  obtain ⟨rfl, rfl⟩ := Prod.mk.inj (Option.some.inj (hcut.symm.trans hcut'))
  have hhead : (space :: patterns).head?.any isAsciiWhitespace = true := hspace
  rw [takeHostTokens, if_neg (not_or.mpr ⟨not_not.mpr hkey, not_not.mpr hhead⟩), hfive]
  rfl

theorem takeHostTokens_other {keyword behind : List Char} (htrim : trim line = keyword ++ behind)
    (hcomment : (trim line).head? ≠ some '#') (h : ∀ patterns, ¬ HostLine line patterns) :
    takeHostTokens aliases (trim line) keyword behind = some aliases := by
  refine if_pos ?_
  by_contra hboth
  obtain ⟨hkey, hspace⟩ := not_or.mp hboth
  obtain ⟨space, hhead, hblank⟩ := (Option.any_eq_true ..).mp (not_not.mp hspace)
  obtain ⟨patterns, rfl⟩ := List.head?_eq_some_iff.mp hhead
  exact h patterns ⟨hcomment, keyword, space, htrim, not_not.mp hkey, hblank⟩

/-- A line that can be sliced adds its aliases. -/
theorem scanHostLine_sliceable (aliases : Finset (List Char)) (h : Sliceable line) :
    ∃ found, scanHostLine aliases line = some found ∧
      ∀ name, name ∈ found ↔ name ∈ aliases ∨ LineAlias line name := by
  unfold scanHostLine
  by_cases hskip : trim line = [] ∨ (trim line).head? = some '#'
  · refine ⟨aliases, if_pos hskip, fun name => ?_⟩
    simp [no_alias_of_skipped (.inl hskip)]
  by_cases hshort : byteLen (trim line) < 5
  · refine ⟨aliases, by rw [if_neg hskip, if_pos hshort], fun name => ?_⟩
    simp [no_alias_of_skipped (.inr hshort)]
  obtain ⟨hnil, hcomment⟩ := not_or.mp hskip
  obtain ⟨keyword, behind, htrim, hfour⟩ :=
    ((h.resolve_left hnil).resolve_left hcomment).resolve_left hshort
  have hcut := splitAtByte_eq_some.mpr ⟨htrim, hfour⟩
  rw [if_neg hskip, if_neg hshort, hcut, Option.bind_some]
  by_cases hhost : ∃ patterns, HostLine line patterns
  · obtain ⟨patterns, hhost⟩ := hhost
    refine ⟨_, hhost.takeHostTokens_eq hcut, fun name => ?_⟩
    rw [mem_foldl_insertAlias, hhost.lineAlias_iff]
    exact or_congr_right (and_congr_left fun _ => and_iff_left_of_imp ne_nil_of_mem_splitWhitespace)
  · have hother := not_exists.mp hhost
    refine ⟨aliases, takeHostTokens_other htrim hcomment hother, fun name => ?_⟩
    simp only [iff_self_or]
    rintro ⟨patterns, hl, -⟩
    exact absurd hl (hother patterns)

/-- The loop returns what its lines add, if it can slice all of them. -/
theorem foldlM_scanHostLine (aliases : Finset (List Char)) {rest : List (List Char)} :
    (∃ found, rest.foldlM scanHostLine aliases = some found ∧
      ∀ name, name ∈ found ↔ name ∈ aliases ∨ ∃ line ∈ rest, LineAlias line name) ↔
    ∀ line ∈ rest, Sliceable line := by
  induction rest generalizing aliases with
  | nil =>
    refine ⟨fun _ line hl => absurd hl List.not_mem_nil, fun _ => ⟨aliases, rfl, fun name => ?_⟩⟩
    simp
  | cons line rest ih =>
    rw [List.foldlM_cons, List.forall_mem_cons]
    by_cases hline : Sliceable line
    · obtain ⟨found, hscan, hfound⟩ := scanHostLine_sliceable aliases hline
      rw [hscan, Option.bind_eq_bind, Option.bind_some, and_iff_right hline, ← ih found]
      refine exists_congr fun result => and_congr_right fun _ => forall_congr' fun name => ?_
      rw [hfound, List.exists_mem_cons_iff, or_assoc]
    · rw [scanHostLine_unsliceable hline]
      refine ⟨?_, fun h => absurd h.1 hline⟩
      rintro ⟨found, hnone, -⟩
      cases hnone

end Aliases

/-- The scan returns the names of the `Host` lines, and does not panic, for exactly the texts in which
every line that it looks into has a character boundary at its fourth byte. -/
theorem host_scan_exact (raw : List Char) :
    (∃ found, parseAllSshConfigAliases raw = some found ∧
      ∀ name, name ∈ found ↔ ∃ line ∈ lines raw, LineAlias line name) ↔
    ∀ line ∈ lines raw, Sliceable line := by
  rw [← foldlM_scanHostLine ∅]
  refine exists_congr fun found => and_congr_right fun _ => forall_congr' fun name => ?_
  simp

/-- The word begins with three letters of one byte, and the fourth takes two. -/
theorem accented_line_panics : ¬ ∀ raw, ∃ found, parseAllSshConfigAliases raw = some found ∧
    ∀ name, name ∈ found ↔ ∃ line ∈ lines raw, LineAlias line name := by
  intro h
  obtain ⟨found, hscan, -⟩ := h "Café 1\nHost a".toList
  have hnone : parseAllSshConfigAliases "Café 1\nHost a".toList = none := by decide
  rw [hnone] at hscan
  cases hscan

end Tepegoz
