import Mathlib.Data.List.Nodup

/-! A selected row of a list, and where it is found again after the list was updated. A list with its
selection is a pair of the rows and an index. -/

namespace Selection

variable {Row Ident Key : Type}

/-- If the row that was selected is still listed, it is the selected one. -/
def Follows (ident : Row → Ident) (before after : List Row × Nat) : Prop :=
  ∀ r ∈ before.1[before.2]?, (∃ v ∈ after.1, ident v = ident r) →
    ∃ v ∈ after.1[after.2]?, ident v = ident r

/-- The row that was selected is listed at `pos`, if anywhere. -/
def StaysAt (ident : Row → Ident) (before : List Row × Nat) (rows : List Row) (pos : Nat) : Prop :=
  ∀ r ∈ before.1[before.2]?, ∀ k v, rows[k]? = some v → ident v = ident r → k = pos

/-- No row that is listed before the one that was selected has its key. -/
def LeadsItsKey (ident : Row → Ident) (keyOf : Row → Key) (before : List Row × Nat)
    (rows : List Row) : Prop :=
  ∀ r ∈ before.1[before.2]?, ∀ (k : Nat) (v : Row), rows[k]? = some v → ident v = ident r →
    ∀ (j : Nat) (w : Row), j < k → rows[j]? = some w → keyOf w ≠ keyOf r

variable {ident : Row → Ident} {before : List Row × Nat} {rows : List Row}

theorem eq_of_ident (hdistinct : (rows.map ident).Nodup) {i j : Nat} {v w : Row}
    (hv : rows[i]? = some v) (hw : rows[j]? = some w) (h : ident v = ident w) : i = j := by
  have hvi : (rows.map ident)[i]? = some (ident w) := by simp [hv, h]
  have hwj : (rows.map ident)[j]? = some (ident w) := by simp [hw]
  exact (List.getElem?_inj (List.getElem?_eq_some_iff.mp hvi).1 hdistinct).mp (hvi.trans hwj.symm)

theorem follows_iff_staysAt (hdistinct : (rows.map ident).Nodup) (pos : Nat) :
    Follows ident before (rows, pos) ↔ StaysAt ident before rows pos := by
  constructor
  · intro h r hr k v hv hid
    obtain ⟨w, hw, hwid⟩ := h r hr ⟨v, List.mem_of_getElem? hv, hid⟩
    exact eq_of_ident hdistinct hv hw (hid.trans hwid.symm)
  · intro h r hr hlisted
    obtain ⟨v, hv, hid⟩ := hlisted
    obtain ⟨k, hk⟩ := List.mem_iff_getElem?.mp hv
    have hpos : k = pos := h r hr k v hk hid
    exact ⟨v, hpos ▸ hk, hid⟩

/-- When rows that share a key are the same row, each leads its key. -/
theorem leads_of_key {keyOf : Row → Key} (hdistinct : (rows.map ident).Nodup)
    (hident : ∀ v w, keyOf v = keyOf w → ident v = ident w) :
    LeadsItsKey ident keyOf before rows := by
  intro r _ k v hv hid j w hj hw hkey
  have heq : k = j := eq_of_ident hdistinct hv hw (hid.trans (hident _ _ hkey).symm)
  omega

/-- In a list that did not change only the same index follows the row. -/
theorem follows_self (hdistinct : (rows.map ident).Nodup) {i j : Nat} (hi : i ≤ rows.length - 1)
    (hj : j ≤ rows.length - 1) : Follows ident (rows, i) (rows, j) ↔ j = i := by
  rw [follows_iff_staysAt hdistinct]
  constructor
  · intro h
    by_cases hempty : rows.length = 0
    · omega
    · have hrow : rows[i]? = some (rows.get ⟨i, by omega⟩) := List.getElem?_eq_getElem (by omega)
      exact (h _ hrow i _ hrow rfl).symm
  · rintro rfl r hr k v hv hid
    exact eq_of_ident hdistinct hv hr hid

variable [DecidableEq Key] {keyOf : Row → Key}

/-- The first row with the key of `r` is `r` when no earlier one has that key. -/
theorem findIdx?_leads {r v : Row} {k : Nat} (hv : rows[k]? = some v) (hkey : keyOf v = keyOf r) :
    rows.findIdx? (keyOf · = keyOf r) = some k ↔
      ∀ j w, j < k → rows[j]? = some w → keyOf w ≠ keyOf r := by
  obtain ⟨hlt, rfl⟩ := List.getElem?_eq_some_iff.mp hv
  rw [List.findIdx?_eq_some_iff_getElem]
  constructor
  · rintro ⟨_, -, hfirst⟩ j w hj hw
    obtain ⟨hjlt, rfl⟩ := List.getElem?_eq_some_iff.mp hw
    have hnot := hfirst j hj
    simpa using hnot
  · intro h
    refine ⟨hlt, decide_eq_true hkey, fun j hj => ?_⟩
    have hne := h j _ hj (List.getElem?_eq_getElem (by omega))
    simpa using hne

theorem findIdx?_isSome {r v : Row} {k : Nat} (hv : rows[k]? = some v) (hkey : keyOf v = keyOf r) :
    ∃ idx, rows.findIdx? (keyOf · = keyOf r) = some idx := by
  refine Option.isSome_iff_exists.mp (List.findIdx?_isSome.trans ?_)
  exact List.any_eq_true.mpr ⟨v, List.mem_of_getElem? hv, decide_eq_true hkey⟩

/-- Going by a key that does not tell all rows apart finds the row that was selected unless one with the
same key is listed before it. -/
theorem follows_iff_leads (hdistinct : (rows.map ident).Nodup)
    (hkey : ∀ v w, ident v = ident w → keyOf v = keyOf w) {pos : Nat}
    (hpos : ∀ r ∈ before.1[before.2]?, ∀ idx, rows.findIdx? (keyOf · = keyOf r) = some idx → pos = idx) :
    Follows ident before (rows, pos) ↔ LeadsItsKey ident keyOf before rows := by
  rw [follows_iff_staysAt hdistinct]
  constructor
  · intro h r hr k v hv hid
    obtain ⟨idx, hidx⟩ := findIdx?_isSome hv (hkey _ _ hid)
    have hk : k = idx := (h r hr k v hv hid).trans (hpos r hr idx hidx)
    subst hk
    exact (findIdx?_leads hv (hkey _ _ hid)).mp hidx
  · intro h r hr k v hv hid
    exact (hpos r hr k ((findIdx?_leads hv (hkey _ _ hid)).mpr (h r hr k v hv hid))).symm

end Selection
