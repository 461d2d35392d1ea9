import Tepegoz.Lib.Selection
import Tepegoz.Tui.Screen

namespace Tepegoz

open Transition Selection

namespace ListCursor

/-- The filter after a key that edits it. -/
def editedFilter (c : ListCursor) : ScopeKey → Option String
  | .escape => some ""
  | .backspace => if c.filter = "" then none else some (String.ofList c.filter.toList.dropLast)
  | .char b => if 0x20 ≤ b ∧ b ≤ 0x7e then some (c.filter.push (Char.ofNat b.toNat)) else none
  | _ => none

theorem listKey_edit {adjust : ListCursor → ListCursor} {n : Nat} {c : ListCursor} {k : ScopeKey}
    {filter : String} (ha : c.filterActive = true) (hf : c.editedFilter k = some filter) :
    ∃ active, c.listKey adjust n k = some (adjust ⟨c.selection, filter, active⟩) := by
  unfold listKey
  rw [if_pos ha]
  cases k with
  | escape =>
    cases Option.some.inj hf
    exact ⟨false, rfl⟩
  | backspace =>
    simp only [editedFilter] at hf
    split at hf
    next => cases hf
    next hne =>
      cases Option.some.inj hf
      exact ⟨c.filterActive, by rw [filterKey, if_neg hne]⟩
  | char b =>
    simp only [editedFilter] at hf
    split at hf
    next hb =>
      cases Option.some.inj hf
      exact ⟨c.filterActive, by rw [filterKey, if_pos hb]⟩
    next => cases hf
  | _ => cases hf

end ListCursor

section Reanchor

variable {Row Ident Key : Type} [DecidableEq Key] {ident : Row → Ident} {keyOf : Row → Key}
  {before : List Row × Nat} {rows : List Row}

/-- How the row that was selected stands to the row that has come to its index: they share a key that no
earlier row has, or the list has become too short and the row is its last. -/
def EditKeeps (ident : Row → Ident) (keyOf : Row → Key) (before : List Row × Nat) (rows : List Row) :
    Prop :=
  ∀ r ∈ before.1[before.2]?, ∀ k v, rows[k]? = some v → ident v = ident r →
    match rows[before.2]? with
    | some w => keyOf w = keyOf r ∧ ∀ (j : Nat) (x : Row), j < k → rows[j]? = some x → keyOf x ≠ keyOf r
    | none => k + 1 = rows.length

omit [DecidableEq Key] in
/-- Where the key identifies rows, an edit has to leave the row at its index, or at the end. -/
theorem editKeeps_of_key (hdistinct : (rows.map ident).Nodup)
    (hkey : ∀ v w, ident v = ident w ↔ keyOf v = keyOf w) :
    EditKeeps ident keyOf before rows ↔
      StaysAt ident before rows (ListCursor.clamp rows.length before.2) := by
  have hlength : ∀ k v, rows[k]? = some v → k < rows.length := fun k v hv =>
    (List.getElem?_eq_some_iff.mp hv).1
  have hat : ∀ r ∈ before.1[before.2]?, ∀ k v, rows[k]? = some v → ident v = ident r →
      ((match rows[before.2]? with
        | some w => keyOf w = keyOf r ∧
            ∀ (j : Nat) (x : Row), j < k → rows[j]? = some x → keyOf x ≠ keyOf r
        | none => k + 1 = rows.length) ↔ k = ListCursor.clamp rows.length before.2) := by
    intro r _ k v hv hid
    have hk := hlength k v hv
    unfold ListCursor.clamp
    rw [if_neg (by omega)]
    split
    next w hw =>
      rw [if_neg (by have := hlength _ _ hw; omega)]
      constructor
      · rintro ⟨hkw, -⟩
        exact eq_of_ident hdistinct hv hw (hid.trans ((hkey _ _).mpr hkw.symm))
      · rintro rfl
        rw [hv] at hw
        cases hw
        refine ⟨(hkey _ _).mp hid, fun j x hj hx hxr => ?_⟩
        have heq : j = before.2 := eq_of_ident hdistinct hx hv (((hkey _ _).mpr hxr).trans hid.symm)
        omega
    next hnone =>
      have hlen : rows.length ≤ before.2 := List.getElem?_eq_none_iff.mp hnone
      rw [if_pos hlen]
      omega
  constructor
  · exact fun h r hr k v hv hid => (hat r hr k v hv hid).mp (h r hr k v hv hid)
  · exact fun h r hr k v hv hid => (hat r hr k v hv hid).mpr (h r hr k v hv hid)

/-- The key was read before the list changed. -/
theorem follows_reanchor (hdistinct : (rows.map ident).Nodup)
    (hkey : ∀ v w, ident v = ident w → keyOf v = keyOf w) :
    Follows ident before
        (rows, ListCursor.reanchor keyOf rows (before.1[before.2]?.map keyOf) before.2) ↔
      LeadsItsKey ident keyOf before rows := by
  refine follows_iff_leads hdistinct hkey fun r hr idx hidx => ?_
  have hselected : before.1[before.2]? = some r := hr
  simp only [ListCursor.reanchor, hselected, Option.map_some, Option.bind_some, hidx]

/-- The key is read when the list has changed, so it is that of the row at the old index. -/
theorem follows_reanchor_late (hdistinct : (rows.map ident).Nodup)
    (hkey : ∀ v w, ident v = ident w → keyOf v = keyOf w) :
    Follows ident before
        (rows, ListCursor.reanchor keyOf rows (rows[before.2]?.map keyOf) before.2) ↔
      EditKeeps ident keyOf before rows := by
  rw [follows_iff_staysAt hdistinct]
  have hat : ∀ r ∈ before.1[before.2]?, ∀ k v, rows[k]? = some v → ident v = ident r →
      (k = ListCursor.reanchor keyOf rows (rows[before.2]?.map keyOf) before.2 ↔
        match rows[before.2]? with
        | some w => keyOf w = keyOf r ∧
            ∀ (j : Nat) (x : Row), j < k → rows[j]? = some x → keyOf x ≠ keyOf r
        | none => k + 1 = rows.length) := by
    intro r _ k v hv hid
    have hk : k < rows.length := (List.getElem?_eq_some_iff.mp hv).1
    split
    next w hw =>
      obtain ⟨idx, hidx⟩ : ∃ idx, rows.findIdx? (keyOf · = keyOf w) = some idx :=
        findIdx?_isSome hw rfl
      have hpos : ListCursor.reanchor keyOf rows (rows[before.2]?.map keyOf) before.2 = idx := by
        simp only [ListCursor.reanchor, hw, Option.map_some, Option.bind_some, hidx]
      rw [hpos]
      constructor
      · rintro rfl
        obtain ⟨_, hkeyk, -⟩ := List.findIdx?_eq_some_iff_getElem.mp hidx
        have hvw : keyOf v = keyOf w := by
          have hget := List.getElem?_eq_some_iff.mp hv
          obtain ⟨_, rfl⟩ := hget
          exact of_decide_eq_true hkeyk
        have hwr : keyOf w = keyOf r := hvw.symm.trans (hkey _ _ hid)
        rw [hwr] at hidx
        exact ⟨hwr, (findIdx?_leads hv (hkey _ _ hid)).mp hidx⟩
      · rintro ⟨hwr, hleads⟩
        rw [hwr] at hidx
        have hk' := (findIdx?_leads hv (hkey _ _ hid)).mpr hleads
        exact Option.some.inj (hk'.symm.trans hidx)
    next hnone =>
      have hlen : rows.length ≤ before.2 := List.getElem?_eq_none_iff.mp hnone
      have hpos : ListCursor.reanchor keyOf rows (rows[before.2]?.map keyOf) before.2 =
          rows.length - 1 := by
        simp only [ListCursor.reanchor, hnone, Option.map_none, Option.bind_none, ListCursor.clamp]
        rw [if_neg (by omega), if_pos hlen]
      rw [hpos]
      omega
  constructor
  · exact fun h r hr k v hv hid => (hat r hr k v hv hid).mp (h r hr k v hv hid)
  · exact fun h r hr k v hv hid => (hat r hr k v hv hid).mpr (h r hr k v hv hid)

section Identity

variable {ident : Row → Key}

/-- A key that tells all rows apart finds the selected row again. -/
theorem follows_reanchor_ident (hdistinct : (rows.map ident).Nodup) :
    Follows ident before
      (rows, ListCursor.reanchor ident rows (before.1[before.2]?.map ident) before.2) :=
  (follows_reanchor hdistinct fun _ _ => id).mpr (leads_of_key hdistinct fun _ _ => id)

/-- Read too late, it only keeps the index. -/
theorem follows_late_ident (hdistinct : (rows.map ident).Nodup) :
    Follows ident before
        (rows, ListCursor.reanchor ident rows (rows[before.2]?.map ident) before.2) ↔
      StaysAt ident before rows (ListCursor.clamp rows.length before.2) :=
  (follows_reanchor_late hdistinct fun _ _ => id).trans
    (editKeeps_of_key hdistinct fun _ _ => Iff.rfl)

/-- In a list that did not change it finds the same index. -/
theorem reanchor_self (hdistinct : (rows.map ident).Nodup) {i : Nat} (hi : i ≤ rows.length - 1) :
    ListCursor.reanchor ident rows (rows[i]?.map ident) i = i := by
  have hfollows : Follows ident (rows, i) _ := follows_reanchor_ident hdistinct
  exact (follows_self hdistinct hi (ListCursor.reanchor_le _ _ _ _)).mp hfollows

end Identity

end Reanchor

/-- What tells a listening socket from all others. -/
structure PortIdent where
  protocol : String
  localIp : String
  localPort : Nat
  pid : Nat
  deriving DecidableEq

def PortIdent.of (p : ProbePort) : PortIdent := ⟨p.protocol, p.localIp, p.localPort, p.pid⟩

theorem PortKey.of_ident {v w : ProbePort} (h : PortIdent.of v = PortIdent.of w) :
    PortKey.of v = PortKey.of w := by
  obtain ⟨hprotocol, -, hport, hpid⟩ := PortIdent.mk.inj h
  unfold PortKey.of
  rw [hprotocol, hport, hpid]

section Tracks

variable (text : TextOps)

def DockerScope.listed (d : DockerScope) : List DockerContainer × Nat := (d.visible text, d.selection)

def PortsView.listed (v : PortsView) : List ProbePort × Nat := (v.visible text, v.selection)

def ProcessesView.listed (v : ProcessesView) : List ProbeProcess × Nat := (v.visible text, v.selection)

def FleetScope.listed (f : FleetScope) : List HostEntry × Nat := (f.visible text, f.selection)

variable (a : App)

/-- The selection of the containers is only clamped: it follows a row that does not move. -/
structure DockerTracks : Prop where
  refresh : ∀ rows source, (rows.map (·.id)).Nodup →
    let d := ((⟨a, []⟩ : Turn).handleDockerEvent text (.containerList rows source)).app.docker
    let shown := rows.filter (a.docker.matchesFilter text)
    Follows (·.id) (a.docker.listed text) (d.listed text) ↔
      StaysAt (·.id) (a.docker.listed text) shown (ListCursor.clamp shown.length a.docker.selection)
  edit : (a.docker.state.rows.map (·.id)).Nodup → ∀ k filter, a.docker.filterActive = true →
    a.docker.editedFilter k = some filter → ∃ d, a.docker.listKey text k = some d ∧
      let shown := ({ a.docker with filter := filter } : DockerScope).visible text
      (Follows (·.id) (a.docker.listed text) (d.listed text) ↔
        StaysAt (·.id) (a.docker.listed text) shown (ListCursor.clamp shown.length a.docker.selection))
  same : ∀ source, ((⟨a, []⟩ : Turn).handleDockerEvent text
    (.containerList a.docker.state.rows source)).app.docker.selection = a.docker.selection

/-- The selection of the ports goes by a key without the address, which is read too late when the filter
is edited. -/
structure PortsTracks : Prop where
  refresh : ∀ rows source, (rows.map PortIdent.of).Nodup →
    let v := ((⟨a, []⟩ : Turn).handlePortsEvent text (.portList rows source)).app.ports.ports
    Follows PortIdent.of (a.ports.ports.listed text) (v.listed text) ↔
      LeadsItsKey PortIdent.of PortKey.of (a.ports.ports.listed text)
        (rows.filter (a.ports.ports.matchesFilter text))
  edit : (a.ports.ports.state.rows.map PortIdent.of).Nodup → ∀ k filter,
    a.ports.ports.filterActive = true → a.ports.ports.editedFilter k = some filter →
      ∃ v, a.ports.ports.listKey text k = some v ∧
        (Follows PortIdent.of (a.ports.ports.listed text) (v.listed text) ↔
          EditKeeps PortIdent.of PortKey.of (a.ports.ports.listed text)
            (({ a.ports.ports with filter := filter } : PortsView).visible text))
  same : (a.ports.ports.state.rows.map PortIdent.of).Nodup → ∀ source,
    ((⟨a, []⟩ : Turn).handlePortsEvent text
        (.portList a.ports.ports.state.rows source)).app.ports.ports.selection =
          a.ports.ports.selection ↔
      LeadsItsKey PortIdent.of PortKey.of (a.ports.ports.listed text) (a.ports.ports.visible text)

/-- The selection of the processes follows its row, unless the filter is edited and the row moves. -/
structure ProcessesTracks : Prop where
  refresh : ∀ rows source, (rows.map ProcessKey.of).Nodup →
    let v := ((⟨a, []⟩ : Turn).handleProcessesEvent text (.processList rows source)).app.ports.processes
    Follows ProcessKey.of (a.ports.processes.listed text) (v.listed text)
  edit : (a.ports.processes.state.rows.map ProcessKey.of).Nodup → ∀ k filter,
    a.ports.processes.filterActive = true → a.ports.processes.editedFilter k = some filter →
      ∃ v, a.ports.processes.listKey text k = some v ∧
        let shown := ({ a.ports.processes with filter := filter } : ProcessesView).visible text
        (Follows ProcessKey.of (a.ports.processes.listed text) (v.listed text) ↔
          StaysAt ProcessKey.of (a.ports.processes.listed text) shown
            (ListCursor.clamp shown.length a.ports.processes.selection))
  same : (a.ports.processes.state.rows.map ProcessKey.of).Nodup → ∀ source,
    ((⟨a, []⟩ : Turn).handleProcessesEvent text
      (.processList a.ports.processes.state.rows source)).app.ports.processes.selection =
        a.ports.processes.selection

/-- The same for the hosts. -/
structure FleetTracks : Prop where
  refresh : ∀ m hosts source, (hosts.map (·.hostAlias)).Nodup →
    let f := ((⟨a, []⟩ : Turn).handleFleetEvent text m (.hostList hosts source)).app.fleet
    Follows (·.hostAlias) (a.fleet.listed text) (f.listed text)
  edit : (a.fleet.state.hosts.map (·.hostAlias)).Nodup → ∀ k filter, a.fleet.filterActive = true →
    a.fleet.editedFilter k = some filter → ∃ f, a.fleet.listKey text k = some f ∧
      let shown := ({ a.fleet with filter := filter } : FleetScope).visible text
      (Follows (·.hostAlias) (a.fleet.listed text) (f.listed text) ↔
        StaysAt (·.hostAlias) (a.fleet.listed text) shown
          (ListCursor.clamp shown.length a.fleet.selection))
  same : (a.fleet.state.hosts.map (·.hostAlias)).Nodup → ∀ m source,
    ((⟨a, []⟩ : Turn).handleFleetEvent text m (.hostList a.fleet.state.hosts source)).app.fleet.selection =
      a.fleet.selection

end Tracks

section Lists

variable {text : TextOps} {a : App}

/-- A filter keeps rows apart. -/
theorem filter_distinct {Row Ident : Type} {ident : Row → Ident} {rows : List Row} (p : Row → Bool)
    (h : (rows.map ident).Nodup) : ((rows.filter p).map ident).Nodup :=
  h.sublist (List.filter_sublist.map _)

theorem DockerScope.tracks (hr : a.docker.InRange text) : DockerTracks text a where
  refresh rows source hdistinct := follows_iff_staysAt (filter_distinct _ hdistinct) _
  edit hdistinct k filter ha hf := by
    obtain ⟨active, hkey⟩ := ListCursor.listKey_edit ha hf
    refine ⟨_, congrArg (Option.map _) hkey, ?_⟩
    exact follows_iff_staysAt (filter_distinct _ hdistinct) _
  same source := by
    have hsel : a.docker.selection ≤ (a.docker.visible text).length - 1 := hr
    show ListCursor.clamp (a.docker.visible text).length a.docker.selection = a.docker.selection
    unfold ListCursor.clamp
    split
    next => omega
    next => exact if_neg (by omega)

theorem PortsView.tracks (hr : a.ports.ports.InRange text) : PortsTracks text a where
  refresh rows source hdistinct :=
    follows_reanchor (filter_distinct _ hdistinct) fun _ _ => PortKey.of_ident
  edit hdistinct k filter ha hf := by
    obtain ⟨active, hkey⟩ := ListCursor.listKey_edit ha hf
    refine ⟨_, congrArg (Option.map _) hkey, ?_⟩
    exact follows_reanchor_late (filter_distinct _ hdistinct) fun _ _ => PortKey.of_ident
  same hdistinct source := by
    have hshown : ((a.ports.ports.visible text).map PortIdent.of).Nodup := filter_distinct _ hdistinct
    have hsel : a.ports.ports.selection ≤ (a.ports.ports.visible text).length - 1 := hr
    have hfollows : Follows PortIdent.of (a.ports.ports.listed text) _ ↔ _ :=
      follows_reanchor hshown fun _ _ => PortKey.of_ident
    exact (follows_self hshown hsel (ListCursor.reanchor_le _ _ _ _)).symm.trans hfollows

theorem ProcessesView.tracks (hr : a.ports.processes.InRange text) : ProcessesTracks text a where
  refresh rows source hdistinct := follows_reanchor_ident (filter_distinct _ hdistinct)
  edit hdistinct k filter ha hf := by
    obtain ⟨active, hkey⟩ := ListCursor.listKey_edit ha hf
    refine ⟨_, congrArg (Option.map _) hkey, ?_⟩
    exact follows_late_ident (filter_distinct _ hdistinct)
  same hdistinct source := reanchor_self (filter_distinct _ hdistinct) hr

theorem FleetScope.tracks (hr : a.fleet.InRange text) : FleetTracks text a where
  refresh m hosts source hdistinct := follows_reanchor_ident (filter_distinct _ hdistinct)
  edit hdistinct k filter ha hf := by
    obtain ⟨active, hkey⟩ := ListCursor.listKey_edit ha hf
    refine ⟨_, congrArg (Option.map _) hkey, ?_⟩
    exact follows_late_ident (filter_distinct _ hdistinct)
  same hdistinct m source := reanchor_self (filter_distinct _ hdistinct) hr

end Lists

/-- In every run the selections are in range, and they follow their rows under these conditions. -/
theorem selection_follows_row {text : TextOps} {tr : List AppAction} {a : App}
    (h : Run (console text) Free tr a) :
    a.InRange text ∧ DockerTracks text a ∧ PortsTracks text a ∧ ProcessesTracks text a ∧
      FleetTracks text a := by
  have hr : a.InRange text := (onScreen_of_run h).inRange
  exact ⟨hr, DockerScope.tracks hr.docker, PortsView.tracks hr.ports, ProcessesView.tracks hr.processes,
    FleetScope.tracks hr.fleet⟩

/-- The second of two processes is selected, and found again after they changed places. -/
theorem selection_follows_row_reordered : ∃ tr a, Run ((console .ascii).startingAt sampleApp) Free tr a ∧
    a.ports.processes.listed .ascii = ([⟨1, 10, "init"⟩, ⟨2, 20, "sh"⟩], 1) ∧
    Follows ProcessKey.of (a.ports.processes.listed .ascii)
      (((⟨a, []⟩ : Turn).handleProcessesEvent .ascii (.processList [⟨2, 20, "sh"⟩, ⟨1, 10, "init"⟩]
        "probe")).app.ports.processes.listed .ascii) := by
  obtain ⟨tr, a, hr, hlisted⟩ := Run.of_replay ((console .ascii).startingAt sampleApp) Free
    (fun _ a => a.ports.processes.listed .ascii = ([⟨1, 10, "init"⟩, ⟨2, 20, "sh"⟩], 1)) rfl
    [(.at 0, .daemonEnvelope (envelope (.event 4 (.processList [⟨1, 10, "init"⟩, ⟨2, 20, "sh"⟩] "probe")))),
      (.at 1, .mouseClick 50 23), (.at 2, .stdinChunk [key 'p', key 'j'])]
    (by decide +kernel)
  have hrun : Run (console .ascii) Free tr a :=
    hr.project id (fun _ hs => by subst hs; exact ⟨_, _, _, _, sampleApp_new⟩) (fun _ _ _ _ => id)
      (fun _ _ _ => id)
  obtain ⟨-, -, -, hprocesses, -⟩ := selection_follows_row hrun
  exact ⟨tr, a, hr, hlisted, hprocesses.refresh _ _ (by decide)⟩

/-- A container that starts above the selected one takes the selection one row up. -/
theorem docker_selection_slips : ∃ tr a, Run ((console .ascii).startingAt sampleApp) Free tr a ∧
    a.docker.listed .ascii = ([⟨"a", ["/a"], "i"⟩, ⟨"b", ["/b"], "i"⟩], 1) ∧
    ¬ Follows (·.id) (a.docker.listed .ascii)
      (((⟨a, []⟩ : Turn).handleDockerEvent .ascii (.containerList
        [⟨"c", ["/c"], "i"⟩, ⟨"a", ["/a"], "i"⟩, ⟨"b", ["/b"], "i"⟩] "engine")).app.docker.listed .ascii) := by
  obtain ⟨tr, a, hr, hlisted, hafter⟩ := Run.of_replay ((console .ascii).startingAt sampleApp) Free
    (fun _ a => a.docker.listed .ascii = ([⟨"a", ["/a"], "i"⟩, ⟨"b", ["/b"], "i"⟩], 1) ∧
      ((⟨a, []⟩ : Turn).handleDockerEvent .ascii (.containerList
        [⟨"c", ["/c"], "i"⟩, ⟨"a", ["/a"], "i"⟩, ⟨"b", ["/b"], "i"⟩] "engine")).app.docker.listed .ascii =
          ([⟨"c", ["/c"], "i"⟩, ⟨"a", ["/a"], "i"⟩, ⟨"b", ["/b"], "i"⟩], 1)) rfl
    [(.at 0, .daemonEnvelope (envelope (.event 2 (.containerList
        [⟨"a", ["/a"], "i"⟩, ⟨"b", ["/b"], "i"⟩] "engine")))), (.at 1, .mouseClick 5 26)]
    (by decide +kernel)
  refine ⟨tr, a, hr, hlisted, fun hfollows => ?_⟩
  rw [hlisted, hafter] at hfollows
  obtain ⟨v, hv, hid⟩ := hfollows ⟨"b", ["/b"], "i"⟩ rfl ⟨_, List.mem_of_getElem? (i := 2) rfl, rfl⟩
  cases hv
  revert hid
  decide

end Tepegoz
