import OrgTree.Export.Units
import OrgTree.Proofs.Remote.Payload
import OrgTree.Proofs.Text
import OrgTree.Remote.Registry

/-!
# What a reference system in memory answers

Records are kept under their identifiers. The requests of an export then read and write exactly the
records that they name, as long as a reference can be put into a filter.

## Main definitions

- `Remote.Registry.Sound`: records are objects under their identifiers, groups are in one set
- `Remote.Registry.Named`: records carry the identifiers they are under
- `Remote.IsPlainId`: the identifiers that a filter can name

## Main statements

- `Remote.Registry.Sound.addUnit`, `Remote.Registry.Sound.addGroup`
- `Remote.Registry.recordOf?_filterMap`: what a query for units fetches
-/

namespace OrgTree.Remote

open Json

/-- The identifiers that a filter names: without a comma and without white space at their ends. -/
def IsPlainId (id : String) : Prop :=
  ',' ∉ id.toList ∧ Text.trim id = id

instance (id : String) : Decidable (IsPlainId id) :=
  inferInstanceAs (Decidable (_ ∧ _))

namespace Registry

variable {g : Registry} {id : String} {ids : List String} {r : Json} {rs : List Json}

/-- Every record is an object under its identifier, and every group is in one group set at most. -/
structure Sound (g : Registry) : Prop where
  units : Ascending g.units
  groups : Ascending g.groups
  unitRecords : ∀ id r, g.unit? id = some r →
    recordId? r = some id ∧ ∃ ms, r = .obj ms ∧ Ascending ms
  groupRecords : ∀ id r, g.group? id = some r →
    recordId? r = some id ∧ ∃ ms, r = .obj ms ∧ Ascending ms
  oneSet : ∀ id r, g.group? id = some r → ∀ a b, inGroupSet a r = true → inGroupSet b r = true →
    a = b

theorem sound_empty : ({} : Registry).Sound where
  units := ascending_nil
  groups := ascending_nil
  unitRecords _ _ h := by cases h
  groupRecords _ _ h := by cases h
  oneSet _ _ h := by cases h

/-- Only the records count. -/
theorem Sound.of_records {g' : Registry} (h : g.Sound) (hunits : g'.units = g.units)
    (hgroups : g'.groups = g.groups) : g'.Sound := by
  have hunit : ∀ id, g'.unit? id = g.unit? id := fun id => congrArg (lookup? id) hunits
  have hgroup : ∀ id, g'.group? id = g.group? id := fun id => congrArg (lookup? id) hgroups
  refine ⟨hunits ▸ h.units, hgroups ▸ h.groups, fun id r hr => ?_, fun id r hr => ?_,
    fun id r hr => ?_⟩
  · exact h.unitRecords id r ((hunit id).symm.trans hr)
  · exact h.groupRecords id r ((hgroup id).symm.trans hr)
  · exact h.oneSet id r ((hgroup id).symm.trans hr)

theorem Sound.receive (h : g.Sound) (request : Request) : (g.receive request).Sound :=
  h.of_records rfl rfl

/-- A record of a unit under its identifier keeps a system sound. -/
theorem Sound.insertUnit {ms : Members} (h : g.Sound) (hid : recordId? (.obj ms) = some id)
    (hms : Ascending ms) : ({ g with units := insertMember id (.obj ms) g.units } : Registry).Sound where
  units := h.units.insertMember
  groups := h.groups
  unitRecords j r hr := by
    rw [unit?, lookup?_insertMember] at hr
    split at hr
    · rename_i hj
      cases hr
      exact ⟨hj ▸ hid, ms, rfl, hms⟩
    · exact h.unitRecords j r hr
  groupRecords := h.groupRecords
  oneSet := h.oneSet

theorem Sound.addUnit {ms : Members} (h : g.Sound) (hms : Ascending ms) :
    (g.addUnit (.obj ms)).Sound := by
  unfold Registry.addUnit
  split
  · rename_i id hid
    exact h.insertUnit hid hms
  · exact h

/-- A group keeps a system sound when it stays in its group set. -/
theorem Sound.insertGroup {ms : Members} (h : g.Sound) (hr : g.group? id = some r)
    (hid : recordId? (.obj ms) = some id) (hms : Ascending ms)
    (hsets : ∀ set, inGroupSet set (.obj ms) = inGroupSet set r) :
    ({ g with groups := insertMember id (.obj ms) g.groups } : Registry).Sound where
  units := h.units
  groups := h.groups.insertMember
  unitRecords := h.unitRecords
  groupRecords j r' hr' := by
    rw [group?, lookup?_insertMember] at hr'
    split at hr'
    · rename_i hj
      cases hr'
      exact ⟨hj ▸ hid, ms, rfl, hms⟩
    · exact h.groupRecords j r' hr'
  oneSet j r' hr' a b ha hb := by
    rw [group?, lookup?_insertMember] at hr'
    split at hr'
    · cases hr'
      rw [hsets] at ha hb
      exact h.oneSet id r hr a b ha hb
    · exact h.oneSet j r' hr' a b ha hb

theorem Sound.addGroup (h : g.Sound) (id name set : String) (members : List String) :
    (g.addGroup id name set members).Sound := by
  have hmem : ∀ j r, (g.addGroup id name set members).group? j = some r →
      id = j ∧ r = .obj [("groupSets", .arr [idObject set]), ("id", .str id), ("name", .str name),
        ("organisationUnits", Json.ofList idObject members)] ∨ g.group? j = some r := by
    intro j r hr
    rw [Registry.addGroup, group?, lookup?_insertMember] at hr
    split at hr
    · rename_i hj
      cases hr
      exact .inl ⟨hj, rfl⟩
    · exact .inr hr
  refine ⟨h.units, h.groups.insertMember, h.unitRecords, fun j r hr => ?_, fun j r hr => ?_⟩
  · rcases hmem j r hr with ⟨rfl, rfl⟩ | hr
    · refine ⟨rfl, _, rfl, ?_⟩
      rw [Ascending, ← List.pairwise_map (f := Prod.fst)]
      show ["groupSets", "id", "name", "organisationUnits"].Pairwise (· < ·)
      decide
    · exact h.groupRecords j r hr
  · rcases hmem j r hr with ⟨rfl, rfl⟩ | hr
    · have hset : ∀ c, inGroupSet c (.obj [("groupSets", .arr [idObject set]), ("id", .str id),
          ("name", .str name), ("organisationUnits", Json.ofList idObject members)]) = true →
          set = c := by
        intro c hc
        simpa [inGroupSet, get?, lookup?, items?, recordId?, idObject, text?] using hc
      intro a b ha hb
      rw [← hset a ha, hset b hb]
    · exact h.oneSet j r hr

/-- Every record carries the identifier it is under, a unit under the empty text apart. -/
structure Named (g : Registry) : Prop where
  unitRecords : ∀ id r, id ≠ "" → g.unit? id = some r → recordId? r = some id
  groups : Ascending g.groups
  groupRecords : ∀ id r, g.group? id = some r →
    recordId? r = some id ∧ ∃ ms, r = .obj ms ∧ Ascending ms

theorem Sound.named (h : g.Sound) : g.Named where
  unitRecords id r _ hr := (h.unitRecords id r hr).1
  groups := h.groups
  groupRecords := h.groupRecords

/-! ### Queries -/

theorem after?_append (start rest : String) : after? start (start ++ rest) = some rest := by
  have hprefix : start.toList.isPrefixOf (start ++ rest).toList = true := by
    rw [List.isPrefixOf_iff_prefix, String.toList_append]
    exact List.prefix_append _ _
  rw [after?, if_pos hprefix, String.toList_append, ← String.length_toList, List.drop_left,
    String.ofList_toList]

/-- The identifiers that the filter of a query names. -/
theorem mem_idsInFilter_iff (hid : id ∈ ids) (hne : id ≠ "") :
    id ∈ idsInFilter ("id:in:[" ++ ",".intercalate ids ++ "]") ↔ IsPlainId id := by
  have hids : ids ≠ [] := List.ne_nil_of_mem hid
  have hnames : idsInFilter ("id:in:[" ++ ",".intercalate ids ++ "]") =
      ((Text.pieces ',' (",".intercalate ids)).map Text.trim).filter fun s => s ≠ "" := by
    rw [idsInFilter, String.append_assoc, after?_append]
    simp only [String.toList_append, List.reverse_append]
    change ((Text.pieces ',' (String.ofList (",".intercalate ids).toList.reverse.reverse)).map
      Text.trim).filter _ = _
    rw [List.reverse_reverse, String.ofList_toList]
  have hcomma : "," = String.singleton ',' := rfl
  rw [hnames, List.mem_filter, List.mem_map, hcomma]
  simp only [Text.mem_pieces_intercalate hids]
  constructor
  · rintro ⟨⟨p, ⟨q, -, hp⟩, rfl⟩, -⟩
    exact ⟨fun h => Text.not_mem_of_mem_pieces hp (Text.mem_of_mem_trim h), Text.trim_trim p⟩
  · rintro ⟨hplain, htrim⟩
    refine ⟨⟨id, ⟨id, hid, ?_⟩, htrim⟩, by simpa using hne⟩
    rw [Text.pieces_of_not_mem hplain]
    exact List.mem_singleton_self id

theorem empty_not_mem_idsInFilter (filter : String) : "" ∉ idsInFilter filter := by
  unfold idsInFilter
  split
  · exact List.not_mem_nil
  · split
    · simp
    · exact List.not_mem_nil

/-- What a query for units fetches: the records of the units that its filter names. -/
theorem recordOf?_filterMap (h : g.Named) {names : List String} (hnames : "" ∉ names)
    (id : String) :
    Export.recordOf? (names.filterMap g.unit?) id = if id ∈ names then g.unit? id else none := by
  have hrecord : ∀ r ∈ names.filterMap g.unit?, recordId? r = some id →
      id ∈ names ∧ g.unit? id = some r := by
    intro r hr hid
    obtain ⟨name, hname, hrecord⟩ := List.mem_filterMap.1 hr
    have hkey := h.unitRecords name r (ne_of_mem_of_not_mem hname hnames) hrecord
    rw [hid] at hkey
    cases hkey
    exact ⟨hname, hrecord⟩
  rw [Export.recordOf?]
  cases hfind : (names.filterMap g.unit?).reverse.find? fun r => recordId? r = some id with
  | some r =>
    have hid := List.find?_some hfind
    rw [decide_eq_true_eq] at hid
    obtain ⟨hname, hr⟩ := hrecord r (List.mem_reverse.1 (List.mem_of_find?_eq_some hfind)) hid
    rw [if_pos hname, hr]
  | none =>
    split
    · rename_i hname
      cases hr : g.unit? id with
      | none => rfl
      | some r =>
        have hmem : r ∈ (names.filterMap g.unit?).reverse :=
          List.mem_reverse.2 (List.mem_filterMap.2 ⟨id, hname, hr⟩)
        have hnot := List.find?_eq_none.1 hfind r hmem
        rw [decide_eq_true_eq] at hnot
        exact absurd (h.unitRecords id r (ne_of_mem_of_not_mem hname hnames) hr) hnot
    · rfl

/-! ### Writes -/

theorem unit?_insertMember (g : Registry) (id : String) (r : Json) (j : String) :
    ({ g with units := insertMember id r g.units } : Registry).unit? j =
      if id = j then some r else g.unit? j :=
  lookup?_insertMember id r g.units j

theorem group?_insertMember (g : Registry) (id : String) (r : Json) (j : String) :
    ({ g with groups := insertMember id r g.groups } : Registry).group? j =
      if id = j then some r else g.group? j :=
  lookup?_insertMember id r g.groups j

theorem addUnit_of_recordId? (g : Registry) (hid : recordId? r = some id) :
    g.addUnit r = { g with units := insertMember id r g.units } := by
  rw [addUnit, hid]

/-- Adding units changes nothing else. -/
theorem foldl_addUnit_units (rs : List Json) (g : Registry) :
    rs.foldl addUnit g = { g with units := (rs.foldl addUnit g).units } := by
  induction rs generalizing g with
  | nil => rfl
  | cons r rs ih =>
    rw [List.foldl_cons, ih]
    congr 1 <;> (rw [addUnit]; split <;> rfl)

theorem Sound.foldl_addUnit (h : g.Sound) (hrs : ∀ r ∈ rs, ∃ ms, r = .obj ms ∧ Ascending ms) :
    (rs.foldl Registry.addUnit g).Sound := by
  induction rs generalizing g with
  | nil => exact h
  | cons r rs ih =>
    obtain ⟨ms, rfl, hms⟩ := hrs r List.mem_cons_self
    exact ih (h.addUnit hms) fun r hr => hrs r (List.mem_cons_of_mem _ hr)

theorem unit?_foldl_addUnit_of_ne (h : ∀ r ∈ rs, recordId? r ≠ some id) (g : Registry) :
    (rs.foldl addUnit g).unit? id = g.unit? id := by
  induction rs generalizing g with
  | nil => rfl
  | cons r rs ih =>
    rw [List.foldl_cons, ih fun r hr => h r (List.mem_cons_of_mem _ hr)]
    cases hid : recordId? r with
    | none => rw [addUnit, hid]
    | some j =>
      have hne : j ≠ id := by
        rintro rfl
        exact h r List.mem_cons_self hid
      rw [addUnit_of_recordId? g hid, unit?_insertMember, if_neg hne]

/-- Of units with different identifiers each one is there afterwards. -/
theorem unit?_foldl_addUnit_of_mem (hrs : rs.Pairwise fun r r' => recordId? r ≠ recordId? r')
    (hr : r ∈ rs) (hid : recordId? r = some id) (g : Registry) :
    (rs.foldl addUnit g).unit? id = some r := by
  induction rs generalizing g with
  | nil => simp at hr
  | cons r' rs ih =>
    obtain ⟨hhead, htail⟩ := List.pairwise_cons.1 hrs
    rw [List.foldl_cons]
    rcases List.mem_cons.1 hr with rfl | hr
    · have hne : ∀ r' ∈ rs, recordId? r' ≠ some id := fun r' hr' h => hhead r' hr' (hid.trans h.symm)
      rw [unit?_foldl_addUnit_of_ne hne, addUnit_of_recordId? g hid, unit?_insertMember, if_pos rfl]
    · exact ih htail hr _

end Registry

end OrgTree.Remote
