import OrgTree.Proofs.Diff.Report
import OrgTree.Proofs.OrgUnit.Json
import OrgTree.Proofs.Sync.Plain

/-!
# Compact diffs read back

Compact diffs are read back from their JSON form, in whatever order the members of objects stand, as
long as no coordinate and no distance is infinite or undefined. The values of their comparisons are
JSON values with sorted members already, so reading them changes nothing, and a run reads from them
what the units have.

## Main definitions

- `CompactUnit.coordinates`, `Comparison.numbers`, `Diff.numbers`: all coordinates and distances
- `Comparison.IsMadeFor`: the comparisons that are made of the units of two versions
- `Sync.plainValue`: the value of a plain field as a run reads it

## Main statements

- `CompactUnit.ofJson?_toJson`, `CompactComparison.ofJson?_toJson`, `CompactDiff.ofJson?_toJson`
- `Query.exists_isMadeFor_of_report`: all comparisons of a report are made so
- `Sync.plainValue_compact`: a run reads the values that a comparison was made of
- `compactDiffs_read_back`
-/

namespace OrgTree

variable {φ : Json → Json}

/-! ### Values -/

theorem GroupRef.readable_toJson (g : GroupRef) : g.toJson.Readable := by
  obtain ⟨_ | ref, name⟩ := g <;> rfl

namespace Json

theorem readable_ofFloat (x : Float) : (ofFloat x).Readable := by
  unfold ofFloat
  split <;> rfl

theorem readable_ofList {α : Type} {encode : α → Json} {xs : List α}
    (h : ∀ x ∈ xs, (encode x).Readable) : (ofList encode xs).Readable := by
  refine readableItems_iff.2 fun j hj => ?_
  obtain ⟨x, hx, rfl⟩ := List.mem_map.1 hj
  exact h x hx

end Json

theorem Geometry.readable_coordinatesJson (g : Geometry) : g.coordinatesJson.Readable := by
  have hposition : ∀ p, (positionJson p).Readable :=
    fun _ => Json.readable_ofList fun x _ => Json.readable_ofFloat x
  have hrings : ∀ rings, (ringsJson rings).Readable :=
    fun _ => Json.readable_ofList fun _ _ => Json.readable_ofList fun p _ => hposition p
  cases g with
  | point p => exact hposition p
  | polygon rings => exact hrings rings
  | multiPolygon polygons => exact Json.readable_ofList fun rings _ => hrings rings

theorem Geometry.readable_toJson (g : Geometry) : g.toJson.Readable := by
  refine Json.readableMembers_iff.2 fun m hm => ?_
  rcases List.mem_cons.1 hm with rfl | hm
  · rfl
  · rw [List.mem_singleton.1 hm]
    exact g.readable_coordinatesJson

namespace FieldValue

theorem readable_toJson (v : FieldValue) : v.toJson.Readable := by
  cases v with
  | text s => rfl
  | date d => rfl
  | geometry g => exact g.readable_toJson
  | groups gs => exact Json.readable_ofList fun g _ => g.readable_toJson
  | group g => exact g.readable_toJson

theorem readable_optionJson (v : Option FieldValue) : (optionJson v).Readable := by
  cases v with
  | none => rfl
  | some v => exact v.readable_toJson.sorted

theorem sorted_optionJson (v : Option FieldValue) : (optionJson v).sorted = optionJson v :=
  Json.sorted_sorted _

end FieldValue

/-! ### Units, comparisons and diffs -/

/-- All coordinates of a compact unit. -/
def CompactUnit.coordinates (u : CompactUnit) : List Float :=
  Geometry.allCoordinates [u.location, u.geom]

/-- A compact unit is read back. -/
theorem CompactUnit.ofJson?_toJson (hφ : Json.IsArrangement φ) {u : CompactUnit}
    (h : ∀ x ∈ u.coordinates, Json.HasNumber x) : ofJson? (φ u.toJson) = some u := by
  have hshape := fun o (ho : o ∈ [u.location, u.geom]) =>
    hφ.nullable_ofOption rfl (Geometry.ofJson?_of_mem hφ h ho)
  have hgroups := hφ.listOf_ofList fun i (_ : i ∈ u.groups) => Id.ofJson?_toJson hφ i
  rw [ofJson?, toJson, hφ.slots_of_keys]
  · simp only [List.map_cons, List.map_nil, Option.pure_def, Json.some_bind,
      Json.Slot.required_value, Json.Slot.optional_value, Json.Slot.defaulted_value,
      Id.ofJson?_toJson hφ, Json.text_str hφ, Json.nullable_optionalText hφ,
      ValidationStatus.ofJson?_toJson hφ, Id.nullable_ofOption hφ, Date.nullable_ofOption hφ,
      hshape u.location (by simp), hshape u.geom (by simp), hgroups]
  · rfl
  · decide

/-- The values of the comparison are as they are read, and its distance has a JSON form. -/
structure CompactComparison.IsWritten (c : CompactComparison) : Prop where
  before : c.before.Readable ∧ c.before.sorted = c.before
  after : c.after.Readable ∧ c.after.sorted = c.after
  distance : ∀ x, c.distance = some x → Json.HasNumber x

theorem ComparisonStatus.ofJson?_name (hφ : Json.IsArrangement φ) (s : ComparisonStatus) :
    ofJson? (φ (.str s.name)) = some s := by
  rw [hφ.str]
  cases s <;> decide

theorem DiffStatus.ofJson?_name (hφ : Json.IsArrangement φ) (s : DiffStatus) :
    ofJson? (φ (.str s.name)) = some s := by
  rw [hφ.str]
  cases s <;> decide

theorem CompactComparison.value?_eq (hφ : Json.IsArrangement φ) {j : Json} (hread : j.Readable)
    (hsorted : j.sorted = j) : value? (φ j) = some j := by
  have hreadable : (φ j).readable = true := hφ.readable hread
  rw [value?, if_pos hreadable, hφ.sorted, hsorted]

/-- A comparison is read back. -/
theorem CompactComparison.ofJson?_toJson (hφ : Json.IsArrangement φ) {c : CompactComparison}
    (h : c.IsWritten) : ofJson? (φ c.toJson) = some c := by
  have hdistance : Json.nullable Json.real (φ (Json.ofOption Json.ofFloat c.distance)) =
      some c.distance :=
    hφ.nullable_ofOption rfl fun x hx => by
      rw [hφ.ofFloat_eq, Json.real_ofFloat (h.distance x hx)]
  rw [ofJson?, toJson, hφ.slots_of_keys]
  · simp [Json.text_str hφ, value?_eq hφ h.before.1 h.before.2, value?_eq hφ h.after.1 h.after.2,
      ComparisonStatus.ofJson?_name hφ, hdistance]
  · rfl
  · decide

/-- A compact diff is read back when its units and comparisons are. -/
theorem CompactDiff.ofJson?_toJson (hφ : Json.IsArrangement φ) {d : CompactDiff}
    (hunits : ∀ o ∈ [d.unit, d.reference, d.target], ∀ u, o = some u →
      ∀ x ∈ u.coordinates, Json.HasNumber x)
    (hcomparisons : ∀ c ∈ d.comparisons, c.IsWritten) : ofJson? (φ d.toJson) = some d := by
  have hunit := fun o (ho : o ∈ [d.unit, d.reference, d.target]) =>
    hφ.nullable_ofOption rfl fun u hu => CompactUnit.ofJson?_toJson hφ (hunits o ho u hu)
  have hread := hφ.listOf_ofList fun c hc => CompactComparison.ofJson?_toJson hφ (hcomparisons c hc)
  rw [ofJson?, toJson, hφ.slots_of_keys]
  · simp [hunit d.unit (by simp), hunit d.reference (by simp), hunit d.target (by simp),
      DiffStatus.ofJson?_name hφ, hread]
  · rfl
  · decide

/-! ### Diffs of two versions -/

/-- The coordinates of a value, none unless it is a shape. -/
def FieldValue.coordinates : FieldValue → List Float
  | .geometry g => g.coordinates
  | _ => []

/-- The coordinates of both values of a comparison, and its distance. -/
def Comparison.numbers (c : Comparison) : List Float :=
  (c.before.toList ++ c.after.toList).flatMap FieldValue.coordinates ++ c.distance.toList

/-- All coordinates and distances of a diff. -/
def Diff.numbers (d : Diff) : List Float :=
  (d.reference.toList ++ d.target.toList).flatMap (fun u => u.compact.coordinates) ++
    d.comparisons.flatMap Comparison.numbers

theorem Comparison.isWritten_compact {c : Comparison} (h : ∀ x ∈ c.numbers, Json.HasNumber x) :
    c.compact.IsWritten where
  before := ⟨FieldValue.readable_optionJson _, FieldValue.sorted_optionJson _⟩
  after := ⟨FieldValue.readable_optionJson _, FieldValue.sorted_optionJson _⟩
  distance x hx := h x (List.mem_append_right _ (Option.mem_toList.2 hx))

theorem Diff.mem_or_mem_of_unit? {d : Diff} {u : Snapshot} (h : d.unit? = some u) :
    d.reference = some u ∨ d.target = some u :=
  (Option.or_eq_some_iff.1 h).imp_right And.right

/-- The compact form of a diff is read back. -/
theorem Diff.ofJson?_compact (hφ : Json.IsArrangement φ) {d : Diff}
    (h : ∀ x ∈ d.numbers, Json.HasNumber x) :
    CompactDiff.ofJson? (φ d.compact.toJson) = some d.compact := by
  have hunits : ∀ o, (∀ u, o = some u → d.reference = some u ∨ d.target = some u) →
      ∀ v, o.map Snapshot.compact = some v → ∀ x ∈ v.coordinates, Json.HasNumber x := by
    intro o ho v hv x hx
    obtain ⟨u, hu, rfl⟩ := Option.map_eq_some_iff.1 hv
    refine h x (List.mem_append_left _ (List.mem_flatMap.2 ⟨u, ?_, hx⟩))
    simpa using ho u hu
  refine CompactDiff.ofJson?_toJson hφ (fun o ho => ?_) fun c hc => ?_
  · simp only [compact, List.mem_cons, List.not_mem_nil, or_false] at ho
    rcases ho with rfl | rfl | rfl
    · exact hunits d.unit? fun _ => mem_or_mem_of_unit?
    · exact hunits d.reference fun _ => .inl
    · exact hunits d.target fun _ => .inr
  · obtain ⟨c', hc', rfl⟩ := List.mem_map.1 hc
    exact Comparison.isWritten_compact fun x hx =>
      h x (List.mem_append_right _ (List.mem_flatMap.2 ⟨c', hc', hx⟩))

/-- The comparisons of a field that are made of the units of two versions: of a reference unit and
its match, if it has one, or of a target unit without counterpart. -/
inductive Comparison.IsMadeFor (f : Field) : Comparison → Prop
  | matched (t : Option Snapshot) (r : Snapshot) :
    IsMadeFor f (.of f (t.bind f.access) (f.access r))
  | removed (t : Snapshot) : IsMadeFor f (.removed f t)

/-- All comparisons of a report are made of units of the two versions. -/
theorem Query.exists_isMadeFor_of_report {q : Query} {source : Source} {rep : DiffReport}
    (h : q.report source = .ok rep) : ∀ d ∈ rep.diffs, ∀ c ∈ d.comparisons, ∃ f, c.IsMadeFor f := by
  obtain ⟨fields, -, -, hmade⟩ := isMadeOf_of_report h
  intro d hd c hc
  cases hmade d hd with
  | matched targets u =>
    obtain ⟨f, -, rfl⟩ := List.mem_map.1 hc
    exact ⟨f, .matched _ u⟩
  | removed t status =>
    obtain ⟨f, -, rfl⟩ := List.mem_map.1 hc
    exact ⟨f, .removed t⟩

namespace Sync

/-- The value of a plain field as a run reads it: a text for names and parents, a shape, or a
date. -/
def plainValue (f : Field) (j : Json) : Except SyncError (Option FieldValue) :=
  match f with
  | .geometry => (geometryValue f.key j).map (Option.map .geometry)
  | .openingDate | .closedDate => (dateValue f.key j).map (Option.map .date)
  | _ => (textValue f.key j).map (Option.map .text)

/-- What a unit has for a plain field is read back. -/
theorem plainValue_access {f : Field} {u : Snapshot} (hplain : f.IsPlain)
    (h : ∀ x ∈ (f.access u).toList.flatMap FieldValue.coordinates, Json.HasNumber x) :
    plainValue f (FieldValue.optionJson (f.access u)) = .ok (f.access u) := by
  cases f with
  | name => exact congrArg (Except.map _) (textValue_optionJson Field.name.key (some u.name))
  | parent => exact congrArg (Except.map _) (textValue_optionJson Field.parent.key u.parentRef?)
  | openingDate =>
    exact congrArg (Except.map _) (dateValue_optionJson Field.openingDate.key u.openingDate)
  | closedDate =>
    exact congrArg (Except.map _) (dateValue_optionJson Field.closedDate.key u.closedDate)
  | geometry =>
    refine congrArg (Except.map _) (geometryValue_optionJson _ fun g hg x hx => ?_)
    exact h x (by simpa [Field.access, hg, FieldValue.coordinates] using hx)
  | groupSet ref title => exact hplain.elim
  | group ref title => exact hplain.elim

theorem plainValue_none (f : Field) : plainValue f (FieldValue.optionJson none) = .ok none := by
  cases f <;> rfl

/-- A run reads from a comparison of a plain field the values that it was made of. -/
theorem plainValue_compact {f : Field} {c : Comparison} (hplain : f.IsPlain)
    (hmade : c.IsMadeFor f) (h : ∀ x ∈ c.numbers, Json.HasNumber x) :
    plainValue f c.compact.before = .ok c.before ∧ plainValue f c.compact.after = .ok c.after := by
  have hnumbers : ∀ v, v = c.before ∨ v = c.after →
      ∀ x ∈ v.toList.flatMap FieldValue.coordinates, Json.HasNumber x := by
    intro v hv x hx
    obtain ⟨w, hw, hx⟩ := List.mem_flatMap.1 hx
    refine h x (List.mem_append_left _ (List.mem_flatMap.2 ⟨w, ?_, hx⟩))
    rcases hv with rfl | rfl
    · exact List.mem_append_left _ hw
    · exact List.mem_append_right _ hw
  cases hmade with
  | matched t r =>
    refine ⟨?_, plainValue_access hplain (hnumbers _ (.inr rfl))⟩
    cases t with
    | none => exact plainValue_none f
    | some t => exact plainValue_access hplain (hnumbers _ (.inl rfl))
  | removed t => exact ⟨plainValue_access hplain (hnumbers _ (.inl rfl)), plainValue_none f⟩

end Sync

/-- Diffs are read back from their JSON form as their compact forms, and a run reads the values of
plain fields from there that the comparisons were made of. -/
theorem compactDiffs_read_back {diffs : List Diff}
    (h : ∀ d ∈ diffs, ∀ x ∈ d.numbers, Json.HasNumber x) :
    Json.listOf CompactDiff.ofJson? (compactJson (compactDiffs diffs)).sorted =
        some (compactDiffs diffs) ∧
      ∀ d ∈ diffs, ∀ c ∈ d.comparisons, ∀ f : Field, f.IsPlain → c.IsMadeFor f →
        Sync.plainValue f c.compact.before = .ok c.before ∧
        Sync.plainValue f c.compact.after = .ok c.after := by
  refine ⟨Json.isArrangement_sorted.listOf_ofList fun e he => ?_,
    fun d hd c hc f hplain hmade => Sync.plainValue_compact hplain hmade fun x hx => ?_⟩
  · obtain ⟨d, hd, rfl⟩ := List.mem_map.1 he
    exact d.ofJson?_compact Json.isArrangement_sorted (h d hd)
  · exact h d hd x (List.mem_append_right _ (List.mem_flatMap.2 ⟨c, hc, hx⟩))

/-- A unit with a shape, dates and a group, whose counterpart has another shape, and a unit that is
only in the other version. -/
def outlinedAnew : Document where
  groups := [⟨⟨1⟩, ⟨1⟩, some "G", "Group", []⟩]
  units := [{ UnitRecord.bare ⟨1⟩ ⟨1⟩ "Kept" with
      sourceRef := some "K", location := some (.point [13.5, -8.25, 100]),
      openingDate := Date.ofYearMonthDay? 12000 1 2, closedDate := Date.ofYearMonthDay? (-5) 12 31,
      groupIds := [⟨1⟩] },
    { UnitRecord.bare ⟨2⟩ ⟨2⟩ "Kept" with
      sourceRef := some "K", geom := some (.polygon [[[0, 0], [0, 1], [1, 1], [0, 0]]]) },
    { UnitRecord.bare ⟨3⟩ ⟨2⟩ "Gone" with sourceRef := some "L", parentId := some ⟨2⟩ }]

/-- A query for all plain fields and for groups that also asks for lost units. -/
def outlineQuery : Query where
  reference := ⟨1⟩
  target := ⟨2⟩
  showDeleted := true
  compareGroups := true
  fieldKeys := some ["name", "geometry", "parent", "opening_date", "closed_date"]

theorem compactDiffs_read_back_outlinedAnew :
    ∃ s rep, Store.ofDocument outlinedAnew = .ok s ∧ outlineQuery.report s.source = .ok rep ∧
      rep.diffs.map (fun d => (d.label, d.comparisons.map Comparison.status)) =
        [("K", [.same, .modified, .same, .new, .new, .new]),
          ("L", [.deleted, .deleted, .deleted, .deleted, .deleted, .deleted])] ∧
      Json.listOf CompactDiff.ofJson? (compactJson (compactDiffs rep.diffs)).sorted =
        some (compactDiffs rep.diffs) ∧
      ∀ d ∈ rep.diffs, ∀ c ∈ d.comparisons, ∃ f : Field, c.IsMadeFor f ∧ (f.IsPlain →
        Sync.plainValue f c.compact.before = .ok c.before ∧
        Sync.plainValue f c.compact.after = .ok c.after) := by
  obtain ⟨s, rep, hs, hrep, hstatus, hnumbers⟩ : ∃ s rep, Store.ofDocument outlinedAnew = .ok s ∧
      outlineQuery.report s.source = .ok rep ∧
      rep.diffs.map (fun d => (d.label, d.comparisons.map Comparison.status)) =
        [("K", [.same, .modified, .same, .new, .new, .new]),
          ("L", [.deleted, .deleted, .deleted, .deleted, .deleted, .deleted])] ∧
      ∀ d ∈ rep.diffs, ∀ x ∈ d.numbers, Json.HasNumber x :=
    ⟨_, _, rfl, rfl, by decide +kernel, by decide +kernel⟩
  obtain ⟨hread, hvalues⟩ := compactDiffs_read_back hnumbers
  refine ⟨s, rep, hs, hrep, hstatus, hread, fun d hd c hc => ?_⟩
  obtain ⟨f, hf⟩ := Query.exists_isMadeFor_of_report hrep d hd c hc
  exact ⟨f, hf, fun hplain => hvalues d hd c hc f hplain hf⟩

end OrgTree
