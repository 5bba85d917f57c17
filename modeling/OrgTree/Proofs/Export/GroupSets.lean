import OrgTree.Proofs.Export.Run

/-!
# Group sets after an export

A successful export brings the groups of a group set in line with the reference units if a comparison
of the group set brings groups. A comparison that only takes groups away brings none, so a group set
in which units leave groups and none joins another stays as it was.

## Main definitions

- `Comparison.AsksFor`: the reference has the unit in the group

## Main statements

- `Export.run_memberIds_iff`: who is in the groups of a group set after an export
-/

namespace OrgTree

open Json Remote Registry

/-- The reference has the unit in the group. -/
def Comparison.AsksFor (c : Comparison) (group : String) : Prop :=
  group ∈ ((c.after.bind FieldValue.asGroups?).getD []).filterMap GroupRef.ref

instance (c : Comparison) (group : String) : Decidable (c.AsksFor group) :=
  inferInstanceAs (Decidable (_ ∈ _))

namespace Export

variable {source : Source} {q : Query} {rep : DiffReport} {fields : List Field} {ds : List Diff}
  {d : Diff} {c : Comparison} {refs : RefSupply} {g : Registry} {set title id ref key : String}
  {r : Json} {wishes : List Wish} {wishesOf : String → List Wish} {sets : List String}

/-! ### Wishes of diffs -/

/-- A compared unit wishes for the groups that its comparison asks for. -/
theorem exists_wish (href : exportedRef? d = some ref) (hc : d.comparison? key = some c) :
    ∃ w, Wish.ofDiff? key d = some w ∧ w.unit = ref ∧ ∀ group, group ∈ w.groups ↔ c.AsksFor group := by
  obtain ⟨⟨u, ref'⟩, hu, rfl⟩ := Option.map_eq_some_iff.1 ((exportedRef?_eq d).symm.trans href)
  refine ⟨⟨ref', ((c.after.bind FieldValue.asGroups?).getD []).filterMap GroupRef.ref⟩, ?_, rfl,
    fun group => Iff.rfl⟩
  simp only [Wish.ofDiff?, hu, hc, Option.bind_eq_bind, Option.bind_some]
  rfl

/-! ### Groups of a group set -/

theorem groupAfter_of_not_mem (hg : g.Sound) (hr : g.group? id = some r)
    (hin : inGroupSet set r = true) (hset : set ∉ sets) : groupAfter wishesOf sets id r = r := by
  rw [groupAfter]
  cases hfind : sets.find? fun set => inGroupSet set r with
  | none => rfl
  | some set' =>
    have hin' := List.find?_some (p := fun set => inGroupSet set r) hfind
    rw [hg.oneSet id r hr set set' hin hin'] at hset
    exact absurd (List.mem_of_find?_eq_some hfind) hset

/-- What wishes of different units lead to in a group of a changed group set. -/
theorem mem_memberIds_groupAfter (hg : g.Sound) (hr : g.group? id = some r)
    (hin : inGroupSet set r = true) (hset : set ∈ sets)
    (hnodup : ((wishesOf set).map Wish.unit).Nodup) :
    (∀ w ∈ wishesOf set, w.unit ∈ memberIds (groupAfter wishesOf sets id r) ↔ id ∈ w.groups) ∧
      ∀ unit, unit ∉ (wishesOf set).map Wish.unit →
        (unit ∈ memberIds (groupAfter wishesOf sets id r) ↔ unit ∈ memberIds r) := by
  obtain ⟨-, ms, rfl, -⟩ := hg.groupRecords id r hr
  rw [groupAfter_of_mem hg hr hset hin, memberIds_regroup]
  exact ⟨Wish.isMet_foldl_apply hnodup id _, fun unit h => Wish.mem_foldl_apply_of_not_mem h id _⟩

theorem inGroupSet_groupAfter (hg : g.Sound) (hr : g.group? id = some r) :
    inGroupSet set (groupAfter wishesOf sets id r) = inGroupSet set r := by
  obtain ⟨-, ms, rfl, -⟩ := hg.groupRecords id r hr
  rw [groupAfter]
  split
  · exact inGroupSet_regroup set _ id ms
  · rfl

/-! ### Runs -/

/-- After a successful export, the units of the diffs are in the groups of a group set as their
comparisons ask, if one comparison of the group set brings groups. Otherwise the groups are as they
were. Members that no diff is about stay. -/
theorem run_memberIds_iff (hrep : q.report source = .ok rep) (hfields : rep.fields = .ok fields)
    (hnodup : (rep.diffs.filterMap exportedRef?).Nodup) (hfresh : FreshFor refs rep.diffs)
    (hsound : g.Sound) (config : Config) (listener : Progress.Listener) {out : Outcome Registry}
    (hrun : run ⟨Registry.client, config, listener⟩ refs fields rep.diffs g = out) {report : Report}
    (hok : out.result = .ok report) (hf : .groupSet set title ∈ fields) :
    (∀ id, g.group? id = none → out.session.remote.group? id = none) ∧
    ∀ id r, g.group? id = some r → inGroupSet set r = true →
      ∃ r', out.session.remote.group? id = some r' ∧ inGroupSet set r' = true ∧
        (set ∈ changedSets out.diffs fields → ∀ d ∈ out.diffs, ∀ ref c, exportedRef? d = some ref →
          d.comparison? (Field.groupSet set title).key = some c →
            (ref ∈ memberIds r' ↔ c.AsksFor id)) ∧
        (∀ member, member ∉ out.diffs.filterMap exportedRef? →
          (member ∈ memberIds r' ↔ member ∈ memberIds r)) ∧
        (set ∉ changedSets out.diffs fields → r' = r) := by
  have hsets : ComparesSets fields (assignRefs refs rep.diffs).2 :=
    (comparesSets_of_report hrep hfields).assignRefs
  have hnodup' := nodup_assignRefs hfresh hnodup
  have hassign : assignRefs refs rep.diffs =
      ((assignRefs refs rep.diffs).1, (assignRefs refs rep.diffs).2) := rfl
  subst hrun
  rw [run_diffs]
  have hsettles := settles_of_run_ok rfl hassign hnodup' hsets hsound hok
  generalize (assignRefs refs rep.diffs).2 = ds at *
  refine ⟨fun id hnone => by rw [hsettles.group, hnone]; rfl, fun id r hr hin => ?_⟩
  have hafter := hsettles.group id
  rw [hr, Option.map_some] at hafter
  refine ⟨_, hafter, ?_, fun hchanged d hd ref c href hc => ?_, fun member hmember => ?_,
    fun hkept => groupAfter_of_not_mem hsound hr hin hkept⟩
  · rw [← hin]
    exact inGroupSet_groupAfter hsound hr
  · obtain ⟨w, hw, rfl, hasks⟩ := exists_wish href hc
    have hmem : w ∈ wishesFor ds set := by
      rw [← hsets.wishes hf]
      exact List.mem_filterMap.2 ⟨d, hd, hw⟩
    rw [← hasks]
    refine (mem_memberIds_groupAfter hsound hr hin hchanged ?_).1 w hmem
    rw [units_wishesFor]
    exact hnodup'
  · by_cases hchanged : set ∈ changedSets ds fields
    · refine (mem_memberIds_groupAfter hsound hr hin hchanged ?_).2 member ?_
      · rw [units_wishesFor]
        exact hnodup'
      · rw [units_wishesFor]
        exact hmember
    · change member ∈ memberIds (groupAfter _ _ id r) ↔ _
      rw [groupAfter_of_not_mem hsound hr hin hchanged]

theorem run_memberIds_iff_joinedGroup :
    ∃ s rep fields out report, Store.ofDocument joinedGroup = .ok s ∧
      wholeQuery.report s.source = .ok rep ∧ rep.fields = .ok fields ∧
      run ⟨Registry.client, {}, .patient⟩ (fun _ _ => "drawn") fields rep.diffs joinedRegistry =
        out ∧
      out.result = .ok report ∧ "S" ∈ changedSets out.diffs fields ∧
      (∀ id, joinedRegistry.group? id = none → out.session.remote.group? id = none) ∧
      ∀ id r, joinedRegistry.group? id = some r → inGroupSet "S" r = true →
        ∃ r', out.session.remote.group? id = some r' ∧ inGroupSet "S" r' = true ∧
          ("S" ∈ changedSets out.diffs fields → ∀ d ∈ out.diffs, ∀ ref c,
            exportedRef? d = some ref →
              d.comparison? (Field.groupSet "S" "Set").key = some c →
                (ref ∈ memberIds r' ↔ c.AsksFor id)) ∧
          (∀ member, member ∉ out.diffs.filterMap exportedRef? →
            (member ∈ memberIds r' ↔ member ∈ memberIds r)) ∧
          ("S" ∉ changedSets out.diffs fields → r' = r) := by
  have hs : ∃ s rep fields, Store.ofDocument joinedGroup = .ok s ∧
      wholeQuery.report s.source = .ok rep ∧ rep.fields = .ok fields ∧
      .groupSet "S" "Set" ∈ fields ∧ (rep.diffs.filterMap exportedRef?).Nodup ∧
      (unnamedUnits rep.diffs).length = 1 ∧ (∀ d ∈ rep.diffs, exportedRef? d ≠ some "drawn") ∧
      (run ⟨Registry.client, {}, .patient⟩ (fun _ _ => "drawn") fields rep.diffs
        joinedRegistry).result.toBool = true ∧
      "S" ∈ changedSets (run ⟨Registry.client, {}, .patient⟩ (fun _ _ => "drawn") fields rep.diffs
        joinedRegistry).diffs fields := by
    refine ⟨_, _, _, rfl, rfl, rfl, ?_⟩
    decide +kernel
  obtain ⟨s, rep, fields, hs, hrep, hfields, hf, hnodup, hunnamed, hunused, hok, hchanged⟩ := hs
  have hfresh : FreshFor (fun _ _ => "drawn") rep.diffs := by
    refine ⟨fun _ _ _ _ => by decide, fun _ _ _ _ => hunused, fun m hm n hn _ _ _ _ _ => ?_⟩
    rw [hunnamed] at hm hn
    omega
  obtain ⟨out, hrun⟩ : ∃ out, run ⟨Registry.client, {}, .patient⟩ (fun _ _ => "drawn") fields
    rep.diffs joinedRegistry = out := ⟨_, rfl⟩
  rw [hrun] at hok hchanged
  obtain ⟨report, hok⟩ : ∃ report, out.result = .ok report := by
    cases hresult : out.result with
    | error e =>
      rw [hresult] at hok
      cases hok
    | ok report => exact ⟨report, rfl⟩
  exact ⟨s, rep, fields, out, report, hs, hrep, hfields, hrun, hok, hchanged,
    run_memberIds_iff hrep hfields hnodup hfresh sound_joinedRegistry {} .patient hrun hok hf⟩

/-! ### A unit that only leaves a group -/

/-- A unit that is in a group in the target and in none in the reference. -/
def leftGroup : Document where
  groupSets := [⟨⟨1⟩, ⟨1⟩, some "S", "Set"⟩, ⟨⟨2⟩, ⟨2⟩, some "S", "Set"⟩]
  groups := [⟨⟨1⟩, ⟨2⟩, some "G", "Group", [⟨2⟩]⟩]
  units := [{ UnitRecord.bare ⟨1⟩ ⟨1⟩ "Unit" with sourceRef := some "L" },
    { UnitRecord.bare ⟨2⟩ ⟨2⟩ "Unit" with sourceRef := some "L", groupIds := [⟨1⟩] }]

/-- A system that the target is a copy of. -/
def leftRegistry : Registry :=
  (({} : Registry).addUnit (.obj [("id", .str "L"), ("name", .str "Unit")])).addGroup "G" "Group" "S"
    ["L"]

/-- The comparison of the group set says that the unit is in no group any more, and after a
successful export it still is in the group. -/
theorem run_keeps_member_of_leftGroup :
    ∃ s rep fields, Store.ofDocument leftGroup = .ok s ∧
      wholeQuery.report s.source = .ok rep ∧ rep.fields = .ok fields ∧
      .groupSet "S" "Set" ∈ fields ∧
      (run ⟨Registry.client, {}, .patient⟩ (fun _ _ => "drawn") fields rep.diffs
        leftRegistry).result.toBool = true ∧
      ∃ d ∈ (run ⟨Registry.client, {}, .patient⟩ (fun _ _ => "drawn") fields rep.diffs
        leftRegistry).diffs, exportedRef? d = some "L" ∧
          ∃ c ∈ d.comparison? (Field.groupSet "S" "Set").key, c.status = .deleted ∧
            ∃ r ∈ (run ⟨Registry.client, {}, .patient⟩ (fun _ _ => "drawn") fields rep.diffs
              leftRegistry).session.remote.group? "G", inGroupSet "S" r = true ∧
                "L" ∈ memberIds r ∧ ¬ c.AsksFor "G" := by
  refine ⟨_, _, _, rfl, rfl, rfl, ?_⟩
  decide +kernel

end Export

end OrgTree
