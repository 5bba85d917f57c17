import OrgTree.Proofs.Diff.Account
import OrgTree.Proofs.Store.Forest
import OrgTree.Sync.Run

/-!
# The order of the diffs does not matter

A synchronization sorts its diffs by their paths first. The diffs of a report are about different
units, the paths of a store tell units apart, and on these paths the comparison is a strict order.
So there is one way to sort them, in whatever order they were handed over.

## Main statements

- `Query.units_of_report`: the units that the diffs of a report are about
- `Query.nodup_ids_of_report`: no two diffs are about the same unit
- `Sync.sort_compactDiffs_of_perm`: the diffs of a report are sorted in one way only
- `Sync.synchronize_eq_of_perm`
-/

namespace OrgTree

namespace Query

variable {s : Store} {q : Query} {rep : DiffReport}

theorem unit?_of_mapM_removedDiff {source : Source} {fields : List Field} {us : List Snapshot}
    {ds : List Diff} (h : us.mapM (q.removedDiff source fields) = .ok ds) :
    ds.map Diff.unit? = us.map some := by
  induction us generalizing ds with
  | nil =>
    cases h
    rfl
  | cons u us ih =>
    rw [List.mapM_cons] at h
    obtain ⟨d, hd, h⟩ := exists_of_bind_eq_ok h
    obtain ⟨ds', hds, h⟩ := exists_of_bind_eq_ok h
    obtain ⟨known, -, hd⟩ := exists_of_bind_eq_ok hd
    cases hd
    cases h
    rw [List.map_cons, List.map_cons, ih hds]
    rfl

/-- The diffs of a report are about the loaded reference units, and if asked for about the loaded
target units without counterpart. -/
theorem units_of_report (h : q.report s.source = .ok rep) :
    ∃ lost : List Snapshot,
      (lost = [] ∨ lost = unmatched (s.loadUnits q.reference q.referenceFilter)
        (s.loadUnits q.target q.targetFilter)) ∧
      rep.diffs.map Diff.unit? = (s.loadUnits q.reference q.referenceFilter ++ lost).map some := by
  obtain ⟨fields, -, h⟩ := exists_of_bind_eq_ok h
  obtain ⟨_, ⟨⟩, h⟩ := exists_of_bind_eq_ok h
  obtain ⟨_, ⟨⟩, h⟩ := exists_of_bind_eq_ok h
  have hmatched : ∀ us targets : List Snapshot,
      (us.map (diffOf fields targets)).map Diff.unit? = us.map some := by
    intro us targets
    rw [List.map_map]
    rfl
  split at h
  · obtain ⟨removed, hremoved, h⟩ := exists_of_bind_eq_ok h
    cases h
    refine ⟨_, .inr rfl, ?_⟩
    rw [List.map_append, List.map_append, hmatched, unit?_of_mapM_removedDiff hremoved]
  · cases h
    exact ⟨[], .inl rfl, by rw [List.append_nil, List.append_nil, hmatched]⟩

theorem exists_record_of_loadUnits {v : VersionId} {f : Filter} {u : Snapshot}
    (h : u ∈ s.loadUnits v f) : ∃ r ∈ s.units.rows, u = s.snapshotOf r := by
  obtain ⟨r, hr, rfl⟩ := List.mem_map.1 h
  exact ⟨r, List.mem_of_mem_filter hr, rfl⟩

theorem nodup_ids_of_ascending {us : List Snapshot} (h : Snapshot.Ascending us) :
    (us.map Snapshot.id).Nodup := by
  rw [List.Nodup, List.pairwise_map]
  refine h.imp fun {u v} hlt e => ?_
  rw [e, Id.lt_iff_toNat] at hlt
  omega

/-- The units that the diffs of a report are about are stored, and each of them has one diff. -/
theorem nodup_ids_of_report (h : q.report s.source = .ok rep) :
    ∃ us : List Snapshot, rep.diffs.map Diff.unit? = us.map some ∧ (us.map Snapshot.id).Nodup ∧
      ∀ u ∈ us, ∃ r ∈ s.units.rows, u = s.snapshotOf r := by
  have htargets := s.ascending_loadUnits q.target q.targetFilter
  obtain ⟨lost, hlost, hunits⟩ := units_of_report h
  have hmem : ∀ t ∈ lost, t ∈ s.loadUnits q.target q.targetFilter ∧ ∃ ref, t.Bears ref ∧
      ∀ u ∈ s.loadUnits q.reference q.referenceFilter, ¬ u.Bears ref := by
    rcases hlost with rfl | rfl
    · simp
    · intro t ht
      obtain ⟨ref, hfirst, hnone⟩ := (mem_unmatched_iff htargets).1 ht
      exact ⟨hfirst.mem, ref, hfirst.bears, hnone⟩
  have hrecord : ∀ u ∈ s.loadUnits q.reference q.referenceFilter ++ lost,
      ∃ r ∈ s.units.rows, u = s.snapshotOf r := by
    intro u hu
    rcases List.mem_append.1 hu with hu | hu
    · exact exists_record_of_loadUnits hu
    · exact exists_record_of_loadUnits (hmem u hu).1
  refine ⟨_, hunits, ?_, hrecord⟩
  rw [List.map_append, List.nodup_append]
  refine ⟨nodup_ids_of_ascending (s.ascending_loadUnits _ _), ?_, ?_⟩
  · rcases hlost with rfl | rfl
    · exact .nil
    · exact nodup_ids_of_ascending (ascending_unmatched htargets)
  · rintro i hi j hj rfl
    obtain ⟨u, hu, hui⟩ := List.mem_map.1 hi
    obtain ⟨t, ht, hti⟩ := List.mem_map.1 hj
    obtain ⟨-, ref, href, hnone⟩ := hmem t ht
    obtain ⟨r, hr, rfl⟩ := exists_record_of_loadUnits hu
    obtain ⟨r', hr', rfl⟩ := hrecord t (List.mem_append_right _ ht)
    -- one record cannot be matched and without counterpart
    have hsame : r = r' := Table.eq_of_key_eq hr hr' (hui.trans hti.symm)
    exact hnone _ hu (hsame ▸ href)

end Query

namespace Sync

variable {s : Store} {q : Query} {rep : DiffReport}

theorem path?_compact (d : Diff) : d.compact.path? = d.path? := by
  cases h : d.unit? <;> simp [Diff.compact, CompactDiff.path?, Diff.path?, h, Snapshot.compact]

theorem exists_record_of_report (hrep : q.report s.source = .ok rep) {d : Diff}
    (hd : d ∈ rep.diffs) : ∃ r ∈ s.units.rows, d.unit? = some (s.snapshotOf r) := by
  obtain ⟨us, hus, -, hrecord⟩ := Query.nodup_ids_of_report hrep
  have hmem := List.mem_map_of_mem (f := Diff.unit?) hd
  rw [hus] at hmem
  obtain ⟨u, hu, hdu⟩ := List.mem_map.1 hmem
  obtain ⟨r, hr, rfl⟩ := hrecord u hu
  exact ⟨r, hr, hdu.symm⟩

theorem isCanonical_path?_of_report (h : s.Linked) (hrep : q.report s.source = .ok rep) {d : Diff}
    (hd : d ∈ rep.diffs) : Path.IsCanonical d.path? := by
  obtain ⟨r, hr, hdr⟩ := exists_record_of_report hrep hd
  rw [Diff.path?, hdr]
  exact Store.isCanonical_pathOf? h.acyclic h.parents hr

/-- Two diffs of a report with equal paths are one diff. -/
theorem eq_of_compare_path? (h : s.Linked) (hrep : q.report s.source = .ok rep) {d e : Diff}
    (hd : d ∈ rep.diffs) (he : e ∈ rep.diffs) (heq : Path.compare d.path? e.path? = .eq) :
    d = e := by
  obtain ⟨us, hus, hnodup, -⟩ := Query.nodup_ids_of_report hrep
  have hunits : (rep.diffs.map Diff.unit?).Nodup := by
    rw [hus]
    exact (hnodup.of_map _).map fun _ _ => Option.some.inj
  obtain ⟨r, hr, hdr⟩ := exists_record_of_report hrep hd
  obtain ⟨r', hr', her⟩ := exists_record_of_report hrep he
  rw [Diff.path?, Diff.path?, hdr, her] at heq
  have hid : r.id = r'.id := h.eq_of_compare_pathOf? hr hr' heq
  have hsame : r = r' := Table.eq_of_key_eq hr hr' hid
  exact List.inj_on_of_nodup_map hunits hd he (by rw [hdr, her, hsame])

/-- The diffs of a report are sorted in one way only. -/
theorem sort_compactDiffs_of_perm (h : s.Linked) (hrep : q.report s.source = .ok rep)
    {ds : List CompactDiff} (hperm : ds.Perm (compactDiffs rep.diffs)) :
    Path.sort CompactDiff.path? ds = Path.sort CompactDiff.path? (compactDiffs rep.diffs) := by
  have hdiff : ∀ c ∈ ds, ∃ d ∈ rep.diffs, d.compact = c := fun c hc =>
    List.mem_map.1 (hperm.mem_iff.1 hc)
  refine Path.sort_eq_of_perm hperm (fun c hc => ?_) fun c hc c' hc' heq => ?_
  · obtain ⟨d, hd, rfl⟩ := hdiff c hc
    rw [path?_compact]
    exact (isCanonical_path?_of_report h hrep hd).isNumeric
  · obtain ⟨d, hd, rfl⟩ := hdiff c hc
    obtain ⟨e, he, rfl⟩ := hdiff c' hc'
    rw [path?_compact, path?_compact] at heq
    rw [eq_of_compare_path? h hrep hd he heq]

/-- Diffs that were computed from a store are applied alike in whatever order they are handed over:
the answer, the store, the counts, the generated references and the reports are the same. -/
theorem synchronize_eq_of_perm {s₀ : Store} {ops : List Store.Operation}
    (hs : s₀ = ∅ ∨ ∃ d, Store.ofDocument d = .ok s₀)
    (hrep : q.report (Store.afterAll ops s₀).source = .ok rep) {ds : List CompactDiff}
    (hperm : ds.Perm (compactDiffs rep.diffs)) (target : VersionId) (refs : RefSupply)
    (listener : Progress.Listener) (store : Store) :
    synchronize target refs listener ds store =
      synchronize target refs listener (compactDiffs rep.diffs) store := by
  have hlinked := (Store.reachable_afterAll ops hs).linked
  rw [synchronize, synchronize, sort_compactDiffs_of_perm hlinked hrep hperm]

/-- Two units of the reference version, one above the other and neither of them with a source
reference, and a unit that only the target version has. -/
def outgrown : Document where
  units := [UnitRecord.bare ⟨10⟩ ⟨1⟩ "Upper",
    { UnitRecord.bare ⟨9⟩ ⟨1⟩ "Lower" with parentId := some ⟨10⟩ },
    { UnitRecord.bare ⟨3⟩ ⟨2⟩ "Lost" with sourceRef := some "L" }]

/-- A query for names that also asks for lost units. -/
def lossQuery : Query where
  reference := ⟨1⟩
  target := ⟨2⟩
  showDeleted := true
  ignoreGroups := true
  fieldKeys := some ["name"]

theorem synchronize_eq_of_perm_outgrown :
    let refs : RefSupply := fun n _ => if n = 0 then "first" else "second"
    ∃ s rep, Store.ofDocument outgrown = .ok s ∧ lossQuery.report s.source = .ok rep ∧
      synchronize ⟨2⟩ refs .patient (compactDiffs rep.diffs).reverse s =
        synchronize ⟨2⟩ refs .patient (compactDiffs rep.diffs) s ∧
      (synchronize ⟨2⟩ refs .patient (compactDiffs rep.diffs) s).2.store.units.rows.map
          (fun r => (r.id, r.sourceRef, r.parentId)) =
        [(⟨3⟩, some "L", none), (⟨9⟩, some "second", some ⟨10⟩), (⟨10⟩, some "first", none),
          (⟨11⟩, some "first", none), (⟨12⟩, some "second", some ⟨11⟩)] := by
  obtain ⟨s, rep, hs, hrep, hrows⟩ : ∃ s rep, Store.ofDocument outgrown = .ok s ∧
      lossQuery.report s.source = .ok rep ∧
      (synchronize ⟨2⟩ (fun n _ => if n = 0 then "first" else "second") .patient
        (compactDiffs rep.diffs) s).2.store.units.rows.map
          (fun r => (r.id, r.sourceRef, r.parentId)) =
        [(⟨3⟩, some "L", none), (⟨9⟩, some "second", some ⟨10⟩), (⟨10⟩, some "first", none),
          (⟨11⟩, some "first", none), (⟨12⟩, some "second", some ⟨11⟩)] :=
    ⟨_, _, rfl, rfl, by decide +kernel⟩
  have hunchanged : lossQuery.report (Store.afterAll [] s).source = .ok rep := hrep
  exact ⟨s, rep, hs, hrep, synchronize_eq_of_perm (.inr ⟨_, hs⟩) hunchanged
    (List.reverse_perm _) _ _ _ s, hrows⟩

end Sync

end OrgTree
