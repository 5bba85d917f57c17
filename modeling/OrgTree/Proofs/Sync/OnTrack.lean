import OrgTree.Proofs.Sync.Tracking

/-!
# Keeping track of the reference units

Every diff of a run keeps track of the reference units, so after the run all of them are processed.

## Main definitions

- `Store.standIn?`: the unit of a version with the source reference of another unit
- `Sync.Comparable`: two versions of a store that a run can work on
- `Sync.OnTrack`: the invariant of a run, with room for the units that are still to be created

## Main statements

- `Sync.OnTrack.create`, `Sync.OnTrack.update`, `Sync.OnTrack.skip`: the three kinds of a step
- `Sync.onTrack_of_synchronize`: all reference units are on track after a run
-/

namespace OrgTree

namespace Store

variable {s s' : Store}

/-! ### Links after writing -/

theorem links_eq_of_plain (h : ∀ id, (s'.units.find? id).map UnitRecord.plain =
    (s.units.find? id).map UnitRecord.plain) : s'.links = s.links := by
  have hplain : ∀ t : Store, t.links = fun id =>
      ((t.units.find? id).map UnitRecord.plain).map UnitRecord.link := by
    intro t
    funext id
    rw [Option.map_map]
    rfl
  rw [hplain, hplain]
  funext id
  rw [h id]

theorem links_modify {f : UnitRecord → UnitRecord} {g : Link → Link}
    (hkey : ∀ r, (f r).id = r.id) (hlink : ∀ r, (f r).link = g r.link) (id : UnitId) :
    ({ s with units := s.units.modify id f } : Store).links =
      Function.update s.links id ((s.links id).map g) := by
  funext i
  rw [links, Table.find?_modify (f := f) hkey]
  by_cases hi : id = i
  · subst hi
    rw [if_pos rfl, Function.update_self, links, Option.map_map, Option.map_map]
    exact congrArg (fun k => (s.units.find? id).map k) (funext hlink)
  · rw [if_neg hi, Function.update_of_ne (Ne.symm hi)]
    rfl

theorem links_insert {n : NewUnit} {id : UnitId} :
    ({ s with units := s.units.insert (n.toRecord id) } : Store).links =
      Function.update s.links id (some ⟨n.version, n.sourceRef, n.parentId⟩) := by
  funext i
  have hkey : Keyed.key (n.toRecord id) = id := rfl
  rw [links, Table.find?_insert, hkey]
  by_cases hi : id = i
  · subst hi
    rw [if_pos rfl, Function.update_self]
    rfl
  · rw [if_neg hi, Function.update_of_ne (Ne.symm hi)]
    rfl

theorem isSome_links (s : Store) (id : UnitId) :
    (s.links id).isSome = (s.units.find? id).isSome := by
  rw [links, Option.isSome_map]

/-- Room depends on what is stored under which identifier. -/
theorem hasRoom_of_links {n : Nat} (h : s.units.HasRoom n)
    (hlinks : ∀ id, (s'.links id).isSome = true → (s.links id).isSome = true) :
    s'.units.HasRoom n := by
  refine h.of_isSome fun id hid => ?_
  rw [← isSome_links] at hid ⊢
  exact hlinks id hid

/-- The unit of a version with the source reference of another unit. -/
def standIn? (s : Store) (v : VersionId) (id : UnitId) : Option UnitRecord :=
  (s.units.find? id).bind (s.counterpart? v)

end Store

namespace Sync

open Outcome Store

variable {s : Store} {R T : VersionId} {fields : List Field} {refs : RefSupply} {r t : UnitRecord}
  {done : List UnitId} {σ σ' : Session} {label : String}

/-- Two versions of a sound store with unique source references. -/
structure Comparable (s : Store) (R T : VersionId) : Prop where
  sound : s.Sound
  ne : R ≠ T
  uniqueR : s.UniqueRefs R
  uniqueT : s.UniqueRefs T

theorem compact_parentId (hsound : s.Sound) (hr : r ∈ s.units.rows) :
    (s.snapshotOf r).compact.parentId = r.parentId := by
  simp only [Snapshot.compact, snapshotOf_parent?]
  cases hp : r.parentId with
  | none => rfl
  | some p =>
    obtain ⟨q, hq, -⟩ := hsound.parents r hr p hp
    have hid : q.id = p := Table.key_of_find? hq
    simp [hq, hid]

theorem compact_parentRef (s : Store) (r : UnitRecord) :
    (s.snapshotOf r).compact.parentRef = s.parentRef? r :=
  snapshotOf_parentRef? s r

/-- The parent of a stored unit as a record of its version. -/
theorem exists_parent (hsound : s.Sound) {p : UnitId} (hr : r ∈ s.unitsOf R)
    (hp : r.parentId = some p) :
    ∃ q ∈ s.unitsOf R, q.id = p ∧ s.parentRef? r = q.sourceRef := by
  obtain ⟨hrow, hv⟩ := mem_unitsOf.1 hr
  obtain ⟨q, hq, hqv⟩ := hsound.parents r hrow p hp
  refine ⟨q, mem_unitsOf.2 ⟨Table.mem_rows_of_find? hq, hqv.trans hv⟩, Table.key_of_find? hq, ?_⟩
  rw [parentRef?, hp, Option.bind_some, hq]
  rfl

/-! ### Creating -/

/-- Nothing in the target has the source reference of a unit that is still to be created. -/
theorem Tracks.ref_ne_of_named {x : String} {placed : List (UnitId × UnitId)} {drawn : Nat}
    {L : UnitId → Option Link} {i : UnitId} {m : Link}
    (h : Tracks s R T fields refs done L placed drawn) (hcomp : Comparable s R T)
    (hfresh : FreshRefs s R refs) (hr : r ∈ s.unitsOf R) (hdone : r.id ∉ done)
    (hnone : s.counterpart? T r = none) (hx : r.ref? = some x) (hm : L i = some m)
    (hv : m.version = T) : m.ref ≠ some x := by
  obtain ⟨hrow, hrv⟩ := mem_unitsOf.1 hr
  intro href
  rcases h.origin i m hm hv with ⟨t, ht, -, htr⟩ | ⟨q, hq, hqdone, -, l, hl, hlr⟩
  · obtain ⟨htrow, htv⟩ := mem_unitsOf.1 ht
    rw [counterpart?, hx, Option.bind_some] at hnone
    exact findRecord?_eq_none_iff.1 hnone t htrow htv (htr.trans href)
  · obtain ⟨hqrow, hqv⟩ := mem_unitsOf.1 hq
    cases hqref : q.ref? with
    | some y =>
      obtain ⟨l', hl', -, hlr'⟩ := h.original q hq (.inr (by rw [hqref]; simp))
      rw [hl] at hl'
      cases hl'
      have hqx : q.ref? = some x := UnitRecord.ref?_eq_some_iff.2
        ⟨hlr'.symm.trans (hlr.trans href), (UnitRecord.ref?_eq_some_iff.1 hx).2⟩
      rw [hcomp.uniqueR q hqrow r hrow hqv hrv x hqx hx] at hqdone
      exact hdone hqdone
    | none =>
      obtain ⟨l', n, hl', -, hn, hlr'⟩ := h.generated q hq hqdone hqref
      rw [hl] at hl'
      cases hl'
      have hadd := h.drawn_add
      refine hfresh.unused n (by omega) q.id ((mem_unnamedIds_iff hq).2 hqref) r hrow ?_
      rw [(UnitRecord.ref?_eq_some_iff.1 hx).1, ← hlr', hlr, href]

/-- The parent of a new unit stands in for the parent of the reference unit. -/
theorem stands_of_newParent {parent : Option UnitId}
    (h : Tracks s R T fields refs done σ.store.links σ.placed σ.drawn) (hsound : s.Sound)
    (hr : r ∈ s.unitsOf R)
    (hparent : (newParent T (s.snapshotOf r).compact).run.run σ = (.ok parent, σ)) :
    (r.parentId = none → parent = none) ∧
      ∀ p, r.parentId = some p → ∃ ip, parent = some ip ∧ Stands σ.store.links T p ip := by
  obtain ⟨-, hparent⟩ := run_newParent_eq_ok_iff.1 hparent
  rw [compact_parentRef, compact_parentId hsound (mem_unitsOf.1 hr).1] at hparent
  constructor
  · intro hp
    have hnone : s.parentRef? r = none := by rw [parentRef?, hp]; rfl
    rw [hnone, hp] at hparent
    exact hparent
  · intro p hp
    obtain ⟨q, hq, rfl, href⟩ := exists_parent hsound hr hp
    have hqref : (s.parentRef? r).bind Text.nonBlank? = q.ref? := by rw [href]; rfl
    rw [hqref, hp] at hparent
    cases hy : q.ref? with
    | some y =>
      rw [hy] at hparent
      obtain ⟨w, hw, rfl⟩ := hparent
      obtain ⟨hwrow, hwv, hwy⟩ := mem_of_findRecord? hw
      obtain ⟨hqy, hblank⟩ := UnitRecord.ref?_eq_some_iff.1 hy
      obtain ⟨l, hl, -, hlr⟩ := h.original q hq (.inr (by rw [hy]; simp))
      exact ⟨w.id, rfl, l, w.link, y, hl, hlr.trans hqy, hblank, links_of_mem hwrow, hwv, hwy⟩
    | none =>
      rw [hy] at hparent
      obtain ⟨ip, hip, rfl⟩ := hparent
      exact ⟨ip, rfl, (h.placed_stands q.id ip hip).2.2⟩

/-- The links of a store after a unit was given the reference that it needs. -/
theorem links_of_ensureRef {x : String} {σ₀ : Session} {l : Link}
    (hensure : (ensureRef refs (s.snapshotOf r).compact).run.run σ = (.ok x, σ₀))
    (hl : σ.store.links r.id = some l) (hlr : l.ref = r.sourceRef) :
    IsDraw refs r σ.drawn σ₀.drawn x ∧ σ₀.placed = σ.placed ∧
      σ₀.store.links =
        Function.update σ.store.links r.id ((σ.store.links r.id).map fun l =>
          { l with ref := some x }) := by
  obtain ⟨hplaced, ⟨hx, rfl⟩ | ⟨hx, rfl, hdrawn, -, hstore⟩⟩ := ensureRef_eq_ok hensure
  · have hx' : r.ref? = some x := hx
    refine ⟨.inl ⟨hx', rfl⟩, rfl, ?_⟩
    have hsource := (UnitRecord.ref?_eq_some_iff.1 hx').1
    have hself : ({ l with ref := some x } : Link) = l := by
      rw [← hsource, ← hlr]
    rw [hl, Option.map_some, hself, ← hl, Function.update_eq_self]
  · refine ⟨.inr ⟨hx, rfl, hdrawn⟩, hplaced, ?_⟩
    rw [hstore]
    exact links_modify (f := UnitRecord.withRef _) (fun _ => rfl) (fun _ => rfl) r.id

theorem links_update_isSome {L : UnitId → Option Link} {i : UnitId} {m : Link}
    (hm : (L i).isSome = true) (id : UnitId) :
    (Function.update L i (some m) id).isSome = true → (L id).isSome = true := by
  intro h
  by_cases hid : id = i
  · rw [hid]
    exact hm
  · rw [Function.update_of_ne hid] at h
    exact h

theorem mem_newIds_iff (hr : r ∈ s.unitsOf R) :
    r.id ∈ newIds s R T ↔ s.counterpart? T r = none := by
  simp only [newIds, List.mem_map, List.mem_filter, Option.isNone_iff_eq_none]
  constructor
  · rintro ⟨q, ⟨hq, hnone⟩, hid⟩
    rw [← Table.eq_of_key_eq (mem_unitsOf.1 hq).1 (mem_unitsOf.1 hr).1 hid]
    exact hnone
  · intro h
    exact ⟨r, ⟨hr, h⟩, rfl⟩

theorem nodup_newIds (s : Store) (R T : VersionId) : (newIds s R T).Nodup :=
  (s.nodup_unitsOf R).sublist (List.filter_sublist.map _)

/-- What holds of the session after the reference units `done` were processed. -/
structure OnTrack (s : Store) (R T : VersionId) (fields : List Field) (refs : RefSupply)
    (done : List UnitId) (σ : Session) : Prop where
  tracks : Tracks s R T fields refs done σ.store.links σ.placed σ.drawn
  room : σ.store.units.HasRoom (remaining (newIds s R T) done)

theorem OnTrack.init (huniqueT : s.UniqueRefs T) (hroom : s.units.HasRoom (newIds s R T).length) :
    OnTrack s R T fields refs [] { store := s } := by
  refine ⟨.init huniqueT, ?_⟩
  have hrem : remaining (newIds s R T) [] = (newIds s R T).length := by
    simp [remaining]
  rw [hrem]
  exact hroom

theorem OnTrack.of_samePlain (h : OnTrack s R T fields refs done σ) (hsame : σ.SamePlain σ') :
    OnTrack s R T fields refs done σ' := by
  have hlinks := links_eq_of_plain hsame.units
  refine ⟨?_, hasRoom_of_links h.room fun id hid => ?_⟩
  · rw [hlinks, hsame.placed, hsame.drawn]
    exact h.tracks
  · rw [hlinks] at hid
    exact hid

/-- A created unit keeps the session on track. -/
theorem OnTrack.create (h : OnTrack s R T fields refs done σ) (hcomp : Comparable s R T)
    (hfresh : FreshRefs s R refs) (hr : r ∈ s.unitsOf R) (hdone : r.id ∉ done)
    (hnone : s.counterpart? T r = none)
    (happly : (create T refs (s.diffFor T fields r).compact).run.run σ = (.ok label, σ')) :
    OnTrack s R T fields refs (done ++ [r.id]) σ' := by
  obtain ⟨l, hl, -, hlr⟩ := h.tracks.original r hr (.inl hdone)
  have hrem := remaining_append_of_mem (nodup_newIds s R T) ((mem_newIds_iff hr).2 hnone) hdone
  have hroom := h.room
  rw [hrem] at hroom
  obtain ⟨unit, hunit, hcases⟩ := create_eq_ok happly
  cases hunit
  rcases hcases with ⟨q, -, hexisting, -⟩ |
    ⟨parent, x, σ₀, id, s₁, σ₁, -, hparent, hensure, hcreate, hstore, hdrawn, hplaced, hgroups⟩
  · -- the target cannot have the unit by now
    exfalso
    obtain ⟨x, hx, hq⟩ := Option.bind_eq_some_iff.1 hexisting
    obtain ⟨hqrow, hqv, hqx⟩ := mem_of_findRecord? hq
    exact h.tracks.ref_ne_of_named hcomp hfresh hr hdone hnone hx (links_of_mem hqrow) hqv hqx
  · obtain ⟨hroot, hunder⟩ := stands_of_newParent h.tracks hcomp.sound hr hparent
    obtain ⟨hdraw, hplaced₀, hlinks₀⟩ := links_of_ensureRef hensure hl hlr
    obtain ⟨-, -, rfl, rfl⟩ := run_createUnit_eq_ok_iff.1 hcreate
    have hisSome : ∀ i, (σ₀.store.links i).isSome = true → (σ.store.links i).isSome = true := by
      intro i
      rw [hlinks₀, hl, Option.map_some]
      exact links_update_isSome (by rw [hl]; rfl) i
    have hroom₀ : σ₀.store.units.HasRoom (remaining (newIds s R T) (done ++ [r.id]) + 1) :=
      hasRoom_of_links hroom hisSome
    have hnew : σ.store.links σ₀.store.units.nextId = none := by
      have hfind := Table.find?_nextId (hroom₀.mono (by omega))
      have hlinks : (σ₀.store.links σ₀.store.units.nextId).isSome = false := by
        rw [isSome_links, hfind]
        rfl
      have hne : σ₀.store.units.nextId ≠ r.id := by
        intro e
        rw [e, hlinks₀, Function.update_self, hl] at hlinks
        cases hlinks
      rw [hlinks₀, Function.update_of_ne hne] at hlinks
      simpa using hlinks
    have hlinks : σ₁.store.links =
        createdLinks σ.store.links T r.id σ₀.store.units.nextId x parent := by
      rw [hstore, links_insert, hlinks₀]
      rfl
    have htracks := h.tracks.create hcomp.ne hcomp.uniqueR hfresh hr hdone hnone hdraw
      (fun hx j m hm hv => h.tracks.ref_ne_of_named hcomp hfresh hr hdone hnone hx hm hv)
      hnew hroot hunder
    have htrack₁ : OnTrack s R T fields refs (done ++ [r.id]) σ₁ := by
      constructor
      · rw [hlinks, hplaced, hdrawn, hplaced₀]
        exact htracks
      · rw [hstore]
        exact hroom₀.insert rfl
    exact htrack₁.of_samePlain (reconcileGroups_samePlain hgroups)

/-- An edited unit keeps the session on track if its parent is what the reference says. -/
theorem OnTrack.edit {m : Link} {e : Option UnitId} (h : OnTrack s R T fields refs done σ)
    (hcomp : Comparable s R T) (hr : r ∈ s.unitsOf R) (hdone : r.id ∉ done)
    (ht : s.counterpart? T r = some t) (hm : σ.store.links t.id = some m)
    (hshow : .parent ∈ fields → Shows σ.store.links T e (s.parentRef? r))
    (hlinks : σ'.store.links = Function.update σ.store.links t.id (some { m with parent := e }))
    (hplaced : σ'.placed = σ.placed) (hdrawn : σ'.drawn = σ.drawn) :
    OnTrack s R T fields refs (done ++ [r.id]) σ' := by
  have hnot : r.id ∉ newIds s R T := by
    rw [mem_newIds_iff hr, ht]
    simp
  constructor
  · rw [hlinks, hplaced, hdrawn]
    exact h.tracks.edit hcomp.uniqueR hr hdone ht hm hshow
  · rw [remaining_append_of_not_mem hnot]
    refine hasRoom_of_links h.room fun id => ?_
    rw [hlinks]
    exact links_update_isSome (by rw [hm]; rfl) id

theorem same_parent_iff {q : UnitRecord} :
    Field.parent.same (Field.parent.access (s.snapshotOf r)) (Field.parent.access (s.snapshotOf q)) =
      true ↔ s.parentRef? r = s.parentRef? q := by
  rw [access_parent, access_parent]
  cases s.parentRef? r <;> cases s.parentRef? q <;>
    simp [Field.same, Field.sameValue, FieldValue.equal]

/-- A counterpart that was not touched shows the reference of its parent. -/
theorem Tracks.shows_of_waiting {placed : List (UnitId × UnitId)} {drawn : Nat}
    {L : UnitId → Option Link} (h : Tracks s R T fields refs done L placed drawn)
    (hcomp : Comparable s R T) (ht : t ∈ s.unitsOf T) :
    Shows L T t.parentId (s.parentRef? t) := by
  cases hp : t.parentId with
  | none =>
    left
    rw [parentRef?, hp]
    exact ⟨rfl, rfl⟩
  | some p =>
    obtain ⟨q, hq, rfl, href⟩ := exists_parent hcomp.sound ht hp
    obtain ⟨l, hl, hv, hlr⟩ := h.kept q hq
    exact .inr ⟨q.id, l, rfl, hl, hv, hlr.trans href.symm⟩

theorem eq_parent_of_ofKey? {f : Field} (h : Field.ofKey? f.key = some .parent) : f = .parent := by
  have hkey := Field.key_of_ofKey? h
  cases f with
  | parent => rfl
  | name => exact absurd hkey (by decide)
  | geometry => exact absurd hkey (by decide)
  | openingDate => exact absurd hkey (by decide)
  | closedDate => exact absurd hkey (by decide)
  | groupSet ref title =>
    have := congrArg (fun k => ':' ∈ String.toList k) hkey
    simp [Field.key, Field.toList_tripleKey] at this
  | group ref title =>
    have := congrArg (fun k => ':' ∈ String.toList k) hkey
    simp [Field.key, Field.toList_tripleKey] at this

theorem optionJson_text (v : Option String) :
    FieldValue.optionJson (v.map .text) = match v with
      | none => .null
      | some x => .str x := by
  cases v <;> rfl

/-! ### Editing -/

/-- What the comparisons that are not the same put into a patch for the parent is what the
reference shows. -/
theorem shows_of_patch {patch : Patch} {unit : CompactUnit} {m : Link}
    (h : OnTrack s R T fields refs done σ) (hcomp : Comparable s R T) (ht : t ∈ s.unitsOf T)
    (hm : m.parent = t.parentId) (hfield : .parent ∈ fields)
    (hcounterpart : s.counterpart? T r = some t)
    (hpatch : ((s.changesFor T fields r).foldlM (patchField T unit) {}).run.run σ =
      (.ok patch, σ)) :
    Shows σ.store.links T (patch.parentId.apply m.parent) (s.parentRef? r) := by
  obtain ⟨-, hkeep, hedit⟩ := foldlM_patchField_eq_ok hpatch
  by_cases hsame : s.parentRef? t = s.parentRef? r
  · -- the parent is left alone, since it shows the reference already
    have hnone : ∀ c ∈ s.changesFor T fields r, Field.ofKey? c.field ≠ some .parent := by
      intro c hc hparent
      obtain ⟨f, hf, hchange, rfl⟩ := (mem_changesFor_iff hcounterpart).1 hc
      obtain rfl := eq_parent_of_ofKey? hparent
      rw [same_parent_iff.2 hsame] at hchange
      cases hchange
    have hempty : patch.parentId = .keep := hkeep .parent hnone
    rw [hempty, ← hsame]
    change Shows _ _ m.parent _
    rw [hm]
    exact h.tracks.shows_of_waiting hcomp ht
  · have hafter : ∀ c ∈ s.changesFor T fields r, Field.ofKey? c.field = some .parent →
        c.after = FieldValue.optionJson ((s.parentRef? r).map .text) := by
      intro c hc hparent
      obtain ⟨f, hf, -, rfl⟩ := (mem_changesFor_iff hcounterpart).1 hc
      obtain rfl := eq_parent_of_ofKey? hparent
      rw [← access_parent]
      rfl
    have hex : ∃ c ∈ s.changesFor T fields r, Field.ofKey? c.field = some .parent := by
      refine ⟨_, (mem_changesFor_iff hcounterpart).2 ⟨.parent, hfield, ?_, rfl⟩, ?_⟩
      · rw [← Bool.not_eq_true, same_parent_iff]
        exact hsame
      · exact Field.ofKey?_key (f := .parent) trivial
    rcases hedit .parent _ hafter hex with ⟨hj, he⟩ | ⟨ref, q, hj, hq, he⟩
    · rw [optionJson_text] at hj
      left
      refine ⟨by rw [he]; rfl, ?_⟩
      cases hp : s.parentRef? r with
      | none => rfl
      | some x =>
        rw [hp] at hj
        cases hj
    · rw [optionJson_text] at hj
      obtain ⟨hqrow, hqv, hqx⟩ := mem_of_findRecord? hq
      right
      refine ⟨q.id, q.link, by rw [he]; rfl, links_of_mem hqrow, hqv, ?_⟩
      cases hp : s.parentRef? r with
      | none =>
        rw [hp] at hj
        cases hj
      | some x =>
        rw [hp] at hj
        cases hj
        exact hqx

theorem OnTrack.update (h : OnTrack s R T fields refs done σ) (hcomp : Comparable s R T)
    (hr : r ∈ s.unitsOf R) (hdone : r.id ∉ done) (ht : s.counterpart? T r = some t)
    (happly : (update T (s.diffFor T fields r).compact).run.run σ = (.ok label, σ')) :
    OnTrack s R T fields refs (done ++ [r.id]) σ' := by
  obtain ⟨-, -, htrow, htv, -⟩ := counterpart?_eq_some ht
  obtain ⟨m, hm, hmp⟩ := h.tracks.waiting r hr hdone t ht
  obtain ⟨unit, patch, σ₁, htarget, hpatch, hwrite, hgroups⟩ := update_eq_ok happly
  have hunit : unit.id = t.id := by
    rw [target_diffFor ht] at htarget
    rw [← Option.some.inj htarget]
    rfl
  have hlinks : σ₁.store.links =
      Function.update σ.store.links t.id (some { m with parent := patch.parentId.apply m.parent }) ∧
      σ₁.placed = σ.placed ∧ σ₁.drawn = σ.drawn := by
    rcases hwrite with ⟨hempty, rfl⟩ | ⟨-, hplaced, hdrawn, hupdate⟩
    · refine ⟨?_, rfl, rfl⟩
      have hself : ({ m with parent := patch.parentId.apply m.parent } : Link) = m := by
        rw [eq_of_isEmpty hempty]
        rfl
      rw [hself, ← hm, Function.update_eq_self]
    · obtain ⟨-, -, -, hstore⟩ := run_updateUnit_eq_ok_iff.1 hupdate
      refine ⟨?_, hplaced, hdrawn⟩
      rw [hstore, hunit]
      rw [links_modify (f := patch.apply)
        (g := fun l => { l with parent := patch.parentId.apply l.parent })
        (fun _ => rfl) (fun _ => rfl), hm]
      rfl
  have htrack₁ : OnTrack s R T fields refs (done ++ [r.id]) σ₁ := by
    refine h.edit hcomp hr hdone ht hm (fun hfield => ?_) hlinks.1 hlinks.2.1 hlinks.2.2
    exact shows_of_patch h hcomp (mem_unitsOf.2 ⟨htrow, htv⟩) hmp hfield ht hpatch
  exact htrack₁.of_samePlain (reconcileGroups_samePlain hgroups)

/-- A unit that is the same keeps the session on track. -/
theorem OnTrack.skip (h : OnTrack s R T fields refs done σ) (hcomp : Comparable s R T)
    (hr : r ∈ s.unitsOf R) (hdone : r.id ∉ done) (ht : s.counterpart? T r = some t)
    (hstatus : (s.diffFor T fields r).status = .same) (hagree : σ.Agree σ') :
    OnTrack s R T fields refs (done ++ [r.id]) σ' := by
  obtain ⟨-, -, htrow, htv, -⟩ := counterpart?_eq_some ht
  obtain ⟨m, hm, hmp⟩ := h.tracks.waiting r hr hdone t ht
  refine h.edit (e := m.parent) hcomp hr hdone ht hm (fun hfield => ?_) ?_ hagree.placed hagree.drawn
  · have hsame := (diffFor_status_eq_same_iff ht).1 hstatus .parent hfield
    rw [hmp, ← same_parent_iff.1 hsame]
    exact h.tracks.shows_of_waiting hcomp (mem_unitsOf.2 ⟨htrow, htv⟩)
  · rw [hagree.store, ← hm, Function.update_eq_self]

/-- Every step keeps track of the reference units. -/
theorem OnTrack.apply (h : OnTrack s R T fields refs done σ) (hcomp : Comparable s R T)
    (hfresh : FreshRefs s R refs) (hr : r ∈ s.unitsOf R) (hdone : r.id ∉ done)
    (happly : (apply T refs (s.diffFor T fields r).compact).run.run σ = (.ok label, σ')) :
    OnTrack s R T fields refs (done ++ [r.id]) σ' := by
  have hcompact : (s.diffFor T fields r).compact.status = (s.diffFor T fields r).status := rfl
  cases ht : s.counterpart? T r with
  | none =>
    have hstatus := diffFor_status_of_none fields ht
    rcases apply_cases happly with ⟨-, hcreate⟩ | ⟨hmodified, -⟩ | ⟨hnew, -⟩
    · exact h.create hcomp hfresh hr hdone ht hcreate
    · rw [hcompact, hstatus] at hmodified
      cases hmodified
    · rw [hcompact, hstatus] at hnew
      exact absurd rfl hnew
  | some t =>
    rcases apply_cases happly with ⟨hnew, -⟩ | ⟨-, hupdate⟩ | ⟨-, hnot, hagree⟩
    · rw [hcompact] at hnew
      rcases diffFor_status_of_some fields ht with hs | hs
      · rw [hs] at hnew
        cases hnew
      · rw [hs] at hnew
        cases hnew
    · exact h.update hcomp hr hdone ht hupdate
    · rcases diffFor_status_of_some fields ht with hs | hs
      · exact h.skip hcomp hr hdone ht hs hagree
      · rw [hcompact, hs] at hnot
        exact absurd rfl hnot

/-! ### Stand-ins -/

/-- The target units of a session on track have different source references. -/
theorem OnTrack.uniqueRefs (h : OnTrack s R T fields refs done σ) : σ.store.UniqueRefs T := by
  intro r hr q hq hrv hqv ref hrr hqr
  obtain ⟨hrr, hblank⟩ := UnitRecord.ref?_eq_some_iff.1 hrr
  obtain ⟨hqr, -⟩ := UnitRecord.ref?_eq_some_iff.1 hqr
  exact Table.eq_of_key_eq hr hq
    (h.tracks.unique r.id q.id r.link q.link ref (links_of_mem hr) (links_of_mem hq) hrv hqv hrr hqr
      hblank)

/-- The target unit with the source reference of a reference unit is its stand-in. -/
theorem OnTrack.standIn?_of_stands {id i : UnitId} (h : OnTrack s R T fields refs done σ)
    (hstands : Stands σ.store.links T id i) :
    ∃ t, σ.store.standIn? T id = some t ∧ t ∈ σ.store.units.rows ∧ t.id = i := by
  obtain ⟨l, m, x, hl, hlx, hblank, hm, hv, hmx⟩ := hstands
  obtain ⟨q, hq, rfl⟩ := links_eq_some_iff.1 hl
  obtain ⟨t, ht, rfl⟩ := links_eq_some_iff.1 hm
  refine ⟨t, ?_, Table.mem_rows_of_find? ht, Table.key_of_find? ht⟩
  have hqx : q.ref? = some x := UnitRecord.ref?_eq_some_iff.2 ⟨hlx, hblank⟩
  rw [standIn?, hq, Option.bind_some, counterpart?, hqx, Option.bind_some,
    findRecord?_eq_some_iff h.uniqueRefs hblank]
  exact ⟨Table.mem_rows_of_find? ht, hv, hmx⟩

/-- The counterpart of a unit stands in for it. -/
theorem OnTrack.stands_of_counterpart? (h : OnTrack s R T fields refs done σ)
    (hr : r ∈ s.unitsOf R) (ht : s.counterpart? T r = some t) :
    Stands σ.store.links T r.id t.id := by
  obtain ⟨x, hx, htrow, htv, htx⟩ := counterpart?_eq_some ht
  obtain ⟨l, hl, -, hlr⟩ := h.tracks.original r hr (.inr (by rw [hx]; simp))
  obtain ⟨m, hm, hmv, hmr⟩ := h.tracks.kept t (mem_unitsOf.2 ⟨htrow, htv⟩)
  obtain ⟨hsource, hblank⟩ := UnitRecord.ref?_eq_some_iff.1 hx
  exact ⟨l, m, x, hl, hlr.trans hsource, hblank, hm, hmv, hmr.trans htx⟩

/-- Every processed unit has a stand-in. -/
theorem OnTrack.exists_stands (h : OnTrack s R T fields refs done σ) (hr : r ∈ s.unitsOf R)
    (hdone : r.id ∈ done) : ∃ i, Stands σ.store.links T r.id i := by
  cases ht : s.counterpart? T r with
  | some t => exact ⟨t.id, h.stands_of_counterpart? hr ht⟩
  | none =>
    obtain ⟨i, -, hi, -⟩ := h.tracks.created r hr hdone ht
    exact ⟨i, (h.tracks.placed_stands r.id i hi).2.2⟩

theorem OnTrack.eq_of_stands {id i j : UnitId} (h : OnTrack s R T fields refs done σ)
    (hi : Stands σ.store.links T id i) (hj : Stands σ.store.links T id j) : i = j := by
  obtain ⟨t, ht, -, rfl⟩ := h.standIn?_of_stands hi
  obtain ⟨u, hu, -, rfl⟩ := h.standIn?_of_stands hj
  rw [ht] at hu
  cases hu
  rfl

/-! ### Runs -/

/-- The reference units of diffs. -/
def doneIds (diffs : List CompactDiff) : List UnitId :=
  diffs.filterMap fun d => d.reference.map CompactUnit.id

theorem doneIds_map_diffFor (s : Store) (T : VersionId) (fields : List Field)
    (rs : List UnitRecord) :
    doneIds (rs.map fun r => (s.diffFor T fields r).compact) = rs.map UnitRecord.id := by
  rw [doneIds, List.filterMap_map, ← List.filterMap_eq_map]
  rfl

theorem doneIds_append_singleton (done : List CompactDiff) (d : CompactDiff) :
    doneIds (done ++ [d]) = doneIds done ++ (d.reference.map CompactUnit.id).toList := by
  rw [doneIds, List.filterMap_append]
  cases h : d.reference <;> simp [doneIds, h]

theorem doneIds_compactDiffs {removed : List Diff} (hremoved : ∀ d ∈ removed, d.IsRemoved) :
    doneIds (compactDiffs ((s.unitsOf R).map (s.diffFor T fields) ++ removed)) =
      (s.unitsOf R).map UnitRecord.id := by
  have hnone : doneIds (compactDiffs removed) = [] := by
    rw [doneIds, compactDiffs, List.filterMap_map, List.filterMap_eq_nil_iff]
    intro d hd
    simp [Diff.compact, (hremoved d hd).1]
  have hsome : doneIds (compactDiffs ((s.unitsOf R).map (s.diffFor T fields))) =
      (s.unitsOf R).map UnitRecord.id := by
    rw [compactDiffs, List.map_map]
    exact doneIds_map_diffFor s T fields (s.unitsOf R)
  rw [compactDiffs, List.map_append, doneIds, List.filterMap_append]
  change doneIds (compactDiffs _) ++ doneIds (compactDiffs removed) = _
  rw [hsome, hnone, List.append_nil]

variable {removed : List Diff} {all doneDiffs rest : List CompactDiff} {d : CompactDiff}

/-- The next diff of a run is about a reference unit that was not processed yet, or about none. -/
theorem next_diff_cases (hremoved : ∀ d ∈ removed, d.IsRemoved)
    (hall : all.Perm (compactDiffs ((s.unitsOf R).map (s.diffFor T fields) ++ removed)))
    (hsplit : all = doneDiffs ++ d :: rest) :
    (∃ r ∈ s.unitsOf R, d = (s.diffFor T fields r).compact ∧ r.id ∉ doneIds doneDiffs) ∨
      d.reference = none ∧ d.status ≠ .new ∧ d.status ≠ .modified := by
  have hd : d ∈ compactDiffs ((s.unitsOf R).map (s.diffFor T fields) ++ removed) := by
    rw [← hall.mem_iff, hsplit]
    simp
  obtain ⟨d', hd', rfl⟩ := List.mem_map.1 hd
  rcases List.mem_append.1 hd' with hd' | hd'
  · obtain ⟨r, hr, rfl⟩ := List.mem_map.1 hd'
    refine .inl ⟨r, hr, rfl, fun hdone => ?_⟩
    have hnodup : (doneIds all).Nodup := by
      have hperm : (doneIds all).Perm _ := hall.filterMap _
      rw [hperm.nodup_iff]
      change (doneIds (compactDiffs _)).Nodup
      rw [doneIds_compactDiffs hremoved]
      exact s.nodup_unitsOf R
    have hids : doneIds all = doneIds doneDiffs ++ r.id :: doneIds rest := by
      rw [hsplit, doneIds, List.filterMap_append]
      rfl
    rw [hids, List.nodup_append] at hnodup
    exact hnodup.2.2 r.id hdone r.id (by simp) rfl
  · obtain ⟨hreference, hstatus⟩ := hremoved d' hd'
    right
    refine ⟨by simp [Diff.compact, hreference], ?_, ?_⟩
    · change d'.status ≠ .new
      rcases hstatus with h | h <;> simp [h]
    · change d'.status ≠ .modified
      rcases hstatus with h | h <;> simp [h]

theorem OnTrack.of_agree (h : OnTrack s R T fields refs done σ) (hagree : σ.Agree σ') :
    OnTrack s R T fields refs done σ' := by
  refine h.of_samePlain ⟨hagree.placed, hagree.drawn, fun id => ?_⟩
  rw [hagree.store]

/-- After a run all reference units are on track. -/
theorem onTrack_of_synchronize {listener : Progress.Listener} {counts : Counts}
    (hcomp : Comparable s R T) (hfresh : FreshRefs s R refs)
    (hroom : s.units.HasRoom (newIds s R T).length) (hremoved : ∀ d ∈ removed, d.IsRemoved)
    (hrun : synchronize T refs listener
      (compactDiffs ((s.unitsOf R).map (s.diffFor T fields) ++ removed)) s = (.ok counts, σ)) :
    ∃ done, (∀ r ∈ s.unitsOf R, r.id ∈ done) ∧ OnTrack s R T fields refs done σ := by
  have hrun := synchronize_eq_ok hrun
  set all := Path.sort CompactDiff.path?
    (compactDiffs ((s.unitsOf R).map (s.diffFor T fields) ++ removed)) with hall
  have hperm := Path.sort_perm CompactDiff.path?
    (compactDiffs ((s.unitsOf R).map (s.diffFor T fields) ++ removed))
  have hinit : OnTrack s R T fields refs (doneIds []) { store := s } := .init hcomp.uniqueT hroom
  have hfinal := applyFrom_induct
    (P := fun done σ => OnTrack s R T fields refs (doneIds done) σ)
    (fun _ _ _ hinv hagree => hinv.of_agree hagree)
    (fun done d rest σ label σ' hsplit hinv happly => by
      rw [doneIds_append_singleton]
      rcases next_diff_cases hremoved hperm hsplit with ⟨r, hr, rfl, hdone⟩ | ⟨hnone, hnew, hmod⟩
      · exact hinv.apply hcomp hfresh hr hdone happly
      · rw [hnone]
        simp only [Option.map_none, Option.toList_none, List.append_nil]
        rcases apply_cases happly with ⟨h, -⟩ | ⟨h, -⟩ | ⟨-, -, hagree⟩
        · exact absurd h hnew
        · exact absurd h hmod
        · exact hinv.of_agree hagree)
    rfl hinit hrun
  refine ⟨doneIds all, fun r hr => ?_, hfinal⟩
  have hids : (doneIds all).Perm (doneIds (compactDiffs
    ((s.unitsOf R).map (s.diffFor T fields) ++ removed))) := hperm.filterMap _
  rw [hids.mem_iff, doneIds_compactDiffs hremoved]
  exact List.mem_map_of_mem hr

end Sync

end OrgTree
