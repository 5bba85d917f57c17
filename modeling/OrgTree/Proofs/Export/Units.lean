import Mathlib.Data.List.Nodup
import OrgTree.Proofs.Diff.Path
import OrgTree.Proofs.Export.Plan
import OrgTree.Proofs.Remote.Merge

/-!
# Units of an export

The units of new diffs are created, those of modified diffs are merged with what their comparisons
bring, in batches of any size. A unit whose reference cannot be put into a filter is not fetched and
stays as it is.

## Main definitions

- `Export.exportedRef?`: the source reference of the reference unit of a diff
- `Export.unitAfter`: what diffs are to make of the record of a unit

## Main statements

- `Export.carries_createUnits`, `Export.carries_updateUnits`: the two phases
-/

namespace OrgTree.Export

open Json OrgTree.Outcome Remote

variable {openingDate id ref : String} {ds : List Diff} {d : Diff} {u : Snapshot}

/-- The source reference of the reference unit of a diff, unless it is blank. -/
def exportedRef? (d : Diff) : Option String :=
  d.reference.bind Snapshot.ref?

theorem namedUnit?_eq_some_iff :
    namedUnit? d = some (u, ref) ↔ d.reference = some u ∧ u.ref? = some ref := by
  rw [namedUnit?, Option.bind_eq_some_iff]
  constructor
  · rintro ⟨v, hv, h⟩
    obtain ⟨x, hx, heq⟩ := Option.map_eq_some_iff.1 h
    cases heq
    exact ⟨hv, hx⟩
  · rintro ⟨hu, href⟩
    exact ⟨u, hu, by rw [href]; rfl⟩

theorem exportedRef?_eq (d : Diff) : exportedRef? d = (namedUnit? d).map Prod.snd := by
  rw [exportedRef?, namedUnit?]
  cases d.reference with
  | none => rfl
  | some u =>
    rw [Option.bind_some, Option.bind_some, Option.map_map]
    exact Option.map_id'.symm

/-! ### What becomes of a unit -/

/-- What a diff is to make of the record with the reference of its unit. -/
def exportUnit (openingDate : String) (d : Diff) (id : String) (record : Option Json) :
    Option Json :=
  if d.status = .new then
    d.reference.map fun u => createPayload u id u.parentRef? openingDate
  else if isUpdate d = true ∧ IsPlainId id then
    record.map fun r => mergeChanges r d.comparisons
  else record

/-- What diffs are to make of the record of a unit. -/
def unitAfter (openingDate : String) (ds : List Diff) (id : String) (record : Option Json) :
    Option Json :=
  match ds.find? fun d => exportedRef? d = some id with
  | some d => exportUnit openingDate d id record
  | none => record

/-- Doing to a unit what is planned is the same whether it is done once or twice. -/
theorem exportUnit_exportUnit {g : Registry} (hg : g.Sound) (d : Diff) (id : String) :
    exportUnit openingDate d id (exportUnit openingDate d id (g.unit? id)) =
      exportUnit openingDate d id (g.unit? id) := by
  unfold exportUnit
  split
  · rfl
  split
  · cases hr : g.unit? id with
    | none => rfl
    | some r =>
      obtain ⟨-, ms, rfl, hms⟩ := hg.unitRecords id r hr
      exact congrArg some (mergeChanges_mergeChanges hms d.comparisons)
  · rfl

theorem unitAfter_unitAfter {g : Registry} (hg : g.Sound) (id : String) :
    unitAfter openingDate ds id (unitAfter openingDate ds id (g.unit? id)) =
      unitAfter openingDate ds id (g.unit? id) := by
  unfold unitAfter
  split
  · exact exportUnit_exportUnit hg _ id
  · rfl

/-- Where references differ, the one diff about a unit says what becomes of it. -/
theorem unitAfter_of_mem (hnodup : (ds.filterMap exportedRef?).Nodup) (hd : d ∈ ds)
    (hid : exportedRef? d = some id) (record : Option Json) :
    unitAfter openingDate ds id record = exportUnit openingDate d id record := by
  have hfind : (ds.find? fun d => exportedRef? d = some id) = some d := by
    induction ds with
    | nil => simp at hd
    | cons d' ds ih =>
      rcases List.mem_cons.1 hd with rfl | hd
      · rw [List.find?_cons_of_pos (by simpa using hid)]
      · cases href : exportedRef? d' with
        | none =>
          rw [List.filterMap_cons_none href] at hnodup
          rw [List.find?_cons_of_neg (by simp [href])]
          exact ih hnodup hd
        | some ref =>
          rw [List.filterMap_cons_some href, List.nodup_cons] at hnodup
          have hne : ref ≠ id := by
            rintro rfl
            exact hnodup.1 (List.mem_filterMap.2 ⟨d, hd, hid⟩)
          rw [List.find?_cons_of_neg (by simpa [href] using hne)]
          exact ih hnodup.2 hd
  rw [unitAfter, hfind]

theorem unitAfter_of_not_mem (hid : ∀ d ∈ ds, exportedRef? d ≠ some id) (record : Option Json) :
    unitAfter openingDate ds id record = record := by
  have hfind : (ds.find? fun d => exportedRef? d = some id) = none :=
    List.find?_eq_none.2 fun d hd => by simpa using hid d hd
  rw [unitAfter, hfind]

/-! ### Creating -/

variable {job : Job Registry} {p : Plan} {S S' : Session Registry}

/-- A system that accepts a unit has it afterwards. -/
theorem send_createUnit (g : Registry) (payload : Json) (hid : recordId? payload = some id)
    (hlookup : g.rejected.lookup id = none) :
    ∃ body, isSoftError body = false ∧
      Registry.client.send (.post "organisationUnits" payload) g = (.ok body,
        { g.receive (.post "organisationUnits" payload) with
          units := insertMember id payload g.units }) := by
  refine ⟨.obj [("response", .obj [("uid", .str id)]), ("status", .str "OK")], ?_, ?_⟩
  · simp [isSoftError, isErrorStatus, hasErrorStatus, errorMessages, allMessages, memberMessages,
      get?, lookup?, text?]
  · have hcreate : (g.receive (.post "organisationUnits" payload)).createUnit "organisationUnits"
        payload = (.ok ⟨201, .obj [("response", .obj [("uid", .str id)]), ("status", .str "OK")]⟩,
          { g.receive (.post "organisationUnits" payload) with
            units := insertMember id payload g.units }) := by
      have hlookup' : (g.receive (.post "organisationUnits" payload)).rejected.lookup id = none :=
        hlookup
      unfold Registry.createUnit
      rw [hid, Option.getD_some]
      simp only [hlookup']
      rfl
    simp only [Client.send, Registry.client, if_true, hcreate]
    rfl

/-- A system that refuses a unit has the request and nothing else. -/
theorem send_createUnit_of_rejected (g : Registry) (payload : Json)
    (hid : recordId? payload = some id) {message : String}
    (hlookup : g.rejected.lookup id = some message) :
    ∃ failure, Registry.client.send (.post "organisationUnits" payload) g =
      (.error failure, g.receive (.post "organisationUnits" payload)) := by
  have hlookup' : (g.receive (.post "organisationUnits" payload)).rejected.lookup id =
      some message := hlookup
  have hcreate : ∃ failure, (g.receive (.post "organisationUnits" payload)).createUnit
      "organisationUnits" payload =
        (.error failure, g.receive (.post "organisationUnits" payload)) := by
    unfold Registry.createUnit
    rw [hid, Option.getD_some]
    simp only [hlookup']
    exact ⟨_, rfl⟩
  obtain ⟨failure, hcreate⟩ := hcreate
  refine ⟨failure, ?_⟩
  simp only [Client.send, Registry.client, if_true, hcreate]
  rfl

/-- A unit gets its record, or the system refuses it. -/
theorem carries_createUnit (hjob : job.client = Registry.client)
    (hp : ∀ record, p.unit ref record =
      some (createPayload u ref u.parentRef? job.config.openingDate)) :
    Carries job p [ref] (fun _ => False) (createUnit job u ref) := by
  rintro S result S' hsound hrun
  set payload := createPayload u ref u.parentRef? job.config.openingDate with hpayload
  have hid : recordId? payload = some ref := recordId?_createPayload ..
  obtain ⟨ms, hms, hasc⟩ : ∃ ms, payload = .obj ms ∧ Ascending ms := exists_createPayload ..
  cases hlookup : S.remote.rejected.lookup ref with
  | some message =>
    obtain ⟨failure, hsend⟩ := send_createUnit_of_rejected S.remote payload hid hlookup
    rw [← hjob] at hsend
    rw [createUnit, run_sendChecked_of_error hsend] at hrun
    cases hrun
    refine ⟨[], [], ?_, .inr ⟨by simp [ExportError.request], .inr ?_⟩⟩
    · exact ⟨hsound.receive _, rfl, .inl rfl, fun _ => rfl, fun _ => rfl,
        fun _ r hr => method_ne_put_of_mem hr (show "POST" ≠ "PUT" by decide)⟩
    · intro hnone
      rw [hnone] at hlookup
      cases hlookup
  | none =>
    obtain ⟨body, hsoft, hsend⟩ := send_createUnit S.remote payload hid hlookup
    rw [← hjob] at hsend
    rw [createUnit, run_sendChecked hsend, hsoft] at hrun
    cases hrun
    refine ⟨[ref], [], ?_, by simp, fun _ _ _ h => h.elim⟩
    refine ⟨?_, rfl, .inl rfl, fun id => ?_, fun id => rfl, fun _ r hr => ?_⟩
    · have hinsert := (hsound.receive (.post "organisationUnits" payload)).insertUnit (hms ▸ hid) hasc
      rw [← hms] at hinsert
      exact hinsert
    · have hunit : ∀ j, ({ S.remote.receive (.post "organisationUnits" payload) with
          units := insertMember ref payload S.remote.units } : Registry).unit? j =
            if ref = j then some payload else S.remote.unit? j :=
        fun j => lookup?_insertMember ref payload S.remote.units j
      rw [hunit]
      by_cases hj : ref = id
      · subst hj
        rw [if_pos rfl, if_pos (List.mem_singleton_self _), hp]
      · rw [if_neg hj, if_neg (by simpa using Ne.symm hj)]
    · exact method_ne_put_of_mem hr (show "POST" ≠ "PUT" by decide)

theorem carries_createFrom (hjob : job.client = Registry.client) (hp : p.Stable) {new : List Diff}
    (hplan : ∀ d ∈ new, ∀ u ref, namedUnit? d = some (u, ref) → ∀ record, p.unit ref record =
      some (createPayload u ref u.parentRef? job.config.openingDate)) (total done : Nat) :
    Carries job p (new.filterMap exportedRef?) (fun _ => False) (createFrom job total done new) := by
  induction new generalizing done with
  | nil => exact .pure _
  | cons d new ih =>
    have hnew := ih fun d hd => hplan d (List.mem_cons_of_mem _ hd)
    rw [createFrom]
    cases hd : namedUnit? d with
    | none =>
      rw [List.filterMap_cons_none (by rw [exportedRef?_eq, hd]; rfl)]
      exact hnew done
    | some v =>
      obtain ⟨u, ref⟩ := v
      rw [List.filterMap_cons_some (by rw [exportedRef?_eq, hd]; rfl)]
      have hcreate := carries_createUnit hjob (hplan d List.mem_cons_self u ref hd)
      exact (hcreate.bind hp fun _ => (Carries.report _).bind hp fun _ => hnew (done + 1)).mono
        (fun id hid => hid) (fun _ h => h.elim)

/-- The creation phase gives every named unit of a new diff its record. -/
theorem carries_createUnits (hjob : job.client = Registry.client) (hp : p.Stable)
    (hplan : ∀ d ∈ ds, d.status = .new → ∀ u ref, namedUnit? d = some (u, ref) →
      ∀ record, p.unit ref record =
        some (createPayload u ref u.parentRef? job.config.openingDate)) :
    Carries job p ((ds.filter fun d => d.status = .new).filterMap exportedRef?) (fun _ => False)
      (createUnits job ds) := by
  have hmem : ∀ {d}, d ∈ Path.sort Diff.path? (ds.filter fun d => d.status = .new) ↔
      d ∈ ds ∧ d.status = .new := by
    intro d
    rw [Path.mem_sort, List.mem_filter, decide_eq_true_eq]
  refine (carries_createFrom hjob hp (fun d hd u ref hu => ?_) _ 0).mono (fun id hid => ?_)
    (fun _ h => h)
  · obtain ⟨hd, hnew⟩ := hmem.1 hd
    exact hplan d hd hnew u ref hu
  · obtain ⟨d, hd, hid⟩ := List.mem_filterMap.1 hid
    exact List.mem_filterMap.2 ⟨d, (Path.mem_sort Diff.path?).2 hd, hid⟩

/-! ### Updating -/

variable {g : Registry} {batch : List (Diff × String)} {b : Diff × String} {r : Json}

/-- The record that an update sends for a unit, if the unit is fetched. -/
def updatedRecord? (g : Registry) (b : Diff × String) : Option Json :=
  (if IsPlainId b.2 then g.unit? b.2 else none).map fun r => mergeChanges r b.1.comparisons

theorem updatedRecord?_eq_some (hg : g.Sound) (h : updatedRecord? g b = some r) :
    IsPlainId b.2 ∧ recordId? r = some b.2 ∧ (∃ ms, r = .obj ms ∧ Ascending ms) ∧
      (g.unit? b.2).map (fun r => mergeChanges r b.1.comparisons) = some r := by
  rw [updatedRecord?] at h
  split at h
  · rename_i hplain
    obtain ⟨r', hr', rfl⟩ := Option.map_eq_some_iff.1 h
    obtain ⟨hid, ms, rfl, hms⟩ := hg.unitRecords b.2 r' hr'
    refine ⟨hplain, ?_, ⟨_, mergeChanges_obj ms _, ascending_foldl_mergeChange hms _⟩, h⟩
    rw [recordId?_mergeChanges, hid]
  · cases h

theorem mergedRecords_fetched (hg : g.Named) (hne : ∀ b ∈ batch, b.2 ≠ "") :
    mergedRecords ((Registry.idsInFilter
        ("id:in:[" ++ ",".intercalate (batch.map Prod.snd) ++ "]")).filterMap g.unit?) batch =
      batch.filterMap (updatedRecord? g) := by
  unfold mergedRecords
  refine List.filterMap_congr fun b hb => ?_
  have hid : b.2 ∈ batch.map Prod.snd := List.mem_map_of_mem hb
  simp only [Registry.recordOf?_filterMap hg (Registry.empty_not_mem_idsInFilter _),
    Registry.mem_idsInFilter_iff hid (hne b hb)]
  rfl

theorem pairwise_updatedRecords (hg : g.Sound) (hnodup : (batch.map Prod.snd).Nodup) :
    (batch.filterMap (updatedRecord? g)).Pairwise fun r r' => recordId? r ≠ recordId? r' := by
  rw [List.pairwise_filterMap]
  refine (List.pairwise_map.1 hnodup).imp fun hne r hr r' hr' heq => hne ?_
  rw [(updatedRecord?_eq_some hg hr).2.1, (updatedRecord?_eq_some hg hr').2.1] at heq
  exact Option.some.inj heq

/-- An import of metadata on a system without fault. -/
theorem send_metadata (hfault : g.metadataFault = none) (rs : List Json) :
    ∃ body, isSoftError body = false ∧
      Registry.client.send (.post "metadata" (.obj [("organisationUnits", .arr rs)])) g = (.ok body,
        rs.foldl Registry.addUnit
          (g.receive (.post "metadata" (.obj [("organisationUnits", .arr rs)])))) := by
  refine ⟨.obj [("status", .str "OK")], ?_, ?_⟩
  · simp [isSoftError, isErrorStatus, hasErrorStatus, errorMessages, allMessages, memberMessages,
      get?, lookup?, text?]
  · have himport : (g.receive (.post "metadata" (.obj [("organisationUnits", .arr rs)]))
        ).importMetadata (.obj [("organisationUnits", .arr rs)]) =
          (.ok ⟨200, .obj [("status", .str "OK")]⟩, rs.foldl Registry.addUnit
            (g.receive (.post "metadata" (.obj [("organisationUnits", .arr rs)])))) := by
      have hnone : (g.receive (.post "metadata" (.obj [("organisationUnits", .arr rs)]))
        ).metadataFault = none := hfault
      unfold Registry.importMetadata
      simp only [hnone]
      rfl
    have hpath : ¬ "metadata" = "organisationUnits" := by decide
    simp only [Client.send, Registry.client, if_neg hpath, if_true, himport]
    rfl

/-- An import of metadata on a system with a fault. -/
theorem send_metadata_of_fault {message : String} (hfault : g.metadataFault = some message)
    (payload : Json) :
    ∃ body, isSoftError body = true ∧
      Registry.client.send (.post "metadata" payload) g = (.ok body,
        { g.receive (.post "metadata" payload) with metadataFault := none }) := by
  have hsome : (g.receive (.post "metadata" payload)).metadataFault = some message := hfault
  have hpath : ¬ "metadata" = "organisationUnits" := by decide
  simp only [Client.send, Registry.client, if_neg hpath, if_true, Registry.importMetadata, hsome]
  refine ⟨_, ?_, rfl⟩
  simp [isSoftError, isErrorStatus, hasErrorStatus, get?, lookup?, text?]

theorem send_unitsRequest (g : Registry) (ids : List String) :
    Registry.client.send (unitsRequest ids) g =
      (.ok (.obj [("organisationUnits", .arr ((Registry.idsInFilter
          ("id:in:[" ++ ",".intercalate ids ++ "]")).filterMap g.unit?))]),
        g.receive (unitsRequest ids)) := by
  have hfilter : (unitsRequest ids) = .get "organisationUnits"
      [("filter", "id:in:[" ++ ",".intercalate ids ++ "]"), ("fields", ":all"),
        ("paging", "false")] := rfl
  rw [hfilter]
  simp only [Client.send, Registry.client, Registry.answer, if_true]
  rfl

/-- The session after the units of a batch were fetched. -/
def afterFetch (S : Session Registry) (batch : List (Diff × String)) : Session Registry :=
  { S with
    remote := S.remote.receive (unitsRequest (batch.map Prod.snd))
    requests := S.requests ++ [unitsRequest (batch.map Prod.snd)] }

/-- A batch fetches its units and imports the updated records, if there are any. -/
theorem run_updateBatch (hjob : job.client = Registry.client) (hg : S.remote.Named)
    (hne : ∀ b ∈ batch, b.2 ≠ "") :
    (updateBatch job batch).run.run S = (do
      let merged := batch.filterMap (updatedRecord? S.remote)
      if !merged.isEmpty then
        sendChecked job "updating org units failed" (.obj [("organisationUnits", .arr merged)])
          (.post "metadata" (.obj [("organisationUnits", .arr merged)]))
      return merged.length : ExportM Registry Nat).run.run (afterFetch S batch) := by
  have hfetch := run_send job "fetching org units failed"
    (.obj [("ids", Json.ofList .str (batch.map Prod.snd))]) (unitsRequest (batch.map Prod.snd)) S
  rw [hjob, send_unitsRequest] at hfetch
  unfold updateBatch
  rw [run_bind_of_ok hfetch]
  have hrecords : records "organisationUnits" (.obj [("organisationUnits", .arr
      ((Registry.idsInFilter ("id:in:[" ++ ",".intercalate (batch.map Prod.snd) ++ "]")).filterMap
        S.remote.unit?))]) = (Registry.idsInFilter
          ("id:in:[" ++ ",".intercalate (batch.map Prod.snd) ++ "]")).filterMap S.remote.unit? := rfl
  rw [hrecords, mergedRecords_fetched hg hne]
  rfl

/-- An import on a system without fault replaces the records. -/
theorem run_import (hjob : job.client = Registry.client) (hfault : S.remote.metadataFault = none)
    (words : String) (payload : Json) (rs : List Json) :
    (sendChecked job words payload (.post "metadata" (.obj [("organisationUnits", .arr rs)]))).run.run
      S = (.ok (), { S with
        remote := rs.foldl Registry.addUnit
          (S.remote.receive (.post "metadata" (.obj [("organisationUnits", .arr rs)])))
        requests := S.requests ++ [.post "metadata" (.obj [("organisationUnits", .arr rs)])] }) := by
  obtain ⟨body, hsoft, hanswer⟩ := send_metadata hfault rs
  rw [← hjob] at hanswer
  rw [run_sendChecked hanswer, hsoft]
  rfl

/-- An import on a system with a fault fails as a whole, and the fault is gone. -/
theorem exists_run_import_of_fault (hjob : job.client = Registry.client) {message : String}
    (hfault : S.remote.metadataFault = some message) (words : String) (payload body : Json) :
    ∃ answer, (sendChecked job words payload (.post "metadata" body)).run.run S =
      (.error (.soft words payload answer), { S with
        remote := { S.remote.receive (.post "metadata" body) with metadataFault := none }
        requests := S.requests ++ [.post "metadata" body] }) := by
  obtain ⟨answer, hsoft, hanswer⟩ := send_metadata_of_fault hfault body
  rw [← hjob] at hanswer
  refine ⟨answer, ?_⟩
  rw [run_sendChecked hanswer, hsoft]
  rfl

/-- After the records of a batch were imported its units are as planned. -/
theorem unit?_foldl_updatedRecords (hg : g.Sound)
    (hplan : ∀ b ∈ batch, ∀ record, p.unit b.2 record =
      if IsPlainId b.2 then record.map fun r => mergeChanges r b.1.comparisons else record)
    (hnodup : (batch.map Prod.snd).Nodup) (g' : Registry) (hunits : g'.units = g.units)
    (id : String) :
    ((batch.filterMap (updatedRecord? g)).foldl Registry.addUnit g').unit? id =
      if id ∈ batch.map Prod.snd then p.unit id (g.unit? id) else g.unit? id := by
  have hunit : g'.unit? id = g.unit? id := congrArg (lookup? id) hunits
  split
  · rename_i hid
    obtain ⟨b, hb, rfl⟩ := List.mem_map.1 hid
    cases hr : updatedRecord? g b with
    | some r =>
      obtain ⟨hplain, hrid, -, hmap⟩ := updatedRecord?_eq_some hg hr
      rw [hplan b hb, if_pos hplain, hmap]
      exact Registry.unit?_foldl_addUnit_of_mem (pairwise_updatedRecords hg hnodup)
        (List.mem_filterMap.2 ⟨b, hb, hr⟩) hrid g'
    | none =>
      have hkeep : p.unit b.2 (g.unit? b.2) = g.unit? b.2 := by
        rw [hplan b hb]
        split
        · rename_i hplain
          rw [updatedRecord?, if_pos hplain] at hr
          rw [hr, Option.map_eq_none_iff.1 hr]
        · rfl
      rw [hkeep, ← hunit]
      refine Registry.unit?_foldl_addUnit_of_ne (fun r' hr' heq => ?_) g'
      obtain ⟨b', hb', hr'⟩ := List.mem_filterMap.1 hr'
      rw [(updatedRecord?_eq_some hg hr').2.1] at heq
      have hbb := List.inj_on_of_nodup_map hnodup hb' hb (Option.some.inj heq)
      rw [hbb, hr] at hr'
      cases hr'
  · rename_i hid
    rw [← hunit]
    refine Registry.unit?_foldl_addUnit_of_ne (fun r hr heq => hid ?_) g'
    obtain ⟨b, hb, hr⟩ := List.mem_filterMap.1 hr
    rw [(updatedRecord?_eq_some hg hr).2.1] at heq
    rw [← Option.some.inj heq]
    exact List.mem_map_of_mem hb

theorem sound_foldl_updatedRecords (hg : g.Sound) {g' : Registry} (hg' : g'.Sound) :
    ((batch.filterMap (updatedRecord? g)).foldl Registry.addUnit g').Sound := by
  refine hg'.foldl_addUnit fun r hr => ?_
  obtain ⟨b, -, hr⟩ := List.mem_filterMap.1 hr
  exact (updatedRecord?_eq_some hg hr).2.2.1

/-- Updating a batch makes its units as planned, or meets the fault of the system. -/
theorem carries_updateBatch (hjob : job.client = Registry.client)
    (hplan : ∀ b ∈ batch, ∀ record, p.unit b.2 record =
      if IsPlainId b.2 then record.map fun r => mergeChanges r b.1.comparisons else record)
    (hne : ∀ b ∈ batch, b.2 ≠ "") (hnodup : (batch.map Prod.snd).Nodup) :
    Carries job p (batch.map Prod.snd) (fun _ => False) (updateBatch job batch) := by
  rintro S result S' hsound hrun
  have hunits := unit?_foldl_updatedRecords hsound hplan hnodup
  rw [run_updateBatch hjob hsound.named hne] at hrun
  set merged := batch.filterMap (updatedRecord? S.remote) with hmerged
  have hget : (unitsRequest (batch.map Prod.snd)).method ≠ "PUT" :=
    show "GET" ≠ "PUT" by decide
  have hpost : (Request.post "metadata" (.obj [("organisationUnits", .arr merged)])).method ≠ "PUT" :=
    show "POST" ≠ "PUT" by decide
  cases hempty : merged.isEmpty with
  | true =>
    -- nothing is sent: the records of the batch are as planned already
    simp only [hempty] at hrun
    cases hrun
    rw [List.isEmpty_iff.1 hempty] at hunits
    refine ⟨batch.map Prod.snd, [], ?_, fun _ h => h, fun _ _ _ h => h.elim⟩
    exact ⟨hsound.receive _, rfl, .inl rfl, hunits _ rfl, fun id => rfl,
      fun _ r hr => method_ne_put_of_mem hr hget⟩
  | false =>
    simp only [hempty, Bool.not_false, if_true] at hrun
    have hputs : ∀ r, r ∈ (S.requests ++ [unitsRequest (batch.map Prod.snd)]) ++
        [.post "metadata" (.obj [("organisationUnits", .arr merged)])] →
          r ∈ S.requests ∨ r.method ≠ "PUT" := by
      intro r hr
      rcases method_ne_put_of_mem hr hpost with hr | hr
      · exact method_ne_put_of_mem hr hget
      · exact .inr hr
    cases hfault : S.remote.metadataFault with
    | some message =>
      -- the system refuses the batch as a whole, and only the request is recorded
      obtain ⟨answer, himport⟩ := exists_run_import_of_fault (S := afterFetch S batch) hjob hfault
        "updating org units failed" (.obj [("organisationUnits", .arr merged)])
        (.obj [("organisationUnits", .arr merged)])
      rw [run_bind_of_error himport] at hrun
      cases hrun
      refine ⟨[], [], ?_, .inr ⟨by simp [ExportError.soft], .inl ⟨by rw [hfault]; simp, rfl⟩⟩⟩
      exact ⟨hsound.of_records rfl rfl, rfl, .inr rfl, fun id => rfl, fun id => rfl,
        fun _ => hputs⟩
    | none =>
      rw [run_bind_of_ok (run_import (S := afterFetch S batch) hjob hfault _ _ merged)] at hrun
      cases hrun
      set g' := (afterFetch S batch).remote.receive
        (.post "metadata" (.obj [("organisationUnits", .arr merged)])) with hg'
      have hrest := Registry.foldl_addUnit_units merged g'
      refine ⟨batch.map Prod.snd, [], ?_, fun _ h => h, fun _ _ _ h => h.elim⟩
      refine ⟨sound_foldl_updatedRecords hsound (hsound.of_records rfl rfl), ?_, .inl ?_,
        hunits g' rfl, fun id => ?_, fun _ => hputs⟩
      · change (merged.foldl Registry.addUnit g').rejected = _
        rw [hrest]
        rfl
      · change (merged.foldl Registry.addUnit g').metadataFault = _
        rw [hrest]
        rfl
      · change (merged.foldl Registry.addUnit g').group? id = _
        rw [hrest]
        rfl

/-! ### The update phase -/

theorem carries_updateFrom (hjob : job.client = Registry.client) (hp : p.Stable)
    (batches : List (List (Diff × String)))
    (hplan : ∀ b ∈ batches.flatten, ∀ record, p.unit b.2 record =
      if IsPlainId b.2 then record.map fun r => mergeChanges r b.1.comparisons else record)
    (hne : ∀ b ∈ batches.flatten, b.2 ≠ "") (hnodup : (batches.flatten.map Prod.snd).Nodup)
    (total done : Nat) :
    Carries job p (batches.flatten.map Prod.snd) (fun _ => False)
      (updateFrom job total done batches) := by
  induction batches generalizing done with
  | nil => exact .pure _
  | cons batch batches ih =>
    simp only [List.flatten_cons, List.map_append, List.nodup_append] at hplan hne hnodup ⊢
    have hbatch := carries_updateBatch hjob (fun b hb => hplan b (List.mem_append_left _ hb))
      (fun b hb => hne b (List.mem_append_left _ hb)) hnodup.1
    have hrest := ih (fun b hb => hplan b (List.mem_append_right _ hb))
      (fun b hb => hne b (List.mem_append_right _ hb)) hnodup.2.1 (done + 1)
    rw [updateFrom]
    refine (hbatch.bind hp fun _ => (Carries.report _).bind hp fun _ =>
      hrest.bind hp fun _ => .pure _).mono (fun id hid => ?_) (fun _ h => h.elim)
    simpa using hid

theorem flatten_batches {α : Type} (size : Nat) (as : List α) : (batches size as).flatten = as := by
  induction as using batches.induct size with
  | case1 => rw [batches]; rfl
  | case2 a as ih =>
    rw [batches, List.flatten_cons, ih, List.cons_append, List.take_append_drop]

/-- The source references that updates go by are no empty texts. -/
theorem ne_empty_of_exportedRef? (h : exportedRef? d = some ref) : ref ≠ "" := by
  obtain ⟨u, -, hu⟩ := Option.bind_eq_some_iff.1 h
  obtain ⟨x, -, href⟩ := Option.bind_eq_some_iff.1 hu
  obtain ⟨hblank, rfl⟩ := Text.nonBlank?_eq_some_iff.1 href
  rintro rfl
  exact hblank Text.isBlank_empty

theorem updates_perm (ds : List Diff) : (updates ds).Perm ((ds.filter isUpdate).filterMap fun d =>
    (namedUnit? d).map fun u => (d, u.2)) :=
  Path.sort_perm _ _

theorem mem_updates (h : b ∈ updates ds) :
    b.1 ∈ ds ∧ isUpdate b.1 = true ∧ exportedRef? b.1 = some b.2 := by
  obtain ⟨d, hd, heq⟩ := List.mem_filterMap.1 ((updates_perm ds).mem_iff.1 h)
  obtain ⟨hd, hupdate⟩ := List.mem_filter.1 hd
  obtain ⟨v, hv, rfl⟩ := Option.map_eq_some_iff.1 heq
  exact ⟨hd, hupdate, by rw [exportedRef?_eq, hv]; rfl⟩

/-- Updates go by the source references of the diffs to export. -/
theorem map_snd_updates_perm (ds : List Diff) :
    ((updates ds).map Prod.snd).Perm ((ds.filter isUpdate).filterMap exportedRef?) := by
  have hrefs : ((ds.filter isUpdate).filterMap fun d =>
      (namedUnit? d).map fun u => (d, u.2)).map Prod.snd =
        (ds.filter isUpdate).filterMap exportedRef? := by
    rw [List.map_filterMap]
    refine List.filterMap_congr fun d _ => ?_
    rw [exportedRef?_eq, Option.map_map]
    rfl
  rw [← hrefs]
  exact (updates_perm ds).map Prod.snd

/-- The update phase merges every unit of a modified diff with its changes. -/
theorem carries_updateUnits (hjob : job.client = Registry.client) (hp : p.Stable)
    (hplan : ∀ d ∈ ds, isUpdate d = true → ∀ ref, exportedRef? d = some ref → ∀ record,
      p.unit ref record =
        if IsPlainId ref then record.map fun r => mergeChanges r d.comparisons else record)
    (hnodup : (ds.filterMap exportedRef?).Nodup) :
    Carries job p ((ds.filter isUpdate).filterMap exportedRef?) (fun _ => False)
      (updateUnits job ds) := by
  have hflat := flatten_batches job.config.batchSize (updates ds)
  have hrefs := map_snd_updates_perm ds
  have hnodup' : ((updates ds).map Prod.snd).Nodup := by
    rw [hrefs.nodup_iff]
    exact hnodup.sublist (List.filter_sublist.filterMap _)
  have hphase := carries_updateFrom hjob hp (batches job.config.batchSize (updates ds))
    (fun b hb => by
      rw [hflat] at hb
      obtain ⟨hd, hupdate, href⟩ := mem_updates hb
      exact hplan b.1 hd hupdate b.2 href)
    (fun b hb => by
      rw [hflat] at hb
      exact ne_empty_of_exportedRef? (mem_updates hb).2.2)
    (by rw [hflat]; exact hnodup') (batches job.config.batchSize (updates ds)).length 0
  refine hphase.mono (fun id hid => ?_) (fun _ h => h)
  rw [hflat, hrefs.mem_iff]
  exact hid

end OrgTree.Export
