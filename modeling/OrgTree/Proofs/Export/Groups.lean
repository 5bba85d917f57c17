import OrgTree.Export.Groups
import OrgTree.Proofs.Export.Plan

/-!
# Memberships of an export

The groups of a set get the members that the wishes of the diffs lead to. Wishes of different units
do not disturb each other, so the members that they lead to once are those they lead to twice.

## Main definitions

- `Export.Wish.IsMet`: whether a group has a unit exactly when the wish asks for it
- `Export.regroup`: a group with the members that wishes lead to
- `Export.groupAfter`: what diffs are to make of a group

## Main statements

- `Export.Wish.foldl_apply_foldl_apply`: wishes fulfilled twice
- `Export.carries_updateGroups`: the group phase
-/

namespace OrgTree.Export

open Json OrgTree.Outcome Remote Registry

variable {id : String} {w w' : Wish} {wishes : List Wish} {members : List String} {ms : Members}
  {r : Json} {rs : List Json}

/-! ### Wishes -/

/-- The unit is a member exactly when it is to be one. -/
def Wish.IsMet (group : String) (members : List String) (w : Wish) : Prop :=
  w.unit ∈ members ↔ group ∈ w.groups

namespace Wish

theorem isMet_apply (group : String) (members : List String) (w : Wish) :
    w.IsMet group (w.apply group members) := by
  unfold IsMet apply
  split
  · rename_i hgroup
    have hgroup : group ∈ w.groups := by simpa using hgroup
    split
    · rename_i hunit
      have hunit : w.unit ∈ members := by simpa using hunit
      simp [hunit, hgroup]
    · simp [hgroup]
  · rename_i hgroup
    have hgroup : group ∉ w.groups := by simpa using hgroup
    simp [hgroup]

theorem mem_apply_of_ne {unit : String} (hne : unit ≠ w.unit) (group : String)
    (members : List String) : unit ∈ w.apply group members ↔ unit ∈ members := by
  unfold apply
  split
  · split
    · rfl
    · simp [hne]
  · simp [hne]

/-- A fulfilled wish changes nothing. -/
theorem apply_of_isMet {group : String} (h : w.IsMet group members) :
    w.apply group members = members := by
  unfold IsMet at h
  unfold apply
  split
  · rename_i hgroup
    have hgroup : group ∈ w.groups := by simpa using hgroup
    rw [if_pos (by simpa using h.2 hgroup)]
  · rename_i hgroup
    have hgroup : group ∉ w.groups := by simpa using hgroup
    refine List.filter_eq_self.2 fun m hm => ?_
    have hne : m ≠ w.unit := by
      rintro rfl
      exact hgroup (h.1 hm)
    simpa using hne

theorem foldl_apply_of_isMet {group : String} (h : ∀ w ∈ wishes, w.IsMet group members) :
    wishes.foldl (Wish.apply group) members = members := by
  induction wishes with
  | nil => rfl
  | cons w wishes ih =>
    rw [List.foldl_cons, apply_of_isMet (h w List.mem_cons_self)]
    exact ih fun w' hw' => h w' (List.mem_cons_of_mem _ hw')

theorem mem_foldl_apply_of_not_mem {unit : String} (h : unit ∉ wishes.map Wish.unit)
    (group : String) (members : List String) :
    unit ∈ wishes.foldl (Wish.apply group) members ↔ unit ∈ members := by
  induction wishes generalizing members with
  | nil => rfl
  | cons w wishes ih =>
    rw [List.map_cons, List.mem_cons, not_or] at h
    rw [List.foldl_cons, ih h.2, mem_apply_of_ne h.1]

/-- Wishes of different units are all fulfilled in the end. -/
theorem isMet_foldl_apply (hnodup : (wishes.map Wish.unit).Nodup) (group : String)
    (members : List String) :
    ∀ w ∈ wishes, w.IsMet group (wishes.foldl (Wish.apply group) members) := by
  induction wishes generalizing members with
  | nil => simp
  | cons w wishes ih =>
    rw [List.map_cons, List.nodup_cons] at hnodup
    intro w' hw'
    rw [List.foldl_cons]
    rcases List.mem_cons.1 hw' with rfl | hw'
    · -- The later wishes are about other units.
      rw [IsMet, mem_foldl_apply_of_not_mem hnodup.1]
      exact isMet_apply group members w'
    · exact ih hnodup.2 _ w' hw'

theorem foldl_apply_foldl_apply (hnodup : (wishes.map Wish.unit).Nodup) (group : String)
    (members : List String) :
    wishes.foldl (Wish.apply group) (wishes.foldl (Wish.apply group) members) =
      wishes.foldl (Wish.apply group) members :=
  foldl_apply_of_isMet (isMet_foldl_apply hnodup group members)

end Wish

/-! ### Groups with other members -/

/-- A group with the members that wishes lead to. -/
def regroup (wishes : List Wish) (id : String) (record : Json) : Json :=
  let members := wishes.foldl (Wish.apply id) (memberIds record)
  match record with
  | .obj ms =>
    if members = memberIds record then record
    else .obj (insertMember "organisationUnits" (Json.ofList idObject members) ms)
  | _ => record

theorem memberIds_insertMember (members : List String) (ms : Members) :
    memberIds (.obj (insertMember "organisationUnits" (Json.ofList idObject members) ms)) =
      members := by
  have hget : get? "organisationUnits" (.obj (insertMember "organisationUnits"
      (Json.ofList idObject members) ms)) = some (Json.ofList idObject members) :=
    lookup?_insertMember_self
  have hids : (members.map idObject).filterMap recordId? = members := by
    rw [List.filterMap_map]
    exact List.filterMap_some
  rw [memberIds, hget]
  exact hids

theorem memberIds_regroup (wishes : List Wish) (id : String) (ms : Members) :
    memberIds (regroup wishes id (.obj ms)) =
      wishes.foldl (Wish.apply id) (memberIds (.obj ms)) := by
  rw [regroup]
  split
  · rename_i h
    exact h.symm
  · exact memberIds_insertMember _ ms

theorem get?_regroup_of_ne {k : String} (hk : k ≠ "organisationUnits") (wishes : List Wish)
    (id : String) (ms : Members) :
    (regroup wishes id (.obj ms)).get? k = (Json.obj ms).get? k := by
  rw [regroup]
  split
  · rfl
  · exact lookup?_insertMember_of_ne (Ne.symm hk)

theorem exists_regroup (hms : Ascending ms) (wishes : List Wish) (id : String) :
    ∃ ns, regroup wishes id (.obj ms) = .obj ns ∧ Ascending ns := by
  rw [regroup]
  split
  · exact ⟨ms, rfl, hms⟩
  · exact ⟨_, rfl, hms.insertMember⟩

theorem regroup_eq_self_iff :
    regroup wishes id (.obj ms) = .obj ms ↔
      wishes.foldl (Wish.apply id) (memberIds (.obj ms)) = memberIds (.obj ms) := by
  constructor
  · intro h
    rw [← memberIds_regroup, h]
  · intro h
    rw [regroup, if_pos h]

theorem recordId?_regroup (wishes : List Wish) (id : String) (ms : Members) :
    recordId? (regroup wishes id (.obj ms)) = recordId? (.obj ms) := by
  rw [recordId?, get?_regroup_of_ne (by decide)]
  rfl

theorem inGroupSet_regroup (set : String) (wishes : List Wish) (id : String) (ms : Members) :
    inGroupSet set (regroup wishes id (.obj ms)) = inGroupSet set (.obj ms) := by
  rw [inGroupSet, get?_regroup_of_ne (by decide)]
  rfl

theorem regroup_regroup (hnodup : (wishes.map Wish.unit).Nodup) (hms : Ascending ms)
    (id : String) :
    regroup wishes id (regroup wishes id (.obj ms)) = regroup wishes id (.obj ms) := by
  have hmembers := memberIds_regroup wishes id ms
  obtain ⟨ns, hns, -⟩ := exists_regroup hms wishes id
  rw [hns] at hmembers ⊢
  rw [regroup_eq_self_iff, hmembers, Wish.foldl_apply_foldl_apply hnodup]

/-! ### What becomes of a group -/

/-- What diffs are to make of a group in one of these group sets. -/
def groupAfter (wishesOf : String → List Wish) (sets : List String) (id : String) (record : Json) :
    Json :=
  match sets.find? fun set => inGroupSet set record with
  | some set => regroup (wishesOf set) id record
  | none => record

variable {wishesOf : String → List Wish} {sets : List String} {g : Registry}

theorem groupAfter_groupAfter (hg : g.Sound) (hr : g.group? id = some r)
    (hnodup : ∀ set, ((wishesOf set).map Wish.unit).Nodup) :
    groupAfter wishesOf sets id (groupAfter wishesOf sets id r) = groupAfter wishesOf sets id r := by
  obtain ⟨-, ms, rfl, hms⟩ := hg.groupRecords id r hr
  cases hfind : sets.find? fun set => inGroupSet set (.obj ms) with
  | none =>
    have hself : groupAfter wishesOf sets id (.obj ms) = .obj ms := by rw [groupAfter, hfind]
    rw [hself, hself]
  | some set =>
    have hafter : groupAfter wishesOf sets id (.obj ms) = regroup (wishesOf set) id (.obj ms) := by
      rw [groupAfter, hfind]
    rw [hafter, groupAfter]
    simp only [inGroupSet_regroup, hfind]
    exact regroup_regroup (hnodup set) hms id

theorem groupAfter_of_mem (hg : g.Sound) (hr : g.group? id = some r) {set : String}
    (hset : set ∈ sets) (hin : inGroupSet set r = true) :
    groupAfter wishesOf sets id r = regroup (wishesOf set) id r := by
  rw [groupAfter]
  cases hfind : sets.find? fun set => inGroupSet set r with
  | none => exact absurd hin (List.find?_eq_none.1 hfind set hset)
  | some set' =>
    have hin' := List.find?_some (p := fun set => inGroupSet set r) hfind
    rw [hg.oneSet id r hr set' set hin' hin]

/-! ### Updating -/

variable {job : Job Registry} {p : Plan} {S : Session Registry} {ds : List Diff}
  {fields : List Field}

theorem recordId?_shownGroup (hid : recordId? r = some id) :
    recordId? (shownGroup r) = some id := by
  obtain ⟨j, hj, htext⟩ := Option.bind_eq_some_iff.1 hid
  have hget : (shownGroup r).get? "id" = some ((r.get? "id").getD .null) := rfl
  rw [recordId?, hget, hj]
  exact htext

theorem memberIds_shownGroup (r : Json) : memberIds (shownGroup r) = memberIds r := by
  have hget : (shownGroup r).get? "organisationUnits" =
      some ((r.get? "organisationUnits").getD .null) := rfl
  rw [memberIds, memberIds, hget]
  cases r.get? "organisationUnits" <;> rfl

/-- The name that an update of a group sends along is the one it has. -/
theorem insertMember_shownName (hms : Ascending ms) (members : List String) (units : Json) :
    (match ((groupPayload (shownGroup (.obj ms)) members).get? "name").bind Json.text? with
      | some name => insertMember "name" (.str name) (insertMember "organisationUnits" units ms)
      | none => insertMember "organisationUnits" units ms) =
        insertMember "organisationUnits" units ms := by
  have hget : (groupPayload (shownGroup (.obj ms)) members).get? "name" =
      some ((lookup? "name" ms).getD .null) := rfl
  split
  · rename_i name hname
    rw [hget, Option.bind_some] at hname
    refine eq_insertMember_of_lookup? hms.insertMember ?_
    rw [lookup?_insertMember_of_ne (by decide)]
    cases hlookup : lookup? "name" ms with
    | none =>
      rw [hlookup] at hname
      cases hname
    | some v =>
      rw [hlookup, Option.getD_some] at hname
      cases v <;> cases hname
      rfl
  · rfl

theorem updateGroup_of_group? (hms : Ascending ms) (hr : g.group? id = some (.obj ms))
    (members : List String) :
    g.updateGroup ("organisationUnitGroups/" ++ id) (groupPayload (shownGroup (.obj ms)) members) =
      (.ok ⟨200, .obj [("status", .str "OK")]⟩,
        { g with groups := insertMember id (.obj (insertMember "organisationUnits"
            (Json.ofList idObject members) ms)) g.groups }) := by
  have hname := insertMember_shownName hms members (Json.ofList idObject members)
  unfold Registry.updateGroup
  rw [after?_append, Option.bind_some, hr, Option.map_some]
  simp only
  rw [← hname]
  rfl

theorem send_updateGroup (hms : Ascending ms) (hr : g.group? id = some (.obj ms))
    (members : List String) :
    ∃ body, isSoftError body = false ∧
      client.send (.put ("organisationUnitGroups/" ++ id)
          (groupPayload (shownGroup (.obj ms)) members)) g = (.ok body,
        { g.receive (.put ("organisationUnitGroups/" ++ id)
            (groupPayload (shownGroup (.obj ms)) members)) with
          groups := insertMember id (.obj (insertMember "organisationUnits"
            (Json.ofList idObject members) ms)) g.groups }) := by
  refine ⟨.obj [("status", .str "OK")], ?_, ?_⟩
  · simp [isSoftError, isErrorStatus, hasErrorStatus, errorMessages, allMessages, memberMessages,
      get?, lookup?, text?]
  · have hupdate := updateGroup_of_group? (g := g.receive (.put ("organisationUnitGroups/" ++ id)
      (groupPayload (shownGroup (.obj ms)) members))) hms hr members
    simp only [Client.send, client, hupdate]
    rfl

/-- The request that gives a group the members that wishes lead to. -/
def regroupRequest (wishes : List Wish) (id : String) (record : Json) : Request :=
  .put ("organisationUnitGroups/" ++ id)
    (groupPayload (shownGroup record) (wishes.foldl (Wish.apply id) (memberIds record)))

theorem send_regroupRequest (hms : Ascending ms) (hr : g.group? id = some (.obj ms))
    (hother : wishes.foldl (Wish.apply id) (memberIds (.obj ms)) ≠ memberIds (.obj ms)) :
    ∃ body, isSoftError body = false ∧
      client.send (regroupRequest wishes id (.obj ms)) g = (.ok body,
        { g.receive (regroupRequest wishes id (.obj ms)) with
          groups := insertMember id (regroup wishes id (.obj ms)) g.groups }) := by
  have hregroup : regroup wishes id (.obj ms) = .obj (insertMember "organisationUnits" (Json.ofList
      idObject (wishes.foldl (Wish.apply id) (memberIds (.obj ms)))) ms) := by
    rw [regroup, if_neg hother]
  rw [hregroup]
  exact send_updateGroup hms hr _

/-- A group that has its members already is not sent. -/
theorem run_updateGroup_of_same (job : Job Registry) (S : Session Registry)
    (hid : recordId? r = some id)
    (hsame : wishes.foldl (Wish.apply id) (memberIds r) = memberIds r) :
    (updateGroup job wishes (shownGroup r)).run.run S = (.ok false, S) := by
  unfold updateGroup
  simp only [recordId?_shownGroup hid, memberIds_shownGroup, hsame, if_true]
  rfl

theorem run_updateGroup_of_ne (hjob : job.client = Registry.client)
    (hid : recordId? (.obj ms) = some id) (hms : Ascending ms)
    (hr : S.remote.group? id = some (.obj ms))
    (hother : wishes.foldl (Wish.apply id) (memberIds (.obj ms)) ≠ memberIds (.obj ms)) :
    (updateGroup job wishes (shownGroup (.obj ms))).run.run S = (.ok true, { S with
      remote := (client.send (regroupRequest wishes id (.obj ms)) S.remote).2
      requests := S.requests ++ [regroupRequest wishes id (.obj ms)] }) := by
  obtain ⟨body, hsoft, hanswer⟩ := send_regroupRequest hms hr hother
  rw [hanswer]
  rw [← hjob] at hanswer
  have hrun := run_sendChecked hanswer ("updating group " ++ id ++ " failed")
    (groupPayload (shownGroup (.obj ms)) (wishes.foldl (Wish.apply id) (memberIds (.obj ms))))
  rw [hsoft, if_neg Bool.false_ne_true] at hrun
  unfold updateGroup
  simp only [recordId?_shownGroup hid, memberIds_shownGroup, if_neg hother]
  exact run_bind_of_ok hrun _

/-- The groups after one of them got its members. -/
theorem group?_send_regroupRequest (hms : Ascending ms) (hr : g.group? id = some (.obj ms))
    (hother : wishes.foldl (Wish.apply id) (memberIds (.obj ms)) ≠ memberIds (.obj ms))
    (j : String) :
    (client.send (regroupRequest wishes id (.obj ms)) g).2.group? j =
      if id = j then some (regroup wishes id (.obj ms)) else g.group? j := by
  obtain ⟨body, -, hanswer⟩ := send_regroupRequest hms hr hother
  rw [hanswer]
  exact group?_insertMember (g.receive _) id _ j

/-- A fetched group is updated to what is planned for it. -/
theorem exists_run_updateGroup (hjob : job.client = Registry.client) (hsound : S.remote.Sound)
    (hr : S.remote.group? id = some r)
    (hplan : p.group id r = regroup wishes id r) :
    ∃ updated S', (updateGroup job wishes (shownGroup r)).run.run S = (.ok updated, S') ∧
      Progress p [] [id] S S' ∧ S'.remote.metadataFault = S.remote.metadataFault := by
  obtain ⟨hid, ms, rfl, hms⟩ := hsound.groupRecords id r hr
  by_cases hsame : wishes.foldl (Wish.apply id) (memberIds (.obj ms)) = memberIds (.obj ms)
  · have hself := regroup_eq_self_iff.2 hsame
    refine ⟨false, S, run_updateGroup_of_same job S hid hsame,
      ⟨hsound, rfl, .inl rfl, fun _ => rfl, fun j => ?_, fun _ r hr => .inl hr⟩, rfl⟩
    split
    · rename_i hj
      rw [List.mem_singleton] at hj
      rw [hj, hr, Option.map_some, hplan, hself]
    · rfl
  · obtain ⟨body, -, hanswer⟩ := send_regroupRequest hms hr hsame
    have hgroup := group?_send_regroupRequest hms hr hsame
    refine ⟨true, _, run_updateGroup_of_ne hjob hid hms hr hsame, ?_⟩
    rw [hanswer] at hgroup ⊢
    refine ⟨⟨?_, rfl, .inl rfl, fun _ => rfl, fun j => (hgroup j).trans ?_, fun hplanned => ?_⟩, rfl⟩
    · obtain ⟨ns, hns, hnsAsc⟩ := exists_regroup hms wishes id
      have hrecord := recordId?_regroup wishes id ms
      have hsets := fun set => inGroupSet_regroup set wishes id ms
      rw [hns] at hrecord hsets ⊢
      exact (hsound.receive _).insertGroup hr (hrecord.trans hid) hnsAsc hsets
    · by_cases hj : id = j
      · subst hj
        rw [if_pos rfl, if_pos (List.mem_singleton_self _), hr, Option.map_some, hplan]
      · rw [if_neg hj, if_neg (by simpa using Ne.symm hj)]
    · -- A group is sent only when its members change.
      have hself := hplanned id _ hr
      rw [hplan, regroup_eq_self_iff] at hself
      exact absurd hself hsame

/-- All fetched groups of a group set are updated to what is planned for them. -/
theorem exists_run_updateEach (hjob : job.client = Registry.client) (hp : p.Stable)
    (hsound : S.remote.Sound)
    (hrs : ∀ r ∈ rs, ∃ id, S.remote.group? id = some r ∧ p.group id r = regroup wishes id r)
    (hids : rs.Pairwise fun r r' => recordId? r ≠ recordId? r') :
    ∃ updated S', (updateEach job wishes (rs.map shownGroup)).run.run S = (.ok updated, S') ∧
      Progress p [] (rs.filterMap recordId?) S S' ∧
        S'.remote.metadataFault = S.remote.metadataFault := by
  induction rs generalizing S with
  | nil => exact ⟨0, S, rfl, .of_eq hsound rfl rfl, rfl⟩
  | cons r rs ih =>
    obtain ⟨hne, hids⟩ := List.pairwise_cons.1 hids
    obtain ⟨id, hr, hplan⟩ := hrs r List.mem_cons_self
    have hid : recordId? r = some id := (hsound.groupRecords id r hr).1
    obtain ⟨first, τ, hfirst, hprogress, hfault⟩ :=
      exists_run_updateGroup hjob hsound hr hplan
    -- The first update leaves the other groups as they were fetched.
    have hrest : ∀ r' ∈ rs, ∃ id, τ.remote.group? id = some r' ∧
        p.group id r' = regroup wishes id r' := by
      intro r' hr'
      obtain ⟨id', hfound, hplan'⟩ := hrs r' (List.mem_cons_of_mem _ hr')
      refine ⟨id', ?_, hplan'⟩
      have hid' : id' ∉ [id] := by
        rw [List.mem_singleton]
        rintro rfl
        exact hne r' hr' (hid.trans (hsound.groupRecords id' r' hfound).1.symm)
      rw [hprogress.group, if_neg hid', hfound]
    obtain ⟨others, S', hothers, hprogress', hfault'⟩ :=
      ih hprogress.sound hrest hids
    refine ⟨(if first then 1 else 0) + others, S', ?_, ?_, hfault'.trans hfault⟩
    · rw [List.map_cons, updateEach, run_bind_of_ok hfirst, run_bind_of_ok hothers]
      rfl
    · rw [List.filterMap_cons_some hid]
      exact hprogress.trans hp hsound hprogress'

/-! ### The group phase -/

theorem send_groupsRequest (g : Registry) (set : String) :
    client.send (groupsRequest set) g =
      (.ok (.obj [("organisationUnitGroups",
        Json.ofList shownGroup ((g.groups.map Prod.snd).filter (inGroupSet set)))]),
        g.receive (groupsRequest set)) := by
  have hset : (after? "groupSets.id:eq:" ("groupSets.id:eq:" ++ set)).getD "" = set := by
    rw [after?_append]
    rfl
  have hpath : ¬ "organisationUnitGroups" = "organisationUnits" := by decide
  rw [groupsRequest]
  simp only [Client.send, client, answer, if_neg hpath, if_true, List.lookup_cons, beq_self_eq_true,
    Option.getD_some, hset]

/-- What is fetched are the groups of the set. -/
theorem exists_run_groupsRequest (hjob : job.client = Registry.client) (words : String)
    (payload : Json) (set : String) (S : Session Registry) :
    ∃ body, (send job words payload (groupsRequest set)).run.run S = (.ok body, { S with
        remote := S.remote.receive (groupsRequest set)
        requests := S.requests ++ [groupsRequest set] }) ∧
      records "organisationUnitGroups" body =
        ((S.remote.groups.map Prod.snd).filter (inGroupSet set)).map shownGroup := by
  have hfetch := run_send job words payload (groupsRequest set) S
  rw [hjob, send_groupsRequest] at hfetch
  exact ⟨_, hfetch, rfl⟩

theorem mem_groups_iff (hg : g.Sound) (set : String) :
    r ∈ (g.groups.map Prod.snd).filter (inGroupSet set) ↔
      (∃ id, g.group? id = some r) ∧ inGroupSet set r = true := by
  rw [List.mem_filter, List.mem_map]
  refine and_congr_left fun _ => ⟨?_, ?_⟩
  · rintro ⟨⟨id, r⟩, hm, rfl⟩
    exact ⟨id, hg.groups.lookup?_of_mem hm⟩
  · rintro ⟨id, hr⟩
    exact ⟨(id, r), mem_of_lookup? hr, rfl⟩

theorem pairwise_groups (hg : g.Sound) (set : String) :
    ((g.groups.map Prod.snd).filter (inGroupSet set)).Pairwise
      fun r r' => recordId? r ≠ recordId? r' := by
  refine (List.pairwise_map.2 ?_).filter _
  refine hg.groups.imp_of_mem fun {m m'} hm hm' hlt heq => ?_
  rw [(hg.groupRecords m.1 m.2 (hg.groups.lookup?_of_mem hm)).1,
    (hg.groupRecords m'.1 m'.2 (hg.groups.lookup?_of_mem hm')).1] at heq
  rw [Option.some.inj heq] at hlt
  exact lt_irrefl _ hlt

/-- The groups of a group set are fetched and updated to what is planned for them. -/
theorem carries_fetchedGroups (hjob : job.client = Registry.client) (hp : p.Stable) {set : String}
    (hplan : ∀ g : Registry, g.Sound → ∀ id r, g.group? id = some r → inGroupSet set r = true →
      p.group id r = regroup wishes id r) (words : String) (payload : Json) :
    Carries job p [] (fun r => inGroupSet set r = true)
      (send job words payload (groupsRequest set) >>= fun body =>
        updateEach job wishes (records "organisationUnitGroups" body)) := by
  rintro S result S' hsound hrun
  obtain ⟨body, hfetch, hrecords⟩ := exists_run_groupsRequest hjob words payload set S
  rw [run_bind_of_ok hfetch, hrecords] at hrun
  set fetched := (S.remote.groups.map Prod.snd).filter (inGroupSet set) with hfetched
  set τ : Session Registry := { S with
    remote := S.remote.receive (groupsRequest set)
    requests := S.requests ++ [groupsRequest set] } with hτ
  have hquery : Progress p [] [] S τ :=
    ⟨hsound.receive _, rfl, .inl rfl, fun _ => rfl, fun _ => rfl,
      fun _ r hr => method_ne_put_of_mem hr (show "GET" ≠ "PUT" by decide)⟩
  have hgroups : ∀ r ∈ fetched, ∃ id, τ.remote.group? id = some r ∧
      p.group id r = regroup wishes id r := by
    intro r hr
    obtain ⟨⟨id, hr⟩, hin⟩ := (mem_groups_iff hsound set).1 hr
    exact ⟨id, hr, hplan S.remote hsound id r hr hin⟩
  obtain ⟨updated, τ', heach, hprogress, -⟩ := exists_run_updateEach hjob hp hquery.sound
    hgroups (pairwise_groups hsound set)
  rw [heach] at hrun
  cases hrun
  refine ⟨[] ++ [], [] ++ fetched.filterMap recordId?, hquery.trans hp hsound hprogress,
    fun _ h => h, fun id r hr hin => ?_⟩
  rw [List.nil_append, List.mem_filterMap]
  exact ⟨r, (mem_groups_iff hsound set).2 ⟨⟨id, hr⟩, hin⟩, (hsound.groupRecords id r hr).1⟩

/-- The groups of a group set are updated if the diffs bring a change of it. -/
theorem carries_updateSet (hjob : job.client = Registry.client) (hp : p.Stable)
    (set title : String)
    (hplan : ds.any (bringsGroups (Field.groupSet set title).key) = true →
      ∀ g : Registry, g.Sound → ∀ id r, g.group? id = some r → inGroupSet set r = true →
        p.group id r = regroup (ds.filterMap (Wish.ofDiff? (Field.groupSet set title).key)) id r) :
    Carries job p [] (fun r => ds.any (bringsGroups (Field.groupSet set title).key) = true ∧
      inGroupSet set r = true) (updateSet job ds set title) := by
  simp only [updateSet]
  cases hactive : ds.any (bringsGroups (Field.groupSet set title).key) with
  | false =>
    refine (Carries.pure 0).mono (fun _ h => h) ?_
    rintro r ⟨hfalse, -⟩
    exact Bool.false_ne_true hfalse
  | true =>
    simp only [Bool.not_true, Bool.false_eq_true, if_false]
    rw [← bind_assoc]
    refine ((carries_fetchedGroups hjob hp (hplan hactive) _ _).bind hp fun _ =>
      (Carries.report _).bind hp fun _ => .pure _).mono (fun _ h => h) ?_
    rintro r ⟨-, hin⟩
    exact .inl hin

/-- The group sets that diffs bring a change of. -/
def changedSets (ds : List Diff) (fields : List Field) : List String :=
  fields.filterMap fun f =>
    match f with
    | .groupSet set _ => if ds.any (bringsGroups f.key) = true then some set else none
    | _ => none

theorem mem_changedSets {set : String} :
    set ∈ changedSets ds fields ↔
      ∃ title, .groupSet set title ∈ fields ∧
        ds.any (bringsGroups (Field.groupSet set title).key) = true := by
  rw [changedSets, List.mem_filterMap]
  constructor
  · rintro ⟨f, hf, h⟩
    split at h
    · rename_i set' title
      obtain ⟨hactive, heq⟩ := Option.ite_none_right_eq_some.1 h
      cases heq
      exact ⟨title, hf, hactive⟩
    · cases h
  · rintro ⟨title, hf, hactive⟩
    exact ⟨_, hf, if_pos hactive⟩

/-- The group phase updates the groups of all group sets that the diffs bring a change of. -/
theorem carries_updateGroups (hjob : job.client = Registry.client) (hp : p.Stable)
    (hplan : ∀ set title, .groupSet set title ∈ fields →
      ds.any (bringsGroups (Field.groupSet set title).key) = true →
        ∀ g : Registry, g.Sound → ∀ id r, g.group? id = some r → inGroupSet set r = true →
          p.group id r =
            regroup (ds.filterMap (Wish.ofDiff? (Field.groupSet set title).key)) id r) :
    Carries job p [] (fun r => ∃ set ∈ changedSets ds fields, inGroupSet set r = true)
      (updateGroups job ds fields) := by
  induction fields with
  | nil => exact (Carries.pure 0).mono (fun _ h => h) (fun _ h => by simp [changedSets] at h)
  | cons f fields ih =>
    have hrest := ih fun set title hf => hplan set title (List.mem_cons_of_mem _ hf)
    cases f with
    | groupSet set title =>
      have hset := carries_updateSet hjob hp set title (hplan set title List.mem_cons_self)
      rw [updateGroups]
      refine (hset.bind hp fun _ => hrest.bind hp fun _ => .pure _).mono (fun _ h => h) ?_
      rintro r ⟨set', hset', hin⟩
      obtain ⟨title', hmem, hactive⟩ := mem_changedSets.1 hset'
      rcases List.mem_cons.1 hmem with heq | hmem
      · cases heq
        exact .inl ⟨hactive, hin⟩
      · exact .inr (.inl ⟨set', mem_changedSets.2 ⟨title', hmem, hactive⟩, hin⟩)
    | _ => exact hrest

end OrgTree.Export
