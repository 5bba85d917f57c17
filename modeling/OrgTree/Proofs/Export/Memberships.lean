import OrgTree.Proofs.Export.GroupSets
import OrgTree.Proofs.Remote.Reachable

/-!
# Members that an export does not speak of

The diffs go one after the other through the members of a group, and each adds or removes its own
unit. For different units this comes to one thing: the members that no diff lists stay as they are,
with those that are listed and wanted, and the units that are missing follow in the order of the
diffs. A group is sent only if that makes a difference, and then once.

## Main definitions

- `Export.listings`: the units that diffs list for a group set
- `Export.staying`, `Export.joining`: the members that a group keeps and gets
- `Export.membersRequest?`: the request that gives a group its members, if one is sent
- `Export.Reconciles`, `Export.Reconciled`: what becomes of the groups of one set, and of several
- `Export.HandlesGroups`: how far the group phase gets

## Main statements

- `Export.Wish.foldl_apply_eq`: the members that wishes of different units lead to
- `Export.reconciles_of_updateSet`: one group set
- `Export.handlesGroups_updateGroups`: the group phase, however it ends
-/

namespace OrgTree.Export

open Json OrgTree.Outcome Remote Registry

variable {key group set id : String} {ds : List Diff} {wishes : List Wish} {members : List String}
  {listed : List (String × Comparison)} {r : Json} {g g' : Registry} {fields : List Field}

/-! ### Listed units -/

/-- The unit that a diff lists for a group set, with the comparison of the group set. -/
def listing? (key : String) (d : Diff) : Option (String × Comparison) :=
  (exportedRef? d).bind fun ref => (d.comparison? key).map fun c => (ref, c)

/-- The units that diffs list for a group set, in the order of the diffs. -/
def listings (key : String) (ds : List Diff) : List (String × Comparison) :=
  ds.filterMap (listing? key)

/-- The members that stay: all that are not listed, and those that are listed and wanted. -/
def staying (listed : List (String × Comparison)) (group : String) (members : List String) :
    List String :=
  members.filter fun m => ∀ l ∈ listed, l.1 = m → l.2.AsksFor group

/-- The members that are new: the listed units that are wanted and missing. -/
def joining (listed : List (String × Comparison)) (group : String) (members : List String) :
    List String :=
  (listed.filter fun l => l.2.AsksFor group ∧ l.1 ∉ members).map Prod.fst

/-- The members in the end. -/
def membersAfter (listed : List (String × Comparison)) (group : String) (members : List String) :
    List String :=
  staying listed group members ++ joining listed group members

/-- The wish that a listed unit stands for. -/
def listedWish (l : String × Comparison) : Wish where
  unit := l.1
  groups := ((l.2.after.bind FieldValue.asGroups?).getD []).filterMap GroupRef.ref

theorem ofDiff?_eq (key : String) (d : Diff) :
    Wish.ofDiff? key d = (listing? key d).map listedWish := by
  rw [listing?, exportedRef?_eq]
  unfold Wish.ofDiff?
  cases namedUnit? d with
  | none => rfl
  | some v => cases d.comparison? key <;> rfl

theorem filterMap_ofDiff? (key : String) (ds : List Diff) :
    ds.filterMap (Wish.ofDiff? key) = (listings key ds).map listedWish := by
  rw [listings, List.map_filterMap]
  exact List.filterMap_congr fun d _ => ofDiff?_eq key d

theorem map_fst_listings (key : String) (ds : List Diff) :
    (listings key ds).map Prod.fst =
      (ds.filter fun d => (d.comparison? key).isSome).filterMap exportedRef? := by
  rw [listings, List.map_filterMap, List.filterMap_filter]
  refine List.filterMap_congr fun d _ => ?_
  unfold listing?
  cases d.comparison? key <;> cases exportedRef? d <;> rfl

theorem nodup_listings (key : String) (h : (ds.filterMap exportedRef?).Nodup) :
    ((listings key ds).map Prod.fst).Nodup := by
  rw [map_fst_listings]
  exact h.sublist (List.filter_sublist.filterMap _)

/-! ### What wishes lead to -/

/-- Wishes of different units one after the other: every member stays that no wish takes out, and
then come the units that are to be members and are none, in the order of the wishes. -/
theorem Wish.foldl_apply_eq (hnodup : (wishes.map Wish.unit).Nodup) (group : String)
    (members : List String) :
    wishes.foldl (Wish.apply group) members =
      (members.filter fun m => ∀ w ∈ wishes, w.unit = m → group ∈ w.groups) ++
        (wishes.filter fun w => group ∈ w.groups ∧ w.unit ∉ members).map Wish.unit := by
  induction wishes generalizing members with
  | nil => simp
  | cons w wishes ih =>
    rw [List.map_cons, List.nodup_cons] at hnodup
    have hother : ∀ w' ∈ wishes, w'.unit ≠ w.unit := fun w' hw' e =>
      hnodup.1 (List.mem_map.2 ⟨w', hw', e⟩)
    rw [List.foldl_cons, ih hnodup.2]
    by_cases hgroup : group ∈ w.groups
    · have hstay : ∀ ms : List String,
          (ms.filter fun m => ∀ w' ∈ w :: wishes, w'.unit = m → group ∈ w'.groups) =
            ms.filter fun m => ∀ w' ∈ wishes, w'.unit = m → group ∈ w'.groups := by
        intro ms
        simp [hgroup]
      rw [hstay]
      by_cases hunit : w.unit ∈ members
      · -- the unit is a member already
        have happly : w.apply group members = members := by simp [Wish.apply, hgroup, hunit]
        rw [happly, List.filter_cons_of_neg (by simp [hunit])]
      · -- the unit comes next, and no later wish is about it
        have happly : w.apply group members = members ++ [w.unit] := by
          simp [Wish.apply, hgroup, hunit]
        have hlast : ([w.unit].filter fun m => ∀ w' ∈ wishes, w'.unit = m → group ∈ w'.groups) =
            [w.unit] := by
          refine List.filter_eq_self.2 fun m hm => ?_
          rw [List.mem_singleton] at hm
          subst hm
          rw [decide_eq_true_eq]
          exact fun w' hw' e => absurd e (hother w' hw')
        have hjoin : (wishes.filter fun w' => group ∈ w'.groups ∧ w'.unit ∉ members ++ [w.unit]) =
            wishes.filter fun w' => group ∈ w'.groups ∧ w'.unit ∉ members := by
          refine List.filter_congr fun w' hw' => ?_
          simp [hother w' hw']
        rw [happly, List.filter_append, hlast, hjoin,
          List.filter_cons_of_pos (by simp [hgroup, hunit]), List.map_cons, List.append_assoc]
        rfl
    · -- the unit goes, with every time it is listed
      have happly : w.apply group members = members.filter fun m => m ≠ w.unit := by
        simp [Wish.apply, hgroup]
      have hjoin : (wishes.filter fun w' =>
          group ∈ w'.groups ∧ w'.unit ∉ members.filter fun m => m ≠ w.unit) =
            wishes.filter fun w' => group ∈ w'.groups ∧ w'.unit ∉ members := by
        refine List.filter_congr fun w' hw' => ?_
        simp [hother w' hw']
      rw [happly, hjoin, List.filter_filter, List.filter_cons_of_neg (by simp [hgroup])]
      congr 1
      refine List.filter_congr fun m _ => ?_
      rw [← Bool.decide_and, decide_eq_decide, List.forall_mem_cons]
      exact ⟨fun h => ⟨fun e => absurd e.symm h.2, h.1⟩,
        fun h => ⟨h.2, fun e => hgroup (h.1 e.symm)⟩⟩

/-- Members change exactly when a wish of them is not fulfilled. -/
theorem Wish.foldl_apply_eq_self_iff (hnodup : (wishes.map Wish.unit).Nodup) :
    wishes.foldl (Wish.apply group) members = members ↔ ∀ w ∈ wishes, w.IsMet group members := by
  constructor
  · intro hsame w hw
    have hmet := isMet_foldl_apply hnodup group members w hw
    rw [hsame] at hmet
    exact hmet
  · exact foldl_apply_of_isMet

theorem foldl_listedWish (hnodup : (listed.map Prod.fst).Nodup) (group : String)
    (members : List String) :
    (listed.map listedWish).foldl (Wish.apply group) members = membersAfter listed group members := by
  rw [Wish.foldl_apply_eq (by rwa [List.map_map]), List.filter_map, List.map_map]
  simp only [List.forall_mem_map]
  rfl

theorem membersAfter_eq_self_iff (hnodup : (listed.map Prod.fst).Nodup) :
    membersAfter listed group members = members ↔
      ∀ l ∈ listed, l.1 ∈ members ↔ l.2.AsksFor group := by
  rw [← foldl_listedWish hnodup, Wish.foldl_apply_eq_self_iff (by rwa [List.map_map]),
    List.forall_mem_map]
  rfl

/-! ### One group -/

/-- The request that gives a group its members in the end: there is one if a listed unit is a member
and not wanted, or wanted and no member. -/
def membersRequest? (listed : List (String × Comparison)) (row : String × Json) : Option Request :=
  if ∀ l ∈ listed, l.1 ∈ memberIds row.2 ↔ l.2.AsksFor row.1 then none
  else some (.put ("organisationUnitGroups/" ++ row.1)
    (groupPayload (shownGroup row.2) (membersAfter listed row.1 (memberIds row.2))))

/-- Some groups get their members, each by one request at most, and nothing else changes. -/
structure Regroups (listed : List (String × Comparison)) (rows : Members) (S S' : Session Registry) :
    Prop where
  reachable : S'.remote.Reachable
  units : S'.remote.units = S.remote.units
  group : ∀ id, S'.remote.group? id =
    if id ∈ rows.map Prod.fst then
      (S.remote.group? id).map (regroup (listed.map listedWish) id)
    else S.remote.group? id
  requests : S'.requests = S.requests ++ rows.filterMap (membersRequest? listed)

variable {job : Job Registry} {S S' S'' : Session Registry} {rows : Members} {row : String × Json}

theorem Regroups.cons (hrow : row.1 ∉ rows.map Prod.fst) (h : Regroups listed [row] S S')
    (h' : Regroups listed rows S' S'') : Regroups listed (row :: rows) S S'' where
  reachable := h'.reachable
  units := h'.units.trans h.units
  group id := by
    rw [h'.group, h.group]
    simp only [List.map_cons, List.map_nil, List.mem_cons, List.not_mem_nil, or_false]
    by_cases hid : id = row.1
    · subst hid
      rw [if_neg hrow, if_pos rfl, if_pos (.inl rfl)]
    · simp only [hid, false_or, if_false]
  requests := by
    rw [h'.requests, h.requests, List.append_assoc, ← List.filterMap_append]
    rfl

theorem membersRequest?_eq (hnodup : (listed.map Prod.fst).Nodup) (id : String) (r : Json) :
    membersRequest? listed (id, r) =
      if (listed.map listedWish).foldl (Wish.apply id) (memberIds r) = memberIds r then none
      else some (regroupRequest (listed.map listedWish) id r) := by
  rw [regroupRequest, foldl_listedWish hnodup]
  simp only [membersAfter_eq_self_iff hnodup]
  rfl

/-- A fetched group gets its members. -/
theorem exists_regroups_updateGroup (hjob : job.client = Registry.client)
    (hreach : S.remote.Reachable) (hnodup : (listed.map Prod.fst).Nodup)
    (hr : S.remote.group? id = some r) :
    ∃ updated S', (updateGroup job (listed.map listedWish) (shownGroup r)).run.run S =
      (.ok updated, S') ∧ Regroups listed [(id, r)] S S' := by
  obtain ⟨hid, ms, rfl, hms⟩ := hreach.named.groupRecords id r hr
  have hrequest := membersRequest?_eq hnodup id (.obj ms)
  by_cases hsame : (listed.map listedWish).foldl (Wish.apply id) (memberIds (.obj ms)) =
    memberIds (.obj ms)
  · rw [if_pos hsame] at hrequest
    refine ⟨false, S, run_updateGroup_of_same job S hid hsame, hreach, rfl, fun j => ?_, ?_⟩
    · split
      · rename_i hj
        rw [List.map_singleton, List.mem_singleton] at hj
        rw [hj, hr, Option.map_some, regroup_eq_self_iff.2 hsame]
      · rfl
    · rw [List.filterMap_cons_none hrequest, List.filterMap_nil, List.append_nil]
  · rw [if_neg hsame] at hrequest
    obtain ⟨body, -, hanswer⟩ := send_regroupRequest hms hr hsame
    refine ⟨true, _, run_updateGroup_of_ne hjob hid hms hr hsame, hreach.send _, ?_, fun j => ?_, ?_⟩
    · rw [hanswer]
      rfl
    · refine (group?_send_regroupRequest hms hr hsame j).trans ?_
      simp only [List.map_singleton, List.mem_singleton]
      by_cases hj : id = j
      · subst hj
        rw [if_pos rfl, if_pos rfl, hr, Option.map_some]
      · rw [if_neg hj, if_neg (Ne.symm hj)]
    · rw [List.filterMap_cons_some hrequest, List.filterMap_nil]

/-- All fetched groups get their members. -/
theorem exists_regroups_updateEach (hjob : job.client = Registry.client)
    (hreach : S.remote.Reachable) (hnodup : (listed.map Prod.fst).Nodup)
    (hrows : ∀ row ∈ rows, S.remote.group? row.1 = some row.2) (hkeys : (rows.map Prod.fst).Nodup) :
    ∃ updated S', (updateEach job (listed.map listedWish)
      (rows.map fun row => shownGroup row.2)).run.run S = (.ok updated, S') ∧
        Regroups listed rows S S' := by
  induction rows generalizing S with
  | nil => exact ⟨0, S, rfl, hreach, rfl, fun _ => rfl, (List.append_nil _).symm⟩
  | cons row rows ih =>
    rw [List.map_cons, List.nodup_cons] at hkeys
    obtain ⟨first, τ, hfirst, hregroups⟩ :=
      exists_regroups_updateGroup hjob hreach hnodup (hrows row List.mem_cons_self)
    -- The other groups are as they were fetched.
    have hrest : ∀ row' ∈ rows, τ.remote.group? row'.1 = some row'.2 := by
      intro row' hrow'
      have hne : row'.1 ∉ [(row.1, row.2)].map Prod.fst := by
        rw [List.map_singleton, List.mem_singleton]
        intro e
        exact hkeys.1 (e ▸ List.mem_map_of_mem hrow')
      rw [hregroups.group, if_neg hne]
      exact hrows row' (List.mem_cons_of_mem _ hrow')
    obtain ⟨others, S', hothers, hregroups'⟩ := ih hregroups.reachable hrest hkeys.2
    refine ⟨(if first then 1 else 0) + others, S', ?_, hregroups.cons hkeys.1 hregroups'⟩
    rw [List.map_cons, updateEach, run_bind_of_ok hfirst, run_bind_of_ok hothers]
    rfl

/-! ### One group set -/

/-- What becomes of the groups of a group set when units are listed for it. Each group gets its
members and keeps all else, groups outside the set and all units stay as they are, and after the
request for the groups there is one for each group that a listed unit is to join or to leave. -/
structure Reconciles (listed : List (String × Comparison)) (set : String) (g : Registry)
    (sent : List Request) (g' : Registry) : Prop where
  units : g'.units = g.units
  others : ∀ id, (∀ r, g.group? id = some r → inGroupSet set r = false) → g'.group? id = g.group? id
  members : ∀ id r, g.group? id = some r → inGroupSet set r = true →
    ∃ r', g'.group? id = some r' ∧
      memberIds r' = staying listed id (memberIds r) ++ joining listed id (memberIds r) ∧
      ∀ k, k ≠ "organisationUnits" → r'.get? k = r.get? k
  sent : sent = groupsRequest set ::
    (g.groups.filter fun row => inGroupSet set row.2).filterMap (membersRequest? listed)

theorem Regroups.reconciles (hg : g.Reachable) (hnodup : (listed.map Prod.fst).Nodup)
    (hunits : S.remote.units = g.units) (hgroups : S.remote.groups = g.groups)
    (h : Regroups listed (g.groups.filter fun row => inGroupSet set row.2) S S') :
    Reconciles listed set g (groupsRequest set ::
      (g.groups.filter fun row => inGroupSet set row.2).filterMap (membersRequest? listed))
      S'.remote := by
  have hgroup : ∀ id, S.remote.group? id = g.group? id := fun id => congrArg (lookup? id) hgroups
  have hmem : ∀ id, id ∈ (g.groups.filter fun row => inGroupSet set row.2).map Prod.fst ↔
      ∃ r, g.group? id = some r ∧ inGroupSet set r = true := by
    intro id
    rw [List.mem_map]
    constructor
    · rintro ⟨row, hrow, rfl⟩
      obtain ⟨hrow, hin⟩ := List.mem_filter.1 hrow
      exact ⟨row.2, hg.named.groups.lookup?_of_mem hrow, hin⟩
    · rintro ⟨r, hr, hin⟩
      exact ⟨(id, r), List.mem_filter.2 ⟨mem_of_lookup? hr, hin⟩, rfl⟩
  refine ⟨h.units.trans hunits, fun id hid => ?_, fun id r hr hin => ?_, rfl⟩
  · rw [h.group, if_neg, hgroup]
    rw [hmem]
    rintro ⟨r, hr, hin⟩
    rw [hid r hr] at hin
    cases hin
  · obtain ⟨-, ms, rfl, -⟩ := hg.named.groupRecords id r hr
    refine ⟨regroup (listed.map listedWish) id (.obj ms), ?_, ?_, fun k hk => ?_⟩
    · rw [h.group, if_pos ((hmem id).2 ⟨_, hr, hin⟩), hgroup, hr, Option.map_some]
    · rw [memberIds_regroup, foldl_listedWish hnodup]
      rfl
    · exact get?_regroup_of_ne hk _ id ms

variable {title : String} {result : Except ExportError Nat}

/-- A group set that a diff brings a change of is reconciled, also when the listener stops the
export right after it. -/
theorem reconciles_of_updateSet (hjob : job.client = Registry.client) (hreach : S.remote.Reachable)
    (hnodup : (ds.filterMap exportedRef?).Nodup)
    (hbrings : ds.any (bringsGroups (Field.groupSet set title).key) = true)
    (hrun : (updateSet job ds set title).run.run S = (result, S')) :
    S'.remote.Reachable ∧
      (∃ sent, S'.requests = S.requests ++ sent ∧
        Reconciles (listings (Field.groupSet set title).key ds) set S.remote sent S'.remote) ∧
      ∀ e, result = .error e → e = .cancelled ∧ job.listener S'.reports = true := by
  set listed := listings (Field.groupSet set title).key ds with hlisted
  have hnodup' : (listed.map Prod.fst).Nodup := nodup_listings _ hnodup
  obtain ⟨body, hfetch, hrecords⟩ := exists_run_groupsRequest hjob "fetching groups failed"
    (.obj [("groupSet", .str set)]) set S
  set τ : Session Registry := { S with
    remote := S.remote.receive (groupsRequest set)
    requests := S.requests ++ [groupsRequest set] } with hτ
  have hreachτ : τ.remote.Reachable := by
    have hsend := hreach.send (groupsRequest set)
    rw [send_groupsRequest] at hsend
    exact hsend
  have hshown : ((S.remote.groups.map Prod.snd).filter (inGroupSet set)).map shownGroup =
      (S.remote.groups.filter fun row => inGroupSet set row.2).map fun row => shownGroup row.2 := by
    rw [List.filter_map, List.map_map]
    rfl
  have hrows : ∀ row ∈ S.remote.groups.filter fun row => inGroupSet set row.2,
      τ.remote.group? row.1 = some row.2 :=
    fun row hrow => hreach.named.groups.lookup?_of_mem (List.mem_of_mem_filter hrow)
  obtain ⟨updated, τ', heach, hregroups⟩ := exists_regroups_updateEach hjob hreachτ hnodup' hrows
    (hreach.named.groups.nodup_keys.sublist (List.filter_sublist.map _))
  have hreconciles := Regroups.reconciles hreach hnodup' (S := τ) rfl rfl hregroups
  simp only [updateSet, hbrings, Bool.not_true, Bool.false_eq_true, if_false] at hrun
  rw [run_bind_of_ok hfetch, hrecords, hshown, filterMap_ofDiff?, run_bind_of_ok heach, run_bind,
    run_report] at hrun
  have hrequests : τ'.requests = S.requests ++ groupsRequest set ::
      (S.remote.groups.filter fun row => inGroupSet set row.2).filterMap (membersRequest? listed) := by
    rw [hregroups.requests, hτ, List.append_assoc]
    rfl
  cases hlistener : job.listener (τ'.reports ++ [⟨"updated groups of " ++ title, none, none⟩]) with
  | false =>
    rw [hlistener] at hrun
    cases hrun
    exact ⟨hregroups.reachable, ⟨_, hrequests, hreconciles⟩, by simp⟩
  | true =>
    rw [hlistener] at hrun
    cases hrun
    refine ⟨hregroups.reachable, ⟨_, hrequests, hreconciles⟩, fun e he => ?_⟩
    cases he
    exact ⟨rfl, hlistener⟩

/-! ### The group phase -/

/-- What becomes of the groups of several group sets, one after the other. A group set that no diff
brings a change of is passed over. -/
inductive Reconciled (ds : List Diff) : List Field → Registry → List Request → Registry → Prop where
  | nil (g : Registry) : Reconciled ds [] g [] g
  | skip {f : Field} {fields : List Field} {g g' : Registry} {sent : List Request}
      (hf : f.isGroupSet = true → ds.any (bringsGroups f.key) = false)
      (h : Reconciled ds fields g sent g') : Reconciled ds (f :: fields) g sent g'
  | visit {set title : String} {fields : List Field} {g g' g'' : Registry} {sent rest : List Request}
      (hbrings : ds.any (bringsGroups (Field.groupSet set title).key) = true)
      (h : Reconciles (listings (Field.groupSet set title).key ds) set g sent g')
      (hrest : Reconciled ds fields g' rest g'') :
      Reconciled ds (.groupSet set title :: fields) g (sent ++ rest) g''

/-- From one session to another the group phase has reconciled the first of these fields: all of
them if it succeeded, and otherwise those up to where the listener stopped it. -/
def HandlesGroups (job : Job Registry) (ds : List Diff) (fields : List Field)
    (S S' : Session Registry) (result : Except ExportError Nat) : Prop :=
  ∃ handled sent, handled <+: fields ∧ S'.requests = S.requests ++ sent ∧
    Reconciled ds handled S.remote sent S'.remote ∧
    (∀ n, result = .ok n → handled = fields) ∧
    ∀ e, result = .error e → e = .cancelled ∧ job.listener S'.reports = true

variable {f : Field} {e : ExportError}

theorem HandlesGroups.skip (hf : f.isGroupSet = true → ds.any (bringsGroups f.key) = false)
    (h : HandlesGroups job ds fields S S' result) :
    HandlesGroups job ds (f :: fields) S S' result := by
  obtain ⟨handled, sent, hprefix, hrequests, hreconciled, hok, herror⟩ := h
  exact ⟨f :: handled, sent, (List.prefix_cons_inj f).2 hprefix, hrequests, .skip hf hreconciled,
    fun n hn => congrArg (f :: ·) (hok n hn), herror⟩

section Visit

variable {sent : List Request}
  (hbrings : ds.any (bringsGroups (Field.groupSet set title).key) = true)
  (hrequests : S'.requests = S.requests ++ sent)
  (hreconciles : Reconciles (listings (Field.groupSet set title).key ds) set S.remote sent S'.remote)

include hbrings hrequests hreconciles

/-- The listener stops the export after a group set. -/
theorem HandlesGroups.stop (he : e = .cancelled ∧ job.listener S'.reports = true) :
    HandlesGroups job ds (.groupSet set title :: fields) S S' (.error e) := by
  refine ⟨[.groupSet set title], sent ++ [], ⟨fields, rfl⟩, ?_, .visit hbrings hreconciles (.nil _),
    nofun, ?_⟩
  · rw [List.append_nil, hrequests]
  · rintro _ ⟨⟩
    exact he

theorem HandlesGroups.visit (updated : Nat) (h : HandlesGroups job ds fields S' S'' result) :
    HandlesGroups job ds (.groupSet set title :: fields) S S'' (result.map (updated + ·)) := by
  obtain ⟨handled, rest, hprefix, hrest, hreconciled, hok, herror⟩ := h
  refine ⟨.groupSet set title :: handled, sent ++ rest, (List.prefix_cons_inj _).2 hprefix, ?_,
    .visit hbrings hreconciles hreconciled, fun n hn => ?_, fun e he => ?_⟩
  · rw [hrest, hrequests, List.append_assoc]
  · cases result with
    | ok k => exact congrArg (Field.groupSet set title :: ·) (hok k rfl)
    | error e => cases hn
  · cases result with
    | ok k => cases he
    | error e' => exact herror e (by cases he; rfl)

end Visit

theorem run_updateSet_of_unchanged (job : Job Registry) (S : Session Registry)
    (hbrings : ds.any (bringsGroups (Field.groupSet set title).key) = false) :
    (updateSet job ds set title).run.run S = (.ok 0, S) := by
  simp only [updateSet, hbrings, Bool.not_false, if_true]
  rfl

/-- Whatever the members of the groups are, and in whichever order the diffs come: the group phase
keeps the members that no diff lists and those that are listed and wanted, in their order and as
often as they are there, adds the missing ones in the order of the diffs, and sends a group exactly
when a listed unit joins or leaves it. -/
theorem handlesGroups_updateGroups (hjob : job.client = Registry.client)
    (hreach : S.remote.Reachable) (hnodup : (ds.filterMap exportedRef?).Nodup)
    (hrun : (updateGroups job ds fields).run.run S = (result, S')) :
    HandlesGroups job ds fields S S' result := by
  induction fields generalizing S result with
  | nil =>
    cases hrun
    exact ⟨[], [], List.nil_prefix, (List.append_nil _).symm, .nil _, fun _ _ => rfl, nofun⟩
  | cons f fields ih =>
    cases f with
    | groupSet set title =>
      rw [updateGroups] at hrun
      cases hbrings : ds.any (bringsGroups (Field.groupSet set title).key) with
      | false =>
        rw [run_bind_of_ok (run_updateSet_of_unchanged job S hbrings)] at hrun
        exact .skip (fun _ => hbrings) (ih hreach (by simpa using hrun))
      | true =>
        rw [run_bind] at hrun
        cases hset : (updateSet job ds set title).run.run S with
        | mk first τ =>
          rw [hset] at hrun
          obtain ⟨hreachτ, ⟨sent, hrequests, hreconciles⟩, hfirst⟩ :=
            reconciles_of_updateSet hjob hreach hnodup hbrings hset
          cases first with
          | error e =>
            cases hrun
            exact .stop hbrings hrequests hreconciles (hfirst e rfl)
          | ok n =>
            dsimp only at hrun
            rw [run_bind] at hrun
            cases hothers : (updateGroups job ds fields).run.run τ with
            | mk others τ' =>
              rw [hothers] at hrun
              obtain ⟨rfl, rfl⟩ : S' = τ' ∧ result = others.map (n + ·) := by
                cases others <;> cases hrun <;> exact ⟨rfl, rfl⟩
              exact .visit hbrings hrequests hreconciles n (ih hreachτ hothers)
    | _ => exact .skip (fun h => absurd h Bool.false_ne_true) (ih hreach hrun)

/-- A diff that says in which groups of a group set a unit is to be. -/
def groupDiff (ref : String) (groups : List String) : Diff :=
  let u : Snapshot := { Snapshot.bare ⟨1⟩ ⟨1⟩ ref with sourceRef := some ref }
  .matched u (some u) [{
    field := (Field.groupSet "S" "Set").key
    before := none
    after := some (.groups (groups.map fun group => ⟨some group, "Group"⟩))
    status := .new
    distance := none }]

/-- One unit joins the group, one leaves it, one stays and one more joins. -/
def groupDiffs : List Diff :=
  [groupDiff "D" ["G"], groupDiff "A" [], groupDiff "B" ["G"], groupDiff "C" ["G", "H"]]

/-- A group with members that no diff lists, some of them repeated. -/
def mixedRegistry : Registry :=
  ({} : Registry).addGroup "G" "Group" "S" ["X", "A", "B", "X", "B", "A"]

theorem handlesGroups_updateGroups_mixed : ∃ result S',
    mixedRegistry.Reachable ∧ (groupDiffs.filterMap exportedRef?).Nodup ∧
    (updateGroups ⟨Registry.client, {}, .patient⟩ groupDiffs [.groupSet "S" "Set"]).run.run
      { remote := mixedRegistry } = (result, S') ∧
    (S'.remote.group? "G").map memberIds = some ["X", "B", "X", "B", "D", "C"] ∧
    HandlesGroups ⟨Registry.client, {}, .patient⟩ groupDiffs [.groupSet "S" "Set"]
      { remote := mixedRegistry } S' result := by
  have hreach : mixedRegistry.Reachable := .addGroup .empty _ _ _ _
  have hnodup : (groupDiffs.filterMap exportedRef?).Nodup := by decide
  exact ⟨_, _, hreach, hnodup, rfl, by decide +kernel,
    handlesGroups_updateGroups rfl hreach hnodup rfl⟩

end OrgTree.Export
