import OrgTree.Export.Units

/-!
# Exporting memberships

For every group set with a change, the groups of the set are fetched and the members of each are
brought in line with the reference units. Members that no diff speaks of stay as they are, and a
group is sent only if its members change.

## Main definitions

- `Wish`: the groups that a unit is to be in
- `Wish.apply`: the members of a group after a wish
- `updateGroups`: the group phase
-/

namespace OrgTree.Export

variable {σ : Type}

/-- The groups of one group set that a unit is to be in. -/
structure Wish where
  /-- The source reference of the unit. -/
  unit : String
  /-- The source references of the groups. -/
  groups : List String
deriving DecidableEq, Repr

namespace Wish

/-- What a diff wishes for the field with this key, if it compares the field. -/
def ofDiff? (key : String) (d : Diff) : Option Wish := do
  let (_, ref) ← namedUnit? d
  let c ← d.comparison? key
  let groups := (c.after.bind FieldValue.asGroups?).getD []
  return { unit := ref, groups := groups.filterMap GroupRef.ref }

/-- The members of a group after a wish: the unit is added at the end or taken out, or nothing
happens because the wish is already fulfilled. -/
def apply (group : String) (members : List String) (w : Wish) : List String :=
  if w.groups.contains group then
    if members.contains w.unit then members else members ++ [w.unit]
  else members.filter fun m => m ≠ w.unit

end Wish

/-- Whether a diff brings other groups for the field with this key. -/
def bringsGroups (key : String) (d : Diff) : Bool :=
  (d.comparison? key).any fun c => c.status.bringsChange

/-- The request for the groups of a group set. -/
def groupsRequest (set : String) : Remote.Request :=
  .get "organisationUnitGroups" [("filter", "groupSets.id:eq:" ++ set),
    ("fields", "id,name,organisationUnits"), ("paging", "false")]

/-- Gives a fetched group the members that the wishes lead to; whether they are others. -/
def updateGroup (job : Job σ) (wishes : List Wish) (group : Json) : ExportM σ Bool :=
  match Remote.recordId? group with
  | none => return false
  | some id => do
    let current := Remote.memberIds group
    let members := wishes.foldl (Wish.apply id) current
    if members = current then return false
    let payload := Remote.groupPayload group members
    sendChecked job ("updating group " ++ id ++ " failed") payload
      (.put ("organisationUnitGroups/" ++ id) payload)
    return true

/-- Updates fetched groups; how many were updated. -/
def updateEach (job : Job σ) (wishes : List Wish) : List Json → ExportM σ Nat
  | [] => return 0
  | group :: groups => do
    let updated ← updateGroup job wishes group
    return (if updated then 1 else 0) + (← updateEach job wishes groups)

/-- Updates the groups of one group set; how many were updated. -/
def updateSet (job : Job σ) (diffs : List Diff) (set title : String) : ExportM σ Nat := do
  let key := (Field.groupSet set title).key
  if !diffs.any (bringsGroups key) then return 0
  let body ← send job "fetching groups failed" (.obj [("groupSet", .str set)]) (groupsRequest set)
  let updated ← updateEach job (diffs.filterMap (Wish.ofDiff? key))
    (records "organisationUnitGroups" body)
  report job ⟨"updated groups of " ++ title, none, none⟩
  return updated

/-- Updates the groups of all group sets among the fields; how many were updated. -/
def updateGroups (job : Job σ) (diffs : List Diff) : List Field → ExportM σ Nat
  | [] => return 0
  | .groupSet set title :: fields => do
    let updated ← updateSet job diffs set title
    return updated + (← updateGroups job diffs fields)
  | _ :: fields => updateGroups job diffs fields

end OrgTree.Export
