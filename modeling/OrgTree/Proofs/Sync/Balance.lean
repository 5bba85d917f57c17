import OrgTree.Proofs.Store.Census
import OrgTree.Sync.Run

/-!
# Writes and what is counted for them

A run writes to its store in six ways. What it is to count for a write depends on the write and, for
memberships, on whether the write changes one. These counts balance: tables and memberships have
grown by what is counted.

## Main definitions

- `Sync.Write`: the writes of a run
- `Sync.Write.counts`, `Sync.booked`: what is to be counted for one write and for several
- `Sync.Balanced`: a store has grown by what was counted

## Main statements

- `Sync.balanced_run`: every write is balanced
- `Sync.balanced_forM`: so are several writes one after the other
-/

namespace OrgTree.Sync

open Outcome Store

/-- Counts add up. -/
instance : Add Counts where
  add c d := {
    created := c.created + d.created
    updated := c.updated + d.updated
    skipped := c.skipped + d.skipped
    refsAssigned := c.refsAssigned + d.refsAssigned
    groupsCreated := c.groupsCreated + d.groupsCreated
    membershipsAdded := c.membershipsAdded + d.membershipsAdded
    membershipsRemoved := c.membershipsRemoved + d.membershipsRemoved }

theorem Counts.add_def (c d : Counts) : c + d = {
    created := c.created + d.created
    updated := c.updated + d.updated
    skipped := c.skipped + d.skipped
    refsAssigned := c.refsAssigned + d.refsAssigned
    groupsCreated := c.groupsCreated + d.groupsCreated
    membershipsAdded := c.membershipsAdded + d.membershipsAdded
    membershipsRemoved := c.membershipsRemoved + d.membershipsRemoved } := rfl

theorem Counts.add_assoc (b c d : Counts) : b + c + d = b + (c + d) := by
  simp only [add_def, Nat.add_assoc]

theorem Counts.zero_add (c : Counts) : {} + c = c := by
  simp only [add_def, Nat.zero_add]

theorem Counts.add_zero (c : Counts) : c + {} = c := rfl

/-- What a run writes to its store. -/
inductive Write where
  /-- A source reference is given to a unit. -/
  | assignRef (unit : UnitId) (ref : String)
  | createUnit (n : NewUnit)
  | updateUnit (unit : UnitId) (p : Patch)
  | createGroup (version : VersionId) (ref name : String)
  | join (unit : UnitId) (group : GroupId)
  | leave (unit : UnitId) (group : GroupId)

namespace Write

/-- The operation of the store that makes the write. -/
def operation : Write → Operation
  | assignRef unit ref => .setSourceRef unit ref
  | createUnit n => .createUnit n
  | updateUnit unit p => .updateUnit unit p
  | createGroup version ref name => .createGroup version ref name
  | join unit group => .addToGroup unit group
  | leave unit group => .removeFromGroup unit group

/-- Makes the write. -/
def run (w : Write) : StoreM Unit :=
  w.operation.run

/-- Whether the write edits a unit. -/
def isUpdate : Write → Bool
  | updateUnit _ _ => true
  | _ => false

/-- Whether the write gives a source reference to a unit. -/
def isAssignment : Write → Bool
  | assignRef _ _ => true
  | _ => false

/-- What is to be counted for a write to a store that succeeds: a membership only if it changes. -/
def counts (s : Store) : Write → Counts
  | assignRef _ _ => { refsAssigned := 1 }
  | createUnit _ => { created := 1 }
  | updateUnit _ _ => { updated := 1 }
  | createGroup _ _ _ => { groupsCreated := 1 }
  | join unit group => if (unit, group) ∈ s.memberships then {} else { membershipsAdded := 1 }
  | leave unit group => if (unit, group) ∈ s.memberships then { membershipsRemoved := 1 } else {}

end Write

/-- The store after some writes. -/
def written (ws : List Write) (s : Store) : Store :=
  ((ws.forM Write.run).run.run s).2

/-- What is to be counted for some writes, one after the other. -/
def booked : List Write → Store → Counts
  | [], _ => {}
  | w :: ws, s => w.counts s + booked ws (w.run.run.run s).2

variable {s t u : Store} {c d : Counts} {w : Write} {ws vs : List Write}

theorem run_forM_cons_iff : ((w :: ws).forM Write.run).run.run s = (.ok (), u) ↔
    ∃ t, w.run.run.run s = (.ok (), t) ∧ (ws.forM Write.run).run.run t = (.ok (), u) := by
  rw [List.forM, run_bind_eq_ok_iff]
  constructor
  · rintro ⟨⟨⟩, t, hw, hws⟩
    exact ⟨t, hw, hws⟩
  · rintro ⟨t, hw, hws⟩
    exact ⟨(), t, hw, hws⟩

theorem run_forM_append (hws : (ws.forM Write.run).run.run s = (.ok (), t))
    (hvs : (vs.forM Write.run).run.run t = (.ok (), u)) :
    ((ws ++ vs).forM Write.run).run.run s = (.ok (), u) := by
  induction ws generalizing s with
  | nil =>
    cases hws
    exact hvs
  | cons w ws ih =>
    obtain ⟨s₁, hw, hws⟩ := run_forM_cons_iff.1 hws
    exact run_forM_cons_iff.2 ⟨s₁, hw, ih hws⟩

theorem booked_append (hws : (ws.forM Write.run).run.run s = (.ok (), t)) (vs : List Write) :
    booked (ws ++ vs) s = booked ws s + booked vs t := by
  induction ws generalizing s with
  | nil =>
    cases hws
    exact (Counts.zero_add _).symm
  | cons w ws ih =>
    obtain ⟨s₁, hw, hws⟩ := run_forM_cons_iff.1 hws
    rw [List.cons_append, booked, booked, hw, ih hws, Counts.add_assoc]

theorem booked_singleton (w : Write) (s : Store) : booked [w] s = w.counts s :=
  Counts.add_zero _

/-! ### Kinds of writes -/

/-- What is counted as edits and as generated references is the number of such writes. -/
theorem booked_updated (ws : List Write) (s : Store) :
    (booked ws s).updated = ws.countP Write.isUpdate ∧
      (booked ws s).refsAssigned = ws.countP Write.isAssignment ∧ (booked ws s).skipped = 0 := by
  induction ws generalizing s with
  | nil => exact ⟨rfl, rfl, rfl⟩
  | cons w ws ih =>
    obtain ⟨hupdated, hassigned, hskipped⟩ := ih (w.run.run.run s).2
    have hw : (w.counts s).updated = (if w.isUpdate then 1 else 0) ∧
        (w.counts s).refsAssigned = (if w.isAssignment then 1 else 0) ∧
        (w.counts s).skipped = 0 := by
      cases w with
      | join | leave =>
        simp only [Write.counts]
        split <;> exact ⟨rfl, rfl, rfl⟩
      | _ => exact ⟨rfl, rfl, rfl⟩
    simp only [booked, Counts.add_def, List.countP_cons, hw, hupdated, hassigned, hskipped]
    exact ⟨Nat.add_comm _ _, Nat.add_comm _ _, trivial⟩

/-! ### Balance -/

/-- From one store to another tables and memberships have grown by what was counted. -/
structure Balanced (c : Counts) (s t : Store) : Prop where
  units : t.units.size = s.units.size + c.created
  groups : t.groups.size = s.groups.size + c.groupsCreated
  memberships :
    t.memberships.card + c.membershipsRemoved = s.memberships.card + c.membershipsAdded

theorem Balanced.refl (s : Store) : Balanced {} s s :=
  ⟨rfl, rfl, rfl⟩

theorem Balanced.trans (h : Balanced c s t) (h' : Balanced d t u) : Balanced (c + d) s u := by
  obtain ⟨hunits, hgroups, hmemberships⟩ := h
  obtain ⟨hunits', hgroups', hmemberships'⟩ := h'
  refine ⟨?_, ?_, ?_⟩ <;> simp only [Counts.add_def] <;> omega

/-- An edit of a unit changes the sizes of no table. -/
theorem balanced_modify (i : UnitId) (f : UnitRecord → UnitRecord) (hid : ∀ r, (f r).id = r.id)
    (hcreated : c.created = 0) (hgroups : c.groupsCreated = 0)
    (hmemberships : ({ s with units := s.units.modify i f } : Store).memberships.card +
      c.membershipsRemoved = s.memberships.card + c.membershipsAdded) :
    Balanced c s { s with units := s.units.modify i f } where
  units := by
    rw [hcreated]
    exact Table.size_modify hid s.units i
  groups := by rw [hgroups, Nat.add_zero]
  memberships := hmemberships

/-- Joining a group counts if the answer is that the membership changed. -/
theorem counts_join {unit : UnitId} {group : GroupId} {changed : Bool}
    (h : s.TellsChange unit group True (.ok changed, t)) :
    (Write.join unit group).counts s = if changed then { membershipsAdded := 1 } else {} := by
  simp only [Write.counts, mem_memberships_of_joined h]
  cases changed <;> rfl

/-- Leaving a group counts if the answer is that the membership changed. -/
theorem counts_leave {unit : UnitId} {group : GroupId} {changed : Bool}
    (h : s.TellsChange unit group False (.ok changed, t)) :
    (Write.leave unit group).counts s = if changed then { membershipsRemoved := 1 } else {} := by
  simp only [Write.counts, mem_memberships_of_left h]

/-- One case for each kind of write. -/
theorem balanced_run (h : w.run.run.run s = (.ok (), t)) : Balanced (w.counts s) s t := by
  cases w with
  | assignRef unit ref =>
    obtain ⟨-, rfl⟩ := run_setSourceRef_eq_ok_iff.1 h
    have hkept := s.memberships_modify unit (UnitRecord.withRef ref) (fun _ => rfl) fun _ => rfl
    exact balanced_modify unit _ (fun _ => rfl) rfl rfl (congrArg Finset.card hkept)
  | updateUnit unit p =>
    obtain ⟨r, -, -, rfl⟩ := run_updateUnit_eq_ok_iff.1 h
    have hkept := s.memberships_modify unit p.apply (fun _ => rfl) fun _ => rfl
    exact balanced_modify unit _ (fun _ => rfl) rfl rfl (congrArg Finset.card hkept)
  | createUnit n =>
    obtain ⟨_, _, h, ⟨⟩⟩ := run_bind_eq_ok_iff.1 h
    obtain ⟨hroom, -, -, rfl⟩ := run_createUnit_eq_ok_iff.1 h
    have hfree := Table.find?_nextId hroom
    exact ⟨Table.size_insert hfree, rfl, congrArg Finset.card (memberships_insert hfree rfl)⟩
  | createGroup version ref name =>
    obtain ⟨_, _, h, ⟨⟩⟩ := run_bind_eq_ok_iff.1 h
    obtain ⟨hroom, -, rfl⟩ := run_createGroup_eq_ok_iff.1 h
    exact ⟨rfl, Table.size_insert (Table.find?_nextId hroom), rfl⟩
  | join unit group =>
    obtain ⟨changed, _, h, ⟨⟩⟩ := run_bind_eq_ok_iff.1 h
    have htells := tellsChange_addToGroup s unit group
    rw [h] at htells
    have hcard := card_memberships_of_joined htells
    rw [counts_join htells]
    obtain ⟨r, -, -, rfl, rfl⟩ := run_addToGroup_eq_ok_iff.1 h
    cases hc : r.groupIds.contains group with
    | true => exact .refl s
    | false =>
      rw [hc, if_neg Bool.false_ne_true] at hcard
      exact balanced_modify unit (UnitRecord.inGroup group) (fun _ => rfl) rfl rfl hcard
  | leave unit group =>
    obtain ⟨changed, _, h, ⟨⟩⟩ := run_bind_eq_ok_iff.1 h
    have htells := tellsChange_removeFromGroup s unit group
    rw [h] at htells
    have hcard := card_memberships_of_left htells
    rw [counts_leave htells]
    obtain ⟨r, -, rfl, rfl⟩ := run_removeFromGroup_eq_ok_iff.1 h
    cases hc : r.groupIds.contains group <;> rw [hc] at hcard
    · exact balanced_modify unit (UnitRecord.outOfGroup group) (fun _ => rfl) rfl rfl hcard
    · exact balanced_modify unit (UnitRecord.outOfGroup group) (fun _ => rfl) rfl rfl hcard

/-- Writes one after the other: by induction, each from the store that the one before left. -/
theorem balanced_forM (h : (ws.forM Write.run).run.run s = (.ok (), t)) :
    Balanced (booked ws s) s t := by
  induction ws generalizing s with
  | nil =>
    cases h
    exact .refl _
  | cons w ws ih =>
    obtain ⟨s₁, hw, hws⟩ := run_forM_cons_iff.1 h
    rw [booked, hw]
    exact (balanced_run hw).trans (ih hws)

end OrgTree.Sync
