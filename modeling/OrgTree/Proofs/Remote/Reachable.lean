import OrgTree.Proofs.Remote.Registry

/-!
# The reference systems in memory

A system in memory starts without records. Records are given to it, refusals and faults are set up,
and it serves requests of every kind, not only those of an export. Whatever it has been through, a
record is kept under the identifier that it carries, with one exception: a unit that is created
without an identifier is kept under the empty text.

## Main definitions

- `Remote.Registry.Reachable`: the systems that there are

## Main statements

- `Remote.Registry.Named.send`: what one request leaves
- `Remote.Registry.Reachable.named`
-/

namespace OrgTree.Remote.Registry

open Json

variable {g : Registry} {id : String} {r : Json} {ms : Members}

/-- The systems that adding records, setting up failures and serving requests lead to. -/
inductive Reachable : Registry → Prop where
  | empty : Reachable {}
  | addUnit {g : Registry} (h : Reachable g) (record : Json) : Reachable (g.addUnit record)
  | addGroup {g : Registry} (h : Reachable g) (id name set : String) (members : List String) :
      Reachable (g.addGroup id name set members)
  | reject {g : Registry} (h : Reachable g) (id message : String) : Reachable (g.reject id message)
  | failMetadata {g : Registry} (h : Reachable g) (message : String) :
      Reachable (g.failMetadata message)
  | send {g : Registry} (h : Reachable g) (request : Request) :
      Reachable (client.send request g).2

/-! ### Writes -/

theorem named_empty : ({} : Registry).Named where
  unitRecords _ _ _ h := by cases h
  groups := ascending_nil
  groupRecords _ _ h := by cases h

/-- Only the records count. -/
theorem Named.of_records {g' : Registry} (h : g.Named) (hunits : g'.units = g.units)
    (hgroups : g'.groups = g.groups) : g'.Named := by
  have hunit : ∀ id, g'.unit? id = g.unit? id := fun id => congrArg (lookup? id) hunits
  have hgroup : ∀ id, g'.group? id = g.group? id := fun id => congrArg (lookup? id) hgroups
  refine ⟨fun id r hne hr => ?_, hgroups ▸ h.groups, fun id r hr => ?_⟩
  · exact h.unitRecords id r hne ((hunit id).symm.trans hr)
  · exact h.groupRecords id r ((hgroup id).symm.trans hr)

theorem Named.insertUnit (h : g.Named) (hid : id ≠ "" → recordId? r = some id) :
    ({ g with units := insertMember id r g.units } : Registry).Named where
  unitRecords j r' hne hr' := by
    rw [unit?_insertMember] at hr'
    split at hr'
    · rename_i hj
      cases hr'
      rw [← hj] at hne ⊢
      exact hid hne
    · exact h.unitRecords j r' hne hr'
  groups := h.groups
  groupRecords := h.groupRecords

theorem Named.insertGroup (h : g.Named) (hid : recordId? (.obj ms) = some id) (hms : Ascending ms) :
    ({ g with groups := insertMember id (.obj ms) g.groups } : Registry).Named where
  unitRecords := h.unitRecords
  groups := h.groups.insertMember
  groupRecords j r hr := by
    rw [group?_insertMember] at hr
    split at hr
    · rename_i hj
      cases hr
      exact ⟨hj ▸ hid, ms, rfl, hms⟩
    · exact h.groupRecords j r hr

theorem Named.addUnit (h : g.Named) (record : Json) : (g.addUnit record).Named := by
  unfold Registry.addUnit
  split
  · rename_i id hid
    exact h.insertUnit fun _ => hid
  · exact h

theorem Named.foldl_addUnit (h : g.Named) (rs : List Json) :
    (rs.foldl Registry.addUnit g).Named := by
  induction rs generalizing g with
  | nil => exact h
  | cons r rs ih => exact ih (h.addUnit r)

theorem Named.addGroup (h : g.Named) (id name set : String) (members : List String) :
    (g.addGroup id name set members).Named := by
  refine h.insertGroup rfl ?_
  rw [Ascending, ← List.pairwise_map (f := Prod.fst)]
  show ["groupSets", "id", "name", "organisationUnits"].Pairwise (· < ·)
  decide

theorem Named.createUnit (h : g.Named) (path : String) (body : Json) :
    (g.createUnit path body).2.Named := by
  unfold Registry.createUnit
  dsimp only
  split
  · exact h
  · refine h.insertUnit fun hne => ?_
    cases hid : recordId? body with
    | none =>
      rw [hid] at hne
      exact absurd rfl hne
    | some id => rfl

theorem Named.importMetadata (h : g.Named) (body : Json) : (g.importMetadata body).2.Named := by
  unfold Registry.importMetadata
  split
  · exact h.of_records rfl rfl
  · exact h.foldl_addUnit _

/-- A group keeps its identifier, whatever is put there. -/
theorem Named.updateGroup (h : g.Named) (path : String) (body : Json) :
    (g.updateGroup path body).2.Named := by
  unfold Registry.updateGroup
  split
  · rename_i id ms hfound
    obtain ⟨id', -, hgroup⟩ := Option.bind_eq_some_iff.1 hfound
    obtain ⟨r, hr, heq⟩ := Option.map_eq_some_iff.1 hgroup
    cases heq
    obtain ⟨hid, ns, hobj, hns⟩ := h.groupRecords id _ hr
    cases hobj
    have hkept : ∀ {k : String} {v : Json} {ns : Members}, k ≠ "id" →
        recordId? (.obj ns) = some id → recordId? (.obj (insertMember k v ns)) = some id := by
      intro k v ns hk hid
      rw [recordId?, get?, lookup?_insertMember_of_ne hk]
      exact hid
    have hunits := hkept (v := (body.get? "organisationUnits").getD .null)
      (show "organisationUnits" ≠ "id" by decide) hid
    dsimp only
    split
    · exact h.insertGroup (hkept (by decide) hunits) hns.insertMember.insertMember
    · exact h.insertGroup hunits hns.insertMember
  · exact h

/-- Requests of every kind leave records under their identifiers. -/
theorem Named.send (h : g.Named) (request : Request) : (client.send request g).2.Named := by
  have hreceived : (g.receive request).Named := h.of_records rfl rfl
  cases request with
  | get path params => exact hreceived
  | post path body =>
    simp only [Client.send, client]
    split
    · exact hreceived.createUnit path body
    · split
      · exact hreceived.importMetadata body
      · exact hreceived
  | put path body => exact hreceived.updateGroup path body

theorem Reachable.named (h : g.Reachable) : g.Named := by
  induction h with
  | empty => exact named_empty
  | addUnit _ record ih => exact ih.addUnit record
  | addGroup _ id name set members ih => exact ih.addGroup id name set members
  | reject _ _ _ ih => exact ih.of_records rfl rfl
  | failMetadata _ _ ih => exact ih.of_records rfl rfl
  | send _ request ih => exact ih.send request

end OrgTree.Remote.Registry
