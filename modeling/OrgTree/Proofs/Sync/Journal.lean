import OrgTree.Proofs.Sync.Applied
import OrgTree.Proofs.Sync.Balance
import OrgTree.Proofs.Sync.Refused

/-!
# The journal of a run

What a run writes can be told without counting: the writes that each diff leads to, in their order,
each computed from the store that the writes before it leave.

## Main definitions

- `Sync.groupWrites`, `Sync.createWrites`, `Sync.editWrites`: the writes of the parts of a step
- `Sync.diffWrites`, `Sync.journal`: the writes of a step and of a run
- `Sync.Write.IsDueTo`: a diff asks for a write

## Main statements

- `Sync.diffWrites_agree`: counts and reports play no part in what is written
- `Sync.exists_isDueTo_of_mem_journal`: nothing is written that no diff asks for
-/

namespace OrgTree

/-- Whether a run passes over a diff. -/
def CompactDiff.isPassedOver (d : CompactDiff) : Bool :=
  match d.status with
  | .new | .modified => false
  | .same | .deleted | .neverSeen => true

namespace Sync

open Outcome Store

/-- The writes that bring a membership in line with a comparison: a group that is to be joined and
is missing is created, and one that is to be left and is missing is not. -/
def groupWrites (T : VersionId) (i : UnitId) (s : Store) (c : CompactComparison) : List Write :=
  match wants? c, asks? c with
  | some (ref, title), _ =>
    match s.findGroup? T ref with
    | some g => [.join i g.id]
    | none => [.createGroup T ref title, .join i s.groups.nextId]
  | none, some (ref, false) =>
    match s.findGroup? T ref with
    | some g => [.leave i g.id]
    | none => []
  | none, _ => []

/-- The writes that bring the memberships of a unit in line with comparisons. -/
def regroupWrites (T : VersionId) (i : UnitId) : List CompactComparison → Store → List Write
  | [], _ => []
  | c :: cs, s => groupWrites T i s c ++ regroupWrites T i cs (written (groupWrites T i s c) s)

/-- The writes that create a unit for a reference unit, which gets a source reference first if it
has none. -/
def createWrites (T : VersionId) (refs : RefSupply) (σ : Session) (unit : CompactUnit) :
    List Write :=
  match ((newParent T unit).run.run σ).1, unit.ref? with
  | .error _, _ => []
  | .ok parent, some ref => [.createUnit (newUnit T unit ref parent)]
  | .ok parent, none =>
    [.assignRef unit.id (refs σ.drawn unit.id),
      .createUnit (newUnit T unit (refs σ.drawn unit.id) parent)]

/-- The write that edits the unit of a modified diff, if there is something to edit. -/
def editWrites (T : VersionId) (s : Store) (d : CompactDiff) : List Write :=
  match editOf? T s d with
  | some (i, p) => if p.isEmpty then [] else [.updateUnit i p]
  | none => []

/-- The writes that a diff leads to. -/
def diffWrites (T : VersionId) (refs : RefSupply) (σ : Session) (d : CompactDiff) : List Write :=
  match d.status, d.reference, d.target with
  | .new, some unit, _ =>
    match unit.ref?.bind (σ.store.findRecord? T) with
    | some r => regroupWrites T r.id d.comparisons σ.store
    | none =>
      let first := createWrites T refs σ unit
      first ++ regroupWrites T σ.store.units.nextId d.comparisons (written first σ.store)
  | .modified, _, some unit =>
    let first := editWrites T σ.store d
    first ++ regroupWrites T unit.id d.comparisons (written first σ.store)
  | _, _, _ => []

/-- The writes of a run over some diffs. -/
def journal (T : VersionId) (refs : RefSupply) : List CompactDiff → Session → List Write
  | [], _ => []
  | d :: ds, σ => diffWrites T refs σ d ++ journal T refs ds ((apply T refs d).run.run σ).2

variable {T : VersionId} {refs : RefSupply} {σ τ : Session} {w : Write} {s : Store}
  {d : CompactDiff} {ds : List CompactDiff} {unit : CompactUnit} {i : UnitId}
  {c : CompactComparison} {cs : List CompactComparison}

/-- Where the writes of a diff come from is not written in counts and reports. -/
theorem diffWrites_agree (h : σ.Agree τ) (d : CompactDiff) :
    diffWrites T refs τ d = diffWrites T refs σ d := by
  have hcreate : ∀ unit, createWrites T refs τ unit = createWrites T refs σ unit := fun unit => by
    simp only [createWrites, (respectsAgree_newParent T unit σ τ h).1, h.drawn]
  simp only [diffWrites, hcreate, h.store]

/-! ### Where writes come from -/

/-- A diff asks for a write: references are generated for its reference unit if that has none, the
unit that is created is made from it, edits are of its target unit, and groups and memberships are
those that its comparisons name. -/
def Write.IsDueTo (T : VersionId) (refs : RefSupply) (d : CompactDiff) : Write → Prop
  | assignRef i x => d.status = .new ∧
      ∃ unit n, d.reference = some unit ∧ unit.ref? = none ∧ i = unit.id ∧ x = refs n unit.id
  | createUnit n => d.status = .new ∧
      ∃ unit ref parent, d.reference = some unit ∧ n = newUnit T unit ref parent
  | updateUnit i p => d.status = .modified ∧ p.isEmpty = false ∧
      ∃ unit, d.target = some unit ∧ i = unit.id
  | createGroup version ref title => version = T ∧ ∃ c ∈ d.comparisons, wants? c = some (ref, title)
  | join _ _ => ∃ c ∈ d.comparisons, ∃ ref, asks? c = some (ref, true)
  | leave _ _ => ∃ c ∈ d.comparisons, ∃ ref, asks? c = some (ref, false)

theorem isDueTo_of_mem_groupWrites (hc : c ∈ d.comparisons) (h : w ∈ groupWrites T i s c) :
    w.IsDueTo T refs d := by
  unfold groupWrites at h
  split at h
  · rename_i ref title hwants
    have hasks : asks? c = some (ref, true) := asks?_of_wants? hwants
    split at h
    · cases List.mem_singleton.1 h
      exact ⟨c, hc, ref, hasks⟩
    · rcases List.mem_pair.1 h with rfl | rfl
      · exact ⟨rfl, c, hc, hwants⟩
      · exact ⟨c, hc, ref, hasks⟩
  · rename_i ref _ hasks
    split at h
    · cases List.mem_singleton.1 h
      exact ⟨c, hc, ref, hasks⟩
    · cases h
  · cases h

theorem isDueTo_of_mem_regroupWrites (hcs : ∀ c ∈ cs, c ∈ d.comparisons)
    (h : w ∈ regroupWrites T i cs s) : w.IsDueTo T refs d := by
  induction cs generalizing s with
  | nil => cases h
  | cons c cs ih =>
    obtain ⟨hc, hcs⟩ := List.forall_mem_cons.1 hcs
    rcases List.mem_append.1 h with h | h
    · exact isDueTo_of_mem_groupWrites hc h
    · exact ih hcs h

theorem isDueTo_of_mem_createWrites (hnew : d.status = .new) (hunit : d.reference = some unit)
    (h : w ∈ createWrites T refs σ unit) : w.IsDueTo T refs d := by
  unfold createWrites at h
  split at h
  · cases h
  · cases List.mem_singleton.1 h
    exact ⟨hnew, unit, _, _, hunit, rfl⟩
  · rename_i hnone
    rcases List.mem_pair.1 h with rfl | rfl
    · exact ⟨hnew, unit, σ.drawn, hunit, hnone, rfl, rfl⟩
    · exact ⟨hnew, unit, _, _, hunit, rfl⟩

theorem isDueTo_of_mem_editWrites (h : w ∈ editWrites T s d) : w.IsDueTo T refs d := by
  unfold editWrites at h
  split at h
  · rename_i i p hedit
    obtain ⟨unit, hmodified, htarget, hid, -⟩ :=
      editOf?_eq_some (τ := { store := s }) hedit (.refl T s)
    cases hempty : p.isEmpty with
    | true =>
      rw [hempty] at h
      cases h
    | false =>
      rw [hempty] at h
      cases List.mem_singleton.1 h
      exact ⟨hmodified, hempty, unit, htarget, hid⟩
  · cases h

/-- A diff leads to no writes that it does not ask for. -/
theorem isDueTo_of_mem_diffWrites (h : w ∈ diffWrites T refs σ d) : w.IsDueTo T refs d := by
  unfold diffWrites at h
  split at h
  · rename_i unit hnew hunit
    split at h
    · exact isDueTo_of_mem_regroupWrites (fun _ hc => hc) h
    · rcases List.mem_append.1 h with h | h
      · exact isDueTo_of_mem_createWrites hnew hunit h
      · exact isDueTo_of_mem_regroupWrites (fun _ hc => hc) h
  · rcases List.mem_append.1 h with h | h
    · exact isDueTo_of_mem_editWrites h
    · exact isDueTo_of_mem_regroupWrites (fun _ hc => hc) h
  · cases h

/-- Nothing is written that no diff asks for. -/
theorem exists_isDueTo_of_mem_journal (h : w ∈ journal T refs ds σ) :
    ∃ d ∈ ds, w.IsDueTo T refs d := by
  induction ds generalizing σ with
  | nil => cases h
  | cons d ds ih =>
    rcases List.mem_append.1 h with h | h
    · exact ⟨d, List.mem_cons_self, isDueTo_of_mem_diffWrites h⟩
    · obtain ⟨e, he, hw⟩ := ih h
      exact ⟨e, List.mem_cons_of_mem d he, hw⟩

end Sync

end OrgTree
