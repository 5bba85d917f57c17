import OrgTree.Geometry
import OrgTree.Proofs.Json.Record

/-!
# Shapes and their JSON forms

A shape equals itself exactly when all its coordinates are defined, and it is read back from its
JSON form exactly because they are finite: JSON has no numbers for the others.

## Main definitions

- `Geometry.coordinates`: all coordinates of a shape

## Main statements

- `Geometry.same_self_iff`, `Geometry.same_comm`, `Geometry.eq_of_same`
- `Geometry.ofJson?_sorted_toJson`, `Geometry.eq_of_ofJson?_sorted_toJson`: reading the JSON form,
  its members sorted
-/

namespace OrgTree

/-! ### Coordinates as numbers -/

/-- A number equals itself unless it is undefined. -/
theorem float_beq_self_iff {x : Float} : (x == x) = true ↔ x.isNaN = false := by
  change x.toModel.unpack.beq x.toModel.unpack = true ↔ x.toModel.unpack.isNaN = false
  cases x.toModel.unpack with
  | infinity s => cases s <;> decide
  | notANumber => decide
  | zero s => cases s <;> decide
  | finite s m e h =>
    have hself : (compare e e).then (compare m m) = .eq := by simp
    refine iff_of_true ?_ rfl
    cases s with
    | negative =>
      change (some ((compare e e).then (compare m m)).swap == some Ordering.eq) = true
      rw [hself]
      rfl
    | positive =>
      change (some ((compare e e).then (compare m m)) == some Ordering.eq) = true
      rw [hself]
      rfl

/-- Two numbers compare the other way round when they are swapped. -/
theorem unpackedFloat_compare_swap (a b : Float.Model.UnpackedFloat) :
    b.compare a = (a.compare b).map Ordering.swap := by
  have hfinite : ∀ (m n : Nat) (e f : Int),
      (compare f e).then (compare n m) = ((compare e f).then (compare m n)).swap := by
    intro m n e f
    rw [Ordering.swap_then, ← Std.OrientedCmp.eq_swap, ← Std.OrientedCmp.eq_swap]
  cases a with
  | notANumber => cases b <;> rfl
  | infinity s =>
    cases s <;> cases b with
    | infinity s' => cases s' <;> rfl
    | _ => rfl
  | zero s =>
    cases b with
    | infinity s' => cases s' <;> rfl
    | finite s' n f => cases s' <;> rfl
    | _ => rfl
  | finite s m e =>
    cases s <;> cases b with
    | infinity s' => cases s' <;> rfl
    | finite s' n f =>
      cases s' <;> first
        | rfl
        | exact congrArg some (hfinite m n e f)
        | exact congrArg some (congrArg Ordering.swap (hfinite m n e f))
    | _ => rfl

theorem float_beq_comm (x y : Float) : (x == y) = (y == x) := by
  change (x.toModel.unpack.compare y.toModel.unpack == some .eq) =
    (y.toModel.unpack.compare x.toModel.unpack == some .eq)
  rw [unpackedFloat_compare_swap]
  rcases y.toModel.unpack.compare x.toModel.unpack with _ | _ | _ | _ <;> rfl

namespace Geometry

variable {g h : Geometry}

/-- All coordinates of a shape, position by position. -/
def coordinates : Geometry → List Float
  | point p => p
  | polygon rings => rings.flatten.flatten
  | multiPolygon polygons => polygons.flatten.flatten.flatten

theorem sameLists_self_iff {α : Type} {same : α → α → Bool} {as : List α} :
    sameLists same as as = true ↔ ∀ a ∈ as, same a a = true := by
  induction as with
  | nil => simp [sameLists]
  | cons a as ih => simp [sameLists, ih]

/-- A shape is the same as itself exactly when no coordinate is undefined. -/
theorem same_self_iff : g.same g = true ↔ ∀ x ∈ g.coordinates, x.isNaN = false := by
  cases g with
  | point p =>
    simp only [same, samePosition, sameLists_self_iff, coordinates, float_beq_self_iff]
  | polygon rings =>
    simp only [same, sameRings, samePosition, sameLists_self_iff, coordinates, float_beq_self_iff,
      List.mem_flatten]
    constructor
    · rintro h x ⟨p, ⟨r, hr, hp⟩, hx⟩
      exact h r hr p hp x hx
    · intro h r hr p hp x hx
      exact h x ⟨p, ⟨r, hr, hp⟩, hx⟩
  | multiPolygon polygons =>
    simp only [same, sameRings, samePosition, sameLists_self_iff, coordinates, float_beq_self_iff,
      List.mem_flatten]
    constructor
    · rintro h x ⟨p, ⟨r, ⟨q, hq, hr⟩, hp⟩, hx⟩
      exact h q hq r hr p hp x hx
    · intro h q hq r hr p hp x hx
      exact h x ⟨p, ⟨r, ⟨q, hq, hr⟩, hp⟩, hx⟩

theorem sameLists_comm {α : Type} {same : α → α → Bool} (h : ∀ a b, same a b = same b a)
    (as bs : List α) : sameLists same as bs = sameLists same bs as := by
  induction as generalizing bs with
  | nil => cases bs <;> rfl
  | cons a as ih =>
    cases bs with
    | nil => rfl
    | cons b bs => rw [sameLists, sameLists, h a b, ih bs]

theorem sameRings_comm (r s : List Ring) : sameRings r s = sameRings s r :=
  sameLists_comm (sameLists_comm (sameLists_comm float_beq_comm)) r s

/-- It does not matter which of two shapes comes first. -/
theorem same_comm (g h : Geometry) : g.same h = h.same g := by
  cases g <;> cases h <;> first
    | rfl
    | exact sameLists_comm float_beq_comm _ _
    | exact sameRings_comm _ _
    | exact sameLists_comm sameRings_comm _ _

theorem eq_of_sameLists {α : Type} {same : α → α → Bool} {as bs : List α}
    (heq : ∀ a ∈ as, ∀ b ∈ bs, same a b = true → a = b) (h : sameLists same as bs = true) :
    as = bs := by
  induction as generalizing bs with
  | nil =>
    cases bs with
    | nil => rfl
    | cons b bs => simp [sameLists] at h
  | cons a as ih =>
    cases bs with
    | nil => simp [sameLists] at h
    | cons b bs =>
      rw [sameLists, Bool.and_eq_true] at h
      have hab := heq a List.mem_cons_self b List.mem_cons_self h.1
      have hrest := ih (fun a ha b hb => heq a (List.mem_cons_of_mem _ ha) b
        (List.mem_cons_of_mem _ hb)) h.2
      rw [hab, hrest]

/-- Where numbers that are equal are one number, shapes that are the same are one shape. -/
theorem eq_of_same (heq : ∀ x ∈ g.coordinates, ∀ y ∈ h.coordinates, (x == y) = true → x = y)
    (hsame : g.same h = true) : g = h := by
  cases g with
  | point p =>
    cases h with
    | point q => exact congrArg point (eq_of_sameLists heq hsame)
    | polygon s => simp [same] at hsame
    | multiPolygon s => simp [same] at hsame
  | polygon r =>
    cases h with
    | point q => simp [same] at hsame
    | multiPolygon s => simp [same] at hsame
    | polygon s =>
      simp only [coordinates, List.mem_flatten] at heq
      refine congrArg polygon (eq_of_sameLists (fun a ha b hb h₁ => ?_) hsame)
      refine eq_of_sameLists (fun p hp q hq h₂ => ?_) h₁
      exact eq_of_sameLists (fun x hx y hy => heq x ⟨p, ⟨a, ha, hp⟩, hx⟩ y ⟨q, ⟨b, hb, hq⟩, hy⟩) h₂
  | multiPolygon r =>
    cases h with
    | point q => simp [same] at hsame
    | polygon s => simp [same] at hsame
    | multiPolygon s =>
      simp only [coordinates, List.mem_flatten] at heq
      refine congrArg multiPolygon (eq_of_sameLists (fun a ha b hb h₁ => ?_) hsame)
      refine eq_of_sameLists (fun p hp q hq h₂ => ?_) h₁
      refine eq_of_sameLists (fun v hv w hw h₃ => ?_) h₂
      exact eq_of_sameLists (fun x hx y hy =>
        heq x ⟨v, ⟨p, ⟨a, ha, hp⟩, hv⟩, hx⟩ y ⟨w, ⟨q, ⟨b, hb, hq⟩, hw⟩, hy⟩) h₃

end Geometry

/-! ### The JSON form -/

namespace Geometry

open Json

variable {φ : Json → Json}

theorem arrange_positionJson (hφ : IsArrangement φ) (p : Position) :
    φ (positionJson p) = positionJson p :=
  hφ.ofList_eq fun x _ => hφ.ofFloat_eq x

theorem arrange_ringsJson (hφ : IsArrangement φ) (rings : List Ring) :
    φ (ringsJson rings) = ringsJson rings :=
  hφ.ofList_eq fun _ _ => hφ.ofList_eq fun p _ => arrange_positionJson hφ p

theorem arrange_coordinatesJson (hφ : IsArrangement φ) (g : Geometry) :
    φ g.coordinatesJson = g.coordinatesJson := by
  cases g with
  | point p => exact arrange_positionJson hφ p
  | polygon rings => exact arrange_ringsJson hφ rings
  | multiPolygon polygons => exact hφ.ofList_eq fun r _ => arrange_ringsJson hφ r

theorem sorted_toJson (g : Geometry) :
    g.toJson.sorted = .obj [("coordinates", g.coordinatesJson), ("type", .str g.kind.name)] := by
  have hlt : "coordinates" < "type" := by decide
  simp only [toJson, sorted, sortedMembers, insertMember,
    arrange_coordinatesJson isArrangement_sorted, if_pos hlt]

theorem position?_positionJson {p : Position} (h : ∀ x ∈ p, HasNumber x) :
    position? (positionJson p) = some p :=
  listOf_ofList fun x hx => real_ofFloat (h x hx)

theorem rings?_ringsJson {rings : List Ring} (h : ∀ x ∈ rings.flatten.flatten, HasNumber x) :
    rings? (ringsJson rings) = some rings := by
  refine listOf_ofList fun r hr => listOf_ofList fun p hp => position?_positionJson fun x hx => ?_
  exact h x (List.mem_flatten.2 ⟨p, List.mem_flatten.2 ⟨r, hr, hp⟩, hx⟩)

theorem ofCoordinates?_coordinatesJson (h : ∀ x ∈ g.coordinates, HasNumber x) :
    ofCoordinates? g.kind.name g.coordinatesJson = some g := by
  cases g with
  | point p =>
    have hp := position?_positionJson h
    simp only [coordinates] at hp
    simp [kind, Kind.name, coordinatesJson, ofCoordinates?, hp]
  | polygon rings =>
    have hr := rings?_ringsJson h
    simp [kind, Kind.name, coordinatesJson, ofCoordinates?, hr]
  | multiPolygon polygons =>
    have hr : Json.listOf rings? (Json.ofList ringsJson polygons) = some polygons := by
      refine listOf_ofList fun r hr => rings?_ringsJson fun x hx => h x ?_
      obtain ⟨p, hp, hx⟩ := List.mem_flatten.1 hx
      obtain ⟨q, hq, hp⟩ := List.mem_flatten.1 hp
      exact List.mem_flatten.2 ⟨p, List.mem_flatten.2 ⟨q, List.mem_flatten.2 ⟨r, hr, hq⟩, hp⟩, hx⟩
    simp [kind, Kind.name, coordinatesJson, ofCoordinates?, hr]

theorem ofJson?_arranged (hφ : IsArrangement φ) (g : Geometry) :
    ofJson? (φ g.toJson) = ofCoordinates? g.kind.name g.coordinatesJson := by
  rw [ofJson?, toJson, hφ.slots_of_keys]
  · simp [hφ.str, caseName, arrange_coordinatesJson hφ]
  · rfl
  · decide

/-- A shape is read back from its JSON form, the members in any order. -/
theorem ofJson?_toJson (hφ : IsArrangement φ) (h : ∀ x ∈ g.coordinates, HasNumber x) :
    ofJson? (φ g.toJson) = some g := by
  rw [ofJson?_arranged hφ]
  exact ofCoordinates?_coordinatesJson h

/-- A shape is read back from its JSON form with sorted members. -/
theorem ofJson?_sorted_toJson (h : ∀ x ∈ g.coordinates, HasNumber x) :
    ofJson? g.toJson.sorted = some g :=
  ofJson?_toJson isArrangement_sorted h

/-- A shape that is read from a JSON form is the one that was written. -/
theorem eq_of_ofJson?_sorted_toJson (hread : ofJson? g.toJson.sorted = some h) : h = g := by
  rw [ofJson?_arranged isArrangement_sorted] at hread
  have hposition : Faithful positionJson position? := faithful_ofFloat.ofList
  have hrings : Faithful ringsJson rings? := hposition.ofList.ofList
  cases g with
  | point p =>
    simp only [kind, Kind.name, coordinatesJson, ofCoordinates?, if_true] at hread
    obtain ⟨q, hq, rfl⟩ := Option.map_eq_some_iff.1 hread
    rw [hposition p q hq]
  | polygon rings =>
    simp [kind, Kind.name, coordinatesJson, ofCoordinates?] at hread
    obtain ⟨q, hq, rfl⟩ := hread
    rw [hrings rings q hq]
  | multiPolygon polygons =>
    simp [kind, Kind.name, coordinatesJson, ofCoordinates?] at hread
    obtain ⟨q, hq, rfl⟩ := hread
    rw [hrings.ofList polygons q hq]

end Geometry

end OrgTree
