import OrgTree.Proofs.Diff.Keys

/-!
# The grammar of field keys

A key is one of five words, or a head, a source reference and a name with colons between them. The
reference is not empty and holds no colon, so the first two colons are the ones that separate; the
name may be any text. Reading follows the grammar exactly, and no part of a key is lost by it.

## Main definitions

- `Field.Names`: the grammar of keys, with the fields that they name

## Main statements

- `Field.read_eq_ok_iff_names`, `Field.exists_names_iff`: what reading accepts
- `Query.parseFields_eq_error_iff`: the error of a list of keys is that of its first bad one
- `Query.parseFields_exact`
-/

namespace OrgTree

namespace Field

/-- A key and the field that it names. -/
inductive Names : String → Field → Prop where
  | name : Names "name" .name
  | geometry : Names "geometry" .geometry
  | parent : Names "parent" .parent
  | openingDate : Names "opening_date" .openingDate
  | closedDate : Names "closed_date" .closedDate
  | groupSet {ref : String} (title : String) (hne : ref ≠ "") (hcolon : ':' ∉ ref.toList) :
      Names ("groupset:" ++ ref ++ ":" ++ title) (.groupSet ref title)
  | group {ref : String} (title : String) (hne : ref ≠ "") (hcolon : ':' ∉ ref.toList) :
      Names ("group:" ++ ref ++ ":" ++ title) (.group ref title)

variable {s k : String} {f : Field}

/-- A field is named by its own key, and by no other one. -/
theorem names_iff : Names s f ↔ f.Readable ∧ f.key = s := by
  constructor
  · intro h
    cases h with
    | groupSet title hne hcolon => exact ⟨⟨hne, hcolon⟩, rfl⟩
    | group title hne hcolon => exact ⟨⟨hne, hcolon⟩, rfl⟩
    | _ => exact ⟨trivial, rfl⟩
  · rintro ⟨hread, rfl⟩
    cases f with
    | name => exact .name
    | geometry => exact .geometry
    | parent => exact .parent
    | openingDate => exact .openingDate
    | closedDate => exact .closedDate
    | groupSet ref title => exact .groupSet title hread.1 hread.2
    | group ref title => exact .group title hread.1 hread.2

/-- Reading a key follows the grammar. -/
theorem read_eq_ok_iff_names : read s = .ok f ↔ Names s f := by
  rw [read_eq_ok_iff, names_iff]
  constructor
  · intro h
    exact ⟨readable_of_ofKey? h, key_of_ofKey? h⟩
  · rintro ⟨hread, rfl⟩
    exact ofKey?_key hread

example : read "group:a:b:c" = .ok (.group "a" "b:c") := rfl

example : read "group::c" = .error "group::c" := rfl

/-- A key that cannot be read is what the error is about. -/
theorem mapError_read_eq_error_iff {ε : Type} {err : String → ε} {e : ε} :
    (read s).mapError err = .error e ↔ e = err s ∧ ¬ ∃ f, Names s f := by
  simp only [← read_eq_ok_iff_names]
  unfold read
  cases ofKey? s <;> simp [Except.mapError, eq_comm]

/-- The words of the grammar. -/
theorem exists_names_iff : (∃ f, Names s f) ↔
    s ∈ ["name", "geometry", "parent", "opening_date", "closed_date"] ∨
    ∃ ref title : String, ref ≠ "" ∧ ':' ∉ ref.toList ∧
      (s = "groupset:" ++ ref ++ ":" ++ title ∨ s = "group:" ++ ref ++ ":" ++ title) := by
  constructor
  · rintro ⟨f, h⟩
    cases h with
    | groupSet title hne hcolon => exact .inr ⟨_, title, hne, hcolon, .inl rfl⟩
    | group title hne hcolon => exact .inr ⟨_, title, hne, hcolon, .inr rfl⟩
    | _ => exact .inl (by simp)
  · rintro (h | ⟨ref, title, hne, hcolon, rfl | rfl⟩)
    · simp only [List.mem_cons, List.not_mem_nil, or_false] at h
      rcases h with rfl | rfl | rfl | rfl | rfl
      · exact ⟨_, .name⟩
      · exact ⟨_, .geometry⟩
      · exact ⟨_, .parent⟩
      · exact ⟨_, .openingDate⟩
      · exact ⟨_, .closedDate⟩
    · exact ⟨_, .groupSet title hne hcolon⟩
    · exact ⟨_, .group title hne hcolon⟩

theorem ofKey?_eq_some_iff_names : ofKey? s = some f ↔ Names s f := by
  rw [← read_eq_ok_iff, read_eq_ok_iff_names]

theorem ofKey?_eq_none_iff_names : ofKey? s = none ↔ ¬ ∃ f, Names s f := by
  simp [← ofKey?_eq_some_iff_names, Option.eq_none_iff_forall_ne_some]

/-- A list of keys is read when each of them is. -/
theorem ofKeys_eq_ok_iff {keys : List String} {fs : List Field} :
    ofKeys keys = .ok fs ↔ List.Forall₂ Names keys fs := by
  induction keys generalizing fs with
  | nil => cases fs <;> simp [ofKeys, pure, Except.pure]
  | cons k keys ih =>
    rw [ofKeys_cons, List.forall₂_cons_left_iff]
    simp only [← ih, ← ofKey?_eq_some_iff_names]
    cases ofKey? k with
    | none => simp
    | some f => cases ofKeys keys <;> simp [eq_comm]

theorem ofKeys_cons_of_bad {keys : List String} (h : ¬ ∃ f, Names s f) :
    ofKeys (s :: keys) = .error s := by
  rw [ofKeys_cons, ofKey?_eq_none_iff_names.2 h]

/-- A key that can be read leaves the error to the keys after it. -/
theorem ofKeys_cons_eq_error_iff {keys : List String} (h : Names s f) :
    ofKeys (s :: keys) = .error k ↔ ofKeys keys = .error k := by
  rw [ofKeys_cons, ofKey?_eq_some_iff_names.2 h]
  cases ofKeys keys <;> simp

/-- A list of keys is refused for the first one that cannot be read. -/
theorem ofKeys_eq_error_iff {keys : List String} :
    ofKeys keys = .error k ↔ ∃ before after, keys = before ++ k :: after ∧
      (∀ k' ∈ before, ∃ f, Names k' f) ∧ ¬ ∃ f, Names k f := by
  constructor
  · intro h
    induction keys with
    | nil => cases h
    | cons k₀ keys ih =>
      by_cases hk₀ : ∃ f, Names k₀ f
      · obtain ⟨f₀, hf₀⟩ := hk₀
        obtain ⟨before, after, rfl, hgood, hbad⟩ := ih ((ofKeys_cons_eq_error_iff hf₀).1 h)
        exact ⟨k₀ :: before, after, rfl, List.forall_mem_cons.2 ⟨⟨f₀, hf₀⟩, hgood⟩, hbad⟩
      · rw [ofKeys_cons_of_bad hk₀] at h
        cases h
        exact ⟨[], keys, rfl, fun _ h => absurd h List.not_mem_nil, hk₀⟩
  · rintro ⟨before, after, rfl, hgood, hbad⟩
    induction before with
    | nil => exact ofKeys_cons_of_bad hbad
    | cons k' before ih =>
      obtain ⟨⟨f, hf⟩, hgood⟩ := List.forall_mem_cons.1 hgood
      exact (ofKeys_cons_eq_error_iff hf).2 (ih hgood)

end Field

namespace Query

open OrgTree.Field

theorem parseFields_eq_error_iff {keys : List String} {e : DiffError} :
    parseFields keys = .error e ↔ ∃ k, ofKeys keys = .error k ∧ e = .unsupportedField k := by
  unfold parseFields
  cases ofKeys keys <;> simp [Except.mapError, eq_comm]

/-- A key is read exactly if it is one of the words of the grammar, and it is the key of the field
that it names; another key is refused as it stands. A list of keys gives their fields in order, or
the error of its first key that names none. -/
theorem parseFields_exact (s : String) (keys : List String) :
    ((∃ f, Field.read s = .ok f) ↔
      s ∈ ["name", "geometry", "parent", "opening_date", "closed_date"] ∨
      ∃ ref title : String, ref ≠ "" ∧ ':' ∉ ref.toList ∧
        (s = "groupset:" ++ ref ++ ":" ++ title ∨ s = "group:" ++ ref ++ ":" ++ title)) ∧
    (∀ f, Field.read s = .ok f ↔ Names s f) ∧
    (∀ f, Field.read s = .ok f → f.key = s) ∧
    (∀ e, (Field.read s).mapError DiffError.unsupportedField = .error e ↔
      e = .unsupportedField s ∧ ¬ ∃ f, Field.read s = .ok f) ∧
    (∀ fs, parseFields keys = .ok fs ↔ List.Forall₂ (fun k f => Field.read k = .ok f) keys fs) ∧
    (∀ e, parseFields keys = .error e ↔ ∃ before k after, keys = before ++ k :: after ∧
      (∀ k' ∈ before, ∃ f, Field.read k' = .ok f) ∧ (¬ ∃ f, Field.read k = .ok f) ∧
      e = .unsupportedField k) := by
  refine ⟨?_, fun _ => read_eq_ok_iff_names, fun f h => ?_, fun e => ?_, fun fs => ?_,
    fun e => ?_⟩
  · simp only [read_eq_ok_iff_names]
    exact exists_names_iff
  · exact (names_iff.1 (read_eq_ok_iff_names.1 h)).2
  · simp only [read_eq_ok_iff_names]
    exact mapError_read_eq_error_iff
  · simp only [read_eq_ok_iff_names]
    rw [Store.parseFields_eq_ok_iff, ofKeys_eq_ok_iff]
  · simp only [read_eq_ok_iff_names, parseFields_eq_error_iff, ofKeys_eq_error_iff]
    constructor
    · rintro ⟨k, ⟨before, after, hkeys, hgood, hbad⟩, rfl⟩
      exact ⟨before, k, after, hkeys, hgood, hbad, rfl⟩
    · rintro ⟨before, k, after, hkeys, hgood, hbad, rfl⟩
      exact ⟨k, ⟨before, after, hkeys, hgood, hbad⟩, rfl⟩

end Query

end OrgTree
