import OrgTree.Proofs.Text
import OrgTree.RefSupply

/-!
# Generated references

Generated references are selected by random numbers. Whatever the numbers are, the reference system
accepts the result.

## Main definitions

- `RefSupply.IsGenerated`: every reference of a supply is selected by numbers

## Main statements

- `Uid.isValid_ofIndices`: identifiers that are selected are valid
- `RefSupply.isGenerated_seeded`: the supplies that look random
-/

namespace OrgTree

namespace Uid

theorem getD_mod_mem {alphabet : List Char} (h : alphabet ≠ []) (n : Nat) :
    (alphabet[n % alphabet.length]?).getD 'a' ∈ alphabet := by
  have hlt : n % alphabet.length < alphabet.length := Nat.mod_lt _ (List.length_pos_iff.2 h)
  rw [List.getElem?_eq_getElem hlt, Option.getD_some]
  exact List.getElem_mem hlt

theorem isAlpha_of_mem_letters : ∀ c ∈ letters, c.isAlpha = true :=
  List.all_eq_true.1 (by decide)

theorem isAlphanum_of_mem_alphanumerics : ∀ c ∈ alphanumerics, c.isAlphanum = true :=
  List.all_eq_true.1 (by decide)

theorem isAlphanum_of_isAlpha {c : Char} (h : c.isAlpha = true) : c.isAlphanum = true := by
  rw [Char.isAlphanum, h, Bool.true_or]

theorem isValid_ofIndices (first : Nat) {others : List Nat} (h : others.length + 1 = size) :
    IsValid (ofIndices first others) := by
  have hletters : letters ≠ [] := by decide
  have halphanumerics : alphanumerics ≠ [] := by decide
  have hfirst := isAlpha_of_mem_letters _ (getD_mod_mem hletters first)
  have htake : others.take (size - 1) = others := List.take_of_length_le (by omega)
  simp only [IsValid, isValid, ofIndices, htake, String.toList_ofList, List.length_map, h,
    beq_self_eq_true, hfirst, List.all_cons, isAlphanum_of_isAlpha hfirst, Bool.true_and,
    List.all_map, List.all_eq_true, Function.comp_apply]
  exact fun n _ => isAlphanum_of_mem_alphanumerics _ (getD_mod_mem halphanumerics n)

/-- No letter is white space. -/
theorem isBlank_of_isAlpha {c : Char} (h : c.isAlpha = true) : Text.isBlank c = false := by
  change (decide ('A'.val ≤ c.val ∧ c.val ≤ 'Z'.val) ||
    decide ('a'.val ≤ c.val) && decide (c.val ≤ 'z'.val)) = true at h
  simp only [Bool.or_eq_true, Bool.and_eq_true, decide_eq_true_eq, UInt32.le_iff_toNat_le] at h
  change (65 ≤ c.toNat ∧ c.toNat ≤ 90) ∨ (97 ≤ c.toNat ∧ c.toNat ≤ 122) at h
  simp only [Text.isBlank, Text.inRanges, Text.blankRanges, List.any_cons, List.any_nil,
    Bool.or_eq_false_iff, Bool.and_eq_false_iff, decide_eq_false_iff_not, and_true]
  omega

theorem not_isBlank_of_isValid {s : String} (h : IsValid s) : ¬ Text.IsBlank s := by
  intro hblank
  unfold IsValid isValid at h
  unfold Text.IsBlank at hblank
  cases hlist : s.toList with
  | nil =>
    rw [hlist] at h
    cases h
  | cons c r =>
    -- the first character is a letter
    rw [hlist, Bool.and_eq_true, Bool.and_eq_true] at h
    have hc := hblank c (by rw [hlist]; exact List.mem_cons_self)
    rw [isBlank_of_isAlpha h.1.2] at hc
    cases hc

end Uid

namespace RefSupply

/-- Every reference of the supply is selected by eleven numbers. -/
def IsGenerated (refs : RefSupply) : Prop :=
  ∀ n i, ∃ first others, others.length + 1 = Uid.size ∧ refs n i = Uid.ofIndices first others

variable {refs : RefSupply}

theorem IsGenerated.isValid (h : refs.IsGenerated) (n : Nat) (i : UnitId) :
    Uid.IsValid (refs n i) := by
  obtain ⟨first, others, hlength, heq⟩ := h n i
  rw [heq]
  exact Uid.isValid_ofIndices first hlength

theorem IsGenerated.not_isBlank (h : refs.IsGenerated) (n : Nat) (i : UnitId) :
    ¬ Text.IsBlank (refs n i) :=
  Uid.not_isBlank_of_isValid (h.isValid n i)

theorem length_numbers (n : Nat) (g : StdGen) : (numbers n g).length = n := by
  induction n generalizing g with
  | zero => rfl
  | succ n ih => simp [numbers, ih]

theorem isGenerated_seeded (seed : Nat) : (seeded seed).IsGenerated := by
  intro n i
  have hlength := length_numbers Uid.size (mkStdGen (seed + n))
  unfold seeded
  rcases hnumbers : numbers Uid.size (mkStdGen (seed + n)) with _ | ⟨first, others⟩
  · rw [hnumbers] at hlength
    exact absurd hlength (by decide)
  · rw [hnumbers, List.length_cons] at hlength
    exact ⟨first, others, hlength, rfl⟩

end RefSupply

end OrgTree
