import OrgTree.Proofs.Diff.PathOrder
import OrgTree.Store.Basic

/-!
# Sorting by paths

Items of which no three have tangled paths are sorted as by an order, in ascending order and with
every path before its extensions. Paths of numbers, such as a store makes, are never tangled: they
are compared as the lists of their numbers, so sorting by them puts every unit after the units above
it.

## Main definitions

- `Path.IsNumeric`: the paths of numbers, and missing paths
- `Path.IsCanonical`: the paths of lineages
- `Path.Descending`: items in the order in which sorting builds them up

## Main statements

- `Path.compare_pathText`: the order of the paths of two lineages
- `Path.sort_perm`, `Path.pairwise_sort`: sorting keeps the items and puts them in ascending order
- `Path.sort_map`, `Path.sort_congr`: the order depends on the paths alone
- `Path.sort_eq_of_perm`: items with different paths are sorted in one way only
- `Path.sort_of_sort_eq_append`: a first part of a sorted list is sorted
- `Path.preorder_unless_tangled`: how far the order of paths is one
-/

namespace OrgTree.Path

open Store

/-- All segments are numerals. -/
def AllNumerals (as : List String) : Prop :=
  ∀ a ∈ as, (Text.readUInt64? a).isSome = true

/-- Lists of numerals are compared by their numbers. -/
theorem compareLists_of_allNumerals {as bs : List String} (has : AllNumerals as)
    (hbs : AllNumerals bs) :
    compareLists as bs = Ord.compare (as.map segmentNumber) (bs.map segmentNumber) := by
  induction as generalizing bs with
  | nil => cases bs <;> rfl
  | cons a as ih =>
    cases bs with
    | nil => rfl
    | cons b bs =>
      obtain ⟨ha, has⟩ := List.forall_mem_cons.1 has
      obtain ⟨hb, hbs⟩ := List.forall_mem_cons.1 hbs
      simp only [List.map_cons, compareLists_cons_cons, compareSegments_of_isNumeral ha hb,
        ih has hbs, List.compare_eq_compareLex, List.compareLex_cons_cons]

/-- The numbers of identifiers. -/
def numbers (ids : List UnitId) : List Nat :=
  ids.map fun i => i.number.toNat

theorem allNumerals_toText (ids : List UnitId) : AllNumerals (ids.map Id.toText) := by
  intro a ha
  obtain ⟨i, -, rfl⟩ := List.mem_map.1 ha
  rw [Id.toText, Text.readUInt64?_showUInt64]
  rfl

theorem toText_injective : Function.Injective (Id.toText : UnitId → String) := by
  intro i j h
  have hread := congrArg Text.readUInt64? h
  rw [Id.toText, Id.toText, Text.readUInt64?_showUInt64, Text.readUInt64?_showUInt64] at hread
  exact Id.ext_number (Option.some.inj hread)

theorem compareLists_toText (ids jds : List UnitId) :
    compareLists (ids.map Id.toText) (jds.map Id.toText) =
      Ord.compare (numbers ids) (numbers jds) := by
  have hnumber : ∀ i : UnitId, segmentNumber i.toText = i.number.toNat := by
    intro i
    rw [segmentNumber, Id.toText, Text.readUInt64?_showUInt64, Option.getD_some]
  simp only [compareLists_of_allNumerals (allNumerals_toText ids) (allNumerals_toText jds),
    List.map_map, numbers, Function.comp_def, hnumber]

theorem pieces_pathText {ids : List UnitId} (hne : ids ≠ []) :
    Text.pieces '.' (pathText ids) = ids.map Id.toText := by
  refine Text.pieces_intercalate (by simpa using hne) fun p hp => ?_
  obtain ⟨i, -, rfl⟩ := List.mem_map.1 hp
  exact Text.sep_not_mem_showUInt64 (by decide) i.number

/-- Paths of lineages are compared by the numbers of their identifiers. -/
theorem compare_pathText {ids jds : List UnitId} (hi : ids ≠ []) (hj : jds ≠ []) :
    compare (some (pathText ids)) (some (pathText jds)) =
      Ord.compare (numbers ids) (numbers jds) := by
  rw [compare, pieces_pathText hi, pieces_pathText hj, compareLists_toText]

/-- A list of numbers comes before what it is a first part of. -/
theorem compare_append (ns : List Nat) {ms : List Nat} (hne : ms ≠ []) :
    Ord.compare ns (ns ++ ms) = .lt := by
  induction ns with
  | nil =>
    cases ms with
    | nil => exact absurd rfl hne
    | cons m ms => rfl
  | cons n ns ih =>
    have hn : Ord.compare n n = .eq := Std.ReflCmp.compare_self
    rw [List.cons_append, List.compare_eq_compareLex, List.compareLex_cons_cons, hn]
    exact ih

/-- Two lists of numbers are compared where they first differ. -/
theorem compare_append_cons (ns ms ks : List Nat) {m k : Nat} (h : m < k) :
    Ord.compare (ns ++ m :: ms) (ns ++ k :: ks) = .lt := by
  induction ns with
  | nil =>
    have hmk : Ord.compare m k = .lt := Nat.compare_eq_lt.2 h
    rw [List.nil_append, List.nil_append, List.compare_eq_compareLex,
      List.compareLex_cons_cons, hmk]
    rfl
  | cons n ns ih =>
    have hn : Ord.compare n n = .eq := Std.ReflCmp.compare_self
    rw [List.cons_append, List.cons_append, List.compare_eq_compareLex, List.compareLex_cons_cons,
      hn]
    exact ih

/-- Between a list of numbers and its continuations there are only continuations. -/
theorem isPrefix_of_between {ns ms ks : List Nat} (hlow : (Ord.compare ns ms).isLE = true)
    (hhigh : (Ord.compare ms (ns ++ ks)).isLE = true) : ns <+: ms := by
  induction ns generalizing ms with
  | nil => exact List.nil_prefix
  | cons n ns ih =>
    cases ms with
    | nil => cases hlow
    | cons m ms =>
      rw [List.cons_append] at hhigh
      rw [List.compare_eq_compareLex, List.compareLex_cons_cons] at hlow hhigh
      have hnm : n = m := by
        rw [Ordering.isLE_then_iff_or] at hlow hhigh
        rcases hlow with hlow | hlow <;> rcases hhigh with hhigh | hhigh <;>
          simp only [Nat.compare_eq_lt, Nat.compare_eq_eq] at hlow hhigh <;> omega
      subst hnm
      have hn : Ord.compare n n = .eq := Std.ReflCmp.compare_self
      rw [hn, Ordering.eq_then, ← List.compare_eq_compareLex] at hlow hhigh
      exact List.cons_prefix_cons.2 ⟨rfl, ih hlow hhigh⟩

/-- The path of a unit comes after the path of its parent. -/
theorem compare_pathText_child {ids : List UnitId} (hne : ids ≠ []) (i : UnitId) :
    compare (some (pathText ids)) (some (pathText (ids ++ [i]))) = .lt := by
  rw [compare_pathText hne (by simp), numbers, numbers, List.map_append]
  exact compare_append _ (by simp)

/-! ### Sorting -/

variable {α : Type} (path : α → Option String)

theorem insertDescending_perm (a : α) (items : List α) :
    (insertDescending path a items).Perm (a :: items) := by
  induction items with
  | nil => exact .refl _
  | cons b bs ih =>
    rw [insertDescending]
    split
    · exact (ih.cons b).trans (.swap a b bs)
    · exact .refl _

theorem foldl_insertDescending_perm (items sorted : List α) :
    (items.foldl (fun sorted a => insertDescending path a sorted) sorted).Perm
      (items ++ sorted) := by
  induction items generalizing sorted with
  | nil => exact .refl _
  | cons a as ih =>
    have hinsert := (insertDescending_perm path a sorted).append_left as
    exact (ih _).trans (hinsert.trans List.perm_middle)

/-- Sorting keeps every item as often as it is there. -/
theorem sort_perm (items : List α) : (sort path items).Perm items := by
  have h := foldl_insertDescending_perm path items []
  rw [List.append_nil] at h
  exact (List.reverse_perm _).trans h

theorem mem_sort {items : List α} {a : α} : a ∈ sort path items ↔ a ∈ items :=
  (sort_perm path items).mem_iff

variable {β : Type}

theorem insertDescending_map (path : β → Option String) (g : α → β) (a : α) (items : List α) :
    insertDescending path (g a) (items.map g) =
      (insertDescending (fun a => path (g a)) a items).map g := by
  induction items with
  | nil => rfl
  | cons b bs ih =>
    rw [List.map_cons, insertDescending, insertDescending, ih]
    split <;> rfl

/-- Sorting items by a path of something else. -/
theorem sort_map (path : β → Option String) (g : α → β) (items : List α) :
    sort path (items.map g) = (sort (fun a => path (g a)) items).map g := by
  have hfold : ∀ sorted : List α,
      (items.map g).foldl (fun sorted b => insertDescending path b sorted) (sorted.map g) =
        (items.foldl (fun sorted a => insertDescending (fun a => path (g a)) a sorted) sorted).map
          g := by
    induction items with
    | nil => exact fun _ => rfl
    | cons a as ih =>
      intro sorted
      rw [List.map_cons, List.foldl_cons, List.foldl_cons, insertDescending_map]
      exact ih _
  rw [sort, sort, List.map_reverse, ← hfold []]
  rfl

variable {path} {path' : α → Option String}

theorem insertDescending_congr {a : α} {items : List α} (ha : path a = path' a)
    (h : ∀ b ∈ items, path b = path' b) :
    insertDescending path a items = insertDescending path' a items := by
  induction items with
  | nil => rfl
  | cons b bs ih =>
    rw [insertDescending, insertDescending, ha, h b List.mem_cons_self,
      ih fun c hc => h c (List.mem_cons_of_mem _ hc)]

/-- The paths of the items decide their order. -/
theorem sort_congr {items : List α} (h : ∀ a ∈ items, path a = path' a) :
    sort path items = sort path' items := by
  have hfold : ∀ sorted : List α, (∀ a ∈ sorted, path a = path' a) →
      items.foldl (fun sorted a => insertDescending path a sorted) sorted =
        items.foldl (fun sorted a => insertDescending path' a sorted) sorted := by
    induction items with
    | nil => exact fun _ _ => rfl
    | cons a as ih =>
      intro sorted hsorted
      have ha := h a List.mem_cons_self
      rw [List.foldl_cons, List.foldl_cons, insertDescending_congr ha hsorted]
      refine ih (fun b hb => h b (List.mem_cons_of_mem _ hb)) _ fun b hb => ?_
      rcases List.mem_cons.1 ((insertDescending_perm path' a sorted).mem_iff.1 hb) with rfl | hb
      · exact ha
      · exact hsorted b hb
  rw [sort, sort, hfold [] (by simp)]

/-! ### Paths of numbers -/

/-- The path is missing, or its segments are numerals. -/
def IsNumeric (p : Option String) : Prop :=
  ∀ x, p = some x → AllNumerals (Text.pieces '.' x)

/-- The path of a lineage. -/
def IsCanonical (p : Option String) : Prop :=
  ∃ ids : List UnitId, ids ≠ [] ∧ p = some (pathText ids)

theorem IsCanonical.isNumeric {p : Option String} (h : IsCanonical p) : IsNumeric p := by
  obtain ⟨ids, hne, rfl⟩ := h
  intro x hx
  cases hx
  rw [pieces_pathText hne]
  exact allNumerals_toText ids

/-- Where there are only numerals, nothing is crossed. -/
theorem not_crossed_of_allNumerals {as bs cs : List String} (hcs : AllNumerals cs) :
    ¬ Crossed as bs cs := by
  intro h
  rcases cs with _ | ⟨c, cs⟩
  · cases as <;> cases bs <;> exact h
  · cases as <;> cases bs <;> first | exact h | exact h.2.2.1 (hcs c List.mem_cons_self)

theorem not_tangledLists_of_allNumerals {as bs cs : List String} (has : AllNumerals as)
    (hbs : AllNumerals bs) (hcs : AllNumerals cs) : ¬ TangledLists as bs cs := by
  induction as generalizing bs cs with
  | nil => exact id
  | cons a as ih =>
    rcases bs with _ | ⟨b, bs⟩
    · exact id
    rcases cs with _ | ⟨c, cs⟩
    · exact id
    rintro (h | h | h | ⟨-, -, h⟩)
    · exact not_crossed_of_allNumerals hcs h
    · exact not_crossed_of_allNumerals has h
    · exact not_crossed_of_allNumerals hbs h
    · exact ih (List.forall_mem_cons.1 has).2 (List.forall_mem_cons.1 hbs).2
        (List.forall_mem_cons.1 hcs).2 h

/-- Paths of numbers are in order. -/
theorem untangled_of_isNumeric {items : List α} (h : ∀ a ∈ items, IsNumeric (path a)) :
    Untangled path items := by
  intro x hx y hy z hz
  cases hpx : path x with
  | none => exact id
  | some u =>
    cases hpy : path y with
    | none => exact id
    | some v =>
      cases hpz : path z with
      | none => exact id
      | some w =>
        exact not_tangledLists_of_allNumerals (h x hx u hpx) (h y hy v hpy) (h z hz w hpz)

/-! ### The order of sorted items -/

/-- Every item is greater than or equal to the items after it. -/
def Descending (path : α → Option String) (items : List α) : Prop :=
  items.Pairwise fun a b => (compare (path b) (path a)).isLE = true

theorem insertDescending_descending {a : α} {items : List α} (h : Untangled path (a :: items))
    (hitems : Descending path items) : Descending path (insertDescending path a items) := by
  induction items with
  | nil => exact List.pairwise_singleton _ _
  | cons b bs ih =>
    obtain ⟨hb, hbs⟩ := List.pairwise_cons.1 hitems
    rw [insertDescending]
    split
    · rename_i hab
      refine List.pairwise_cons.2 ⟨fun c hc => ?_, ih (h.mono (by simp +contextual)) hbs⟩
      rcases List.mem_cons.1 ((insertDescending_perm path a bs).mem_iff.1 hc) with rfl | hc
      · rw [hab]
        rfl
      · exact hb c hc
    · rename_i hab
      have hba : (compare (path b) (path a)).isLE = true := by
        rw [← swap_compare]
        cases ho : compare (path a) (path b) with
        | lt => exact absurd ho hab
        | eq => rfl
        | gt => rfl
      refine List.pairwise_cons.2 ⟨fun c hc => ?_, hitems⟩
      rcases List.mem_cons.1 hc with rfl | hc
      · exact hba
      · exact h.isLE_trans (by simp [hc]) (by simp) (by simp) (hb c hc) hba

theorem foldl_insertDescending_descending {items sorted : List α}
    (h : Untangled path (items ++ sorted)) (hsorted : Descending path sorted) :
    Descending path (items.foldl (fun sorted a => insertDescending path a sorted) sorted) := by
  induction items generalizing sorted with
  | nil => exact hsorted
  | cons a as ih =>
    refine ih (h.mono fun b hb => ?_)
      (insertDescending_descending (h.mono fun b hb => ?_) hsorted)
    · have hperm := (insertDescending_perm path a sorted).append_left as
      exact List.perm_middle.mem_iff.1 (hperm.mem_iff.1 hb)
    · rcases List.mem_cons.1 hb with rfl | hb
      · exact List.mem_cons_self
      · exact List.mem_append_right _ hb

/-- Sorted items are in ascending order. -/
theorem descending_reverse_sort {items : List α} (h : Untangled path items) :
    Descending path (sort path items).reverse := by
  rw [sort, List.reverse_reverse]
  exact foldl_insertDescending_descending (by rwa [List.append_nil]) List.Pairwise.nil

theorem pairwise_sort {items : List α} (h : Untangled path items) :
    (sort path items).Pairwise fun a b => (compare (path a) (path b)).isLE = true :=
  List.pairwise_reverse.1 (descending_reverse_sort h)

/-- Items that are told apart by their paths are sorted in one way only. -/
theorem sort_eq_of_perm {items items' : List α} (hperm : items.Perm items')
    (hitems : ∀ a ∈ items, IsNumeric (path a))
    (hdistinct : ∀ a ∈ items, ∀ b ∈ items, compare (path a) (path b) = .eq → a = b) :
    sort path items = sort path items' := by
  have huntangled := untangled_of_isNumeric hitems
  have hsorted : (sort path items).Perm (sort path items') :=
    (sort_perm path items).trans (hperm.trans (sort_perm path items').symm)
  refine hsorted.eq_of_pairwise (fun a b ha hb hab hba => ?_) (pairwise_sort huntangled)
    (pairwise_sort (huntangled.mono fun a => hperm.mem_iff.2))
  have ha := (mem_sort path).1 ha
  have hb := hperm.mem_iff.2 ((mem_sort path).1 hb)
  refine hdistinct a ha b hb ?_
  rw [← swap_compare] at hba
  cases ho : compare (path a) (path b) with
  | eq => rfl
  | lt =>
    rw [ho] at hba
    cases hba
  | gt =>
    rw [ho] at hab
    cases hab

/-- An item that is not less than any other one comes first in a descending list. -/
theorem insertDescending_of_isLE {a : α} {items : List α}
    (h : ∀ b ∈ items, (compare (path b) (path a)).isLE = true) :
    insertDescending path a items = a :: items := by
  cases items with
  | nil => rfl
  | cons b bs =>
    have hnot : compare (path a) (path b) ≠ .lt := by
      intro hlt
      have hb := h b List.mem_cons_self
      rw [← swap_compare, hlt] at hb
      cases hb
    rw [insertDescending, if_neg hnot]

/-- Sorting leaves a list that is ascending as it is. -/
theorem sort_eq_self {items : List α} (h : Descending path items.reverse) :
    sort path items = items := by
  -- the items are inserted at the head, one after the other
  have hfold : ∀ done rest, items = done ++ rest →
      rest.foldl (fun sorted a => insertDescending path a sorted) done.reverse = items.reverse := by
    intro done rest
    induction rest generalizing done with
    | nil =>
      intro hsplit
      rw [hsplit, List.append_nil]
      rfl
    | cons a rest ih =>
      intro hsplit
      rw [hsplit, Descending, List.pairwise_reverse, List.pairwise_append] at h
      rw [List.foldl_cons, insertDescending_of_isLE
        fun b hb => h.2.2 b (List.mem_reverse.1 hb) a List.mem_cons_self]
      have hnext := ih (done ++ [a]) (by rw [hsplit, List.append_assoc, List.singleton_append])
      rwa [List.reverse_append, List.reverse_singleton, List.singleton_append] at hnext
  rw [sort, ← List.reverse_nil, hfold [] items rfl, List.reverse_reverse]

/-- The items of a first part of a sorted list are in the order in which they are sorted. -/
theorem sort_of_sort_eq_append {items done rest : List α}
    (hitems : ∀ a ∈ items, IsNumeric (path a)) (hsort : sort path items = done ++ rest) :
    sort path done = done := by
  have hdesc := descending_reverse_sort (untangled_of_isNumeric hitems)
  rw [hsort, List.reverse_append, Descending, List.pairwise_append] at hdesc
  exact sort_eq_self hdesc.2.1

/-- What has a lesser path stands before an item in the sorted list. -/
theorem mem_before_of_untangled {items done rest : List α} {a b : α} (h : Untangled path items)
    (hsort : sort path items = done ++ b :: rest) (ha : a ∈ items)
    (hlt : compare (path a) (path b) = .lt) : a ∈ done := by
  have hsorted := pairwise_sort h
  rw [hsort, List.pairwise_append, List.pairwise_cons] at hsorted
  obtain ⟨-, ⟨hrest, -⟩, -⟩ := hsorted
  have hnot : (compare (path b) (path a)).isLE = false := by
    rw [← swap_compare, hlt]
    rfl
  rw [← mem_sort path, hsort, List.mem_append, List.mem_cons] at ha
  rcases ha with ha | rfl | ha
  · exact ha
  · rw [hlt] at hnot
    exact absurd hnot (by decide)
  · rw [hrest a ha] at hnot
    exact absurd hnot (by decide)

theorem mem_before_of_lt {items done rest : List α} {a b : α}
    (hitems : ∀ a ∈ items, IsCanonical (path a)) (hsort : sort path items = done ++ b :: rest)
    (ha : a ∈ items) (hlt : compare (path a) (path b) = .lt) : a ∈ done :=
  mem_before_of_untangled (untangled_of_isNumeric fun a ha => (hitems a ha).isNumeric) hsort ha hlt

/-- Of two items the one with the lesser path is sorted before the other one. -/
theorem sublist_sort_of_lt {items : List α} {a b : α} (h : Untangled path items) (ha : a ∈ items)
    (hb : b ∈ items) (hlt : compare (path a) (path b) = .lt) :
    [a, b].Sublist (sort path items) := by
  obtain ⟨done, rest, hsort⟩ := List.append_of_mem ((mem_sort path).2 hb)
  have hbefore := mem_before_of_untangled h hsort ha hlt
  rw [hsort]
  exact (List.singleton_sublist.2 hbefore).append (List.singleton_sublist.2 List.mem_cons_self)

/-- Comparing paths the other way round gives the reverse. The comparison is transitive on three
paths exactly if they are not tangled. Items of which no three have tangled paths are sorted in
ascending order, every path before its extensions. -/
theorem preorder_unless_tangled (path : α → Option String) (items : List α) :
    (∀ p q, compare q p = (compare p q).swap) ∧
    (∀ p q r, IsTransitive p q r ↔ ¬ Tangled p q r) ∧
    (Untangled path items →
      (sort path items).Perm items ∧
      (sort path items).Pairwise fun a b =>
        (compare (path a) (path b)).isLE = true ∧ ¬ Extends (path a) (path b)) := by
  refine ⟨fun p q => (swap_compare p q).symm, fun p q r => isTransitive_iff, fun h =>
    ⟨sort_perm path items, (pairwise_sort h).imp fun {a b} hab => ⟨hab, fun hextends => ?_⟩⟩⟩
  -- an extension that stands first would not come after what it extends
  rw [← swap_compare, compare_of_extends hextends] at hab
  cases hab

/-- Numerals and other texts side by side, a path with its extensions, and a missing path. -/
theorem preorder_unless_tangled_mixed :
    let items := [some "10.b", some "2.b.7", none, some "x", some "2.b", some "10", some "2"]
    Untangled id items ∧ sort id items =
        [some "2", some "2.b", some "2.b.7", some "10", some "10.b", some "x", none] ∧
      (sort id items).Pairwise fun p q => (compare p q).isLE = true ∧ ¬ Extends p q := by
  intro items
  have huntangled : Untangled id items := by decide +kernel
  exact ⟨huntangled, by decide +kernel,
    ((preorder_unless_tangled id items).2.2 huntangled).2⟩

/-- Two comes before ten, ten before the text 1a, and that text before two, so a path can be sorted
after its own extension. -/
theorem extension_first_when_tangled :
    ¬ IsTransitive (some "2") (some "10") (some "1a") ∧
      (let items := [some "2.5", some "10", some "1a", some "2"]
      sort id items = items) ∧
      Extends (some "2.5") (some "2") :=
  ⟨by decide +kernel, by decide +kernel, "2", "5", rfl, by decide⟩

end OrgTree.Path
