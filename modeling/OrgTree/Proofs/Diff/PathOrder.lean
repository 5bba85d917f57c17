import OrgTree.Diff.Path
import OrgTree.Proofs.Text

/-!
# Where the order of paths is no order

Two numerals are compared by value, any other two segments as texts. A text that is no numeral can
therefore stand after one numeral and before another one that has no greater value: 2 comes before
10, 10 before 1a, and 1a before 2. Three paths that part at such segments are tangled, and sorting
them means little. All other paths are in order: the comparison is transitive, and sorting puts
every path before its extensions.

## Main definitions

- `Path.Tangled`: three paths that cannot be put in order
- `Path.IsTransitive`: what an order promises for three paths
- `Path.Untangled`: items of which no three have tangled paths
- `Path.Extends`: a path goes on where another one ends

## Main statements

- `Path.cyclic_iff_tangledLists`: exactly the tangled lists come round in a circle
- `Path.isTransitive_iff`: exactly three paths that are not tangled are in order
- `Path.Untangled.isLE_trans`: items without tangled paths can be put in order
-/

namespace OrgTree.Path

/-! ### Segments -/

variable {a b c : String}

/-- The text is a numeral. -/
def IsNumeral (a : String) : Prop :=
  (Text.readUInt64? a).isSome = true

instance (a : String) : Decidable (IsNumeral a) :=
  inferInstanceAs (Decidable ((Text.readUInt64? a).isSome = true))

/-- The number that a numeral names. -/
def segmentNumber (a : String) : Nat :=
  ((Text.readUInt64? a).getD 0).toNat

theorem compareSegments_of_isNumeral (ha : IsNumeral a) (hb : IsNumeral b) :
    compareSegments a b = Ord.compare (segmentNumber a) (segmentNumber b) := by
  obtain ⟨m, hm⟩ := Option.isSome_iff_exists.1 ha
  obtain ⟨n, hn⟩ := Option.isSome_iff_exists.1 hb
  simp only [compareSegments, segmentNumber, hm, hn, Option.getD_some]

theorem compareSegments_of_not_isNumeral (h : ¬ (IsNumeral a ∧ IsNumeral b)) :
    compareSegments a b = Ord.compare a b := by
  unfold compareSegments
  split
  · rename_i m n hm hn
    exact absurd ⟨Option.isSome_iff_exists.2 ⟨m, hm⟩, Option.isSome_iff_exists.2 ⟨n, hn⟩⟩ h
  · rfl

theorem compareSegments_self (a : String) : compareSegments a a = .eq := by
  by_cases ha : IsNumeral a
  · rw [compareSegments_of_isNumeral ha ha]
    exact Std.ReflCmp.compare_self
  · rw [compareSegments_of_not_isNumeral fun h => ha h.1]
    exact Std.ReflCmp.compare_self

theorem swap_compareSegments (a b : String) :
    (compareSegments a b).swap = compareSegments b a := by
  by_cases h : IsNumeral a ∧ IsNumeral b
  · rw [compareSegments_of_isNumeral h.1 h.2, compareSegments_of_isNumeral h.2 h.1]
    exact Std.OrientedCmp.eq_swap.symm
  · rw [compareSegments_of_not_isNumeral h, compareSegments_of_not_isNumeral fun h' => h h'.symm]
    exact Std.OrientedCmp.eq_swap.symm

/-- Segments are level if they are one text or numerals of one value. -/
theorem compareSegments_eq_iff : compareSegments a b = .eq ↔
    a = b ∨ IsNumeral a ∧ IsNumeral b ∧ segmentNumber a = segmentNumber b := by
  by_cases h : IsNumeral a ∧ IsNumeral b
  · rw [compareSegments_of_isNumeral h.1 h.2, Std.LawfulEqCmp.compare_eq_iff_eq]
    constructor
    · exact fun heq => .inr ⟨h.1, h.2, heq⟩
    · rintro (rfl | ⟨-, -, heq⟩)
      · rfl
      · exact heq
  · rw [compareSegments_of_not_isNumeral h, Std.LawfulEqCmp.compare_eq_iff_eq]
    exact ⟨.inl, fun h' => h'.resolve_right fun h'' => h ⟨h''.1, h''.2.1⟩⟩

theorem compareSegments_eq_trans (hab : compareSegments a b = .eq)
    (hbc : compareSegments b c = .eq) : compareSegments a c = .eq := by
  rw [compareSegments_eq_iff] at *
  rcases hab with rfl | ⟨ha, hb, hab⟩
  · exact hbc
  · rcases hbc with rfl | ⟨-, hc, hbc⟩
    · exact .inr ⟨ha, hb, hab⟩
    · exact .inr ⟨ha, hc, hab.trans hbc⟩

/-- A numeral and a text that is none are never level. -/
theorem compareSegments_eq_lt_of_isLE (h : ¬ (IsNumeral a ↔ IsNumeral b))
    (hle : (compareSegments a b).isLE = true) : Ord.compare a b = .lt := by
  rw [compareSegments_of_not_isNumeral fun hab => h (iff_of_true hab.1 hab.2)] at hle
  cases ho : Ord.compare a b with
  | lt => rfl
  | eq => exact absurd (by rw [Std.LawfulEqCmp.compare_eq_iff_eq.1 ho]) h
  | gt =>
    rw [ho] at hle
    cases hle

/-- In an order, three things that come round in a circle are level. -/
theorem level_of_circle {α : Type} [Ord α] [Std.TransOrd α] {x y z : α}
    (hxy : (Ord.compare x y).isLE = true) (hyz : (Ord.compare y z).isLE = true)
    (hzx : (Ord.compare z x).isLE = true) :
    Ord.compare x y = .eq ∧ Ord.compare y z = .eq ∧ Ord.compare z x = .eq :=
  ⟨Std.OrientedCmp.isLE_antisymm hxy (Std.TransCmp.isLE_trans hyz hzx),
    Std.OrientedCmp.isLE_antisymm hyz (Std.TransCmp.isLE_trans hzx hxy),
    Std.OrientedCmp.isLE_antisymm hzx (Std.TransCmp.isLE_trans hxy hyz)⟩

/-! ### Lists of segments -/

variable {as bs cs : List String}

theorem compareLists_cons_cons (a b : String) (as bs : List String) :
    compareLists (a :: as) (b :: bs) = (compareSegments a b).then (compareLists as bs) := by
  rw [compareLists]
  cases compareSegments a b <;> rfl

theorem swap_compareLists (as bs : List String) :
    (compareLists as bs).swap = compareLists bs as := by
  induction as generalizing bs with
  | nil => cases bs <;> rfl
  | cons a as ih =>
    cases bs with
    | nil => rfl
    | cons b bs =>
      rw [compareLists_cons_cons, compareLists_cons_cons, Ordering.swap_then, swap_compareSegments,
        ih]

theorem isLE_head (h : (compareLists (a :: as) (b :: bs)).isLE = true) :
    (compareSegments a b).isLE = true := by
  rw [compareLists_cons_cons] at h
  cases ho : compareSegments a b with
  | lt => rfl
  | eq => rfl
  | gt =>
    rw [ho] at h
    cases h

/-- A list comes before what it is a first part of. -/
theorem compareLists_append (as : List String) (hne : bs ≠ []) :
    compareLists as (as ++ bs) = .lt := by
  induction as with
  | nil =>
    cases bs with
    | nil => exact absurd rfl hne
    | cons b bs => rfl
  | cons a as ih => rw [List.cons_append, compareLists_cons_cons, compareSegments_self, ih]; rfl

/-- A text that is no numeral heads the third list and stands, as a text, before the numeral of the
first list and after that of the second, although the first list does not come after the second. -/
def Crossed : List String → List String → List String → Prop
  | a :: as, b :: bs, c :: _ =>
    IsNumeral a ∧ IsNumeral b ∧ ¬ IsNumeral c ∧ Ord.compare b c = .lt ∧ Ord.compare c a = .lt ∧
      (compareLists (a :: as) (b :: bs)).isLE = true
  | _, _, _ => False

/-- Three lists are crossed, one way or another, at the first place where they are not level. -/
def TangledLists : List String → List String → List String → Prop
  | a :: as, b :: bs, c :: cs =>
    Crossed (a :: as) (b :: bs) (c :: cs) ∨ Crossed (b :: bs) (c :: cs) (a :: as) ∨
      Crossed (c :: cs) (a :: as) (b :: bs) ∨
      (compareSegments a b = .eq ∧ compareSegments b c = .eq ∧ TangledLists as bs cs)
  | _, _, _ => False

instance : (as bs cs : List String) → Decidable (Crossed as bs cs)
  | [], _, _ | _ :: _, [], _ | _ :: _, _ :: _, [] => .isFalse id
  | a :: _, b :: _, c :: _ =>
    inferInstanceAs (Decidable (IsNumeral a ∧ IsNumeral b ∧ ¬ IsNumeral c ∧ _ ∧ _ ∧ _))

instance decidableTangledLists : (as bs cs : List String) → Decidable (TangledLists as bs cs)
  | [], _, _ | _ :: _, [], _ | _ :: _, _ :: _, [] => .isFalse id
  | a :: as, b :: bs, c :: cs =>
    have := decidableTangledLists as bs cs
    inferInstanceAs (Decidable (Crossed (a :: as) (b :: bs) (c :: cs) ∨
      Crossed (b :: bs) (c :: cs) (a :: as) ∨ Crossed (c :: cs) (a :: as) (b :: bs) ∨
      (_ ∧ _ ∧ TangledLists as bs cs)))

/-- Going round three lists, none comes after the next, and yet they are not level. -/
def Cyclic (as bs cs : List String) : Prop :=
  (compareLists as bs).isLE = true ∧ (compareLists bs cs).isLE = true ∧
    (compareLists cs as).isLE = true ∧
    ¬ (compareLists as bs = .eq ∧ compareLists bs cs = .eq ∧ compareLists cs as = .eq)

theorem Cyclic.rotate (h : Cyclic as bs cs) : Cyclic bs cs as :=
  ⟨h.2.1, h.2.2.1, h.1, fun h' => h.2.2.2 ⟨h'.2.2, h'.1, h'.2.1⟩⟩

theorem Cyclic.ne_nil (h : Cyclic as bs cs) : as ≠ [] := by
  rintro rfl
  obtain ⟨-, hbc, hca, hlevel⟩ := h
  cases cs with
  | cons c cs => cases hca
  | nil =>
    cases bs with
    | cons b bs => cases hbc
    | nil => exact hlevel ⟨rfl, rfl, rfl⟩

theorem cyclic_cons_iff (hab : compareSegments a b = .eq) (hbc : compareSegments b c = .eq) :
    Cyclic (a :: as) (b :: bs) (c :: cs) ↔ Cyclic as bs cs := by
  have hca : compareSegments c a = .eq := by
    rw [← swap_compareSegments, compareSegments_eq_trans hab hbc]
    rfl
  simp only [Cyclic, compareLists_cons_cons, hab, hbc, hca, Ordering.eq_then]

theorem Crossed.cyclic (h : Crossed as bs cs) : Cyclic as bs cs := by
  rcases as with _ | ⟨a, as'⟩
  · exact h.elim
  rcases bs with _ | ⟨b, bs'⟩
  · exact h.elim
  rcases cs with _ | ⟨c, cs'⟩
  · exact h.elim
  obtain ⟨-, -, hc, hbc, hca, hab⟩ := h
  have hbc' : compareLists (b :: bs') (c :: cs') = .lt := by
    rw [compareLists_cons_cons, compareSegments_of_not_isNumeral fun h => hc h.2, hbc]
    rfl
  have hca' : compareLists (c :: cs') (a :: as') = .lt := by
    rw [compareLists_cons_cons, compareSegments_of_not_isNumeral fun h => hc h.1, hca]
    rfl
  refine ⟨hab, by rw [hbc']; rfl, by rw [hca']; rfl, fun h => ?_⟩
  rw [hbc'] at h
  exact absurd h.2.1 (by decide)

/-- Two numerals and a text that is none, each not after the next, are crossed. -/
theorem crossed_of_isLE (ha : IsNumeral a) (hb : IsNumeral b) (hc : ¬ IsNumeral c)
    (hab : (compareLists (a :: as) (b :: bs)).isLE = true)
    (hbc : (compareLists (b :: bs) (c :: cs)).isLE = true)
    (hca : (compareLists (c :: cs) (a :: as)).isLE = true) :
    Crossed (a :: as) (b :: bs) (c :: cs) :=
  ⟨ha, hb, hc, compareSegments_eq_lt_of_isLE (fun h => hc (h.1 hb)) (isLE_head hbc),
    compareSegments_eq_lt_of_isLE (fun h => hc (h.2 ha)) (isLE_head hca), hab⟩

/-- Three heads come round in a circle only if they are level or exactly one of them is no
numeral. -/
theorem level_or_mixed (hab : (compareSegments a b).isLE = true)
    (hbc : (compareSegments b c).isLE = true) (hca : (compareSegments c a).isLE = true) :
    (compareSegments a b = .eq ∧ compareSegments b c = .eq) ∨
      (IsNumeral a ∧ IsNumeral b ∧ ¬ IsNumeral c) ∨ (IsNumeral b ∧ IsNumeral c ∧ ¬ IsNumeral a) ∨
      (IsNumeral c ∧ IsNumeral a ∧ ¬ IsNumeral b) := by
  by_cases hall : IsNumeral a ∧ IsNumeral b ∧ IsNumeral c
  · obtain ⟨ha, hb, hc⟩ := hall
    rw [compareSegments_of_isNumeral ha hb] at hab ⊢
    rw [compareSegments_of_isNumeral hb hc] at hbc ⊢
    rw [compareSegments_of_isNumeral hc ha] at hca
    exact .inl ⟨(level_of_circle hab hbc hca).1, (level_of_circle hab hbc hca).2.1⟩
  by_cases htexts : ¬ (IsNumeral a ∧ IsNumeral b) ∧ ¬ (IsNumeral b ∧ IsNumeral c) ∧
      ¬ (IsNumeral c ∧ IsNumeral a)
  · obtain ⟨h₁, h₂, h₃⟩ := htexts
    rw [compareSegments_of_not_isNumeral h₁] at hab ⊢
    rw [compareSegments_of_not_isNumeral h₂] at hbc ⊢
    rw [compareSegments_of_not_isNumeral h₃] at hca
    exact .inl ⟨(level_of_circle hab hbc hca).1, (level_of_circle hab hbc hca).2.1⟩
  · right
    grind

/-- Three lists come round in a circle exactly if they are tangled. -/
theorem cyclic_iff_tangledLists : Cyclic as bs cs ↔ TangledLists as bs cs := by
  induction as generalizing bs cs with
  | nil => exact iff_of_false (fun h => h.ne_nil rfl) id
  | cons a as ih =>
    cases bs with
    | nil => exact iff_of_false (fun h => h.rotate.ne_nil rfl) id
    | cons b bs =>
      cases cs with
      | nil => exact iff_of_false (fun h => h.rotate.rotate.ne_nil rfl) id
      | cons c cs =>
        constructor
        · intro h
          obtain ⟨hab, hbc, hca, -⟩ := id h
          rcases level_or_mixed (isLE_head hab) (isLE_head hbc) (isLE_head hca) with
            ⟨hab', hbc'⟩ | ⟨ha, hb, hc⟩ | ⟨hb, hc, ha⟩ | ⟨hc, ha, hb⟩
          · exact .inr (.inr (.inr ⟨hab', hbc', ih.1 ((cyclic_cons_iff hab' hbc').1 h)⟩))
          · exact .inl (crossed_of_isLE ha hb hc hab hbc hca)
          · exact .inr (.inl (crossed_of_isLE hb hc ha hbc hca hab))
          · exact .inr (.inr (.inl (crossed_of_isLE hc ha hb hca hab hbc)))
        · rintro (h | h | h | ⟨hab, hbc, h⟩)
          · exact h.cyclic
          · exact h.cyclic.rotate.rotate
          · exact h.cyclic.rotate
          · exact (cyclic_cons_iff hab hbc).2 (ih.2 h)

/-! ### Paths -/

variable {p q r : Option String}

/-- Three paths whose lists of segments are tangled. -/
def Tangled (p q r : Option String) : Prop :=
  match p, q, r with
  | some x, some y, some z =>
    TangledLists (Text.pieces '.' x) (Text.pieces '.' y) (Text.pieces '.' z)
  | _, _, _ => False

instance : (p q r : Option String) → Decidable (Tangled p q r)
  | none, _, _ | some _, none, _ | some _, some _, none => .isFalse id
  | some x, some y, some z => inferInstanceAs (Decidable (TangledLists (Text.pieces '.' x)
      (Text.pieces '.' y) (Text.pieces '.' z)))

/-- What an order promises for three paths: not to come after is passed on, and so is to come
before. -/
def IsTransitive (p q r : Option String) : Prop :=
  (compare p q).isLE = true → (compare q r).isLE = true →
    (compare p r).isLE = true ∧ (compare p q = .lt ∨ compare q r = .lt → compare p r = .lt)

instance (p q r : Option String) : Decidable (IsTransitive p q r) :=
  inferInstanceAs (Decidable (_ → _ → _))

/-- Comparing the other way round gives the reverse. -/
theorem swap_compare (p q : Option String) : (compare p q).swap = compare q p := by
  cases p <;> cases q <;> first | rfl | exact swap_compareLists _ _

theorem compare_self (p : Option String) : compare p p = .eq := by
  have h := swap_compare p p
  cases hc : compare p p <;> rw [hc] at h <;> first | rfl | cases h

theorem isTransitive_some_iff {x y z : String} : IsTransitive (some x) (some y) (some z) ↔
    ¬ Cyclic (Text.pieces '.' x) (Text.pieces '.' y) (Text.pieces '.' z) := by
  simp only [IsTransitive, Cyclic, compare]
  rw [← swap_compareLists (Text.pieces '.' x) (Text.pieces '.' z)]
  cases compareLists (Text.pieces '.' x) (Text.pieces '.' y) <;>
    cases compareLists (Text.pieces '.' y) (Text.pieces '.' z) <;>
    cases compareLists (Text.pieces '.' x) (Text.pieces '.' z) <;> decide

/-- The comparison is transitive on three paths exactly if they are not tangled. -/
theorem isTransitive_iff : IsTransitive p q r ↔ ¬ Tangled p q r := by
  rcases r with _ | z
  · refine iff_of_true (fun hpq _ => ?_) (by cases p <;> cases q <;> exact id)
    cases p with
    | some x => exact ⟨rfl, fun _ => rfl⟩
    | none =>
      cases q with
      | none => exact ⟨rfl, fun h => h.elim id id⟩
      | some y => cases hpq
  rcases q with _ | y
  · exact iff_of_true (fun _ h => by cases h) (by cases p <;> exact id)
  rcases p with _ | x
  · exact iff_of_true (fun h _ => by cases h) id
  rw [isTransitive_some_iff, cyclic_iff_tangledLists]
  rfl

/-- The path `q` goes on after a dot where `p` ends. -/
def Extends (q p : Option String) : Prop :=
  ∃ x r, p = some x ∧ q = some (x ++ "." ++ r)

theorem compare_of_extends (h : Extends q p) : compare p q = .lt := by
  obtain ⟨x, r, rfl, rfl⟩ := h
  have hpieces : Text.pieces '.' (x ++ "." ++ r) = Text.pieces '.' x ++ Text.pieces '.' r := by
    have hdot : (x ++ "." ++ r).toList = x.toList ++ '.' :: r.toList := by simp
    rw [Text.pieces, hdot, Text.cut_append_sep_cons, List.map_append]
    rfl
  rw [compare, hpieces]
  exact compareLists_append _ (by simp [Text.pieces, Text.cut_ne_nil])

/-! ### Sorting -/

variable {α : Type} {path : α → Option String}

/-- No three of the items have tangled paths. -/
def Untangled (path : α → Option String) (items : List α) : Prop :=
  ∀ x ∈ items, ∀ y ∈ items, ∀ z ∈ items, ¬ Tangled (path x) (path y) (path z)

instance (items : List α) : Decidable (Untangled path items) :=
  inferInstanceAs (Decidable (∀ x ∈ items, ∀ y ∈ items, ∀ z ∈ items,
    ¬ Tangled (path x) (path y) (path z)))

theorem Untangled.mono {items items' : List α} (h : Untangled path items)
    (hsub : ∀ x ∈ items', x ∈ items) : Untangled path items' :=
  fun x hx y hy z hz => h x (hsub x hx) y (hsub y hy) z (hsub z hz)

theorem Untangled.isLE_trans {items : List α} (h : Untangled path items) {x y z : α}
    (hx : x ∈ items) (hy : y ∈ items) (hz : z ∈ items)
    (hxy : (compare (path x) (path y)).isLE = true)
    (hyz : (compare (path y) (path z)).isLE = true) : (compare (path x) (path z)).isLE = true :=
  (isTransitive_iff.2 (h x hx y hy z hz) hxy hyz).1

end OrgTree.Path
