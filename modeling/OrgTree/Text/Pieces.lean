/-!
# Splitting a text at a separator

`pieces sep s` cuts a text at every occurrence of one character. No piece holds the separator, and
there is always at least one piece: the empty text is one empty piece.
-/

namespace OrgTree.Text

/-- The pieces between the occurrences of `sep`, in order. -/
def cut (sep : Char) : List Char → List (List Char)
  | [] => [[]]
  | c :: r =>
    if c = sep then [] :: cut sep r
    else match cut sep r with
      | [] => [[c]]
      | p :: ps => (c :: p) :: ps

/-- The pieces of a text between the occurrences of `sep`, in order. -/
def pieces (sep : Char) (s : String) : List String :=
  (cut sep s.toList).map String.ofList

/-- The text up to the first `sep` and the text after it, if `sep` occurs. -/
def cutOnce? (sep : Char) : List Char → Option (List Char × List Char)
  | [] => none
  | c :: r =>
    if c = sep then some ([], r)
    else (cutOnce? sep r).map fun (a, b) => (c :: a, b)

theorem cut_ne_nil (sep : Char) (s : List Char) : cut sep s ≠ [] := by
  cases s with
  | nil => simp [cut]
  | cons c r =>
    simp only [cut]
    split
    · simp
    · split <;> simp

theorem cut_cons_of_ne {sep c : Char} (h : c ≠ sep) (r : List Char) :
    ∃ p ps, cut sep r = p :: ps ∧ cut sep (c :: r) = (c :: p) :: ps := by
  cases hr : cut sep r with
  | nil => exact absurd hr (cut_ne_nil sep r)
  | cons p ps => exact ⟨p, ps, rfl, by simp [cut, h, hr]⟩

theorem not_mem_of_mem_cut {sep : Char} {s p : List Char} (h : p ∈ cut sep s) : sep ∉ p := by
  induction s generalizing p with
  | nil => simp only [cut, List.mem_singleton] at h; simp [h]
  | cons c r ih =>
    by_cases hc : c = sep
    · simp only [cut, hc, if_true, List.mem_cons] at h
      rcases h with rfl | h
      · simp
      · exact ih h
    · obtain ⟨q, qs, hr, hs⟩ := cut_cons_of_ne hc r
      rw [hs, List.mem_cons] at h
      rcases h with rfl | h
      · simp only [List.mem_cons, not_or]
        exact ⟨fun e => hc e.symm, ih (by simp [hr])⟩
      · exact ih (by simp [hr, h])

theorem cutOnce?_eq_some_iff {sep : Char} {s a b : List Char} :
    cutOnce? sep s = some (a, b) ↔ s = a ++ sep :: b ∧ sep ∉ a := by
  induction s generalizing a with
  | nil => simp [cutOnce?]
  | cons c r ih =>
    by_cases h : c = sep
    · subst h
      cases a with
      | nil => simp [cutOnce?]
      | cons x xs =>
        simp only [cutOnce?, if_true, Option.some.injEq, Prod.mk.injEq, List.cons_append,
          List.cons.injEq, List.mem_cons, not_or]
        grind
    · simp only [cutOnce?, h, if_false, Option.map_eq_some_iff, Prod.mk.injEq, Prod.exists]
      constructor
      · rintro ⟨x, y, hxy, rfl, rfl⟩
        obtain ⟨rfl, hn⟩ := ih.1 hxy
        refine ⟨rfl, ?_⟩
        simp only [List.mem_cons, not_or]
        exact ⟨fun e => h e.symm, hn⟩
      · rintro ⟨hs, hn⟩
        cases a with
        | nil => simp only [List.nil_append, List.cons.injEq] at hs; exact absurd hs.1 h
        | cons x xs =>
          simp only [List.cons_append, List.cons.injEq] at hs
          simp only [List.mem_cons, not_or] at hn
          exact ⟨xs, b, ih.2 ⟨hs.2, hn.2⟩, by rw [hs.1], rfl⟩

end OrgTree.Text
