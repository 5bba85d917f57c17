import OrgTree.Text.Blank
import OrgTree.Text.Numeral
import OrgTree.Text.Pieces

/-!
# Reading texts that were written here

Numerals are read back, and a text put together from pieces without separator is cut into the same
pieces again.

## Main statements

- `Text.natOfDigits?_toDigits`, `Text.readUInt64?_showUInt64`: numerals
- `Text.pieces_intercalate`: texts that hold separators
- `Text.trimmed_of_ends`: texts without white space at their ends
-/

namespace OrgTree.Text

/-! ### Numerals -/

theorem digit?_of_isDigit {c : Char} (h : c.isDigit = true) :
    digit? c = some (c.toNat - '0'.toNat) := by
  have hrange : '0' ≤ c ∧ c ≤ '9' := by
    simpa [Char.isDigit, Char.le_def] using h
  rw [digit?, if_pos hrange]
  rfl

theorem digit?_isSome_iff {c : Char} : (digit? c).isSome = true ↔ c.isDigit = true := by
  unfold digit?
  split
  · rename_i h
    simpa [Char.isDigit, Char.le_def] using h
  · rename_i h
    simpa [Char.isDigit, Char.le_def] using h

/-- A run of digits is read by its value. -/
theorem natOfDigitsFrom?_of_isDigit {cs : List Char} (h : ∀ c ∈ cs, c.isDigit = true) (n : Nat) :
    natOfDigitsFrom? n cs = some (Nat.ofDigitChars 10 cs n) := by
  induction cs generalizing n with
  | nil => rw [natOfDigitsFrom?, Nat.ofDigitChars_nil]
  | cons c cs ih =>
    rw [natOfDigitsFrom?, digit?_of_isDigit (h c List.mem_cons_self), Option.bind_some,
      ih (fun d hd => h d (List.mem_cons_of_mem _ hd)), Nat.ofDigitChars_cons]

theorem natOfDigits?_of_isDigit {cs : List Char} (h : ∀ c ∈ cs, c.isDigit = true) (hne : cs ≠ []) :
    natOfDigits? cs = some (Nat.ofDigitChars 10 cs 0) := by
  rw [natOfDigits?, if_neg (by simpa using hne), natOfDigitsFrom?_of_isDigit h]

theorem isDigit_of_mem_toDigits {n : Nat} {c : Char} (h : c ∈ Nat.toDigits 10 n) :
    c.isDigit = true :=
  Nat.isDigit_of_mem_toDigits (by decide) (by decide) h

theorem natOfDigits?_toDigits (n : Nat) : natOfDigits? (Nat.toDigits 10 n) = some n := by
  rw [natOfDigits?_of_isDigit (fun _ => isDigit_of_mem_toDigits) Nat.toDigits_ne_nil,
    Nat.ofDigitChars_ten_toDigits]

theorem toList_showUInt64 (n : UInt64) : (showUInt64 n).toList = Nat.toDigits 10 n.toNat :=
  Nat.toList_repr

/-- An identifier is read back from its numeral. -/
theorem readUInt64?_showUInt64 (n : UInt64) : readUInt64? (showUInt64 n) = some n := by
  have hvalue := natOfDigits?_toDigits n.toNat
  have hdigit : ∀ c ∈ Nat.toDigits 10 n.toNat, c.isDigit = true := fun _ => isDigit_of_mem_toDigits
  unfold readUInt64?
  rw [toList_showUInt64]
  cases hd : Nat.toDigits 10 n.toNat with
  | nil => exact absurd hd Nat.toDigits_ne_nil
  | cons c cs =>
    rw [hd] at hvalue hdigit
    have hc : c ≠ '+' := by
      rintro rfl
      exact absurd (hdigit '+' List.mem_cons_self) (by decide)
    simp [hc, hvalue, n.toNat_lt_size]

theorem sep_not_mem_showUInt64 {sep : Char} (h : sep.isDigit = false) (n : UInt64) :
    sep ∉ (showUInt64 n).toList := by
  rw [toList_showUInt64]
  intro hmem
  rw [isDigit_of_mem_toDigits hmem] at h
  exact absurd h (by decide)

/-! ### Pieces -/

theorem cut_of_not_mem {sep : Char} {p : List Char} (h : sep ∉ p) : cut sep p = [p] := by
  induction p with
  | nil => rfl
  | cons c r ih =>
    rw [List.mem_cons, not_or] at h
    have hc : c ≠ sep := fun e => h.1 e.symm
    simp only [cut, if_neg hc, ih h.2]

/-- The first piece ends at the first separator. -/
theorem cut_append_cons {sep : Char} {p : List Char} (h : sep ∉ p) (s : List Char) :
    cut sep (p ++ sep :: s) = p :: cut sep s := by
  induction p with
  | nil => simp [cut]
  | cons c r ih =>
    rw [List.mem_cons, not_or] at h
    have hc : c ≠ sep := fun e => h.1 e.symm
    rw [List.cons_append]
    simp only [cut, if_neg hc, ih h.2]

theorem cut_intercalate {sep : Char} :
    ∀ {ps : List (List Char)}, ps ≠ [] → (∀ p ∈ ps, sep ∉ p) → cut sep ([sep].intercalate ps) = ps
  | [], hne, _ => absurd rfl hne
  | [p], _, h => by rw [List.intercalate_singleton, cut_of_not_mem (h p List.mem_cons_self)]
  | p :: q :: qs, _, h => by
    have hrest := cut_intercalate (List.cons_ne_nil q qs) fun r hr => h r (List.mem_cons_of_mem _ hr)
    rw [List.intercalate_cons_cons, List.append_assoc, List.singleton_append,
      cut_append_cons (h p List.mem_cons_self), hrest]

/-- The pieces of a text put together from pieces without separator. -/
theorem pieces_intercalate {sep : Char} {ps : List String} (hne : ps ≠ [])
    (h : ∀ p ∈ ps, sep ∉ p.toList) :
    pieces sep ((String.singleton sep).intercalate ps) = ps := by
  rw [pieces, String.toList_intercalate, String.toList_singleton,
    cut_intercalate (by simpa using hne) (by simpa using h), List.map_map]
  simp

theorem cut_append_sep_cons {sep : Char} (p s : List Char) :
    cut sep (p ++ sep :: s) = cut sep p ++ cut sep s := by
  induction p with
  | nil => simp [cut]
  | cons c r ih =>
    rw [List.cons_append]
    by_cases hc : c = sep
    · simp only [cut, if_pos hc, ih, List.cons_append]
    · obtain ⟨q, qs, hr, hcr⟩ := cut_cons_of_ne hc r
      rw [hcr]
      simp only [cut, if_neg hc, ih, hr, List.cons_append]

/-- The pieces of a text put together from others are their pieces. -/
theorem cut_intercalate_flatMap {sep : Char} :
    ∀ {ps : List (List Char)}, ps ≠ [] → cut sep ([sep].intercalate ps) = ps.flatMap (cut sep)
  | [], hne => absurd rfl hne
  | [p], _ => by simp
  | p :: q :: qs, _ => by
    rw [List.intercalate_cons_cons, List.append_assoc, List.singleton_append,
      cut_append_sep_cons, cut_intercalate_flatMap (List.cons_ne_nil q qs)]
    rfl

theorem mem_pieces_intercalate {sep : Char} {ps : List String} {q : String} (hne : ps ≠ []) :
    q ∈ pieces sep ((String.singleton sep).intercalate ps) ↔ ∃ p ∈ ps, q ∈ pieces sep p := by
  have hne' : ps.map String.toList ≠ [] := by simpa using hne
  rw [pieces, String.toList_intercalate, String.toList_singleton, cut_intercalate_flatMap hne',
    List.flatMap_map, List.map_flatMap]
  exact List.mem_flatMap

theorem pieces_of_not_mem {sep : Char} {s : String} (h : sep ∉ s.toList) : pieces sep s = [s] := by
  simp [pieces, cut_of_not_mem h]

theorem not_mem_of_mem_pieces {sep : Char} {s p : String} (h : p ∈ pieces sep s) :
    sep ∉ p.toList := by
  obtain ⟨q, hq, rfl⟩ := List.mem_map.1 h
  rw [String.toList_ofList]
  exact not_mem_of_mem_cut hq

/-! ### Blanks at the ends -/

theorem dropWhile_isBlank_of_head {cs : List Char} (h : ∀ c, cs.head? = some c → isBlank c = false) :
    cs.dropWhile isBlank = cs := by
  cases cs with
  | nil => rfl
  | cons c r =>
    rw [List.dropWhile_cons_of_neg]
    simpa using h c rfl

/-- A text that starts and ends with something else than white space is its own trimmed form. -/
theorem trimmed_of_ends {cs : List Char} (hhead : ∀ c, cs.head? = some c → isBlank c = false)
    (hlast : ∀ c, cs.getLast? = some c → isBlank c = false) : trimmed cs = cs := by
  rw [trimmed, dropWhile_isBlank_of_head hhead, dropWhile_isBlank_of_head, List.reverse_reverse]
  intro c hc
  rw [List.head?_reverse] at hc
  exact hlast c hc

theorem head?_dropWhile_isBlank (cs : List Char) {c : Char}
    (h : (cs.dropWhile isBlank).head? = some c) : isBlank c = false := by
  have hnot := List.head?_dropWhile_not isBlank cs
  rw [h] at hnot
  exact hnot

theorem trimmed_trimmed (cs : List Char) : trimmed (trimmed cs) = trimmed cs := by
  refine trimmed_of_ends (fun c hc => ?_) (fun c hc => ?_)
  · have hprefix : trimmed cs <+: cs.dropWhile isBlank := by
      rw [← List.reverse_suffix, trimmed, List.reverse_reverse]
      exact List.dropWhile_suffix _
    obtain ⟨rest, hrest⟩ := hprefix
    refine head?_dropWhile_isBlank cs ?_
    rw [← hrest, List.head?_append, hc]
    rfl
  · rw [trimmed, List.getLast?_reverse] at hc
    exact head?_dropWhile_isBlank _ hc

theorem trim_trim (s : String) : trim (trim s) = trim s := by
  rw [trim, trim, String.toList_ofList, trimmed_trimmed]

theorem mem_of_mem_trim {s : String} {c : Char} (h : c ∈ (trim s).toList) : c ∈ s.toList := by
  rw [trim, String.toList_ofList, trimmed, List.mem_reverse] at h
  have hdrop := (List.dropWhile_suffix isBlank).subset h
  rw [List.mem_reverse] at hdrop
  exact (List.dropWhile_suffix isBlank).subset hdrop

theorem isBlank_of_isDigit {c : Char} (h : c.isDigit = true) : isBlank c = false := by
  simp only [Char.isDigit, Bool.and_eq_true, decide_eq_true_eq] at h
  have h₁ : 48 ≤ c.toNat := h.1
  have h₂ : c.toNat ≤ 57 := h.2
  simp only [isBlank, inRanges, blankRanges, List.any_cons, List.any_nil, Bool.or_false,
    Bool.or_eq_false_iff, Bool.and_eq_false_iff, decide_eq_false_iff_not]
  omega

end OrgTree.Text
