import OrgTree.Calendar.Json
import OrgTree.Proofs.Text

/-!
# Reading dates that were written here

The written form of a date is read back by both readings: the year by its four digits or by its
sign, the month and the day by their two digits.

## Main statements

- `Date.ofText_toText`, `Date.ofText?_toText`: both readings of the written form
-/

namespace OrgTree.Text

/-! ### Padded numerals -/

theorem toList_padded (width n : Nat) :
    (padded width n).toList =
      List.replicate (width - (Nat.toDigits 10 n).length) '0' ++ Nat.toDigits 10 n := by
  have hlist : (toString n).toList = Nat.toDigits 10 n := Nat.toList_repr
  have hlength : (toString n).length = (Nat.toDigits 10 n).length := by
    rw [← hlist, String.length_toList]
  rw [padded, String.toList_append, String.toList_ofList, hlist, hlength]

theorem isDigit_of_mem_padded {width n : Nat} {c : Char} (h : c ∈ (padded width n).toList) :
    c.isDigit = true := by
  rw [toList_padded, List.mem_append] at h
  rcases h with h | h
  · rw [List.eq_of_mem_replicate h]
    rfl
  · exact isDigit_of_mem_toDigits h

theorem padded_ne_nil (width n : Nat) : (padded width n).toList ≠ [] := by
  rw [toList_padded]
  simp [Nat.toDigits_ne_nil]

theorem natOfDigits?_padded (width n : Nat) : natOfDigits? (padded width n).toList = some n := by
  rw [natOfDigits?_of_isDigit (fun _ => isDigit_of_mem_padded) (padded_ne_nil width n),
    toList_padded, Nat.ofDigitChars_append, Nat.ofDigitChars_replicate_zero, Nat.mul_zero,
    Nat.ofDigitChars_ten_toDigits]

/-- A number that fits is written in exactly as many digits as asked for. -/
theorem length_padded {width n : Nat} (h : (Nat.toDigits 10 n).length ≤ width) :
    (padded width n).toList.length = width := by
  rw [toList_padded, List.length_append, List.length_replicate]
  omega

end OrgTree.Text

namespace OrgTree.Date

open Text

variable {ds rest : List Char}

theorem takeWhile_digit? (hds : ∀ c ∈ ds, c.isDigit = true)
    (hrest : ∀ c, rest.head? = some c → c.isDigit = false) :
    (ds ++ rest).takeWhile (fun c => (digit? c).isSome) = ds := by
  rw [List.takeWhile_append_of_pos fun c hc => digit?_isSome_iff.2 (hds c hc)]
  cases rest with
  | nil => simp
  | cons c r =>
    have hc : (digit? c).isSome = false := by
      rw [← Bool.not_eq_true, digit?_isSome_iff, hrest c rfl]
      decide
    simp [hc]

/-- As many digits as asked for are read by their value. -/
theorem readDigits_append (rest : List Char) (hds : ∀ c ∈ ds, c.isDigit = true) (hne : ds ≠ []) :
    readDigits ds.length (ds ++ rest) = .ok ((natOfDigits? ds).getD 0, rest) := by
  have hblank : (ds ++ rest).dropWhile isBlank = ds ++ rest := by
    refine dropWhile_isBlank_of_head fun c hc => isBlank_of_isDigit (hds c ?_)
    cases ds with
    | nil => exact absurd rfl hne
    | cons d ds =>
      rw [← Option.some.inj hc]
      exact List.mem_cons_self
  have htake : (ds.takeWhile fun c => (digit? c).isSome) = ds := by
    have hdigits := takeWhile_digit? hds (by simp : ∀ c, ([] : List Char).head? = some c → _)
    simpa using hdigits
  rw [readDigits]
  simp only [hblank, List.take_left', htake]
  cases ds with
  | nil => exact absurd rfl hne
  | cons d ds => simp

theorem readAllDigits_append (hds : ∀ c ∈ ds, c.isDigit = true) (hne : ds ≠ [])
    (hrest : ∀ c, rest.head? = some c → c.isDigit = false) :
    readAllDigits (ds ++ rest) = .ok ((natOfDigits? ds).getD 0, rest) := by
  rw [readAllDigits, takeWhile_digit? hds hrest]
  cases ds with
  | nil => exact absurd rfl hne
  | cons d ds => simp

theorem readDigits_padded {width n : Nat} (h : (Nat.toDigits 10 n).length ≤ width)
    (rest : List Char) : readDigits width ((padded width n).toList ++ rest) = .ok (n, rest) := by
  have hread := readDigits_append rest (fun _ => isDigit_of_mem_padded (n := n)) (padded_ne_nil width n)
  rw [length_padded h, natOfDigits?_padded] at hread
  exact hread

theorem readAllDigits_padded (width n : Nat)
    (hrest : ∀ c, rest.head? = some c → c.isDigit = false) :
    readAllDigits ((padded width n).toList ++ rest) = .ok (n, rest) := by
  have hread := readAllDigits_append (fun _ => isDigit_of_mem_padded) (padded_ne_nil width n) hrest
  rw [natOfDigits?_padded] at hread
  exact hread

/-- A reading with a check of its value succeeds when the value passes. -/
theorem checked_eq_ok {x : Except DateError (Nat × List Char)} {n : Nat} {f : Nat → Int}
    {P : Int → Prop} [DecidablePred P] (hx : x = .ok (n, rest)) (hP : P (f n)) :
    (do
      let (year, rest) ← do
        let (n, rest) ← x
        pure (f n, rest)
      if P year then return (year, rest) else throw DateError.outOfRange) =
        (.ok (f n, rest) : Except DateError (Int × List Char)) := by
  simp only [hx, bind, Except.bind, pure, Except.pure, if_pos hP]

theorem readYear_of_digit {c : Char} {cs : List Char} {n : Nat} (hc : c.isDigit = true)
    (hread : readDigits 4 (c :: cs) = .ok (n, rest))
    (hrange : -0x80000000 ≤ (n : Int) ∧ (n : Int) < 0x80000000) :
    readYear (c :: cs) = .ok ((n : Int), rest) := by
  have hminus : c ≠ '-' := by
    rintro rfl
    exact absurd hc (by decide)
  have hplus : c ≠ '+' := by
    rintro rfl
    exact absurd hc (by decide)
  have hdrop : (c :: cs).dropWhile isBlank = c :: cs :=
    List.dropWhile_cons_of_neg (by rw [isBlank_of_isDigit hc]; decide)
  unfold readYear
  rw [hdrop]
  split
  · rename_i h
    exact absurd (List.cons.inj h).1 hminus
  · rename_i h
    exact absurd (List.cons.inj h).1 hplus
  · exact checked_eq_ok (f := Int.ofNat) (P := fun y => -0x80000000 ≤ y ∧ y < 0x80000000) hread hrange

theorem readYear_minus {cs : List Char} {n : Nat} (hread : readAllDigits cs = .ok (n, rest))
    (hrange : -0x80000000 ≤ -(n : Int) ∧ -(n : Int) < 0x80000000) :
    readYear ('-' :: cs) = .ok (-(n : Int), rest) := by
  have hdrop : ('-' :: cs).dropWhile isBlank = '-' :: cs :=
    List.dropWhile_cons_of_neg (by decide)
  unfold readYear
  rw [hdrop]
  exact checked_eq_ok (f := fun n => -(n : Int)) (P := fun y => -0x80000000 ≤ y ∧ y < 0x80000000) hread
    hrange

theorem readYear_plus {cs : List Char} {n : Nat} (hread : readAllDigits cs = .ok (n, rest))
    (hrange : -0x80000000 ≤ (n : Int) ∧ (n : Int) < 0x80000000) :
    readYear ('+' :: cs) = .ok ((n : Int), rest) := by
  have hdrop : ('+' :: cs).dropWhile isBlank = '+' :: cs :=
    List.dropWhile_cons_of_neg (by decide)
  unfold readYear
  rw [hdrop]
  exact checked_eq_ok (f := Int.ofNat) (P := fun y => -0x80000000 ≤ y ∧ y < 0x80000000) hread hrange

/-- A year is read from its written form, whatever comes after the hyphen. -/
theorem readYear_yearText {year : Int} (hlow : -262143 ≤ year) (hhigh : year ≤ 262142)
    (rest : List Char) :
    readYear ((yearText year).toList ++ '-' :: rest) = .ok (year, '-' :: rest) := by
  have hstop : ∀ c, ('-' :: rest).head? = some c → c.isDigit = false := by
    intro c hc
    rw [← Option.some.inj hc]
    decide
  unfold yearText
  split
  · rename_i hyear
    have hcast : ((year.toNat : Nat) : Int) = year := by omega
    have hfits : (Nat.toDigits 10 year.toNat).length ≤ 4 :=
      (Nat.length_toDigits_le_iff (by decide) (by decide)).2 (by omega)
    have hread := readDigits_padded hfits ('-' :: rest)
    cases hp : (padded 4 year.toNat).toList with
    | nil => exact absurd hp (padded_ne_nil 4 _)
    | cons c cs =>
      rw [hp, List.cons_append] at hread
      have hyear := readYear_of_digit (isDigit_of_mem_padded (hp ▸ List.mem_cons_self)) hread
        (by omega)
      rw [hcast] at hyear
      exact hyear
  · have hread := readAllDigits_padded 4 year.natAbs hstop
    split
    · have hcast : -((year.natAbs : Nat) : Int) = year := by omega
      have hyear := readYear_minus hread (by omega)
      rw [hcast] at hyear
      simpa using hyear
    · have hcast : ((year.natAbs : Nat) : Int) = year := by omega
      have hyear := readYear_plus hread (by omega)
      rw [hcast] at hyear
      simpa using hyear

theorem readPart_padded {greatest n : Nat} (hlow : 1 ≤ n) (hhigh : n ≤ greatest)
    (h : n < 100) (rest : List Char) :
    readPart greatest ((padded 2 n).toList ++ rest) = .ok (n, rest) := by
  have hfits : (Nat.toDigits 10 n).length ≤ 2 :=
    (Nat.length_toDigits_le_iff (by decide) (by decide)).2 h
  rw [readPart, readDigits_padded hfits]
  simp only [bind, Except.bind, pure, Except.pure, if_pos (And.intro hlow hhigh)]

theorem monthLength_le (year : Int) (month : Nat) : Calendar.monthLength year month ≤ 31 := by
  unfold Calendar.monthLength
  split
  · split <;> omega
  · split <;> omega

theorem toList_toText (d : Date) :
    d.toText.toList = (yearText d.year).toList ++ '-' :: ((padded 2 d.month).toList ++
      '-' :: ((padded 2 d.day).toList ++ [])) := by
  simp [toText]

/-- The text of a year starts with a digit or a sign. -/
theorem exists_yearText_eq_cons (year : Int) :
    ∃ c cs, (yearText year).toList = c :: cs ∧ isBlank c = false := by
  unfold yearText
  split
  · cases hp : (padded 4 year.toNat).toList with
    | nil => exact absurd hp (padded_ne_nil 4 _)
    | cons c cs =>
      exact ⟨c, cs, rfl, isBlank_of_isDigit (isDigit_of_mem_padded (hp ▸ List.mem_cons_self))⟩
  · split
    · exact ⟨'-', (padded 4 year.natAbs).toList, by simp, by decide⟩
    · exact ⟨'+', (padded 4 year.natAbs).toList, by simp, by decide⟩

/-- Neither end of a written date is white space. -/
theorem trimmed_toText (d : Date) : trimmed d.toText.toList = d.toText.toList := by
  obtain ⟨e, es, hyear, hblank⟩ := exists_yearText_eq_cons d.year
  refine trimmed_of_ends (fun c hc => ?_) fun c hc => ?_
  · rw [toList_toText, hyear, List.cons_append, List.head?_cons] at hc
    rw [← Option.some.inj hc]
    exact hblank
  · have hlast : (padded 2 d.day).toList.getLast? = some c := by
      rw [toList_toText, List.append_nil, List.getLast?_append, List.getLast?_cons,
        List.getLast?_append, List.getLast?_cons] at hc
      cases hl : (padded 2 d.day).toList.getLast? with
      | none => exact absurd (List.getLast?_eq_none_iff.1 hl) (padded_ne_nil _ _)
      | some e =>
        rw [hl] at hc
        simpa using hc
    exact isBlank_of_isDigit (isDigit_of_mem_padded (List.mem_of_getLast? hlast))

/-- The written form names its date, whatever blanks may be passed over. -/
theorem readWith_toText {space : List Char → List Char} (hnil : space [] = [])
    (hhyphen : ∀ r, space ('-' :: r) = '-' :: r) (d : Date) :
    readWith space d.toText.toList = .ok d := by
  obtain ⟨year, month, day, hday⟩ := d
  obtain ⟨hlow, hhigh, hm, hm', hd, hd'⟩ := id hday
  have hd'' := monthLength_le year month
  rw [toList_toText, readWith]
  rw [readYear_yearText hlow hhigh]
  simp only [bind, Except.bind, hhyphen, readHyphen]
  rw [readPart_padded hm hm' (by omega)]
  simp only [hhyphen]
  rw [readPart_padded hd (by omega) (by omega)]
  simp [hnil, ofYearMonthDay?, hday, pure, Except.pure]

/-- A date is read back from its written form. -/
theorem ofText_toText (d : Date) : ofText d.toText = .ok d := by
  rw [ofText, trimmed_toText]
  exact readWith_toText rfl (fun _ => rfl) d

/-- A stored date is read back from its written form. -/
theorem ofText?_toText (d : Date) : ofText? d.toText = some d := by
  have hhyphen : ∀ r, ('-' :: r).dropWhile isBlank = '-' :: r :=
    fun r => List.dropWhile_cons_of_neg (by decide)
  rw [ofText?, readWith_toText rfl hhyphen]
  rfl

end OrgTree.Date
