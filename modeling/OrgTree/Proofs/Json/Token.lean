import OrgTree.Json.Printer
import OrgTree.Json.Reader
import OrgTree.Proofs.Text

/-!
# Strings and numbers of JSON texts

Every string is read back from its written form: each character is one piece, and the pieces are put
together again. A numeral is read up to where something else begins. Whole numbers of at most 64
bits are read back; of reals it depends on how their digits are rounded when they are read.

## Main definitions

- `Json.IsPieceFor`: some characters are read as one character of a string
- `Json.EndsNumeral`: no numeral goes on into a text
- `Json.Number.IsReadBack`: a number is read back from its written form

## Main statements

- `Json.isPieceFor_escapedChar`, `Json.readPieces_flatMap`: characters and strings
- `Json.Numeral.read?_append`: a numeral is read whatever follows
- `Json.isReadBack_ofNat`: natural numbers
-/

namespace OrgTree.Json

/-! ### Strings -/

section

variable {c : Char} {rest : List Char}

/-- Where these characters start a text they are read as one piece, which stands for the
character. -/
def IsPieceFor (cs : List Char) (c : Char) : Prop :=
  ∃ p, (∀ r, readPieces (cs ++ r) = (readPieces r).map fun (ps, rest) => (p :: ps, rest)) ∧
    ∀ ps, assemble (p :: ps) = (assemble ps).map (c :: ·)

theorem isPieceFor_escape {e : Char} (he : escape? e = some c) : IsPieceFor ['\\', e] c := by
  have hu : e ≠ 'u' := by
    rintro rfl
    cases he
  refine ⟨.char c, fun r => ?_, fun ps => rfl⟩
  change readPieces ('\\' :: e :: r) = _
  rw [readPieces, he]
  · cases readPieces r <;> rfl
  · intro a b d f r' h
    exact absurd h hu

theorem isPieceFor_plain (hquote : c ≠ '"') (hslash : c ≠ '\\') (hc : ¬ c < ' ') :
    IsPieceFor [c] c := by
  refine ⟨.char c, fun r => ?_, fun ps => rfl⟩
  change readPieces (c :: r) = _
  rw [readPieces, if_neg hc]
  · exact hquote
  · intro a b d f r' h
    exact absurd h hslash
  · intro e r' h
    exact absurd h hslash

/-- The code of a control character has two digits after two zeros. -/
theorem exists_hex4_eq {n : Nat} (hn : n < 32) :
    ∃ a b d e, hex4 n = [a, b, d, e] ∧ hexDigit? a = some 0 ∧ hexDigit? b = some 0 ∧
      hexDigit? d = some (n / 16) ∧ hexDigit? e = some (n % 16) := by
  have hall : ∀ n < 32,
      (hex4 n).map hexDigit? = [some 0, some 0, some (n / 16), some (n % 16)] := by
    decide
  have h := hall n hn
  simp only [List.map_eq_cons_iff, List.map_eq_nil_iff] at h
  obtain ⟨a, _, ha, ha', b, _, rfl, hb, d, _, rfl, hd, e, _, rfl, he, rfl⟩ := h
  exact ⟨a, b, d, e, ha, ha', hb, hd, he⟩

theorem isPieceFor_unit (hc : c < ' ') : IsPieceFor ('\\' :: 'u' :: hex4 c.toNat) c := by
  have hlt : c.toNat < 32 := hc
  obtain ⟨a, b, d, e, hcs, ha, hb, hd, he⟩ := exists_hex4_eq hlt
  refine ⟨.unit c.toNat, fun r => ?_, fun ps => ?_⟩
  · have hvalue : 4096 * 0 + 256 * 0 + 16 * (c.toNat / 16) + c.toNat % 16 = c.toNat := by omega
    rw [hcs]
    change readPieces ('\\' :: 'u' :: a :: b :: d :: e :: r) = _
    rw [readPieces, ha, hb, hd, he]
    simp only [Option.bind_eq_bind, Option.bind_some, hvalue]
    cases readPieces r <;> rfl
  · -- the code is no half of a surrogate pair
    have hlow : isLow c.toNat = false := by
      rw [isLow, decide_eq_false (by omega), Bool.false_and]
    have hhigh : isHigh c.toNat = false := by
      rw [isHigh, decide_eq_false (by omega), Bool.false_and]
    rw [assemble.eq_def]
    simp only [hlow, hhigh, Char.ofNat_toNat, Bool.false_eq_true, if_false]

/-- Every character is read back from its place in a string. -/
theorem isPieceFor_escapedChar (c : Char) : IsPieceFor (escapedChar c) c := by
  unfold escapedChar
  repeat' split
  -- seven characters have an escape of one letter
  all_goals try subst c; exact isPieceFor_escape rfl
  · exact isPieceFor_unit ‹_›
  · exact isPieceFor_plain ‹_› ‹_› ‹_›

/-- A string is read up to its closing quote. -/
theorem readPieces_flatMap (cs rest : List Char) :
    ∃ ps, readPieces (cs.flatMap escapedChar ++ '"' :: rest) = some (ps, rest) ∧
      assemble ps = some cs := by
  induction cs with
  | nil => exact ⟨[], rfl, rfl⟩
  | cons c cs ih =>
    obtain ⟨ps, hread, hps⟩ := ih
    obtain ⟨p, hp, hc⟩ := isPieceFor_escapedChar c
    refine ⟨p :: ps, ?_, ?_⟩
    · rw [List.flatMap_cons, List.append_assoc, hp, hread]
      rfl
    · rw [hc, hps]
      rfl

end

/-! ### Numerals -/

variable {c : Char} {cs rest tail : List Char} {ds : List Nat}

/-- No numeral goes on into this text. -/
def EndsNumeral (rest : List Char) : Prop :=
  ∀ c, rest.head? = some c → Text.digit? c = none ∧ c ≠ '.' ∧ c ≠ 'e' ∧ c ≠ 'E'

theorem leadingDigits_of_endsNumeral (h : EndsNumeral rest) : leadingDigits rest = ([], rest) := by
  cases rest with
  | nil => rfl
  | cons c r => rw [leadingDigits, (h c rfl).1]

theorem leadingDigits_append (hrest : EndsNumeral rest) (h : leadingDigits cs = (ds, tail)) :
    leadingDigits (cs ++ rest) = (ds, tail ++ rest) := by
  induction cs generalizing ds with
  | nil =>
    cases h
    exact leadingDigits_of_endsNumeral hrest
  | cons c cs ih =>
    rw [leadingDigits] at h
    rw [List.cons_append, leadingDigits]
    cases hc : Text.digit? c with
    | none =>
      rw [hc] at h
      cases h
      rfl
    | some d =>
      rw [hc] at h
      cases hds : leadingDigits cs with
      | mk ds' tail' =>
        rw [hds] at h
        cases h
        rw [ih hds]

namespace Numeral

theorem readFraction_of_ne (h : rest.head? ≠ some '.') : readFraction rest = some (none, rest) := by
  cases rest with
  | nil => rfl
  | cons c r =>
    rw [readFraction]
    intro r' hr
    cases hr
    exact h rfl

theorem readFraction_append (hrest : EndsNumeral rest) {f : Option (List Nat)}
    (h : readFraction cs = some (f, tail)) :
    readFraction (cs ++ rest) = some (f, tail ++ rest) := by
  unfold readFraction at h
  split at h
  · rename_i r
    cases hds : leadingDigits r with
    | mk ds tail' =>
      rw [hds] at h
      have happend := leadingDigits_append hrest hds
      cases ds with
      | nil => cases h
      | cons d ds =>
        cases h
        rw [List.cons_append, readFraction, happend]
  · rename_i hpoint
    cases h
    refine readFraction_of_ne fun hhead => ?_
    cases cs with
    | nil => exact (hrest '.' hhead).2.1 rfl
    | cons c r =>
      cases hhead
      exact hpoint r rfl

/-- The sign of an exponent, and what follows. -/
def exponentSign : List Char → Bool × List Char
  | '+' :: t => (false, t)
  | '-' :: t => (true, t)
  | t => (false, t)

/-- The sign of a numeral, and what follows. -/
def numeralSign : List Char → Bool × List Char
  | '-' :: t => (true, t)
  | t => (false, t)

theorem exponentSign_of_ne (hplus : c ≠ '+') (hminus : c ≠ '-') (r : List Char) :
    exponentSign (c :: r) = (false, c :: r) := by
  rw [exponentSign]
  · intro t ht
    exact hplus (List.cons.inj ht).1
  · intro t ht
    exact hminus (List.cons.inj ht).1

theorem numeralSign_of_ne (hminus : c ≠ '-') (r : List Char) :
    numeralSign (c :: r) = (false, c :: r) := by
  rw [numeralSign]
  intro t ht
  exact hminus (List.cons.inj ht).1

theorem exponentSign_append (hne : cs ≠ []) (rest : List Char) :
    exponentSign (cs ++ rest) = ((exponentSign cs).1, (exponentSign cs).2 ++ rest) := by
  cases cs with
  | nil => exact absurd rfl hne
  | cons c r =>
    by_cases hplus : c = '+'
    · subst hplus
      rfl
    by_cases hminus : c = '-'
    · subst hminus
      rfl
    rw [List.cons_append, exponentSign_of_ne hplus hminus, exponentSign_of_ne hplus hminus]
    rfl

theorem numeralSign_append (hne : cs ≠ []) (rest : List Char) :
    numeralSign (cs ++ rest) = ((numeralSign cs).1, (numeralSign cs).2 ++ rest) := by
  cases cs with
  | nil => exact absurd rfl hne
  | cons c r =>
    by_cases hminus : c = '-'
    · subst hminus
      rfl
    rw [List.cons_append, numeralSign_of_ne hminus, numeralSign_of_ne hminus]
    rfl

theorem readExponent_of_ne (hc : ¬ (c = 'e' ∨ c = 'E')) (r : List Char) :
    readExponent (c :: r) = some (none, c :: r) :=
  if_neg hc

theorem readExponent_of_eq (hc : c = 'e' ∨ c = 'E') (r : List Char) :
    readExponent (c :: r) =
      match leadingDigits (exponentSign r).2 with
      | ([], _) => none
      | (ds, rest) => some
        (some (if (exponentSign r).1 then -(natOfDigits ds) else natOfDigits ds), rest) :=
  if_pos hc

theorem readExponent_append (hrest : EndsNumeral rest) {e : Option Int}
    (h : readExponent cs = some (e, tail)) :
    readExponent (cs ++ rest) = some (e, tail ++ rest) := by
  cases cs with
  | nil =>
    cases h
    cases rest with
    | nil => rfl
    | cons c r =>
      obtain ⟨-, -, he, hE⟩ := hrest c rfl
      exact readExponent_of_ne (not_or.2 ⟨he, hE⟩) r
  | cons c r =>
    by_cases hc : c = 'e' ∨ c = 'E'
    · rw [readExponent_of_eq hc] at h
      rw [List.cons_append, readExponent_of_eq hc]
      cases r with
      | nil => cases h
      | cons d t =>
        rw [exponentSign_append (List.cons_ne_nil d t)]
        cases hds : leadingDigits (exponentSign (d :: t)).2 with
        | mk ds tail' =>
          rw [leadingDigits_append hrest hds]
          rw [hds] at h
          cases ds with
          | nil => cases h
          | cons n ds =>
            cases h
            rfl
    · rw [readExponent_of_ne hc] at h
      cases h
      exact readExponent_of_ne hc (r ++ rest)

theorem read?_eq (cs : List Char) :
    read? cs =
      match leadingDigits (numeralSign cs).2 with
      | ([], _) => none
      | (0 :: _ :: _, _) => none
      | (whole, r) => do
        let (fraction, r) ← readFraction r
        let (exponent, r) ← readExponent r
        return (⟨(numeralSign cs).1, whole, fraction, exponent⟩, r) := rfl

/-- A numeral is read from the start of a text that goes on with something else. -/
theorem read?_append (hrest : EndsNumeral rest) {m : Numeral} (h : read? cs = some (m, tail)) :
    read? (cs ++ rest) = some (m, tail ++ rest) := by
  have hne : cs ≠ [] := by
    rintro rfl
    cases h
  rw [read?_eq] at h ⊢
  rw [numeralSign_append hne]
  cases hds : leadingDigits (numeralSign cs).2 with
  | mk ds tail' =>
    rw [leadingDigits_append hrest hds]
    rw [hds] at h
    split at h
    · cases h
    · cases h
    · rename_i whole r hnil hzero heq
      cases heq
      obtain ⟨⟨f, r₁⟩, hf, h⟩ := Option.bind_eq_some_iff.1 h
      obtain ⟨⟨e, r₂⟩, he, h⟩ := Option.bind_eq_some_iff.1 h
      cases h
      have hf' := readFraction_append hrest hf
      have he' := readExponent_append hrest he
      simp only [hf', he', Option.bind_eq_bind, Option.bind_some]
      rfl

/-- A numeral starts with a sign or a digit. -/
theorem exists_eq_cons_of_read? {m : Numeral} (h : read? cs = some (m, rest)) :
    ∃ c r, cs = c :: r ∧ (c = '-' ∨ c.isDigit = true) := by
  cases cs with
  | nil => cases h
  | cons c r =>
    refine ⟨c, r, rfl, Classical.or_iff_not_imp_left.2 fun hminus => ?_⟩
    rw [read?_eq, numeralSign_of_ne hminus] at h
    cases hc : Text.digit? c with
    | none =>
      rw [leadingDigits, hc] at h
      cases h
    | some d => exact Text.digit?_isSome_iff.1 (Option.isSome_iff_exists.2 ⟨d, hc⟩)

end Numeral

/-! ### Numbers -/

/-- The number that the whole of a text stands for. -/
def numberOf? (cs : List Char) : Option Number :=
  match Numeral.read? cs with
  | some (m, []) =>
    match m.value with
    | .num n => some n
    | _ => none
  | _ => none

/-- A number is read back from its written form. Whole numbers are; of reals it depends on how the
digits are rounded when they are read. -/
def Number.IsReadBack (n : Number) : Prop :=
  numberOf? n.chars = some n

deriving instance DecidableEq for Number

instance (n : Number) : Decidable n.IsReadBack :=
  inferInstanceAs (Decidable (numberOf? n.chars = some n))

theorem numberOf?_eq_some {cs : List Char} {n : Number} (h : numberOf? cs = some n) :
    ∃ m, Numeral.read? cs = some (m, []) ∧ m.value = .num n := by
  unfold numberOf? at h
  split at h
  · rename_i m hm
    split at h
    · rename_i n' hn
      cases h
      exact ⟨m, hm, hn⟩
    · cases h
  · cases h

/-- A run of digits is read to its end. -/
theorem leadingDigits_of_isDigit (h : ∀ c ∈ cs, c.isDigit = true) :
    ∃ ds, leadingDigits cs = (ds, []) ∧ ds.length = cs.length ∧
      (∀ n, ds.foldl (fun n d => 10 * n + d) n = Nat.ofDigitChars 10 cs n) ∧
      (ds.head? = some 0 → cs.head? = some '0') := by
  induction cs with
  | nil => exact ⟨[], rfl, rfl, fun n => Nat.ofDigitChars_nil.symm, fun h => nomatch h⟩
  | cons c cs ih =>
    have hc := h c List.mem_cons_self
    obtain ⟨ds, hds, hlength, hvalue, -⟩ := ih fun d hd => h d (List.mem_cons_of_mem _ hd)
    refine ⟨(c.toNat - '0'.toNat) :: ds, ?_, by rw [List.length_cons, hlength, List.length_cons],
      fun n => ?_, fun hhead => ?_⟩
    · rw [leadingDigits, Text.digit?_of_isDigit hc, hds]
    · rw [List.foldl_cons, hvalue, Nat.ofDigitChars_cons]
    · have hdiff : c.toNat - '0'.toNat = 0 := Option.some.inj hhead
      have hlow : '0'.toNat ≤ c.toNat := by
        have hrange : '0' ≤ c ∧ c ≤ '9' := by simpa [Char.isDigit, Char.le_def] using hc
        exact hrange.1
      have hcode : c.toNat = '0'.toNat := by omega
      exact congrArg some (Char.toNat_inj.1 hcode)

/-- Only zero is written with a zero in front. -/
theorem head?_toDigits_ne_zero {n : Nat} (h : 0 < n) : (Nat.toDigits 10 n).head? ≠ some '0' := by
  induction n using Nat.strongRecOn with
  | ind n ih =>
    by_cases hn : n < 10
    · have hsmall : ∀ n < 10, 0 < n → [Nat.digitChar n].head? ≠ some '0' := by decide
      rw [Nat.toDigits_of_lt_base hn]
      exact hsmall n hn h
    · have hhead := ih (n / 10) (by omega) (by omega)
      rw [Nat.toDigits_of_base_le (by decide) (by omega)]
      cases hd : Nat.toDigits 10 (n / 10) with
      | nil => exact absurd hd Nat.toDigits_ne_nil
      | cons c cs =>
        rw [hd] at hhead
        exact hhead

theorem numeralSign_toDigits (n : Nat) :
    Numeral.numeralSign (Nat.toDigits 10 n) = (false, Nat.toDigits 10 n) := by
  cases hn : Nat.toDigits 10 n with
  | nil => rfl
  | cons c cs =>
    refine Numeral.numeralSign_of_ne ?_ cs
    rintro rfl
    have hminus : '-' ∈ Nat.toDigits 10 n := hn ▸ List.mem_cons_self
    exact absurd (Text.isDigit_of_mem_toDigits hminus) (by decide)

/-- A natural number of at most 64 bits is read back. -/
theorem isReadBack_ofNat {n : Nat} (h : n < UInt64.size) : Number.IsReadBack (.whole n) := by
  have hchars : (Number.whole n).chars = Nat.toDigits 10 n := Nat.toList_repr
  obtain ⟨ds, hds, hlength, hvalue, hzero⟩ :=
    leadingDigits_of_isDigit fun _ => Text.isDigit_of_mem_toDigits (n := n)
  have hread : Numeral.read? (Nat.toDigits 10 n) = some (⟨false, ds, none, none⟩, []) := by
    rw [Numeral.read?_eq, numeralSign_toDigits, hds]
    split
    · rename_i heq
      cases heq
      exact absurd (List.length_eq_zero_iff.1 hlength.symm) Nat.toDigits_ne_nil
    · rename_i d ds' r heq
      cases heq
      have hhead := hzero rfl
      rcases Nat.eq_zero_or_pos n with rfl | hpos
      · exact absurd hlength (by simp)
      · exact absurd hhead (head?_toDigits_ne_zero hpos)
    · rename_i heq
      cases heq
      rfl
  have hnat : natOfDigits ds = n := by
    rw [natOfDigits, hvalue, Nat.ofDigitChars_ten_toDigits]
  rw [Number.IsReadBack, hchars, numberOf?, hread]
  simp [Numeral.value, Numeral.whole?, hnat, h]

end OrgTree.Json
