import OrgTree.Proofs.Json.Token

/-!
# JSON texts read back

A value is read back from both of its written forms if its numbers are. The reader is followed along
the printer: a value is read where its written form stands, after white space and before anything
that does not go on with a numeral, with fuel for twice its characters.

## Main definitions

- `Json.IsLegible`: the values whose numbers are read back
- `Json.IsReadFrom`: a value is read where its written form stands

## Main statements

- `Json.readItems_itemsChars`, `Json.readMembers_membersChars`: the insides of brackets
- `Json.parse?_indented`, `Json.parse?_compact`: whole texts
-/

namespace OrgTree.Json

variable {style : Style} {depth fuel : Nat} {j x : Json} {xs : List Json} {ms : Members}
  {c : Char} {blanks cs r rest : List Char}

/-! ### Written forms -/

/-- White space only. -/
def IsBlank (cs : List Char) : Prop :=
  ∀ c ∈ cs, isSpace c = true

/-- The gaps of a written form are white space, and a colon stands where one is needed. -/
structure Style.IsReadable (style : Style) : Prop where
  gap : ∀ depth, IsBlank (style.gap depth)
  colon : ∃ blanks, style.colon = ':' :: blanks ∧ IsBlank blanks

theorem isReadable_compact : Style.compact.IsReadable where
  gap _ := by simp [Style.compact, IsBlank]
  colon := ⟨[], rfl, by simp [IsBlank]⟩

theorem isReadable_indented : Style.indented.IsReadable where
  gap depth := by
    intro c hc
    rcases List.mem_cons.1 hc with rfl | hc
    · rfl
    · rw [List.eq_of_mem_replicate hc]
      rfl
  colon := ⟨[' '], rfl, by simp [IsBlank, isSpace]⟩

/-- A value whose tokens can all be read back. -/
inductive IsLegible : Json → Prop
  | null : IsLegible .null
  | bool (b : Bool) : IsLegible (.bool b)
  | num {n : Number} (h : n.IsReadBack) : IsLegible (.num n)
  | str (s : String) : IsLegible (.str s)
  | arr {xs : List Json} (h : ∀ x ∈ xs, IsLegible x) : IsLegible (.arr xs)
  | obj {ms : Members} (h : ∀ m ∈ ms, IsLegible m.2) : IsLegible (.obj ms)

theorem skipSpace_append (h : IsBlank blanks) (cs : List Char) :
    skipSpace (blanks ++ cs) = skipSpace cs := by
  rw [skipSpace, List.dropWhile_append_of_pos h]
  rfl

theorem skipSpace_cons (h : isSpace c = false) (r : List Char) : skipSpace (c :: r) = c :: r :=
  List.dropWhile_cons_of_neg (by rw [h]; decide)

/-- A value is read where its written form stands, after white space and before anything that does
not go on with a numeral. -/
def IsReadFrom (style : Style) (depth : Nat) (j : Json) : Prop :=
  ∀ fuel blanks rest, IsBlank blanks → EndsNumeral rest →
    2 * (chars style depth j).length < fuel →
    readValue fuel (blanks ++ (chars style depth j ++ rest)) = some (j, rest)

/-! ### Numbers and strings -/

theorem ne_of_sign_or_digit {d : Char} (hc : c = '-' ∨ c.isDigit = true)
    (hd : d ≠ '-' ∧ d.isDigit = false) : c ≠ d := by
  rintro rfl
  rcases hc with hc | hc
  · exact hd.1 hc
  · rw [hd.2] at hc
    cases hc

theorem readValue_of_sign_or_digit (hblanks : IsBlank blanks) (hc : c = '-' ∨ c.isDigit = true)
    (r : List Char) :
    readValue (fuel + 1) (blanks ++ c :: r) =
      (Numeral.read? (c :: r)).map fun (n, rest) => (n.value, rest) := by
  have hspace : isSpace c = false := by
    have hne := fun d => ne_of_sign_or_digit (d := d) hc
    simp [isSpace, hne]
  rw [readValue, skipSpace_append hblanks, skipSpace_cons hspace]
  -- every other kind of value starts with a character of its own
  split
  · contradiction
  all_goals try
    rename_i heq
    exact absurd (List.cons.inj heq).1 (ne_of_sign_or_digit hc (by decide))
  rfl

theorem isReadFrom_num {n : Number} (h : n.IsReadBack) : IsReadFrom style depth (.num n) := by
  intro fuel blanks rest hblanks hrest hfuel
  obtain ⟨m, hread, hvalue⟩ := numberOf?_eq_some h
  obtain ⟨c, cs, hcs, hc⟩ := Numeral.exists_eq_cons_of_read? hread
  obtain ⟨fuel, rfl⟩ := Nat.exists_eq_add_one_of_ne_zero (Nat.ne_zero_of_lt hfuel)
  have happend := Numeral.read?_append hrest hread
  rw [chars, hcs, List.cons_append, readValue_of_sign_or_digit hblanks hc,
    ← List.cons_append, ← hcs, happend, Option.map_some]
  exact congrArg (fun j => some (j, rest)) hvalue

theorem readPieces_textChars (s : String) (rest : List Char) :
    ∃ r ps, textChars s ++ rest = '"' :: r ∧ readPieces r = some (ps, rest) ∧
      assemble ps = some s.toList := by
  obtain ⟨ps, hread, hps⟩ := readPieces_flatMap s.toList rest
  exact ⟨_, ps, by simp [textChars], hread, hps⟩

theorem skipSpace_textChars (s : String) (rest : List Char) :
    skipSpace (textChars s ++ rest) = '"' :: (s.toList.flatMap escapedChar ++ '"' :: rest) := by
  rw [textChars, List.cons_append, List.cons_append, skipSpace_cons (by decide),
    List.append_assoc, List.singleton_append]

theorem isReadFrom_str (s : String) : IsReadFrom style depth (.str s) := by
  intro fuel blanks rest hblanks _ hfuel
  obtain ⟨fuel, rfl⟩ := Nat.exists_eq_add_one_of_ne_zero (Nat.ne_zero_of_lt hfuel)
  obtain ⟨r, ps, hr, hread, hps⟩ := readPieces_textChars s rest
  rw [chars, hr, readValue, skipSpace_append hblanks, skipSpace_cons (by decide)]
  simp only [hread, hps, Option.map_some, String.ofList_toList]

/-! ### Arrays -/

theorem endsNumeral_cons (hc : c = ',' ∨ c = ']' ∨ c = '\x7d') (r : List Char) :
    EndsNumeral (c :: r) := by
  intro d hd
  cases hd
  rcases hc with rfl | rfl | rfl <;> decide

theorem endsNumeral_of_blanks (hblanks : IsBlank blanks) (hc : c = ',' ∨ c = ']' ∨ c = '\x7d')
    (r : List Char) : EndsNumeral (blanks ++ c :: r) := by
  cases blanks with
  | nil => exact endsNumeral_cons hc r
  | cons b blanks =>
    intro d hd
    cases hd
    have hb := hblanks _ List.mem_cons_self
    simp only [isSpace, Bool.or_eq_true, decide_eq_true_eq] at hb
    rcases hb with ((rfl | rfl) | rfl) | rfl <;> decide

/-- An item is followed by a comma and the next item, or by a gap and the closing bracket. -/
theorem endsNumeral_itemsChars (xs : List Json) (hblanks : IsBlank blanks) (r : List Char) :
    EndsNumeral (itemsChars style depth xs ++ (blanks ++ ']' :: r)) := by
  cases xs with
  | nil => exact endsNumeral_of_blanks hblanks (.inr (.inl rfl)) r
  | cons x xs => exact endsNumeral_cons (.inl rfl) _

/-- One item is read, and then the others. -/
theorem readItems_eq (hx : IsReadFrom style depth x) (hblanks : IsBlank blanks)
    (hrest : EndsNumeral rest) (hfuel : 2 * (chars style depth x).length < fuel) :
    readItems (fuel + 1) (blanks ++ (chars style depth x ++ rest)) =
      match skipSpace rest with
      | ']' :: rest => some ([x], rest)
      | ',' :: rest => (readItems fuel rest).bind fun (xs, rest) => some (x :: xs, rest)
      | _ => none := by
  rw [readItems, hx fuel blanks rest hblanks hrest hfuel]
  rfl

/-- Items are read up to the closing bracket. -/
theorem readItems_itemsChars (hstyle : style.IsReadable) {gap : List Char} (hgap : IsBlank gap)
    (hxs : ∀ y ∈ x :: xs, IsReadFrom style depth y) (hblanks : IsBlank blanks)
    (hfuel : 2 * ((chars style depth x).length + (itemsChars style depth xs).length) + 1 < fuel) :
    readItems fuel (blanks ++ (chars style depth x ++
      (itemsChars style depth xs ++ (gap ++ ']' :: rest)))) = some (x :: xs, rest) := by
  have hx : IsReadFrom style depth x := hxs x List.mem_cons_self
  induction xs generalizing x fuel blanks with
  | nil =>
    obtain ⟨fuel, rfl⟩ := Nat.exists_eq_add_one_of_ne_zero (Nat.ne_zero_of_lt hfuel)
    rw [readItems_eq hx hblanks (endsNumeral_itemsChars [] hgap rest) (by omega), itemsChars,
      List.nil_append, skipSpace_append hgap, skipSpace_cons (by decide)]
    rfl
  | cons y ys ih =>
    obtain ⟨fuel, rfl⟩ := Nat.exists_eq_add_one_of_ne_zero (Nat.ne_zero_of_lt hfuel)
    rw [readItems_eq hx hblanks (endsNumeral_itemsChars (y :: ys) hgap rest) (by omega)]
    simp only [itemsChars, List.cons_append, List.append_assoc, List.length_cons,
      List.length_append] at hfuel ⊢
    have hrest : readItems fuel (style.gap depth ++ (chars style depth y ++
        (itemsChars style depth ys ++ (gap ++ ']' :: rest)))) = some (y :: ys, rest) :=
      ih (fun z hz => hxs z (List.mem_cons_of_mem _ hz)) (hstyle.gap depth) (by omega)
        (hxs y (by simp))
    rw [skipSpace_cons (by decide)]
    simp only [hrest, Option.bind_some]

/-- Every written value starts with a character that is no white space and closes nothing. -/
theorem IsLegible.exists_chars_eq_cons (h : j.IsLegible) (style : Style) (depth : Nat) :
    ∃ c cs, chars style depth j = c :: cs ∧ isSpace c = false ∧ c ≠ ']' := by
  cases h with
  | null => exact ⟨_, _, rfl, rfl, by decide⟩
  | bool b => cases b <;> exact ⟨_, _, rfl, rfl, by decide⟩
  | str s => exact ⟨_, _, rfl, rfl, by decide⟩
  | arr h => rename_i xs; cases xs <;> exact ⟨_, _, rfl, rfl, by decide⟩
  | obj h => rename_i ms; cases ms <;> exact ⟨_, _, rfl, rfl, by decide⟩
  | num h =>
    obtain ⟨m, hread, -⟩ := numberOf?_eq_some h
    obtain ⟨c, cs, hcs, hc⟩ := Numeral.exists_eq_cons_of_read? hread
    refine ⟨c, cs, hcs, ?_, ne_of_sign_or_digit hc (by decide)⟩
    have hne := fun d => ne_of_sign_or_digit (d := d) hc
    simp [isSpace, hne]

theorem isReadFrom_arr (hstyle : style.IsReadable) (hlegible : ∀ x ∈ xs, x.IsLegible)
    (hxs : ∀ x ∈ xs, ∀ depth, IsReadFrom style depth x) : IsReadFrom style depth (.arr xs) := by
  intro fuel blanks rest hblanks _ hfuel
  obtain ⟨fuel, rfl⟩ := Nat.exists_eq_add_one_of_ne_zero (Nat.ne_zero_of_lt hfuel)
  cases xs with
  | nil =>
    rw [chars, readValue, skipSpace_append hblanks]
    rfl
  | cons x xs =>
    obtain ⟨c, cs, hcs, hspace, hclose⟩ :=
      (hlegible x List.mem_cons_self).exists_chars_eq_cons style (depth + 1)
    have hread : readItems fuel (style.gap (depth + 1) ++ (chars style (depth + 1) x ++
        (itemsChars style (depth + 1) xs ++ (style.gap depth ++ ']' :: rest)))) =
        some (x :: xs, rest) :=
      readItems_itemsChars hstyle (hstyle.gap depth) (fun y hy => hxs y hy (depth + 1))
        (hstyle.gap (depth + 1)) (by simp [chars] at hfuel; omega)
    have hskip : skipSpace (style.gap (depth + 1) ++ (chars style (depth + 1) x ++
        (itemsChars style (depth + 1) xs ++ (style.gap depth ++ ']' :: rest)))) =
        c :: (cs ++ (itemsChars style (depth + 1) xs ++ (style.gap depth ++ ']' :: rest))) := by
      rw [skipSpace_append (hstyle.gap (depth + 1)), hcs, List.cons_append, skipSpace_cons hspace]
    rw [chars, readValue, skipSpace_append hblanks]
    simp only [List.cons_append, List.append_assoc, List.nil_append,
      skipSpace_cons (show isSpace '[' = false by decide), hskip, hread]
    split
    · rename_i heq
      exact absurd (List.cons.inj heq).1 hclose
    · rfl

/-! ### Objects -/

/-- Members whose keys have a value make an object. -/
theorem ofReadMembers_map (ms : Members) :
    ofReadMembers (ms.map fun m => (some m.1, m.2)) = .obj ms := by
  have hall : (ms.map fun m => (some m.1, m.2)).mapM
      (fun m : Option String × Json => m.1.map (·, m.2)) = some ms := by
    induction ms with
    | nil => rfl
    | cons m ms ih =>
      rw [List.map_cons, List.mapM_cons, ih]
      rfl
  rw [ofReadMembers, hall]

theorem endsNumeral_membersChars (ms : Members) (hblanks : IsBlank blanks) (r : List Char) :
    EndsNumeral (membersChars style depth ms ++ (blanks ++ '\x7d' :: r)) := by
  cases ms with
  | nil => exact endsNumeral_of_blanks hblanks (.inr (.inr rfl)) r
  | cons m ms => exact endsNumeral_cons (.inl rfl) _

/-- One member is read, and then the others. -/
theorem readMembers_eq (hstyle : style.IsReadable) {k : String} {v : Json}
    (hv : IsReadFrom style depth v) (hblanks : IsBlank blanks) (hrest : EndsNumeral rest)
    (hfuel : 2 * (chars style depth v).length < fuel) :
    readMembers (fuel + 1) (blanks ++ (textChars k ++ (style.colon ++
        (chars style depth v ++ rest)))) =
      match skipSpace rest with
      | '\x7d' :: rest => some ([(some k, v)], rest)
      | ',' :: rest => (readMembers fuel rest).bind fun (ms, rest) => some ((some k, v) :: ms, rest)
      | _ => none := by
  obtain ⟨spaces, hcolon, hspaces⟩ := hstyle.colon
  obtain ⟨r, ps, hr, hpieces, hps⟩ :=
    readPieces_textChars k (style.colon ++ (chars style depth v ++ rest))
  rw [hr, readMembers, skipSpace_append hblanks, skipSpace_cons (by decide)]
  simp only [Option.bind_eq_bind, Option.bind_some, hpieces, hps, hcolon, List.cons_append,
    skipSpace_cons (show isSpace ':' = false by decide), hv fuel spaces rest hspaces hrest hfuel,
    Option.map_some, String.ofList_toList]
  rfl

/-- Members are read up to the closing brace. -/
theorem readMembers_membersChars (hstyle : style.IsReadable) {gap : List Char} (hgap : IsBlank gap)
    {k : String} {v : Json} (hms : ∀ m ∈ (k, v) :: ms, IsReadFrom style depth m.2)
    (hblanks : IsBlank blanks)
    (hfuel : 2 * ((chars style depth v).length + (membersChars style depth ms).length) + 1 < fuel) :
    readMembers fuel (blanks ++ (textChars k ++ (style.colon ++ (chars style depth v ++
        (membersChars style depth ms ++ (gap ++ '\x7d' :: rest)))))) =
      some (((k, v) :: ms).map fun m => (some m.1, m.2), rest) := by
  have hv : IsReadFrom style depth v := hms (k, v) List.mem_cons_self
  induction ms generalizing k v fuel blanks with
  | nil =>
    obtain ⟨fuel, rfl⟩ := Nat.exists_eq_add_one_of_ne_zero (Nat.ne_zero_of_lt hfuel)
    rw [readMembers_eq hstyle hv hblanks
      (endsNumeral_membersChars [] hgap rest) (by omega), membersChars, List.nil_append,
      skipSpace_append hgap, skipSpace_cons (by decide)]
    rfl
  | cons m ms ih =>
    obtain ⟨fuel, rfl⟩ := Nat.exists_eq_add_one_of_ne_zero (Nat.ne_zero_of_lt hfuel)
    obtain ⟨k', v'⟩ := m
    rw [readMembers_eq hstyle hv hblanks
      (endsNumeral_membersChars ((k', v') :: ms) hgap rest) (by omega)]
    simp only [membersChars, List.cons_append, List.append_assoc, List.length_cons,
      List.length_append] at hfuel ⊢
    have hrest : readMembers fuel (style.gap depth ++ (textChars k' ++ (style.colon ++
        (chars style depth v' ++ (membersChars style depth ms ++ (gap ++ '\x7d' :: rest)))))) =
        some (((k', v') :: ms).map fun m => (some m.1, m.2), rest) :=
      ih (fun z hz => hms z (List.mem_cons_of_mem _ hz)) (hstyle.gap depth) (by omega)
        (hms (k', v') (by simp))
    rw [skipSpace_cons (by decide)]
    simp only [hrest, Option.bind_some, List.map_cons]

theorem isReadFrom_obj (hstyle : style.IsReadable)
    (hms : ∀ m ∈ ms, ∀ depth, IsReadFrom style depth m.2) : IsReadFrom style depth (.obj ms) := by
  intro fuel blanks rest hblanks _ hfuel
  obtain ⟨fuel, rfl⟩ := Nat.exists_eq_add_one_of_ne_zero (Nat.ne_zero_of_lt hfuel)
  cases ms with
  | nil =>
    rw [chars, readValue, skipSpace_append hblanks]
    rfl
  | cons m ms =>
    obtain ⟨k, v⟩ := m
    have hread : readMembers fuel (style.gap (depth + 1) ++ (textChars k ++ (style.colon ++
        (chars style (depth + 1) v ++ (membersChars style (depth + 1) ms ++
          (style.gap depth ++ '\x7d' :: rest)))))) =
        some (((k, v) :: ms).map fun m => (some m.1, m.2), rest) :=
      readMembers_membersChars hstyle (hstyle.gap depth) (fun m hm => hms m hm (depth + 1))
        (hstyle.gap (depth + 1)) (by simp [chars] at hfuel; omega)
    rw [chars, readValue, skipSpace_append hblanks]
    simp only [List.cons_append, List.append_assoc, List.nil_append,
      skipSpace_cons (show isSpace '\x7b' = false by decide), hread,
      skipSpace_append (hstyle.gap (depth + 1)), skipSpace_textChars, Option.map_some,
      ofReadMembers_map]
    rfl

/-! ### Whole texts -/

/-- A legible value is read from its written form. -/
theorem IsLegible.isReadFrom (hstyle : style.IsReadable) (h : j.IsLegible) (depth : Nat) :
    IsReadFrom style depth j := by
  induction h generalizing depth with
  | null =>
    intro fuel blanks rest hblanks _ hfuel
    obtain ⟨fuel, rfl⟩ := Nat.exists_eq_add_one_of_ne_zero (Nat.ne_zero_of_lt hfuel)
    rw [chars, readValue, skipSpace_append hblanks]
    rfl
  | bool b =>
    intro fuel blanks rest hblanks _ hfuel
    obtain ⟨fuel, rfl⟩ := Nat.exists_eq_add_one_of_ne_zero (Nat.ne_zero_of_lt hfuel)
    cases b <;> rw [chars, readValue, skipSpace_append hblanks] <;> rfl
  | num hn => exact isReadFrom_num hn
  | str s => exact isReadFrom_str s
  | arr hxs ih => exact isReadFrom_arr hstyle hxs fun x hx depth => ih x hx depth
  | obj _ ih => exact isReadFrom_obj hstyle fun m hm depth => ih m hm depth

theorem parse?_chars (hstyle : style.IsReadable) (h : j.IsLegible) :
    parse? (String.ofList (chars style 0 j)) = some j := by
  have hread := h.isReadFrom hstyle 0 (2 * (chars style 0 j).length + 2) [] [] (by simp [IsBlank])
    (fun c hc => nomatch hc) (by omega)
  rw [List.nil_append, List.append_nil] at hread
  rw [parse?, String.toList_ofList]
  simp only [hread]
  rfl

/-- A legible value is read back from its text over several lines. -/
theorem parse?_indented (h : j.IsLegible) : parse? j.indented = some j :=
  parse?_chars isReadable_indented h

/-- A legible value is read back from its text without blanks. -/
theorem parse?_compact (h : j.IsLegible) : parse? j.compact = some j :=
  parse?_chars isReadable_compact h

end OrgTree.Json
