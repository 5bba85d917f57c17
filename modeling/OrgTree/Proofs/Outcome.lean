/-!
# Running computations that may fail

The steps of the store, of a synchronization and of an export are computations with a state that
stays behind also when they fail. `x.run.run s` is what such a computation answers from the state
`s`, with the state it leaves. The equations of this file take a computation apart, one operation
at a time.

## Main definitions

- `Outcome.Succeeds`: the computation answers without an error
- `Outcome.Relates`: how the state a computation leaves is related to the one it started from,
  whether it answers or fails
- `Outcome.Ensures`: what holds of the state a computation leaves, whether it answers or fails
- `Outcome.Leaves`: what holds after an answer, and what holds after a failure
- `Outcome.RefusesCleanly`: a computation that fails has changed nothing

## Main statements

- `Outcome.run_bind_eq_ok_iff`: what a sequence that succeeds has done
- `Outcome.Succeeds.bind`: why a sequence succeeds
- `Outcome.Relates.bind`: a relation that each part of a sequence keeps
- `Outcome.Leaves.bind`: the rule for sequences
-/

namespace OrgTree.Outcome

variable {ε σ α β : Type}

theorem run_get (s : σ) : (get : ExceptT ε (StateM σ) σ).run.run s = (.ok s, s) := rfl

theorem run_set (s t : σ) :
    (set t : ExceptT ε (StateM σ) PUnit).run.run s = (.ok ⟨⟩, t) := rfl

theorem run_modify (f : σ → σ) (s : σ) :
    (modify f : ExceptT ε (StateM σ) PUnit).run.run s = (.ok ⟨⟩, f s) := rfl

/-- The second computation starts where the first one ends, unless the first one fails. -/
theorem run_bind (x : ExceptT ε (StateM σ) α) (f : α → ExceptT ε (StateM σ) β) (s : σ) :
    (x >>= f).run.run s = match x.run.run s with
      | (.ok a, s') => (f a).run.run s'
      | (.error e, s') => (.error e, s') := by
  change (match x.run.run s with | (a, s') => ExceptT.bindCont f a s') = _
  rcases x.run.run s with ⟨_ | _, _⟩ <;> rfl

theorem run_bind_of_ok {x : ExceptT ε (StateM σ) α} {a : α} {s s' : σ}
    (h : x.run.run s = (.ok a, s')) (f : α → ExceptT ε (StateM σ) β) :
    (x >>= f).run.run s = (f a).run.run s' := by
  rw [run_bind, h]

theorem run_bind_of_error {x : ExceptT ε (StateM σ) α} {e : ε} {s s' : σ}
    (h : x.run.run s = (.error e, s')) (f : α → ExceptT ε (StateM σ) β) :
    (x >>= f).run.run s = (.error e, s') := by
  rw [run_bind, h]

/-- A sequence succeeds exactly when both of its parts do. -/
theorem run_bind_eq_ok_iff {x : ExceptT ε (StateM σ) α} {f : α → ExceptT ε (StateM σ) β} {b : β}
    {s s'' : σ} :
    (x >>= f).run.run s = (.ok b, s'') ↔
      ∃ a s', x.run.run s = (.ok a, s') ∧ (f a).run.run s' = (.ok b, s'') := by
  rw [run_bind]
  rcases h : x.run.run s with ⟨e | a, s'⟩
  · constructor
    · intro h
      cases h
    · rintro ⟨a, t, h, -⟩
      cases h
  · constructor
    · intro hf
      exact ⟨a, s', rfl, hf⟩
    · rintro ⟨a', t, ha, hf⟩
      cases ha
      exact hf

/-- The computation answers from this state. -/
def Succeeds (x : ExceptT ε (StateM σ) α) (s : σ) : Prop :=
  ∃ a s', x.run.run s = (.ok a, s')

theorem succeeds_pure (a : α) (s : σ) : Succeeds (pure a : ExceptT ε (StateM σ) α) s :=
  ⟨a, s, rfl⟩

theorem Succeeds.bind {x : ExceptT ε (StateM σ) α} {f : α → ExceptT ε (StateM σ) β} {s : σ}
    (hx : Succeeds x s) (hf : ∀ a s', x.run.run s = (.ok a, s') → Succeeds (f a) s') :
    Succeeds (x >>= f) s := by
  obtain ⟨a, s', ha⟩ := hx
  obtain ⟨b, s'', hb⟩ := hf a s' ha
  exact ⟨b, s'', run_bind_eq_ok_iff.2 ⟨a, s', ha, hb⟩⟩

/-! ### Whatever the answer is -/

variable {R : σ → σ → Prop} {x : ExceptT ε (StateM σ) α} {f : α → ExceptT ε (StateM σ) β}

/-- The state that is left is related to the one at the start, also after a failure. -/
def Relates (R : σ → σ → Prop) (x : ExceptT ε (StateM σ) α) : Prop :=
  ∀ s, R s (x.run.run s).2

theorem Relates.bind (htrans : ∀ {s t u}, R s t → R t u → R s u) (hx : Relates R x)
    (hf : ∀ a, Relates R (f a)) : Relates R (x >>= f) := by
  intro s
  have hs := hx s
  rw [run_bind]
  rcases hrun : x.run.run s with ⟨e | a, t⟩ <;> rw [hrun] at hs
  · exact hs
  · exact htrans hs (hf a t)

/-- From a state of which `P` holds the computation leaves one of which `Q` holds, also after a
failure. -/
def Ensures (P Q : σ → Prop) (x : ExceptT ε (StateM σ) α) : Prop :=
  ∀ s, P s → Q (x.run.run s).2

theorem Ensures.of_run {P Q : σ → Prop} (h : Ensures P Q x) {s s' : σ} {a : Except ε α} (hs : P s)
    (hrun : x.run.run s = (a, s')) : Q s' := by
  have hs' := h s hs
  rw [hrun] at hs'
  exact hs'

theorem Ensures.bind {P Q Q' : σ → Prop} (hx : Ensures P Q x) (hf : ∀ a, Ensures Q Q' (f a))
    (hfail : ∀ s, Q s → Q' s) : Ensures P Q' (x >>= f) := by
  intro s hs
  have ht := hx s hs
  rw [run_bind]
  rcases hrun : x.run.run s with ⟨e | a, t⟩ <;> rw [hrun] at ht
  · exact hfail t ht
  · exact hf a t ht

theorem Relates.ensures {P Q : σ → Prop} (hx : Relates R x) (h : ∀ s t, R s t → P s → Q t) :
    Ensures P Q x :=
  fun s hs => h s _ (hx s) hs

/-- The computation leaves the state as it was. -/
def OnlyReads (x : ExceptT ε (StateM σ) α) : Prop :=
  Relates (fun s t => t = s) x

theorem OnlyReads.bind (hx : OnlyReads x) (hf : ∀ a, OnlyReads (f a)) : OnlyReads (x >>= f) :=
  Relates.bind (fun hst htu => htu.trans hst) hx hf

theorem OnlyReads.eq {s s' : σ} {a : Except ε α} (h : OnlyReads x) (hrun : x.run.run s = (a, s')) :
    s' = s := by
  have hs := h s
  rw [hrun] at hs
  exact hs

theorem onlyReads_get : OnlyReads (get : ExceptT ε (StateM σ) σ) :=
  fun _ => rfl

theorem onlyReads_pure (a : α) : OnlyReads (pure a : ExceptT ε (StateM σ) α) :=
  fun _ => rfl

theorem onlyReads_throw (e : ε) : OnlyReads (throw e : ExceptT ε (StateM σ) α) :=
  fun _ => rfl

/-- A computation that fails leaves the state as it was. -/
def RefusesCleanly (x : ExceptT ε (StateM σ) α) : Prop :=
  ∀ s e s', x.run.run s = (.error e, s') → s' = s

theorem OnlyReads.refusesCleanly (h : OnlyReads x) : RefusesCleanly x :=
  fun _ _ _ hrun => h.eq hrun

theorem refusesCleanly_of_succeeds (h : ∀ s, Succeeds x s) : RefusesCleanly x := by
  intro s e s' hrun
  obtain ⟨a, t, ha⟩ := h s
  rw [ha] at hrun
  cases hrun

/-- What is read before does not matter for a refusal. -/
theorem OnlyReads.bind_refusesCleanly (hx : OnlyReads x) (hf : ∀ a, RefusesCleanly (f a)) :
    RefusesCleanly (x >>= f) := by
  intro s e s' h
  rw [run_bind] at h
  rcases hrun : x.run.run s with ⟨e' | a, t⟩
  · rw [hrun] at h
    cases h
    exact hx.eq hrun
  · rw [hrun] at h
    rw [hf a t e s' h, hx.eq hrun]

/-! ### Answers and failures apart -/

/-- From a state of which `P` holds the computation answers such that `Q` holds of the answer and of
the state it leaves, or it fails and leaves a state of which `E` holds. -/
def Leaves (P : σ → Prop) (x : ExceptT ε (StateM σ) α) (Q : α → σ → Prop) (E : σ → Prop) : Prop :=
  ∀ s, P s → match x.run.run s with
    | (.ok a, t) => Q a t
    | (.error _, t) => E t

variable {P P' E : σ → Prop} {Q : α → σ → Prop} {Q' : β → σ → Prop}

theorem Leaves.bind (hx : Leaves P x Q E) (hf : ∀ a, Leaves (Q a) (f a) Q' E) :
    Leaves P (x >>= f) Q' E := by
  intro s hs
  have ht := hx s hs
  rw [run_bind]
  rcases hrun : x.run.run s with ⟨e | a, t⟩ <;> rw [hrun] at ht
  · exact ht
  · exact hf a t ht

/-- A sequence that starts with a look at the state depends on the state it sees. -/
theorem Leaves.of_get {f : σ → ExceptT ε (StateM σ) β}
    (hf : ∀ s, P s → Leaves (fun t => t = s) (f s) Q' E) : Leaves P (get >>= f) Q' E := by
  intro s hs
  rw [run_bind_of_ok (run_get s)]
  exact hf s hs s rfl

theorem leaves_pure {a : α} (h : ∀ s, P s → Q a s) :
    Leaves P (pure a : ExceptT ε (StateM σ) α) Q E :=
  h

theorem leaves_throw {e : ε} (h : ∀ s, P s → E s) :
    Leaves P (throw e : ExceptT ε (StateM σ) α) Q E :=
  h

theorem leaves_modify {g : σ → σ} (h : ∀ s, P s → P' (g s)) :
    Leaves P (modify g : ExceptT ε (StateM σ) PUnit) (fun _ => P') E :=
  h

theorem OnlyReads.leaves (hx : OnlyReads x) (hfail : ∀ s, P s → E s) :
    Leaves P x (fun _ => P) E := by
  intro s hs
  rcases hrun : x.run.run s with ⟨e | a, t⟩ <;> rw [hx.eq hrun]
  · exact hfail s hs
  · exact hs

theorem Leaves.of_ok {s t : σ} {a : α} (h : Leaves P x Q E) (hs : P s)
    (hrun : x.run.run s = (.ok a, t)) : Q a t := by
  have ht := h s hs
  rw [hrun] at ht
  exact ht

theorem Leaves.of_error {s t : σ} {e : ε} (h : Leaves P x Q E) (hs : P s)
    (hrun : x.run.run s = (.error e, t)) : E t := by
  have ht := h s hs
  rw [hrun] at ht
  exact ht

theorem Leaves.mono {E' : σ → Prop} (h : Leaves P x Q E) (hfail : ∀ s, E s → E' s) :
    Leaves P x Q E' := by
  intro s hs
  have ht := h s hs
  rcases hrun : x.run.run s with ⟨e | a, t⟩ <;> rw [hrun] at ht
  · exact hfail t ht
  · exact ht

/-- What cannot fail may be followed by anything that is asked of a failure. -/
theorem Leaves.never_fails (h : Leaves P x Q fun _ => False) : Leaves P x Q E :=
  h.mono fun _ => False.elim

theorem Leaves.ensures (h : Leaves P x (fun _ => E) E) : Ensures P E x := by
  intro s hs
  have ht := h s hs
  rcases hrun : x.run.run s with ⟨e | a, t⟩ <;> rw [hrun] at ht <;> exact ht

end OrgTree.Outcome
