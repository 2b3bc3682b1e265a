import DataBridge.Effect.Routine

/-!
# Decomposing runs

A run of a sequence is a run of its first part followed by a run of the rest.
`Runs` relates the start of a routine to its outcome; there is one inversion for
each construct, so a run of a method is taken apart along its text, and cleanup
that never raises keeps the exception that is on its way
(`Runs.of_catching_quiet`).
-/

namespace Effect

variable {E : Type → Type} {W α β : Type} {sem : Sem E W}

/-- A run of a sequence from a run of each part. -/
theorem Prog.Reach.bind {p p' : Prog E α} {f : α → Prog E β} {w w' : W}
    (run : Prog.Reach sem (p, w) (p', w')) : Prog.Reach sem (p.bind f, w) (p'.bind f, w') := by
  generalize start : (p, w) = c at run
  generalize ended : (p', w') = c' at run
  induction run generalizing p' w' with
  | refl =>
    subst start
    cases ended
    exact .refl
  | @tail middle last _ step ih =>
    subst ended
    obtain ⟨q, v⟩ := middle
    refine (ih rfl).tail ?_
    cases step with
    | call answer => exact .call answer
    | loop =>
      rw [Prog.unroll_bind]
      exact .loop

/-- A finished run of a sequence has a finished run of its first part. -/
theorem Prog.Reach.of_bind {p : Prog E α} {f : α → Prog E β} {w w' : W} {b : β}
    (run : Prog.Reach sem (p.bind f, w) (.ret b, w')) :
    ∃ a v, Prog.Reach sem (p, w) (.ret a, v) ∧ Prog.Reach sem (f a, v) (.ret b, w') := by
  generalize start : (p.bind f, w) = c at run
  induction run using Relation.ReflTransGen.head_induction_on generalizing p w with
  | refl =>
    cases p with
    | ret a =>
      obtain ⟨same, rfl⟩ := Prod.mk.inj start
      have same : f a = .ret b := same
      exact ⟨a, w, .refl, same ▸ .refl⟩
    | call => cases start
    | loop => cases start
  | @head c middle step rest ih =>
    subst start
    cases p with
    | ret a => exact ⟨a, w, .refl, rest.head step⟩
    | call op k =>
      cases step with
      | call answer =>
        obtain ⟨a, v, first, second⟩ := ih rfl
        exact ⟨a, v, first.head (.call answer), second⟩
    | loop body s k =>
      cases step with
      | loop =>
        have unrolled := Prog.unroll_bind body s k f
        obtain ⟨a, v, first, second⟩ := ih (p := Prog.unroll body s k) (by rw [unrolled])
        exact ⟨a, v, first.head .loop, second⟩

namespace Routine

variable {ε σ τ : Type}

/-- A run of a routine from its start to its outcome. -/
def Runs (sem : Sem E W) (x : Routine E ε σ α) (s : σ) (w : W) (r : Except ε α) (s' : σ) (w' : W) :
    Prop :=
  Prog.Reach sem (x s, w) (.ret (r, s'), w')

namespace Runs

variable {x : Routine E ε σ α} {s s' : σ} {w w' : W} {r : Except ε α} {e : ε}

theorem of_ret {a b : α} (run : Prog.Reach sem (.ret a, w) (.ret b, w')) : b = a ∧ w' = w := by
  rcases Relation.ReflTransGen.cases_head run with same | ⟨c, step, -⟩
  · cases same
    exact ⟨rfl, rfl⟩
  · cases step

theorem bind {f : α → Routine E ε σ β} {a : α} {r : Except ε β} {s₁ : σ} {w₁ : W}
    (first : Runs sem x s w (.ok a) s₁ w₁) (second : Runs sem (f a) s₁ w₁ r s' w') :
    Runs sem (x >>= f) s w r s' w' :=
  (Prog.Reach.bind first).trans second

theorem bind_error {f : α → Routine E ε σ β} (first : Runs sem x s w (.error e) s' w') :
    Runs sem (x >>= f) s w (.error e) s' w' :=
  (Prog.Reach.bind first).trans .refl

theorem catching_ok {handler : ε → Routine E ε σ α} {a : α}
    (first : Runs sem x s w (.ok a) s' w') : Runs sem (x.catching handler) s w (.ok a) s' w' :=
  (Prog.Reach.bind first).trans .refl

theorem catching_error {handler : ε → Routine E ε σ α} {s₁ : σ} {w₁ : W}
    (first : Runs sem x s w (.error e) s₁ w₁) (handled : Runs sem (handler e) s₁ w₁ r s' w') :
    Runs sem (x.catching handler) s w r s' w' :=
  (Prog.Reach.bind first).trans handled

theorem raised : Runs sem (raise e : Routine E ε σ α) s w (.error e) s w :=
  .refl

theorem zoom {get : τ → σ} {set : σ → τ → τ} {t : τ} (inner : Runs sem x (get t) w r s' w') :
    Runs sem (Routine.zoom get set x) t w r (set s' t) w' :=
  (Prog.Reach.bind inner).trans .refl

/-- An exception of a sequence is one of its parts'. -/
theorem of_bind {f : α → Routine E ε σ β} {r : Except ε β} (run : Runs sem (x >>= f) s w r s' w') :
    (∃ e, r = .error e ∧ Runs sem x s w (.error e) s' w') ∨
      ∃ a s₁ w₁, Runs sem x s w (.ok a) s₁ w₁ ∧ Runs sem (f a) s₁ w₁ r s' w' := by
  obtain ⟨⟨r₁, s₁⟩, w₁, first, second⟩ := Prog.Reach.of_bind run
  cases r₁ with
  | ok a => exact .inr ⟨a, s₁, w₁, first, second⟩
  | error e =>
    obtain ⟨same, rfl⟩ := of_ret second
    cases same
    exact .inl ⟨e, rfl, first⟩

theorem of_catching {handler : ε → Routine E ε σ α}
    (run : Runs sem (x.catching handler) s w r s' w') :
    (∃ a, r = .ok a ∧ Runs sem x s w (.ok a) s' w') ∨
      ∃ e s₁ w₁, Runs sem x s w (.error e) s₁ w₁ ∧ Runs sem (handler e) s₁ w₁ r s' w' := by
  obtain ⟨⟨r₁, s₁⟩, w₁, first, second⟩ := Prog.Reach.of_bind run
  cases r₁ with
  | ok a =>
    obtain ⟨same, rfl⟩ := of_ret second
    cases same
    exact .inl ⟨a, rfl, first⟩
  | error e => exact .inr ⟨e, s₁, w₁, first, second⟩

theorem of_ensuring {last : Routine E ε σ Unit} (run : Runs sem (x.ensuring last) s w r s' w') :
    ∃ r₁ s₁ w₁, Runs sem x s w r₁ s₁ w₁ ∧ (Runs sem last s₁ w₁ (.ok ()) s' w' ∧ r = r₁ ∨
      ∃ e, Runs sem last s₁ w₁ (.error e) s' w' ∧ r = .error e) := by
  obtain ⟨⟨r₁, s₁⟩, w₁, first, second⟩ := Prog.Reach.of_bind run
  obtain ⟨⟨r₂, s₂⟩, w₂, middle, third⟩ := Prog.Reach.of_bind second
  refine ⟨r₁, s₁, w₁, first, ?_⟩
  cases r₂ with
  | ok _ =>
    obtain ⟨same, rfl⟩ := of_ret third
    cases same
    exact .inl ⟨middle, rfl⟩
  | error e =>
    obtain ⟨same, rfl⟩ := of_ret third
    cases same
    exact .inr ⟨e, middle, rfl⟩

theorem of_pure {a : α} (run : Runs sem (Pure.pure a : Routine E ε σ α) s w r s' w') :
    r = .ok a ∧ s' = s ∧ w' = w := by
  obtain ⟨same, rfl⟩ := of_ret run
  cases same
  exact ⟨rfl, rfl, rfl⟩

theorem of_raise (run : Runs sem (raise e : Routine E ε σ α) s w r s' w') :
    r = .error e ∧ s' = s ∧ w' = w := by
  obtain ⟨same, rfl⟩ := of_ret run
  cases same
  exact ⟨rfl, rfl, rfl⟩

theorem of_ofExcept {r₁ : Except ε α} (run : Runs sem (ofExcept r₁ : Routine E ε σ α) s w r s' w') :
    r = r₁ ∧ s' = s ∧ w' = w := by
  obtain ⟨same, rfl⟩ := of_ret run
  cases same
  exact ⟨rfl, rfl, rfl⟩

theorem of_invoke {op : E (Except ε α)} (run : Runs sem (invoke op : Routine E ε σ α) s w r s' w') :
    sem op w r w' ∧ s' = s := by
  rcases Relation.ReflTransGen.cases_head run with same | ⟨c, step, rest⟩
  · cases same
  · cases step with
    | call answer =>
      obtain ⟨same, rfl⟩ := of_ret rest
      cases same
      exact ⟨answer, rfl⟩

theorem of_ask {op : E α} (run : Runs sem (ask op : Routine E ε σ α) s w r s' w') :
    ∃ a, r = .ok a ∧ sem op w a w' ∧ s' = s := by
  rcases Relation.ReflTransGen.cases_head run with same | ⟨c, step, rest⟩
  · cases same
  · cases step with
    | call answer =>
      obtain ⟨same, rfl⟩ := of_ret rest
      cases same
      exact ⟨_, rfl, answer, rfl⟩

/-- Cleanup that does not raise in the states in which it runs keeps the exception. -/
theorem of_catching_quiet {cleanup : Routine E ε σ Unit}
    (quiet : ∀ e s₁ w₁, Runs sem x s w (.error e) s₁ w₁ → ∀ r' s₂ w₂,
      Runs sem cleanup s₁ w₁ r' s₂ w₂ → r' = .ok ())
    (run : Runs sem (x.catching fun e => do
      cleanup
      .raise e) s w (.error e) s' w') :
    ∃ s₁ w₁, Runs sem x s w (.error e) s₁ w₁ ∧ Runs sem cleanup s₁ w₁ (.ok ()) s' w' := by
  rcases of_catching run with ⟨a, impossible, -⟩ | ⟨e', s₁, w₁, first, handled⟩
  · cases impossible
  · rcases of_bind handled with ⟨e'', -, cleaned⟩ | ⟨_, s₂, w₂, cleaned, raised⟩
    · cases quiet e' s₁ w₁ first _ _ _ cleaned
    · obtain ⟨same, rfl, rfl⟩ := of_raise raised
      cases same
      exact ⟨s₁, w₁, first, cleaned⟩

/-- The same for `finally`. -/
theorem of_ensuring_quiet {last : Routine E ε σ Unit}
    (quiet : ∀ r₁ s₁ w₁, Runs sem x s w r₁ s₁ w₁ → ∀ r' s₂ w₂,
      Runs sem last s₁ w₁ r' s₂ w₂ → r' = .ok ())
    (run : Runs sem (x.ensuring last) s w r s' w') :
    ∃ s₁ w₁, Runs sem x s w r s₁ w₁ ∧ Runs sem last s₁ w₁ (.ok ()) s' w' := by
  obtain ⟨r₁, s₁, w₁, first, ⟨cleaned, rfl⟩ | ⟨e, raised, -⟩⟩ := of_ensuring run
  · exact ⟨s₁, w₁, first, cleaned⟩
  · cases quiet r₁ s₁ w₁ first _ _ _ raised

theorem of_zoom {get : τ → σ} {set : σ → τ → τ} {x : Routine E ε σ α} {t t' : τ}
    (run : Runs sem (Routine.zoom get set x) t w r t' w') :
    ∃ s', Runs sem x (get t) w r s' w' ∧ t' = set s' t := by
  obtain ⟨⟨r₁, s₁⟩, w₁, first, second⟩ := Prog.Reach.of_bind run
  obtain ⟨same, rfl⟩ := of_ret second
  cases same
  exact ⟨s₁, first, rfl⟩

/-- What a specification says about the outcome of a run. -/
theorem result {L : Setting E W} {Q : Except ε α → σ → W → Prop} (h : x.Wp L Q s w)
    (run : Runs L.sem x s w r s' w') : Q r s' w' :=
  Prog.Wp.result (Q := fun (r : Except ε α × σ) w => Q r.1 r.2 w) h run

end Runs

end Routine

end Effect
