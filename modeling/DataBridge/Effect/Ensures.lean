import DataBridge.Effect.Runs

/-!
# Partial correctness of routines

`Routine.Ensures` says that every outcome of a run satisfies `Q`; nothing is
said about runs that do not end. It has the rules of `Routine.Wp`, except that a
loop needs an invariant and no variant. `Keeps` is the judgement for code that
keeps an invariant with every outcome, and `Raises` the one for code of which
only the exceptions matter.
-/

namespace Effect

variable {E : Type → Type} {W α β : Type} {sem : Sem E W}

/-- What each pass of a loop keeps holds when it is left. -/
theorem Prog.Reach.loop {σ : Type} {body : σ → Prog E (σ ⊕ β)} {I : σ → W → Prop}
    {J : β → W → Prop} {s : σ} {w w' : W} {b : β}
    (pass : ∀ s w r w', I s w → Prog.Reach sem (body s, w) (.ret r, w') →
      Sum.elim (fun s => I s w') (fun b => J b w') r)
    (start : I s w) (run : Prog.Reach sem (.loop body s .ret, w) (.ret b, w')) : J b w' := by
  -- `p` is what is left of the pass that is under way.
  suffices go : ∀ c, Prog.Reach sem c (.ret b, w') → ∀ (p : Prog E (σ ⊕ β)) w,
      c = (p.bind (Sum.elim (fun s => .loop body s .ret) .ret), w) →
      (∀ r w', Prog.Reach sem (p, w) (.ret r, w') →
        Sum.elim (fun s => I s w') (fun b => J b w') r) → J b w' by
    refine go _ run (.ret (.inl s)) w rfl ?_
    intro r w' stays
    obtain ⟨rfl, rfl⟩ := Routine.Runs.of_ret stays
    exact start
  intro c run
  induction run using Relation.ReflTransGen.head_induction_on with
  | refl =>
    intro p w shape kept
    cases p with
    | ret r =>
      cases r with
      | inl s => cases shape
      | inr b =>
        cases shape
        exact kept _ _ .refl
    | call => cases shape
    | loop => cases shape
  | @head c middle step rest ih =>
    intro p w shape kept
    subst shape
    cases p with
    | ret r =>
      cases r with
      | inl s =>
        cases step with
        | loop => exact ih (body s) w rfl fun r w' run => pass s w r w' (kept _ _ .refl) run
      | inr b => cases step
    | call op k =>
      cases step with
      | call answer => exact ih _ _ rfl fun r w' run => kept r w' (run.head (.call answer))
    | loop inner t k =>
      cases step with
      | loop =>
        refine ih (Prog.unroll inner t k) w ?_ fun r w' run => kept r w' (run.head .loop)
        rw [Prog.unroll_bind]

namespace Routine

variable {ε σ τ : Type}

/-- Every outcome of `x` from `s` and `w` satisfies `Q`. -/
def Ensures (sem : Sem E W) (x : Routine E ε σ α) (Q : Except ε α → σ → W → Prop) (s : σ) (w : W) :
    Prop :=
  ∀ r s' w', Runs sem x s w r s' w' → Q r s' w'

namespace Ensures

variable {x : Routine E ε σ α} {s : σ} {w : W} {P Q : Except ε α → σ → W → Prop}
  {R : Except ε β → σ → W → Prop}

theorem mono (h : x.Ensures sem P s w) (weaker : ∀ r s w, P r s w → Q r s w) :
    x.Ensures sem Q s w := by
  intro r s' w' run
  exact weaker r s' w' (h r s' w' run)

theorem pure {a : α} (h : Q (.ok a) s w) : (Pure.pure a : Routine E ε σ α).Ensures sem Q s w := by
  intro r s' w' run
  obtain ⟨rfl, rfl, rfl⟩ := run.of_pure
  exact h

theorem raise {e : ε} (h : Q (.error e) s w) :
    (raise e : Routine E ε σ α).Ensures sem Q s w := by
  intro r s' w' run
  obtain ⟨rfl, rfl, rfl⟩ := run.of_raise
  exact h

theorem ofExcept {r : Except ε α} (h : Q r s w) :
    (ofExcept r : Routine E ε σ α).Ensures sem Q s w := by
  intro r s' w' run
  obtain ⟨rfl, rfl, rfl⟩ := run.of_ofExcept
  exact h

theorem modify {g : σ → σ} {Q : Except ε Unit → σ → W → Prop} (h : Q (.ok ()) (g s) w) :
    (Routine.modify g : Routine E ε σ Unit).Ensures sem Q s w := by
  intro r s' w' run
  obtain ⟨same, rfl⟩ := Runs.of_ret run
  cases same
  exact h

theorem invoke {op : E (Except ε α)} (h : ∀ r w', sem op w r w' → Q r s w') :
    (Routine.invoke op).Ensures sem Q s w := by
  intro r s' w' run
  obtain ⟨answer, rfl⟩ := run.of_invoke
  exact h r w' answer

theorem ask {op : E α} (h : ∀ a w', sem op w a w' → Q (.ok a) s w') :
    (Routine.ask op).Ensures sem Q s w := by
  intro r s' w' run
  obtain ⟨a, rfl, answer, rfl⟩ := run.of_ask
  exact h a w' answer

theorem bind {f : α → Routine E ε σ β} (first : x.Ensures sem P s w)
    (onOk : ∀ a s w, P (.ok a) s w → (f a).Ensures sem R s w)
    (onError : ∀ e s w, P (.error e) s w → R (.error e) s w) : (x >>= f).Ensures sem R s w := by
  intro r s' w' run
  rcases run.of_bind with ⟨e, rfl, raised⟩ | ⟨a, s₁, w₁, done, rest⟩
  · exact onError e s' w' (first _ _ _ raised)
  · exact onOk a s₁ w₁ (first _ _ _ done) _ _ _ rest

theorem catching {handler : ε → Routine E ε σ α} (first : x.Ensures sem P s w)
    (onOk : ∀ a s w, P (.ok a) s w → Q (.ok a) s w)
    (onError : ∀ e s w, P (.error e) s w → (handler e).Ensures sem Q s w) :
    (x.catching handler).Ensures sem Q s w := by
  intro r s' w' run
  rcases run.of_catching with ⟨a, rfl, done⟩ | ⟨e, s₁, w₁, raised, handled⟩
  · exact onOk a s' w' (first _ _ _ done)
  · exact onError e s₁ w₁ (first _ _ _ raised) _ _ _ handled

/-- `last` runs with either outcome of `x`. -/
theorem ensuring {last : Routine E ε σ Unit} (first : x.Ensures sem P s w)
    (next : ∀ r s w, P r s w →
      last.Ensures sem (Post (fun _ s w => Q r s w) fun e s w => Q (.error e) s w) s w) :
    (x.ensuring last).Ensures sem Q s w := by
  intro r s' w' run
  obtain ⟨r₁, s₁, w₁, ran, ⟨finished, rfl⟩ | ⟨e, raised, rfl⟩⟩ := run.of_ensuring
  · exact next r s₁ w₁ (first _ _ _ ran) _ _ _ finished
  · exact next r₁ s₁ w₁ (first _ _ _ ran) _ _ _ raised

theorem zoom {get : τ → σ} {set : σ → τ → τ} {Q : Except ε α → τ → W → Prop} {t : τ}
    (h : x.Ensures sem (fun r s w => Q r (set s t) w) (get t) w) :
    (Routine.zoom get set x).Ensures sem Q t w := by
  intro r t' w' run
  obtain ⟨s', inner, rfl⟩ := run.of_zoom
  exact h r s' w' inner

/-- A loop with an invariant over its local state, the fields and the world. -/
theorem iterate {body : τ → Routine E ε σ (τ ⊕ α)} {I : τ → σ → W → Prop}
    (step : ∀ t s w, I t s w → (body t).Ensures sem (Post
      (fun r s w => r.elim (fun t => I t s w) fun a => Q (.ok a) s w)
      fun e s w => Q (.error e) s w) s w)
    {t : τ} (start : I t s w) : (Routine.iterate body t).Ensures sem Q s w := by
  intro r s' w' run
  refine Prog.Reach.loop (I := fun ts w => I ts.1 ts.2 w)
    (J := fun (b : Except ε α × σ) w => Q b.1 b.2 w) ?_ start run
  intro ts w r w' inv ran
  obtain ⟨⟨r₁, s₁⟩, w₁, first, second⟩ := Prog.Reach.of_bind ran
  have after := step ts.1 ts.2 w inv r₁ s₁ w₁ first
  match r₁, second, after with
  | .ok (.inl t), second, after =>
    obtain ⟨rfl, rfl⟩ := Runs.of_ret second
    exact after
  | .ok (.inr a), second, after =>
    obtain ⟨rfl, rfl⟩ := Runs.of_ret second
    exact after
  | .error e, second, after =>
    obtain ⟨rfl, rfl⟩ := Runs.of_ret second
    exact after

/-- Actions over a list: `I` relates the actions that remain to the state. -/
theorem forEach {act : β → Routine E ε σ Unit} {Q : Except ε Unit → σ → W → Prop}
    {I : List β → σ → W → Prop}
    (step : ∀ b rest s w, I (b :: rest) s w →
      (act b).Ensures sem (Post (fun _ s w => I rest s w) fun e s w => Q (.error e) s w) s w)
    (last : ∀ s w, I [] s w → Q (.ok ()) s w) {bs : List β} (start : I bs s w) :
    (Routine.forEach act bs).Ensures sem Q s w := by
  induction bs generalizing s w with
  | nil => exact .pure (last s w start)
  | cons b rest ih =>
    refine .bind (step b rest s w start) (fun _ s w next => ?_) fun _ _ _ h => h
    exact ih next

@[simp] theorem fields_bind {f : σ → Routine E ε σ β} :
    (Routine.fields >>= f).Ensures sem R s w ↔ (f s).Ensures sem R s w :=
  Iff.rfl

@[simp] theorem modify_bind {g : σ → σ} {f : Unit → Routine E ε σ β} :
    (Routine.modify g >>= f).Ensures sem R s w ↔ (f ()).Ensures sem R (g s) w :=
  Iff.rfl

end Ensures

/-! ## Invariants -/

/-- `x` keeps `I`, whatever its outcome. -/
def Keeps (sem : Sem E W) (I : σ → W → Prop) (x : Routine E ε σ α) : Prop :=
  ∀ s w, I s w → x.Ensures sem (fun _ s w => I s w) s w

namespace Keeps

variable {I : σ → W → Prop} {x : Routine E ε σ α}

theorem pure {a : α} : Keeps sem I (Pure.pure a : Routine E ε σ α) := by
  intro s w inv
  exact .pure inv

theorem raise {e : ε} : Keeps sem I (raise e : Routine E ε σ α) := by
  intro s w inv
  exact .raise inv

theorem ofExcept {r : Except ε α} : Keeps sem I (ofExcept r : Routine E ε σ α) := by
  intro s w inv
  exact .ofExcept inv

theorem fields : Keeps sem I (Routine.fields : Routine E ε σ σ) := by
  intro s w inv
  exact .pure inv

theorem modify {g : σ → σ} (h : ∀ s w, I s w → I (g s) w) :
    Keeps sem I (Routine.modify g : Routine E ε σ Unit) := by
  intro s w inv
  exact .modify (h s w inv)

theorem invoke {op : E (Except ε α)} (h : ∀ s w r w', I s w → sem op w r w' → I s w') :
    Keeps sem I (Routine.invoke op) := by
  intro s w inv
  exact .invoke fun r w' answer => h s w r w' inv answer

theorem bind {f : α → Routine E ε σ β} (first : Keeps sem I x) (next : ∀ a, Keeps sem I (f a)) :
    Keeps sem I (x >>= f) := by
  intro s w inv
  exact .bind (first s w inv) (fun a s w inv => next a s w inv) fun _ _ _ inv => inv

theorem catching {handler : ε → Routine E ε σ α} (first : Keeps sem I x)
    (next : ∀ e, Keeps sem I (handler e)) : Keeps sem I (x.catching handler) := by
  intro s w inv
  exact .catching (first s w inv) (fun _ _ _ inv => inv) fun e s w inv => next e s w inv

theorem iterate {body : τ → Routine E ε σ (τ ⊕ α)} (h : ∀ t, Keeps sem I (body t)) (t : τ) :
    Keeps sem I (Routine.iterate body t) := by
  intro s w inv
  refine .iterate (I := fun _ s w => I s w) (fun t s w inv => ?_) inv
  refine (h t s w inv).mono fun r s w inv => ?_
  match r with
  | .ok (.inl _) => exact inv
  | .ok (.inr _) => exact inv
  | .error _ => exact inv

/-- A part of the object, whose method keeps what holds of the whole. -/
theorem zoom {get : τ → σ} {set : σ → τ → τ} {J : τ → W → Prop}
    (same : ∀ t, set (get t) t = t) (h : ∀ t, Keeps sem (fun s w => J (set s t) w) x) :
    Keeps sem J (Routine.zoom get set x) := by
  intro t w inv
  have start : J (set (get t) t) w := (same t).symm ▸ inv
  exact .zoom (h t _ _ start)

end Keeps

/-! ## Exceptions -/

/-- Every exception of `x` satisfies `B`. -/
def Raises (sem : Sem E W) (B : ε → Prop) (x : Routine E ε σ α) : Prop :=
  ∀ s w, x.Ensures sem (fun r _ _ => ∀ e, r = .error e → B e) s w

namespace Raises

variable {B B' : ε → Prop} {x : Routine E ε σ α}

theorem mono (h : Raises sem B x) (weaker : ∀ e, B e → B' e) : Raises sem B' x := by
  intro s w
  exact (h s w).mono fun _ _ _ raised e same => weaker e (raised e same)

theorem pure {a : α} : Raises sem B (Pure.pure a : Routine E ε σ α) := by
  intro s w
  exact .pure fun e impossible => by cases impossible

theorem raise {e : ε} (h : B e) : Raises sem B (raise e : Routine E ε σ α) := by
  intro s w
  refine .raise fun e' same => ?_
  cases same
  exact h

theorem ofExcept {r : Except ε α} (h : ∀ e, r = .error e → B e) :
    Raises sem B (ofExcept r : Routine E ε σ α) := by
  intro s w
  exact .ofExcept h

theorem modify {g : σ → σ} : Raises sem B (Routine.modify g : Routine E ε σ Unit) := by
  intro s w
  exact .modify fun e impossible => by cases impossible

theorem fields : Raises sem B (Routine.fields : Routine E ε σ σ) := by
  intro s w r s' w' run e same
  obtain ⟨outcome, -⟩ := Runs.of_ret run
  cases outcome
  cases same

theorem bind {f : α → Routine E ε σ β} (first : Raises sem B x) (next : ∀ a, Raises sem B (f a)) :
    Raises sem B (x >>= f) := by
  intro s w
  refine .bind (first s w) (fun a s w _ => next a s w) fun e s w raised e' same => ?_
  cases same
  exact raised e rfl

theorem catching {handler : ε → Routine E ε σ α} (first : Raises sem B x)
    (next : ∀ e, B e → Raises sem B' (handler e)) : Raises sem B' (x.catching handler) := by
  intro s w
  refine .catching (first s w) (fun a s w _ e impossible => ?_) fun e s w raised => ?_
  · cases impossible
  · exact next e (raised e rfl) s w

theorem ensuring {last : Routine E ε σ Unit} (first : Raises sem B x) (next : Raises sem B last) :
    Raises sem B (x.ensuring last) := by
  intro s w r s' w' run e same
  obtain ⟨r₁, s₁, w₁, ran, ⟨-, rfl⟩ | ⟨e', raised, rfl⟩⟩ := run.of_ensuring
  · exact first _ _ _ _ _ ran e same
  · cases same
    exact next _ _ _ _ _ raised e rfl

/-- What raises nothing ends well. -/
theorem quiet {s s' : σ} {w w' : W} {r : Except ε α} (h : Raises sem (fun _ => False) x)
    (run : Runs sem x s w r s' w') : ∃ a, r = .ok a := by
  cases r with
  | ok a => exact ⟨a, rfl⟩
  | error e => exact (h _ _ _ _ _ run e rfl).elim

theorem zoom {get : τ → σ} {set : σ → τ → τ} (h : Raises sem B x) :
    Raises sem B (Routine.zoom get set x) := by
  intro t w
  exact .zoom (h (get t) w)

theorem iterate {body : τ → Routine E ε σ (τ ⊕ α)} (h : ∀ t, Raises sem B (body t)) (t : τ) :
    Raises sem B (Routine.iterate body t) := by
  intro s w
  refine .iterate (I := fun _ _ _ => True) (fun t s w _ => ?_) trivial
  refine (h t s w).mono fun r s w raised => ?_
  match r, raised with
  | .ok (.inl _), _ => exact trivial
  | .ok (.inr _), _ =>
    intro e impossible
    cases impossible
  | .error e, raised =>
    intro e' same
    cases same
    exact raised e rfl

end Raises

end Routine

end Effect
