import DataBridge.Effect.Pool

/-!
# Programs that own a part of their world

A program of a pool is verified alone, on a view of what it owns. A call that it
may not make has no answer there, so a derivation of `Prog.Wp` is also a proof that
it makes none. A coupling of the shared world with all views, kept by every call
that its program may make, then holds in every interleaving, and there each program
still meets its specification.
-/

namespace Effect

variable {E F : Type → Type} {W V ι α β σ ε : Type}

/-! ## Derivations over a larger signature -/

/-- The setting for the calls of a smaller signature. -/
def Setting.along (f : ∀ ⦃β : Type⦄, E β → F β) (M : Setting F W) : Setting E W :=
  { M with sem := fun _ op => M.sem (f op) }

theorem Prog.Wp.lift {f : ∀ ⦃β : Type⦄, E β → F β} {M : Setting F W} {Q : α → W → Prop}
    {p : Prog E α} {w : W} (h : Prog.Wp (M.along f) Q p w) : Prog.Wp M Q (p.lift f) w := by
  induction h with
  | ret settled => exact .ret settled
  | call answer guar _ ih => exact .call answer guar ih
  | loop _ ih =>
    apply Prog.Wp.loop
    rw [Prog.lift_unroll] at ih
    exact ih

/-- The same method, with its calls renamed by `f`. -/
def Routine.lift (f : ∀ ⦃β : Type⦄, E β → F β) (x : Routine E ε σ α) : Routine F ε σ α :=
  fun s => (x s).lift f

theorem Routine.Wp.lift {f : ∀ ⦃β : Type⦄, E β → F β} {M : Setting F W} {x : Routine E ε σ α}
    {Q : Except ε α → σ → W → Prop} {s : σ} {w : W} (h : x.Wp (M.along f) Q s w) :
    (x.lift f).Wp M Q s w :=
  Prog.Wp.lift h

/-! ## Views -/

/-- A program alone on its view. -/
abbrev Setting.own (sem : Sem E V) : Setting E V := .alone sem fun _ _ => True

theorem Setting.settle {sem : Sem E V} {P : V → Prop} {v : V} (h : P v) :
    (Setting.own sem).Settled P v :=
  Setting.settled_alone.mpr h

/-- A call on a view: it has an answer, and every answer leads to `Q`. -/
theorem Routine.Wp.invoke_own {sem : Sem E V} {op : E (Except ε α)}
    {Q : Except ε α → σ → V → Prop} {s : σ} {v : V} (may : ∃ r v', sem op v r v')
    (each : ∀ r v', sem op v r v' → Q r s v') : (Routine.invoke op).Wp (.own sem) Q s v := by
  apply Routine.Wp.invoke
  intro v₁ same
  obtain rfl : v = v₁ := same
  exact ⟨may, fun r v' answer => ⟨trivial, Setting.settle (each r v' answer)⟩⟩

/-! ## Couplings -/

namespace Pool

variable [DecidableEq ι] {sem : Sem E W} {L : ι → Setting E V}
  {C : List (ι × Exchange E) → W → (ι → V) → Prop}

/-- Every answer to a call that its program may make is one that it has on its view,
and keeps the coupling. -/
def Couples (sem : Sem E W) (L : ι → Setting E V)
    (C : List (ι × Exchange E) → W → (ι → V) → Prop) : Prop :=
  ∀ l w vs i ⦃β : Type⦄ (op : E β) b w', C l w vs → (∃ b v, (L i).sem op (vs i) b v) →
    sem op w b w' → ∃ v, (L i).sem op (vs i) b v ∧
      C (l ++ [(i, ⟨op, b⟩)]) w' (Function.update vs i v)

/-- Programs that are correct alone are correct together, and the coupling holds all
the time. -/
theorem Runs.coupled {Q : ι → α → V → Prop} {c c' : Pool ι E W α} {l : List (ι × Exchange E)}
    {vs : ι → V} (couples : Couples sem L C) (run : Runs sem c l c')
    (verified : ∀ i, Prog.Wp (L i) (Q i) (c.thread i) (vs i)) (start : C [] c.world vs) :
    ∃ vs, C l c'.world vs ∧ ∀ i, Prog.Wp (L i) (Q i) (c'.thread i) (vs i) := by
  induction run with
  | start => exact ⟨vs, start, verified⟩
  | @call l c₁ i _ op k w b _ next answer ih =>
    obtain ⟨vs, coupled, verified⟩ := ih
    have mine := verified i
    rw [next] at mine
    have may : ∃ b v, (L i).sem op (vs i) b v := by
      cases mine with
      | call answered => exact answered _ ((L i).rely_refl _)
    obtain ⟨v, owned, coupled⟩ := couples l c₁.world vs i op b w coupled may answer
    refine ⟨Function.update vs i v, coupled, ?_⟩
    intro j
    by_cases same : j = i
    · subst same
      rw [thread_goOn_self, Function.update_self]
      exact (mine.step (.call owned)).1
    · rw [thread_goOn_other same, Function.update_of_ne same]
      exact verified j
  | @loop l c₁ i _ _ body s k _ next ih =>
    obtain ⟨vs, coupled, verified⟩ := ih
    refine ⟨vs, coupled, ?_⟩
    intro j
    by_cases same : j = i
    · subst same
      have mine := verified j
      rw [next] at mine
      rw [thread_goOn_self]
      exact (mine.step .loop).1
    · rw [thread_goOn_other same]
      exact verified j

/-! ## Schedules -/

/-- Let the programs of a schedule take their steps, against an environment that has at
most one answer to a call. -/
def follow (answer : ∀ ⦃β : Type⦄, E β → W → Option (β × W)) :
    List ι → List (ι × Exchange E) → Pool ι E W α →
    Option (List (ι × Exchange E) × Pool ι E W α)
  | [], l, c => some (l, c)
  | i :: schedule, l, c =>
    match c.thread i with
    | .ret _ => follow answer schedule l c
    | .call op k =>
      match answer op c.world with
      | none => none
      | some (b, w) => follow answer schedule (l ++ [(i, ⟨op, b⟩)]) (c.goOn i (k b) w)
    | .loop body s k => follow answer schedule l (c.goOn i (Prog.unroll body s k) c.world)

theorem Runs.follow {answer : ∀ ⦃β : Type⦄, E β → W → Option (β × W)}
    (allowed : ∀ ⦃β : Type⦄ (op : E β) w b w', answer op w = some (b, w') → sem op w b w')
    {schedule : List ι} {start c c' : Pool ι E W α} {l l' : List (ι × Exchange E)}
    (run : Runs sem start l c) (followed : Pool.follow answer schedule l c = some (l', c')) :
    Runs sem start l' c' := by
  induction schedule generalizing l c with
  | nil =>
    cases followed
    exact run
  | cons i schedule ih =>
    unfold Pool.follow at followed
    split at followed
    · exact ih run followed
    · rename_i op k next
      split at followed
      · cases followed
      · rename_i b w answered
        exact ih (run.call next (allowed op c.world b w answered)) followed
    · rename_i body s k next
      exact ih (run.loop next) followed

end Pool

end Effect
