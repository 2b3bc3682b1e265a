import Mathlib.Logic.Relation
import Mathlib.Tactic

/-!
# Effect trees and their total correctness

A program is a tree of calls to an environment: `Prog.call op k` asks the
environment for one answer to `op` and continues with it, and `Prog.loop` is an
unbounded loop. What the environment may answer is a relation `Sem` on worlds,
so a fault, a short read or an adversarial server is one more answer.

* `Prog.Step` is the small-step relation, `Prog.Reach` its closure: a world on
  the way is what a crash at that point leaves behind.
* `Setting` adds a rely (what others may do to the world between two steps) and
  a guarantee (what one step of this program does to it).
* `Prog.Wp` is the total-correctness judgement: it is inductive, so a derivation
  is also a termination proof, and every call in it has an answer.
* `Wp.bind`, `Wp.mono` and `Wp.loop_of_variant` build derivations;
  `Wp.reach`, `Wp.result`, `Wp.invariant` and `Wp.ends` read them back as facts
  about runs.
* `Prog.eval` executes a program against concrete answers.
-/

namespace Effect

/-- A program over the effect signature `E`: `E β` are the operations whose
answer is a `β`. A `loop` runs `body` until it yields a right value. -/
inductive Prog (E : Type → Type) : Type → Type 1
  | ret {α : Type} (a : α) : Prog E α
  | call {α β : Type} (op : E β) (k : β → Prog E α) : Prog E α
  | loop {α β σ : Type} (body : σ → Prog E (σ ⊕ β)) (s : σ) (k : β → Prog E α) : Prog E α

variable {E : Type → Type} {W α β γ σ : Type}

/-- Run `p`, then `f` on its result. -/
def Prog.bind : Prog E α → (α → Prog E β) → Prog E β
  | .ret a, f => f a
  | .call op k, f => .call op fun b => (k b).bind f
  | .loop body s k, f => .loop body s fun b => (k b).bind f

/-- One unrolling of a loop. -/
def Prog.unroll (body : σ → Prog E (σ ⊕ β)) (s : σ) (k : β → Prog E α) : Prog E α :=
  (body s).bind (Sum.elim (fun s' => .loop body s' k) k)

theorem Prog.bind_assoc (p : Prog E α) (f : α → Prog E β) (g : β → Prog E γ) :
    (p.bind f).bind g = p.bind fun a => (f a).bind g := by
  induction p with
  | ret a => rfl
  | call op k ih => simp only [Prog.bind, ih]
  | loop body s k _ ih => simp only [Prog.bind, ih]

/-- Unrolling commutes with what follows the loop. -/
theorem Prog.unroll_bind (body : σ → Prog E (σ ⊕ γ)) (s : σ) (k : γ → Prog E α)
    (f : α → Prog E β) :
    (Prog.unroll body s k).bind f = Prog.unroll body s fun c => (k c).bind f := by
  rw [Prog.unroll, Prog.unroll, Prog.bind_assoc]
  congr 1
  funext r
  cases r <;> rfl

/-- How the environment may answer an operation, and the world it leaves. -/
abbrev Sem (E : Type → Type) (W : Type) :=
  ∀ ⦃β : Type⦄, E β → W → β → W → Prop

/-- One step: the answer to a call, or a silent unrolling of a loop. -/
inductive Prog.Step (sem : Sem E W) : Prog E α × W → Prog E α × W → Prop
  | call {β : Type} {op : E β} {k : β → Prog E α} {w w' : W} {b : β} :
    sem op w b w' → Prog.Step sem (.call op k, w) (k b, w')
  | loop {β σ : Type} {body : σ → Prog E (σ ⊕ β)} {s : σ} {k : β → Prog E α} {w : W} :
    Prog.Step sem (.loop body s k, w) (Prog.unroll body s k, w)

/-- Reachability of configurations. -/
abbrev Prog.Reach (sem : Sem E W) : Prog E α × W → Prog E α × W → Prop :=
  Relation.ReflTransGen (Prog.Step sem)

/-- More answers, more runs. -/
theorem Prog.Step.mono {sem sem' : Sem E W} {c c' : Prog E α × W}
    (more : ∀ ⦃β : Type⦄ (op : E β) w b w', sem op w b w' → sem' op w b w')
    (step : Prog.Step sem c c') : Prog.Step sem' c c' := by
  cases step with
  | call answer => exact .call (more _ _ _ _ answer)
  | loop => exact .loop

theorem Prog.Reach.mono {sem sem' : Sem E W} {c c' : Prog E α × W}
    (more : ∀ ⦃β : Type⦄ (op : E β) w b w', sem op w b w' → sem' op w b w')
    (run : Prog.Reach sem c c') : Prog.Reach sem' c c' := by
  induction run with
  | refl => exact .refl
  | tail _ step ih => exact ih.tail (step.mono more)

/-- An environment together with the interference a program tolerates between
its steps (`rely`) and the effect it promises for each of them (`guar`). -/
structure Setting (E : Type → Type) (W : Type) where
  sem : Sem E W
  rely : W → W → Prop
  guar : W → W → Prop
  rely_refl : ∀ w, rely w w
  rely_trans : ∀ {w₁ w₂ w₃}, rely w₁ w₂ → rely w₂ w₃ → rely w₁ w₃

/-- A program that runs alone: nothing else touches the world. -/
def Setting.alone (sem : Sem E W) (guar : W → W → Prop) : Setting E W where
  sem := sem
  rely := Eq
  guar := guar
  rely_refl := fun _ => rfl
  rely_trans := Eq.trans

/-- `P` holds now and stays true under interference. -/
def Setting.Settled (L : Setting E W) (P : W → Prop) (w : W) : Prop :=
  ∀ w', L.rely w w' → P w'

@[simp] theorem Setting.settled_alone {sem : Sem E W} {guar : W → W → Prop} {P : W → Prop}
    {w : W} : (Setting.alone sem guar).Settled P w ↔ P w :=
  forall_eq'

theorem Setting.Settled.now {L : Setting E W} {P : W → Prop} {w : W} (h : L.Settled P w) : P w :=
  h w (L.rely_refl w)

theorem Setting.Settled.later {L : Setting E W} {P : W → Prop} {w w' : W}
    (h : L.Settled P w) (interference : L.rely w w') : L.Settled P w' :=
  fun _ later => h _ (L.rely_trans interference later)

/-- Total correctness of `p` at `w`: every run ends, no call is left without an
answer, every step keeps the guarantee, and the result satisfies `Q`. -/
inductive Prog.Wp (L : Setting E W) (Q : α → W → Prop) : Prog E α → W → Prop
  | ret {a : α} {w : W} : L.Settled (Q a) w → Prog.Wp L Q (.ret a) w
  | call {β : Type} {op : E β} {k : β → Prog E α} {w : W} :
    (∀ w₁, L.rely w w₁ → ∃ b w₂, L.sem op w₁ b w₂) →
    (∀ w₁, L.rely w w₁ → ∀ b w₂, L.sem op w₁ b w₂ → L.guar w₁ w₂) →
    (∀ w₁, L.rely w w₁ → ∀ b w₂, L.sem op w₁ b w₂ → Prog.Wp L Q (k b) w₂) →
    Prog.Wp L Q (.call op k) w
  | loop {β σ : Type} {body : σ → Prog E (σ ⊕ β)} {s : σ} {k : β → Prog E α} {w : W} :
    Prog.Wp L Q (Prog.unroll body s k) w → Prog.Wp L Q (.loop body s k) w

namespace Prog.Wp

variable {L : Setting E W} {Q Q' : α → W → Prop} {p p' : Prog E α} {w w' : W}

/-! ## Building derivations -/

theorem mono (h : Prog.Wp L Q p w) (weaker : ∀ a w, Q a w → Q' a w) : Prog.Wp L Q' p w := by
  induction h with
  | ret settled => exact .ret fun w' later => weaker _ _ (settled w' later)
  | call answer guar _ ih => exact .call answer guar ih
  | loop _ ih => exact .loop ih

/-- Interference before the next step is already accounted for. -/
theorem rely (h : Prog.Wp L Q p w) (interference : L.rely w w') : Prog.Wp L Q p w' := by
  induction h with
  | ret settled => exact .ret (settled.later interference)
  | call answer guar next _ =>
    exact .call (fun w₁ later => answer w₁ (L.rely_trans interference later))
      (fun w₁ later => guar w₁ (L.rely_trans interference later))
      (fun w₁ later => next w₁ (L.rely_trans interference later))
  | loop _ ih => exact .loop (ih interference)

theorem bind {f : α → Prog E β} {R : β → W → Prop}
    (h : Prog.Wp L (fun a w => Prog.Wp L R (f a) w) p w) : Prog.Wp L R (p.bind f) w := by
  induction h with
  | ret settled => exact settled.now
  | call answer guar _ ih => exact .call answer guar ih
  | loop _ ih =>
    rw [Prog.unroll_bind] at ih
    exact .loop ih

/-- A loop is correct when each pass, started under the invariant `I n`, either
leaves the loop or re-establishes the invariant with a smaller variant. -/
theorem loop_of_variant {body : σ → Prog E (σ ⊕ β)} {k : β → Prog E α}
    {I : Nat → σ → W → Prop}
    (pass : ∀ n s w, I n s w →
      Prog.Wp L (fun r w => Sum.elim (fun s' => ∃ m, m < n ∧ I m s' w)
        (fun b => Prog.Wp L Q (k b) w) r) (body s) w)
    {n : Nat} {s : σ} {w : W} (start : I n s w) : Prog.Wp L Q (.loop body s k) w := by
  -- The variant of the pass that starts here decides the induction.
  induction n using Nat.strongRecOn generalizing s w with
  | ind n ih =>
    refine .loop (bind ((pass n s w start).mono fun r w h => ?_))
    cases r with
    | inl s' =>
      obtain ⟨m, smaller, again⟩ := h
      exact ih m smaller again
    | inr b => exact h

/-! ## Reading derivations -/

/-- Correctness survives a step, and the step keeps the guarantee. -/
theorem step (h : Prog.Wp L Q p w) (taken : Prog.Step L.sem (p, w) (p', w')) :
    Prog.Wp L Q p' w' ∧ (w' = w ∨ L.guar w w') := by
  cases taken with
  | call answer =>
    cases h with
    | call _ guar next =>
      exact ⟨next w (L.rely_refl w) _ _ answer, .inr (guar w (L.rely_refl w) _ _ answer)⟩
  | loop =>
    cases h with
    | loop unrolled => exact ⟨unrolled, .inl rfl⟩

theorem reach {c : Prog E α × W} (h : Prog.Wp L Q p w) (run : Prog.Reach L.sem (p, w) c) :
    Prog.Wp L Q c.1 c.2 := by
  induction run with
  | refl => exact h
  | tail _ taken ih => exact (ih.step taken).1

/-- The result of a run satisfies the postcondition. -/
theorem result {a : α} (h : Prog.Wp L Q p w) (run : Prog.Reach L.sem (p, w) (.ret a, w')) :
    Q a w' := by
  cases h.reach run with
  | ret settled => exact settled.now

/-- What every guaranteed step preserves holds in every world on the way, so
also where the program is stopped for ever. -/
theorem invariant {I : W → Prop} {c : Prog E α × W} (h : Prog.Wp L Q p w) (start : I w)
    (kept : ∀ w w', I w → L.guar w w' → I w') (run : Prog.Reach L.sem (p, w) c) : I c.2 := by
  induction run with
  | refl => exact start
  | tail before taken ih =>
    rcases ((h.reach before).step taken).2 with same | guar
    · rw [same]
      exact ih
    · exact kept _ _ ih guar

/-- What holds at the start, under interference and after each guaranteed step
also holds of the result. -/
theorem keep {I : W → Prop} (h : Prog.Wp L Q p w) (start : I w)
    (stable : ∀ w w', I w → L.rely w w' → I w') (kept : ∀ w w', I w → L.guar w w' → I w') :
    Prog.Wp L (fun a w => Q a w ∧ I w) p w := by
  induction h with
  | ret settled => exact .ret fun w' later => ⟨settled w' later, stable _ _ start later⟩
  | call answer guar _ ih =>
    exact .call answer guar fun w₁ later b w₂ step =>
      ih w₁ later b w₂ step (kept _ _ (stable _ _ start later) (guar w₁ later b w₂ step))
  | loop _ ih => exact .loop (ih start)

/-- A program alone may promise less. -/
theorem promise {sem : Sem E W} {G G' : W → W → Prop} (h : Prog.Wp (.alone sem G) Q p w)
    (weaker : ∀ w w', G w w' → G' w w') : Prog.Wp (.alone sem G') Q p w := by
  induction h with
  | ret settled => exact .ret settled
  | call answer guar _ ih =>
    exact .call answer (fun w₁ later b w₂ step => weaker _ _ (guar w₁ later b w₂ step)) ih
  | loop _ ih => exact .loop ih

/-- There is no infinite run. -/
theorem acc (h : Prog.Wp L Q p w) :
    Acc (fun c' c : Prog E α × W => Prog.Step L.sem c c') (p, w) := by
  induction h with
  | ret _ => exact ⟨_, fun _ taken => nomatch taken⟩
  | @call _ op k w _ _ _ ih =>
    refine ⟨_, fun c taken => ?_⟩
    cases taken with
    | call answer => exact ih w (L.rely_refl w) _ _ answer
  | loop _ ih =>
    refine ⟨_, fun c taken => ?_⟩
    cases taken with
    | loop => exact ih

/-- A run that has not ended can go on. -/
theorem progress (h : Prog.Wp L Q p w) :
    (∃ a, p = .ret a) ∨ ∃ c, Prog.Step L.sem (p, w) c := by
  cases h with
  | ret _ => exact .inl ⟨_, rfl⟩
  | call answer _ _ =>
    obtain ⟨b, w₂, taken⟩ := answer w (L.rely_refl w)
    exact .inr ⟨_, .call taken⟩
  | loop _ => exact .inr ⟨_, .loop⟩

end Prog.Wp

/-- Every run of `p` from `w` is finite, none gets stuck, and each ends with a
result and a world related by `Q`. -/
structure Prog.Ends (sem : Sem E W) (p : Prog E α) (w : W) (Q : α → W → Prop) : Prop where
  finite : Acc (fun c' c : Prog E α × W => Prog.Step sem c c') (p, w)
  stuckFree : ∀ c, Prog.Reach sem (p, w) c → (∃ a, c.1 = .ret a) ∨ ∃ c', Prog.Step sem c c'
  result : ∀ a w', Prog.Reach sem (p, w) (.ret a, w') → Q a w'

/-- Some run reaches a result. -/
theorem Prog.Ends.outcome {sem : Sem E W} {p : Prog E α} {w : W} {Q : α → W → Prop}
    (ends : Prog.Ends sem p w Q) : ∃ a w', Prog.Reach sem (p, w) (.ret a, w') := by
  suffices go : ∀ c, Acc (fun c' c : Prog E α × W => Prog.Step sem c c') c →
      Prog.Reach sem (p, w) c → ∃ a w', Prog.Reach sem (p, w) (.ret a, w') from
    go _ ends.finite .refl
  intro c finite
  induction finite with
  | intro c _ ih =>
    intro reach
    rcases ends.stuckFree c reach with ⟨a, ended⟩ | ⟨c', step⟩
    · obtain ⟨q, v⟩ := c
      obtain rfl : q = .ret a := ended
      exact ⟨a, v, reach⟩
    · exact ih c' step (reach.tail step)

/-- Run `p` for at most `fuel` steps against an executable environment with the
private state `O`. -/
def Prog.eval {O : Type} (answer : ∀ ⦃β : Type⦄, E β → O → W → β × O × W) :
    Nat → Prog E α → O → W → Option (α × W)
  | _, .ret a, _, w => some (a, w)
  | fuel + 1, .call op k, o, w =>
    Prog.eval answer fuel (k (answer op o w).1) (answer op o w).2.1 (answer op o w).2.2
  | fuel + 1, .loop body s k, o, w => Prog.eval answer fuel (Prog.unroll body s k) o w
  | 0, _, _, _ => none

/-- An evaluation against answers that `sem` allows is a run. -/
theorem Prog.eval_reach {O : Type} {sem : Sem E W}
    {answer : ∀ ⦃β : Type⦄, E β → O → W → β × O × W}
    (allowed : ∀ ⦃β : Type⦄ (op : E β) o w, sem op w (answer op o w).1 (answer op o w).2.2)
    {fuel : Nat} {p : Prog E α} {o : O} {w w' : W} {a : α}
    (run : Prog.eval answer fuel p o w = some (a, w')) :
    Prog.Reach sem (p, w) (.ret a, w') := by
  induction fuel generalizing p o w with
  | zero =>
    cases p with
    | ret b =>
      cases run
      exact .refl
    | call => cases run
    | loop => cases run
  | succ fuel ih =>
    cases p with
    | ret b =>
      cases run
      exact .refl
    | call op k => exact .head (.call (allowed op o w)) (ih run)
    | loop body s k => exact .head .loop (ih run)

/-- An evaluation, also one that ends early, stops in a world of a run. -/
theorem Prog.eval_stops {O : Type} {sem : Sem E W}
    {answer : ∀ ⦃β : Type⦄, E β → O → W → β × O × W}
    (allowed : ∀ ⦃β : Type⦄ (op : E β) o w, sem op w (answer op o w).1 (answer op o w).2.2)
    {fuel : Nat} {p : Prog E α} {o : O} {w : W} :
    ∃ c, Prog.Reach sem (p, w) c ∧ c.2 = ((Prog.eval answer fuel p o w).map (·.2)).getD w := by
  cases run : Prog.eval answer fuel p o w with
  | none => exact ⟨(p, w), .refl, rfl⟩
  | some result => exact ⟨_, Prog.eval_reach allowed run, rfl⟩

theorem Prog.Wp.ends {L : Setting E W} {Q : α → W → Prop} {p : Prog E α} {w : W}
    (h : Prog.Wp L Q p w) : Prog.Ends L.sem p w Q where
  finite := h.acc
  stuckFree := fun _ run => (h.reach run).progress
  result := fun _ _ run => h.result run

end Effect
