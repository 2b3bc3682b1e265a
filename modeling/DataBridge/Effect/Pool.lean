import DataBridge.Effect.Runs
import Mathlib.Logic.Function.Basic

/-!
# Interleaved programs

A `Pool` is a family of programs over one world; any of them may take the next
step. A run is labelled with the exchanges of the environment, each a call with
its answer, and `Prog.Emits` is the labelled run of one program alone.

* `Prog.All P` bounds the calls that a program can ever make; steps keep it.
* `Pool.Runs.project` takes one program out of an interleaved run: alone, with
  the same answers, it makes the same exchanges, provided that the steps of the
  others keep the relation between the two worlds.
-/

namespace Effect

variable {E F : Type → Type} {W V ι α β σ : Type}

/-- A call and its answer. -/
structure Exchange (E : Type → Type) where
  {β : Type}
  op : E β
  answer : β

/-! ## The calls of a program -/

/-- Every call that `p` can make satisfies `P`. -/
def Prog.All (P : ∀ ⦃β : Type⦄, E β → Prop) {α : Type} : Prog E α → Prop
  | .ret _ => True
  | .call op k => P op ∧ ∀ b, (k b).All P
  | .loop body _ k => (∀ s, (body s).All P) ∧ ∀ b, (k b).All P

section All

variable {P : ∀ ⦃β : Type⦄, E β → Prop}

theorem Prog.All.bind {p : Prog E α} {f : α → Prog E β} (first : p.All P) (next : ∀ a, (f a).All P) :
    (p.bind f).All P := by
  induction p with
  | ret a => exact next a
  | call op k ih => exact ⟨first.1, fun b => ih b (first.2 b) next⟩
  | loop body s k _ ih => exact ⟨first.1, fun b => ih b (first.2 b) next⟩

theorem Prog.All.unroll {body : σ → Prog E (σ ⊕ β)} {s : σ} {k : β → Prog E α}
    (h : (Prog.loop body s k).All P) : (Prog.unroll body s k).All P := by
  refine .bind (h.1 s) fun r => ?_
  cases r with
  | inl s => exact h
  | inr b => exact h.2 b

namespace Routine

variable {ε τ : Type} {x : Routine E ε σ α}

/-- Every call that `x` can make satisfies `P`. -/
def All (P : ∀ ⦃β : Type⦄, E β → Prop) (x : Routine E ε σ α) : Prop := ∀ s, (x s).All P

namespace All

theorem pure {a : α} : All P (Pure.pure a : Routine E ε σ α) := fun _ => trivial

theorem raise {e : ε} : All P (raise e : Routine E ε σ α) := fun _ => trivial

theorem ofExcept {r : Except ε α} : All P (ofExcept r : Routine E ε σ α) := fun _ => trivial

theorem fields : All P (Routine.fields : Routine E ε σ σ) := fun _ => trivial

theorem modify {g : σ → σ} : All P (Routine.modify g : Routine E ε σ Unit) := fun _ => trivial

theorem invoke {op : E (Except ε α)} (h : P op) :
    All P (Routine.invoke op : Routine E ε σ α) := fun _ => ⟨h, fun _ => trivial⟩

theorem ask {op : E α} (h : P op) : All P (Routine.ask op : Routine E ε σ α) :=
  fun _ => ⟨h, fun _ => trivial⟩

theorem bind {f : α → Routine E ε σ β} (first : All P x) (next : ∀ a, All P (f a)) :
    All P (x >>= f) := by
  intro s
  refine Prog.All.bind (first s) fun r => ?_
  obtain ⟨r, s⟩ := r
  cases r with
  | ok a => exact next a s
  | error e => exact trivial

theorem catching {handler : ε → Routine E ε σ α} (first : All P x)
    (next : ∀ e, All P (handler e)) : All P (x.catching handler) := by
  intro s
  refine Prog.All.bind (first s) fun r => ?_
  obtain ⟨r, s⟩ := r
  cases r with
  | ok a => exact trivial
  | error e => exact next e s

theorem within {enter : Routine E ε σ Unit} {exit : Option ε → Routine E ε σ Unit}
    (entered : All P enter) (left : ∀ failure, All P (exit failure)) (body : All P x) :
    All P (Routine.within enter exit x) := by
  refine .bind entered fun _ => ?_
  refine .bind ?_ fun a => ?_
  · exact .catching body fun e => .bind (left _) fun _ => .raise
  · exact .bind (left _) fun _ => .pure

theorem iterate {body : τ → Routine E ε σ (τ ⊕ α)} (h : ∀ t, All P (body t)) (t : τ) :
    All P (Routine.iterate body t) := by
  intro s
  refine ⟨fun ts => Prog.All.bind (h ts.1 ts.2) fun r => ?_, fun _ => trivial⟩
  match r with
  | (.ok (.inl _), _) => exact trivial
  | (.ok (.inr _), _) => exact trivial
  | (.error _, _) => exact trivial

end All

end Routine

end All

/-! ## Programs over a larger signature -/

/-- The same program, with its calls renamed by `f`. -/
def Prog.lift (f : ∀ ⦃β : Type⦄, E β → F β) {α : Type} : Prog E α → Prog F α
  | .ret a => .ret a
  | .call op k => .call (f op) fun b => (k b).lift f
  | .loop body s k => .loop (fun s => (body s).lift f) s fun b => (k b).lift f

theorem Prog.lift_bind (f : ∀ ⦃β : Type⦄, E β → F β) (p : Prog E α) (g : α → Prog E β) :
    (p.bind g).lift f = (p.lift f).bind fun a => (g a).lift f := by
  induction p with
  | ret a => rfl
  | call op k ih => simp only [Prog.bind, Prog.lift, ih]
  | loop body s k _ ih => simp only [Prog.bind, Prog.lift, ih]

theorem Prog.lift_unroll (f : ∀ ⦃β : Type⦄, E β → F β) (body : σ → Prog E (σ ⊕ β)) (s : σ)
    (k : β → Prog E α) : (Prog.unroll body s k).lift f =
      Prog.unroll (fun s => (body s).lift f) s fun b => (k b).lift f := by
  rw [Prog.unroll, Prog.unroll, Prog.lift_bind]
  congr 1
  funext r
  cases r <;> rfl

/-- Renaming keeps what is known of the calls. -/
theorem Prog.All.lift {P : ∀ ⦃β : Type⦄, E β → Prop} {Q : ∀ ⦃β : Type⦄, F β → Prop}
    {f : ∀ ⦃β : Type⦄, E β → F β} (kept : ∀ ⦃β : Type⦄ (op : E β), P op → Q (f op))
    {p : Prog E α} (h : p.All P) : (p.lift f).All Q := by
  induction p with
  | ret a => exact trivial
  | call op k ih => exact ⟨kept op h.1, fun b => ih b (h.2 b)⟩
  | loop body s k bodies ih => exact ⟨fun s => bodies s (h.1 s), fun b => ih b (h.2 b)⟩

/-! ## Labelled runs -/

/-- A run of one program alone, with its exchanges in order. -/
inductive Prog.Emits (sem : Sem E W) (p : Prog E α) (w : W) :
    List (Exchange E) → Prog E α → W → Prop
  | start : Prog.Emits sem p w [] p w
  | call {l : List (Exchange E)} {β : Type} {op : E β} {k : β → Prog E α} {w₁ w₂ : W} {b : β} :
    Prog.Emits sem p w l (.call op k) w₁ → sem op w₁ b w₂ →
    Prog.Emits sem p w (l ++ [⟨op, b⟩]) (k b) w₂
  | loop {l : List (Exchange E)} {β σ : Type} {body : σ → Prog E (σ ⊕ β)} {s : σ}
      {k : β → Prog E α} {w₁ : W} :
    Prog.Emits sem p w l (.loop body s k) w₁ → Prog.Emits sem p w l (Prog.unroll body s k) w₁

/-- The environment, with the values that each observation takes one after another. -/
def Sem.watching {κ : Type} (sem : Sem E W) (observe : κ → W → σ) : Sem E (W × (κ → List σ))
  | _, op, (w, seen), b, (w', seen') =>
    sem op w b w' ∧ ∀ k, observe k w' = observe k w ∧ seen' k = seen k ∨
      observe k w' ≠ observe k w ∧ seen' k = seen k ++ [observe k w']

/-- Every answer can be watched. -/
theorem Sem.watching_of {κ : Type} {sem : Sem E W} (observe : κ → W → σ) {op : E β} {w w' : W}
    {b : β} (answer : sem op w b w') (seen : κ → List σ) :
    ∃ seen', sem.watching observe op (w, seen) b (w', seen') := by
  classical
  refine ⟨fun k => if observe k w' = observe k w then seen k else seen k ++ [observe k w'],
    answer, fun k => ?_⟩
  by_cases same : observe k w' = observe k w
  · exact .inl ⟨same, if_pos same⟩
  · exact .inr ⟨same, if_neg same⟩

/-- Programs that share a world. -/
structure Pool (ι : Type) (E : Type → Type) (W α : Type) where
  thread : ι → Prog E α
  world : W

namespace Pool

variable [DecidableEq ι]

/-- One program goes on, and leaves the world `w`. -/
def goOn (c : Pool ι E W α) (i : ι) (p : Prog E α) (w : W) : Pool ι E W α :=
  { thread := Function.update c.thread i p, world := w }

/-- An interleaved run with its exchanges, each with the program that makes it. -/
inductive Runs (sem : Sem E W) (c : Pool ι E W α) : List (ι × Exchange E) → Pool ι E W α → Prop
  | start : Runs sem c [] c
  | call {l : List (ι × Exchange E)} {c' : Pool ι E W α} {i : ι} {β : Type} {op : E β}
      {k : β → Prog E α} {w : W} {b : β} :
    Runs sem c l c' → c'.thread i = .call op k → sem op c'.world b w →
    Runs sem c (l ++ [(i, ⟨op, b⟩)]) (c'.goOn i (k b) w)
  | loop {l : List (ι × Exchange E)} {c' : Pool ι E W α} {i : ι} {β σ : Type}
      {body : σ → Prog E (σ ⊕ β)} {s : σ} {k : β → Prog E α} :
    Runs sem c l c' → c'.thread i = .loop body s k →
    Runs sem c l (c'.goOn i (Prog.unroll body s k) c'.world)

/-- The exchanges of one program. -/
def own (i : ι) (l : List (ι × Exchange E)) : List (Exchange E) :=
  l.filterMap fun x => if x.1 = i then some x.2 else none

@[simp] theorem own_nil (i : ι) : own i ([] : List (ι × Exchange E)) = [] := rfl

theorem own_append_self (i : ι) (l : List (ι × Exchange E)) (x : Exchange E) :
    own i (l ++ [(i, x)]) = own i l ++ [x] := by
  simp [own]

theorem own_append_other {i j : ι} (l : List (ι × Exchange E)) (x : Exchange E) (other : j ≠ i) :
    own i (l ++ [(j, x)]) = own i l := by
  simp [own, other]

section Steps

variable {c c' : Pool ι E W α} {i j : ι} {p : Prog E α} {w : W}

theorem thread_goOn_self : (c.goOn i p w).thread i = p := Function.update_self ..

theorem thread_goOn_other (other : j ≠ i) : (c.goOn i p w).thread j = c.thread j :=
  Function.update_of_ne other ..

theorem world_goOn : (c.goOn i p w).world = w := rfl

variable {sem : Sem E W} {l : List (ι × Exchange E)}

/-- A run keeps what is known of the calls of each program. -/
theorem Runs.all {P : ∀ ⦃β : Type⦄, E β → Prop} (run : Runs sem c l c')
    (start : (c.thread i).All P) : (c'.thread i).All P := by
  induction run with
  | start => exact start
  | @call _ c₁ j _ op k w b _ next _ ih =>
    by_cases same : i = j
    · subst same
      rw [next] at ih
      rw [thread_goOn_self]
      exact ih.2 b
    · rwa [thread_goOn_other same]
  | @loop _ c₁ j _ _ body s k _ next ih =>
    by_cases same : i = j
    · subst same
      rw [next] at ih
      rw [thread_goOn_self]
      exact ih.unroll
    · rwa [thread_goOn_other same]

/-- Every run can be watched. -/
theorem Runs.watched {κ : Type} (observe : κ → W → σ) (run : Runs sem c l c')
    (seen : κ → List σ) : ∃ seen',
      Runs (sem.watching observe) ⟨c.thread, c.world, seen⟩ l ⟨c'.thread, c'.world, seen'⟩ := by
  induction run with
  | start => exact ⟨seen, .start⟩
  | call _ next answer ih =>
    obtain ⟨seen₁, run⟩ := ih
    obtain ⟨seen₂, watched⟩ := Sem.watching_of observe answer seen₁
    exact ⟨seen₂, run.call next watched⟩
  | loop _ next ih =>
    obtain ⟨seen₁, run⟩ := ih
    exact ⟨seen₁, run.loop next⟩

/-- One program of an interleaved run, alone with the same answers. `P` bounds the
calls of each program, and `R` relates the shared world to the one it has alone. -/
theorem Runs.project {P : ι → ∀ ⦃β : Type⦄, E β → Prop} {alone : Sem E V} {R : W → V → Prop}
    {v : V} (run : Runs sem c l c') (calls : ∀ j, (c.thread j).All (P j))
    (mine : ∀ ⦃β : Type⦄ (op : E β) w b w' v, P i op → sem op w b w' → R w v →
      ∃ v', alone op v b v' ∧ R w' v')
    (others : ∀ j, j ≠ i → ∀ ⦃β : Type⦄ (op : E β) w b w' v, P j op → sem op w b w' → R w v →
      R w' v)
    (start : R c.world v) :
    ∃ v', Prog.Emits alone (c.thread i) v (own i l) (c'.thread i) v' ∧ R c'.world v' := by
  induction run with
  | start => exact ⟨v, .start, start⟩
  | @call l c₁ j _ op k w b before next answer ih =>
    obtain ⟨v₁, emits, related⟩ := ih
    have known := before.all (calls j)
    rw [next] at known
    by_cases same : i = j
    · subst same
      obtain ⟨v₂, answered, related⟩ := mine op _ _ _ _ known.1 answer related
      rw [next] at emits
      rw [own_append_self, thread_goOn_self]
      exact ⟨v₂, emits.call answered, related⟩
    · have other : j ≠ i := fun equal => same equal.symm
      rw [own_append_other l _ other, thread_goOn_other same]
      exact ⟨v₁, emits, others j other op _ _ _ _ known.1 answer related⟩
  | @loop l c₁ j _ _ body s k before next ih =>
    obtain ⟨v₁, emits, related⟩ := ih
    by_cases same : i = j
    · subst same
      rw [next] at emits
      rw [thread_goOn_self]
      exact ⟨v₁, emits.loop, related⟩
    · rw [thread_goOn_other same]
      exact ⟨v₁, emits, related⟩

end Steps

end Pool

end Effect
