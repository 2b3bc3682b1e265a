import DataBridge.Effect.Prog

/-!
# Routines: effects, exceptions and mutable fields

A `Routine` is the shape of a method of an object: it calls the environment, may
raise, and reads and writes the object's fields. What was written before an
exception stays written.

`Routine.Wp` lifts `Prog.Wp`; its postconditions see the outcome (`.ok` or
`.error`), the fields and the world. There is one rule for each construct, and
`Wp.mono` weakens the specification of a routine to what its caller needs.
-/

namespace Effect

/-- A method with effects `E`, exceptions `ε` and fields `σ`. -/
def Routine (E : Type → Type) (ε σ α : Type) : Type 1 := σ → Prog E (Except ε α × σ)

namespace Routine

variable {E : Type → Type} {W ε σ τ α β : Type}

/-- Continue with `f` after a normal outcome; an exception passes by. -/
def andThen (f : α → Routine E ε σ β) : Except ε α × σ → Prog E (Except ε β × σ)
  | (.ok a, s) => f a s
  | (.error e, s) => .ret (.error e, s)

instance : Monad (Routine E ε σ) where
  pure a := fun s => .ret (.ok a, s)
  bind x f := fun s => (x s).bind (andThen f)

def raise (e : ε) : Routine E ε σ α := fun s => .ret (.error e, s)

/-- The current fields. -/
def fields : Routine E ε σ σ := fun s => .ret (.ok s, s)

def modify (g : σ → σ) : Routine E ε σ Unit := fun s => .ret (.ok (), g s)

/-- A computation without effects. -/
def ofExcept (r : Except ε α) : Routine E ε σ α := fun s => .ret (r, s)

/-- Ask the environment; the answer is a value or an exception. -/
def invoke (op : E (Except ε α)) : Routine E ε σ α := fun s => .call op fun r => .ret (r, s)

/-- Ask the environment for something that cannot fail. -/
def ask (op : E α) : Routine E ε σ α := fun s => .call op fun a => .ret (.ok a, s)

/-- `try: x` with a handler for every exception. -/
def catching (x : Routine E ε σ α) (handler : ε → Routine E ε σ α) : Routine E ε σ α :=
  fun s => (x s).bind fun
    | (.ok a, s) => .ret (.ok a, s)
    | (.error e, s) => handler e s

/-- `try: x finally: last`. An exception of `last` replaces the outcome. -/
def ensuring (x : Routine E ε σ α) (last : Routine E ε σ Unit) : Routine E ε σ α :=
  fun s => (x s).bind fun (r, s) => (last s).bind fun
    | (.ok _, s) => .ret (r, s)
    | (.error e, s) => .ret (.error e, s)

/-- `with` a context whose exit sees the exception of the body. The exception
passes on, unless the exit raises one of its own. -/
def within (enter : Routine E ε σ Unit) (exit : Option ε → Routine E ε σ Unit)
    (body : Routine E ε σ α) : Routine E ε σ α := do
  enter
  let a ← .catching body fun e => do
    exit (some e)
    .raise e
  exit none
  pure a

/-- One pass of a loop with the local state `τ`: an exception leaves the loop. -/
def pass (body : τ → Routine E ε σ (τ ⊕ α)) :
    τ × σ → Prog E ((τ × σ) ⊕ (Except ε α × σ)) :=
  fun (t, s) => (body t s).bind fun
    | (.ok (.inl t), s) => .ret (.inl (t, s))
    | (.ok (.inr a), s) => .ret (.inr (.ok a, s))
    | (.error e, s) => .ret (.inr (.error e, s))

/-- Repeat `body` from the local state `t` until it yields a right value. -/
def iterate (body : τ → Routine E ε σ (τ ⊕ α)) (t : τ) : Routine E ε σ α :=
  fun s => .loop (pass body) (t, s) .ret

/-- Run a method of a part of the object. -/
def zoom (get : τ → σ) (set : σ → τ → τ) (x : Routine E ε σ α) : Routine E ε τ α :=
  fun t => (x (get t)).bind fun (r, s) => .ret (r, set s t)

/-- Run a list of actions in order. -/
def forEach (act : β → Routine E ε σ Unit) : List β → Routine E ε σ Unit
  | [] => pure ()
  | b :: bs => do
      act b
      forEach act bs

/-- Total correctness of a routine; see `Prog.Wp`. -/
def Wp (L : Setting E W) (x : Routine E ε σ α) (Q : Except ε α → σ → W → Prop)
    (s : σ) (w : W) : Prop :=
  Prog.Wp L (fun r w => Q r.1 r.2 w) (x s) w

/-- A postcondition with one half for each kind of outcome. -/
def Post (ok : α → σ → W → Prop) (error : ε → σ → W → Prop) : Except ε α → σ → W → Prop
  | .ok a => ok a
  | .error e => error e

@[simp] theorem post_ok {ok : α → σ → W → Prop} {error : ε → σ → W → Prop} {a : α} {s : σ}
    {w : W} : Post ok error (.ok a) s w = ok a s w := rfl

@[simp] theorem post_error {ok : α → σ → W → Prop} {error : ε → σ → W → Prop} {e : ε} {s : σ}
    {w : W} : Post ok error (.error e) s w = error e s w := rfl

variable {L : Setting E W} {x : Routine E ε σ α} {s : σ} {w : W}
  {P Q : Except ε α → σ → W → Prop} {R : Except ε β → σ → W → Prop}

namespace Wp

theorem mono (h : x.Wp L P s w) (weaker : ∀ r s w, P r s w → Q r s w) : x.Wp L Q s w :=
  Prog.Wp.mono h fun r w => weaker r.1 r.2 w

/-- Weaken the two halves of a postcondition apart. -/
theorem post {A A' : α → σ → W → Prop} {B B' : ε → σ → W → Prop}
    (h : x.Wp L (Post A B) s w) (ok : ∀ a s w, A a s w → A' a s w)
    (error : ∀ e s w, B e s w → B' e s w) : x.Wp L (Post A' B') s w :=
  h.mono fun r => match r with
    | .ok a => ok a
    | .error e => error e

/-! ## One rule for each construct -/

theorem pure {a : α} (h : L.Settled (Q (.ok a) s) w) :
    (Pure.pure a : Routine E ε σ α).Wp L Q s w :=
  .ret h

theorem raise {e : ε} (h : L.Settled (Q (.error e) s) w) :
    (raise e : Routine E ε σ α).Wp L Q s w :=
  .ret h

theorem ofExcept {r : Except ε α} (h : L.Settled (Q r s) w) :
    (ofExcept r : Routine E ε σ α).Wp L Q s w :=
  .ret h

theorem fields {Q : Except ε σ → σ → W → Prop} (h : L.Settled (Q (.ok s) s) w) :
    (Routine.fields : Routine E ε σ σ).Wp L Q s w :=
  .ret h

theorem modify {g : σ → σ} {Q : Except ε Unit → σ → W → Prop}
    (h : L.Settled (Q (.ok ()) (g s)) w) :
    (Routine.modify g : Routine E ε σ Unit).Wp L Q s w :=
  .ret h

theorem invoke {op : E (Except ε α)}
    (h : ∀ w₁, L.rely w w₁ → (∃ r w₂, L.sem op w₁ r w₂) ∧
      ∀ r w₂, L.sem op w₁ r w₂ → L.guar w₁ w₂ ∧ L.Settled (Q r s) w₂) :
    (Routine.invoke op).Wp L Q s w :=
  .call (fun w₁ later => (h w₁ later).1)
    (fun w₁ later r w₂ answer => ((h w₁ later).2 r w₂ answer).1)
    (fun w₁ later r w₂ answer => .ret ((h w₁ later).2 r w₂ answer).2)

theorem ask {op : E α}
    (h : ∀ w₁, L.rely w w₁ → (∃ a w₂, L.sem op w₁ a w₂) ∧
      ∀ a w₂, L.sem op w₁ a w₂ → L.guar w₁ w₂ ∧ L.Settled (Q (.ok a) s) w₂) :
    (Routine.ask op).Wp L Q s w :=
  .call (fun w₁ later => (h w₁ later).1)
    (fun w₁ later a w₂ answer => ((h w₁ later).2 a w₂ answer).1)
    (fun w₁ later a w₂ answer => .ret ((h w₁ later).2 a w₂ answer).2)

theorem bind {f : α → Routine E ε σ β} (first : x.Wp L P s w)
    (onOk : ∀ a s w, P (.ok a) s w → (f a).Wp L R s w)
    (onError : ∀ e s w, P (.error e) s w → L.Settled (R (.error e) s) w) :
    (x >>= f).Wp L R s w := by
  refine Prog.Wp.bind (Prog.Wp.mono first ?_)
  rintro ⟨r, s⟩ w h
  cases r with
  | ok a => exact onOk a s w h
  | error e => exact .ret (onError e s w h)

theorem catching {handler : ε → Routine E ε σ α} (first : x.Wp L P s w)
    (onOk : ∀ a s w, P (.ok a) s w → L.Settled (Q (.ok a) s) w)
    (onError : ∀ e s w, P (.error e) s w → (handler e).Wp L Q s w) :
    (x.catching handler).Wp L Q s w := by
  refine Prog.Wp.bind (Prog.Wp.mono first ?_)
  rintro ⟨r, s⟩ w h
  cases r with
  | ok a => exact .ret (onOk a s w h)
  | error e => exact onError e s w h

theorem ensuring {last : Routine E ε σ Unit} (first : x.Wp L P s w)
    (after : ∀ r s w, P r s w → last.Wp L (Post (fun _ s w => L.Settled (Q r s) w)
      (fun e s w => L.Settled (Q (.error e) s) w)) s w) :
    (x.ensuring last).Wp L Q s w := by
  refine Prog.Wp.bind (Prog.Wp.mono first ?_)
  rintro ⟨r, s⟩ w h
  refine Prog.Wp.bind (Prog.Wp.mono (after r s w h) ?_)
  rintro ⟨r', s'⟩ w' h'
  cases r' with
  | ok _ => exact .ret h'
  | error e => exact .ret h'

/-- A context: `I` holds once it is entered, and its exit meets either outcome
of the body. -/
theorem within {enter : Routine E ε σ Unit} {exit : Option ε → Routine E ε σ Unit}
    {I : σ → W → Prop} {A : α → σ → W → Prop} {B : ε → σ → W → Prop}
    (entered : enter.Wp L (Post (fun _ => I) fun e s w => L.Settled (Q (.error e) s) w) s w)
    (run : ∀ s w, I s w → x.Wp L (Post A B) s w)
    (left : ∀ a s w, A a s w → (exit none).Wp L (Post (fun _ s w => L.Settled (Q (.ok a) s) w)
      fun e s w => L.Settled (Q (.error e) s) w) s w)
    (failed : ∀ e s w, B e s w → (exit (some e)).Wp L (Post
      (fun _ s w => L.Settled (Q (.error e) s) w) fun e s w => L.Settled (Q (.error e) s) w) s w) :
    (Routine.within enter exit x).Wp L Q s w := by
  refine .bind entered (fun _ s w opened => ?_) fun _ _ _ h => h
  refine .bind (P := Post (fun a s w => Routine.Wp L (exit none >>= fun _ => Pure.pure a) Q s w)
      fun e s w => L.Settled (Q (.error e) s) w) ?_ (fun _ _ _ h => h) fun _ _ _ h => h
  refine .catching (run s w opened) (fun a s w done w' later => ?_) fun e s w raised => ?_
  · have rest : Routine.Wp L (exit none >>= fun _ => Pure.pure a) Q s w :=
      .bind (left a s w done) (fun _ _ _ h => .pure h) fun _ _ _ h => h
    exact rest.rely later
  · refine .bind (failed e s w raised) (fun _ s w h => .raise fun w' later => h.later later)
      fun _ s w h w' later => h.later later

/-- A loop with an invariant `I n` over its local state, the fields and the
world, whose variant `n` decreases with each pass that does not leave it. -/
theorem iterate {body : τ → Routine E ε σ (τ ⊕ α)} {I : Nat → τ → σ → W → Prop}
    (step : ∀ n t s w, I n t s w → (body t).Wp L (Post
      (fun r s w => r.elim (fun t => L.Settled (fun w => ∃ m, m < n ∧ I m t s w) w)
        (fun a => L.Settled (Q (.ok a) s) w))
      (fun e s w => L.Settled (Q (.error e) s) w)) s w)
    {n : Nat} {t : τ} (start : I n t s w) : (Routine.iterate body t).Wp L Q s w := by
  refine Prog.Wp.loop_of_variant (I := fun n ts w => I n ts.1 ts.2 w) ?_ start
  rintro n ⟨t, s⟩ w h
  refine Prog.Wp.bind (Prog.Wp.mono (step n t s w h) ?_)
  rintro ⟨r, s'⟩ w' h'
  match r, h' with
  | .ok (.inl _), again => exact .ret again
  | .ok (.inr _), settled => exact .ret fun _ later => .ret (settled.later later)
  | .error _, settled => exact .ret fun _ later => .ret (settled.later later)

theorem zoom {get : τ → σ} {set : σ → τ → τ} {Q : Except ε α → τ → W → Prop} {t : τ}
    (h : x.Wp L (fun r s w => L.Settled (Q r (set s t)) w) (get t) w) :
    (Routine.zoom get set x).Wp L Q t w :=
  Prog.Wp.bind (Prog.Wp.mono h fun _ _ settled => .ret settled)

/-- Actions over a list: `I done` holds once the actions of `done` have run. -/
theorem forEach {act : β → Routine E ε σ Unit} {Q : Except ε Unit → σ → W → Prop}
    {I : List β → σ → W → Prop} {bs : List β}
    (step : ∀ done b rest, bs = done ++ b :: rest → ∀ s w, I done s w →
      (act b).Wp L (Post (fun _ s w => I (done ++ [b]) s w)
        (fun e s w => L.Settled (Q (.error e) s) w)) s w)
    (last : ∀ s w, I bs s w → L.Settled (Q (.ok ()) s) w) (start : I [] s w) :
    (Routine.forEach act bs).Wp L Q s w := by
  suffices go : ∀ rest done s w, bs = done ++ rest → I done s w →
      (Routine.forEach act rest).Wp L Q s w from go bs [] s w rfl start
  intro rest
  induction rest with
  | nil =>
    intro done s w split h
    rw [List.append_nil] at split
    exact .pure (last s w (split ▸ h))
  | cons b rest ih =>
    intro done s w split h
    refine .bind (step done b rest split s w h) (fun _ s w h => ?_) (fun _ _ _ h => h)
    exact ih (done ++ [b]) s w (by rw [split, List.append_assoc]; rfl) h

/-! ## Field accesses in front of a continuation -/

@[simp] theorem pure_bind {a : α} {f : α → Routine E ε σ β} :
    ((Pure.pure a : Routine E ε σ α) >>= f).Wp L R s w ↔ (f a).Wp L R s w :=
  Iff.rfl

@[simp] theorem fields_bind {f : σ → Routine E ε σ β} :
    (Routine.fields >>= f).Wp L R s w ↔ (f s).Wp L R s w :=
  Iff.rfl

@[simp] theorem modify_bind {g : σ → σ} {f : Unit → Routine E ε σ β} :
    (Routine.modify g >>= f).Wp L R s w ↔ (f ()).Wp L R (g s) w :=
  Iff.rfl

end Wp

end Routine

end Effect
