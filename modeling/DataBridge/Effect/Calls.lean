import DataBridge.Effect.Ensures

/-!
# Callers that go on after an exception

`Calls` are the method calls of a client of one object: each starts in the
fields and the world that the one before it left, whether that one returned or
raised. `Calls.keep` is the induction over such a sequence, `playLast` computes one.
-/

namespace Effect

variable {E : Type → Type} {W : Type} {sem : Sem E W}

/-- Run `p` for at most `fuel` steps against an environment that has at most one
answer to an operation. -/
def Prog.follow {α : Type} (answer : ∀ ⦃β : Type⦄, E β → W → Option (β × W)) :
    Nat → Prog E α → W → Option (α × W)
  | _, .ret a, w => some (a, w)
  | fuel + 1, .call op k, w =>
    match answer op w with
    | none => none
    | some (b, w') => Prog.follow answer fuel (k b) w'
  | fuel + 1, .loop body s k, w => Prog.follow answer fuel (Prog.unroll body s k) w
  | 0, _, _ => none

theorem Prog.follow_reach {α : Type} {answer : ∀ ⦃β : Type⦄, E β → W → Option (β × W)}
    (allowed : ∀ ⦃β : Type⦄ (op : E β) w b w', answer op w = some (b, w') → sem op w b w')
    {fuel : Nat} {p : Prog E α} {w w' : W} {a : α}
    (run : Prog.follow answer fuel p w = some (a, w')) :
    Prog.Reach sem (p, w) (.ret a, w') := by
  induction fuel generalizing p w with
  | zero =>
    cases p with
    | ret b =>
      cases run
      exact .refl
    | call => cases run
    | loop => cases run
  | succ fuel ih =>
    cases p with
    | ret b =>
      cases run
      exact .refl
    | call op k =>
      rw [Prog.follow] at run
      split at run
      · cases run
      · rename_i b v answered
        exact .head (.call (allowed op w b v answered)) (ih run)
    | loop body s k => exact .head .loop (ih run)

namespace Routine

variable {ε σ ι : Type} {method : ι → Routine E ε σ Unit}

/-- One call, with the fields and the world before and after it. -/
structure Made (ι ε σ W : Type) where
  before : σ
  world : W
  call : ι
  outcome : Except ε Unit
  after : σ
  left : W

/-- The calls that were made, in order. -/
def callsOf (made : List (Made ι ε σ W)) : List ι := made.map fun m => m.call

theorem callsOf_concat (made : List (Made ι ε σ W)) (m : Made ι ε σ W) :
    callsOf (made ++ [m]) = callsOf made ++ [m.call] :=
  List.map_append

/-- The calls lead from the first fields and world to the last. -/
inductive Calls (sem : Sem E W) (method : ι → Routine E ε σ Unit) (s : σ) (w : W) :
    List (Made ι ε σ W) → σ → W → Prop
  | nil : Calls sem method s w [] s w
  | snoc {made : List (Made ι ε σ W)} {s₁ s₂ : σ} {w₁ w₂ : W} {call : ι} {outcome : Except ε Unit} :
    Calls sem method s w made s₁ w₁ → Runs sem (method call) s₁ w₁ outcome s₂ w₂ →
    Calls sem method s w (made ++ [⟨s₁, w₁, call, outcome, s₂, w₂⟩]) s₂ w₂

/-- What holds at first and is kept by each call, of the calls made so far. -/
theorem Calls.keep {I : List (Made ι ε σ W) → σ → W → Prop} {s s' : σ} {w w' : W}
    {made : List (Made ι ε σ W)} (calls : Calls sem method s w made s' w') (start : I [] s w)
    (step : ∀ made s w call outcome s' w', I made s w →
      Runs sem (method call) s w outcome s' w' → I (made ++ [⟨s, w, call, outcome, s', w'⟩]) s' w') :
    I made s' w' := by
  induction calls with
  | nil => exact start
  | snoc _ run ih => exact step _ _ _ _ _ _ _ ih run

/-- Each call that was made is a run of its method. -/
theorem Calls.runs {s s' : σ} {w w' : W} {made : List (Made ι ε σ W)}
    (calls : Calls sem method s w made s' w') :
    ∀ m ∈ made, Runs sem (method m.call) m.before m.world m.outcome m.after m.left := by
  induction calls with
  | nil => exact fun _ none => (List.not_mem_nil none).elim
  | snoc _ run ih =>
    intro m member
    rcases List.mem_append.mp member with before | last
    · exact ih m before
    · rw [List.mem_singleton.mp last]
      exact run

/-! ## Computing calls -/

/-- Make the calls, each for at most `fuel` steps. -/
def play (answer : ∀ ⦃β : Type⦄, E β → W → Option (β × W)) (fuel : Nat)
    (method : ι → Routine E ε σ Unit) :
    List ι → List (Made ι ε σ W) → σ → W → Option (List (Made ι ε σ W) × σ × W)
  | [], made, s, w => some (made, s, w)
  | call :: calls, made, s, w =>
    match Prog.follow answer fuel (method call s) w with
    | none => none
    | some ((outcome, s'), w') =>
      play answer fuel method calls (made ++ [⟨s, w, call, outcome, s', w'⟩]) s' w'

theorem Calls.of_play {answer : ∀ ⦃β : Type⦄, E β → W → Option (β × W)}
    (allowed : ∀ ⦃β : Type⦄ (op : E β) w b w', answer op w = some (b, w') → sem op w b w')
    {fuel : Nat} {calls : List ι} {made made' : List (Made ι ε σ W)} {s s₁ s' : σ} {w w₁ w' : W}
    (before : Calls sem method s w made s₁ w₁)
    (played : play answer fuel method calls made s₁ w₁ = some (made', s', w')) :
    Calls sem method s w made' s' w' := by
  induction calls generalizing made s₁ w₁ with
  | nil =>
    cases played
    exact before
  | cons call calls ih =>
    rw [play] at played
    split at played
    · cases played
    · rename_i outcome s₂ w₂ run
      have ran : Runs sem (method call) s₁ w₁ outcome s₂ w₂ := Prog.follow_reach allowed run
      exact ih (before.snoc ran) played

/-- A client that makes the calls and then a last one that returns. -/
def playLast (answer : ∀ ⦃β : Type⦄, E β → W → Option (β × W)) (fuel : Nat)
    (method : ι → Routine E ε σ Unit) (calls : List ι) (last : Routine E ε σ Unit) (s : σ) (w : W) :
    Option (List (Made ι ε σ W) × σ × W × σ × W) :=
  match play answer fuel method calls [] s w with
  | none => none
  | some (made, s₁, w₁) =>
    match Prog.follow answer fuel (last s₁) w₁ with
    | some ((.ok (), s'), w') => some (made, s₁, w₁, s', w')
    | _ => none

theorem Calls.of_playLast {answer : ∀ ⦃β : Type⦄, E β → W → Option (β × W)}
    (allowed : ∀ ⦃β : Type⦄ (op : E β) w b w', answer op w = some (b, w') → sem op w b w')
    {fuel : Nat} {calls : List ι} {last : Routine E ε σ Unit} {made : List (Made ι ε σ W)}
    {s s₁ s' : σ} {w w₁ w' : W}
    (played : playLast answer fuel method calls last s w = some (made, s₁, w₁, s', w')) :
    Calls sem method s w made s₁ w₁ ∧ Runs sem last s₁ w₁ (.ok ()) s' w' := by
  rw [playLast] at played
  split at played
  · cases played
  · rename_i calls
    split at played
    · rename_i run
      cases played
      exact ⟨.of_play allowed .nil calls, Prog.follow_reach allowed run⟩
    · cases played

end Routine

end Effect
