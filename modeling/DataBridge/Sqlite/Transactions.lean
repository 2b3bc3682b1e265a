import DataBridge.Sqlite.Driver

/-!
# Calls of one statement

A call that reads, or changes the file by one statement, in a scope of its own. It
ends as a function of the file says, or with an exception of the driver and the file
unchanged (`Concludes`); a call that is stopped anywhere leaves one of the two files
(`stopped_lands`).
-/

namespace Sqlite

open Effect Routine

variable {D ε σ α β : Type}

/-- What a call on the file `d` ends with, and the file it leaves. -/
def Concludes (fault : ε → Prop) (d : D) (answer : Except ε α × D) :
    Except ε α → σ → Handle D → Prop := fun r _ c =>
  c.working = none ∧
    ((r = answer.1 ∧ c.file = answer.2) ∨ ∃ e, fault e ∧ r = .error e ∧ c.file = d)

/-- The answer of a statement that is committed on its own. -/
def committed (change : D → Except ε (D × Nat)) (d : D) : Except ε Nat × D :=
  match change d with
  | .ok (d', n) => (.ok n, d')
  | .error e => (.error e, d)

theorem committed_ok {change : D → Except ε (D × Nat)} {d d' : D} {n : Nat}
    (step : change d = .ok (d', n)) : committed change d = (.ok n, d') := by
  rw [committed, step]

theorem committed_error {change : D → Except ε (D × Nat)} {d : D} {e : ε}
    (step : change d = .error e) : committed change d = (.error e, d) := by
  rw [committed, step]

/-- The files a call may leave when it is stopped. -/
def Lands (d d' : D) : D → D → Prop := fun d₁ d₂ => d₂ = d₁ ∨ (d₁ = d ∧ d₂ = d')

variable {fault : ε → Prop} {durable : D → D → Prop} {s : σ} {d : D}

/-- A call that only reads. -/
theorem reads_wp (still : ∀ d, durable d d) (query : D → Except ε α) :
    (connect do
        let d ← .invoke (E := Sql D ε) .select
        .ofExcept (query d)).Wp (driver fault durable)
      (Concludes fault d (query d, d)) s ⟨d, none⟩ := by
  refine .mono (connect_wp still (P := fun a _ d' => d' = d ∧ query d = .ok a)
    (R := fun e _ d' => d' = d ∧ (fault e ∨ query d = .error e)) ?_
    fun e raised => ⟨rfl, .inl raised⟩) ?_
  · refine .bind (P := Post (fun d' _ (c : Handle D) => d' = d ∧ c = ⟨d, none⟩)
        (fun e _ c => c.file = d ∧ (fault e ∨ query d = .error e)))
      (select_wp still ⟨rfl, rfl⟩ fun e raised => ⟨rfl, .inl raised⟩) ?_
      fun e s c h => Setting.settled_alone.mpr h
    intro d' s c same
    obtain ⟨rfl, rfl⟩ := same
    refine .ofExcept (Setting.settled_alone.mpr ?_)
    cases result : query d' with
    | ok a => exact ⟨still _, ⟨rfl, rfl⟩, fun e raised => ⟨rfl, .inl raised⟩⟩
    | error e => exact ⟨rfl, .inr rfl⟩
  · intro r s c h
    cases r with
    | ok a =>
      obtain ⟨closed, same, found⟩ := h
      exact ⟨closed, .inl ⟨found.symm, same⟩⟩
    | error e =>
      obtain ⟨closed, same, failed⟩ := h
      refine ⟨closed, ?_⟩
      rcases failed with raised | failed
      · exact .inr ⟨e, raised, rfl, same⟩
      · exact .inl ⟨failed.symm, same⟩

/-- A call that changes the file by one statement. -/
theorem writes_wp (still : ∀ d, durable d d) {change : D → Except ε (D × Nat)}
    (commits : durable d (committed change d).2) :
    (connect (.invoke (.execute change))).Wp (driver fault durable)
      (Concludes fault d (committed change d)) s ⟨d, none⟩ := by
  refine .mono (connect_wp still (P := fun n _ d' => change d = .ok (d', n))
    (R := fun e _ d' => d' = d ∧ (fault e ∨ change d = .error e)) ?_
    fun e raised => ⟨rfl, .inl raised⟩) ?_
  · refine execute_wp still (fun d' n step => ?_) fun e c' failed same => ⟨same, failed⟩
    refine ⟨?_, step, fun e raised => ⟨rfl, .inl raised⟩⟩
    have step' : change d = .ok (d', n) := step
    rw [committed_ok step'] at commits
    exact commits
  · intro r s c h
    cases r with
    | ok n =>
      obtain ⟨closed, step⟩ := h
      refine ⟨closed, .inl ?_⟩
      rw [committed_ok step]
      exact ⟨rfl, rfl⟩
    | error e =>
      obtain ⟨closed, same, failed⟩ := h
      refine ⟨closed, ?_⟩
      rcases failed with raised | failed
      · exact .inr ⟨e, raised, rfl, same⟩
      · refine .inl ?_
        rw [committed_error failed]
        exact ⟨rfl, same⟩

section Rules

variable {x : Routine (Sql D ε) ε σ α} {answer : Except ε α × D} {c : Handle D}

/-- What is computed from an answer. -/
theorem Concludes.next {f : α → Except ε β}
    (run : x.Wp (driver fault durable) (Concludes fault d answer) s c) :
    (x >>= fun a => .ofExcept (f a)).Wp (driver fault durable)
      (Concludes fault d (answer.1.bind f, answer.2)) s c := by
  refine .bind run ?_ ?_
  · intro a s c h
    refine .ofExcept (Setting.settled_alone.mpr ⟨h.1, ?_⟩)
    rcases h.2 with ⟨same, file⟩ | ⟨e, _, impossible, _⟩
    · refine .inl ⟨?_, file⟩
      rw [← same]
      rfl
    · cases impossible
  · intro e s c h
    refine Setting.settled_alone.mpr ⟨h.1, ?_⟩
    rcases h.2 with ⟨same, file⟩ | ⟨e', raised, same, file⟩
    · refine .inl ⟨?_, file⟩
      rw [← same]
      rfl
    · cases same
      exact .inr ⟨e, raised, rfl, file⟩

/-- A handler that translates exceptions, but not those of the driver. -/
theorem Concludes.translated {translate : ε → ε} (faults : ∀ e, fault e → translate e = e)
    (run : x.Wp (driver fault durable) (Concludes fault d answer) s c) :
    (x.catching fun e => .raise (translate e)).Wp (driver fault durable)
      (Concludes fault d (answer.1.mapError translate, answer.2)) s c := by
  refine .catching run ?_ ?_
  · intro a s c h
    refine Setting.settled_alone.mpr ⟨h.1, ?_⟩
    rcases h.2 with ⟨same, file⟩ | ⟨e, _, impossible, _⟩
    · refine .inl ⟨?_, file⟩
      rw [← same]
      rfl
    · cases impossible
  · intro e s c h
    refine .raise (Setting.settled_alone.mpr ⟨h.1, ?_⟩)
    rcases h.2 with ⟨same, file⟩ | ⟨e', raised, same, file⟩
    · refine .inl ⟨?_, file⟩
      rw [← same]
      rfl
    · cases same
      exact .inr ⟨e, raised, by rw [faults e raised], file⟩

/-- A call that is stopped anywhere leaves the old file or the one it commits. -/
theorem stopped_lands {d' : D} {Q : Except ε α → σ → Handle D → Prop}
    {c : Prog (Sql D ε) (Except ε α × σ) × Handle D}
    (run : x.Wp (driver fault (Lands d d')) Q s ⟨d, none⟩)
    (reach : Prog.Reach (Sql.sem fault) (x s, ⟨d, none⟩) c) : c.2.file = d ∨ c.2.file = d' := by
  refine Prog.Wp.invariant (I := fun c => c.file = d ∨ c.file = d') run (.inl rfl) ?_ reach
  intro c₁ c₂ landed moved
  rcases moved with same | ⟨_, arrived⟩
  · rw [same]
    exact landed
  · exact .inr arrived

end Rules

end Sqlite
