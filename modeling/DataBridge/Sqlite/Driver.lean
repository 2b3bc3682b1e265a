import DataBridge.Effect.Routine

/-!
# A transactional database behind a driver

`Handle D` is one open connection to a file that holds a `D`. As the Python
driver does in its default mode, `Sql.execute` (INSERT, UPDATE, DELETE) opens a
transaction when none is open, any other statement runs where it finds itself,
`Sql.commit` makes the working copy durable in one step and `Sql.close` drops it.
Each statement may also fail with an exception the driver raises (`fault`), and
then changes nothing.

`connect` is the scope every caller uses: commit after a normal body, close in
any case; `connect_wp` is its rule. There is one rule for each request.
-/

namespace Sqlite

open Effect Routine

/-- One connection: the durable contents, and the working copy of an open
transaction. -/
structure Handle (D : Type) where
  file : D
  working : Option D

/-- What the next statement sees. -/
def Handle.current {D : Type} (c : Handle D) : D := c.working.getD c.file

/-- The requests to the driver. -/
inductive Sql (D ε : Type) : Type → Type
  /-- INSERT, UPDATE or DELETE; the answer is the number of rows changed. -/
  | execute (change : D → Except ε (D × Nat)) : Sql D ε (Except ε Nat)
  /-- Any other statement that changes the database. -/
  | define (change : D → Except ε D) : Sql D ε (Except ε Unit)
  /-- A statement that only reads: the caller projects what it selects. -/
  | select : Sql D ε (Except ε D)
  | commit : Sql D ε (Except ε Unit)
  | close : Sql D ε Unit

variable {D ε σ α : Type}

/-- The answers of the driver; `fault` are the exceptions it may raise at any
statement. -/
def Sql.sem (fault : ε → Prop) : Sem (Sql D ε) (Handle D)
  | _, .execute change, c, r, c' =>
    (∃ e, fault e ∧ r = .error e ∧ c' = c) ∨
    match change c.current with
    | .ok (d, n) => r = .ok n ∧ c' = { c with working := some d }
    | .error e => r = .error e ∧ c' = { c with working := some c.current }
  | _, .define change, c, r, c' =>
    (∃ e, fault e ∧ r = .error e ∧ c' = c) ∨
    match change c.current with
    | .ok d => r = .ok () ∧
        c' = if c.working.isSome then { c with working := some d } else { c with file := d }
    | .error e => r = .error e ∧ c' = c
  | _, .select, c, r, c' => c' = c ∧ (r = .ok c.current ∨ ∃ e, fault e ∧ r = .error e)
  | _, .commit, c, r, c' =>
    (∃ e, fault e ∧ r = .error e ∧ c' = c) ∨ (r = .ok () ∧ c' = ⟨c.current, none⟩)
  | _, .close, c, _, c' => c' = ⟨c.file, none⟩

/-- A driver without faults, as a function. -/
def Sql.answer : ∀ ⦃β : Type⦄, Sql D ε β → Unit → Handle D → β × Unit × Handle D
  | _, .execute change, _, c =>
    match change c.current with
    | .ok (d, n) => (.ok n, (), { c with working := some d })
    | .error e => (.error e, (), { c with working := some c.current })
  | _, .define change, _, c =>
    match change c.current with
    | .ok d =>
      (.ok (), (), if c.working.isSome then { c with working := some d } else { c with file := d })
    | .error e => (.error e, (), c)
  | _, .select, _, c => (.ok c.current, (), c)
  | _, .commit, _, c => (.ok (), (), ⟨c.current, none⟩)
  | _, .close, _, c => ((), (), ⟨c.file, none⟩)

theorem Sql.answer_sem {fault : ε → Prop} ⦃β : Type⦄ (op : Sql D ε β) (o : Unit)
    (c : Handle D) :
    Sql.sem fault op c (Sql.answer op o c).1 (Sql.answer op o c).2.2 := by
  cases op with
  | execute change =>
    refine .inr ?_
    cases step : change c.current with
    | ok result => simp only [Sql.answer, step, and_self]
    | error e => simp only [Sql.answer, step, and_self]
  | define change =>
    refine .inr ?_
    cases step : change c.current with
    | ok d => simp only [Sql.answer, step, and_self]
    | error e => simp only [Sql.answer, step, and_self]
  | select => exact ⟨rfl, .inl rfl⟩
  | commit => exact .inr ⟨rfl, rfl⟩
  | close => exact rfl

/-- A connection that runs alone; `durable` is what a single statement may do
to the file, so a crash between two statements leaves a file it relates. -/
abbrev driver (fault : ε → Prop) (durable : D → D → Prop) : Setting (Sql D ε) (Handle D) :=
  Setting.alone (Sql.sem fault) fun c c' => durable c.file c'.file

/-- `with self._connect()`: commit after a normal body, close in any case. -/
def connect (body : Routine (Sql D ε) ε σ α) : Routine (Sql D ε) ε σ α :=
  .ensuring (do
    let _ ← .invoke .select  -- PRAGMA busy_timeout
    let a ← body
    .invoke .commit
    pure a) (.ask .close)

section Rules

variable {fault : ε → Prop} {durable : D → D → Prop} {s : σ} {d : D} {c : Handle D}

theorem select_wp (still : ∀ d, durable d d) {Q : Except ε D → σ → Handle D → Prop}
    (ok : Q (.ok c.current) s c) (error : ∀ e, fault e → Q (.error e) s c) :
    (Routine.invoke (E := Sql D ε) .select).Wp (driver fault durable) Q s c := by
  refine .invoke fun c₁ same => ?_
  subst same
  refine ⟨⟨_, _, rfl, .inl rfl⟩, ?_⟩
  rintro r c' ⟨rfl, rfl | ⟨e, raised, rfl⟩⟩
  · exact ⟨still _, Setting.settled_alone.mpr ok⟩
  · exact ⟨still _, Setting.settled_alone.mpr (error e raised)⟩

/-- A statement inside a transaction: the file is untouched whatever it does. -/
theorem execute_wp (still : ∀ d, durable d d) {change : D → Except ε (D × Nat)}
    {Q : Except ε Nat → σ → Handle D → Prop}
    (ok : ∀ d' n, change c.current = .ok (d', n) → Q (.ok n) s { c with working := some d' })
    (error : ∀ e c', (fault e ∨ change c.current = .error e) → c'.file = c.file →
      Q (.error e) s c') :
    (Routine.invoke (E := Sql D ε) (.execute change)).Wp (driver fault durable) Q s c := by
  refine .invoke fun c₁ same => ?_
  subst same
  constructor
  · cases step : change c.current with
    | ok result =>
      exact ⟨_, _, .inr (by rw [step]; exact ⟨rfl, rfl⟩)⟩
    | error e =>
      exact ⟨_, _, .inr (by rw [step]; exact ⟨rfl, rfl⟩)⟩
  · rintro r c' (⟨e, raised, rfl, rfl⟩ | answer)
    · exact ⟨still _, Setting.settled_alone.mpr (error e _ (.inl raised) rfl)⟩
    · cases step : change c.current with
      | ok result =>
        rw [step] at answer
        obtain ⟨rfl, rfl⟩ := answer
        exact ⟨still _, Setting.settled_alone.mpr (ok _ _ step)⟩
      | error e =>
        rw [step] at answer
        obtain ⟨rfl, rfl⟩ := answer
        exact ⟨still _, Setting.settled_alone.mpr (error e _ (.inr step) rfl)⟩

/-- A statement outside a transaction is durable at once. -/
theorem define_wp (still : ∀ d, durable d d) {change : D → Except ε D}
    {Q : Except ε Unit → σ → Handle D → Prop}
    (ok : ∀ d', change d = .ok d' → durable d d' ∧ Q (.ok ()) s ⟨d', none⟩)
    (error : ∀ e, (fault e ∨ change d = .error e) → Q (.error e) s ⟨d, none⟩) :
    (Routine.invoke (E := Sql D ε) (.define change)).Wp (driver fault durable) Q s ⟨d, none⟩ := by
  refine .invoke fun c₁ same => ?_
  subst same
  constructor
  · cases step : change d with
    | ok d' => exact ⟨_, _, .inr (by simp only [Handle.current, Option.getD, step]; trivial)⟩
    | error e => exact ⟨_, _, .inr (by simp only [Handle.current, Option.getD, step]; trivial)⟩
  · rintro r c' (⟨e, raised, rfl, rfl⟩ | answer)
    · exact ⟨still _, Setting.settled_alone.mpr (error e (.inl raised))⟩
    · cases step : change d with
      | ok d' =>
        simp only [Handle.current, Option.getD, step] at answer
        obtain ⟨rfl, rfl⟩ := answer
        exact ⟨(ok d' step).1, Setting.settled_alone.mpr (ok d' step).2⟩
      | error e =>
        simp only [Handle.current, Option.getD, step] at answer
        obtain ⟨rfl, rfl⟩ := answer
        exact ⟨still _, Setting.settled_alone.mpr (error e (.inr step))⟩

theorem commit_wp (still : ∀ d, durable d d) {Q : Except ε Unit → σ → Handle D → Prop}
    (commits : durable c.file c.current) (ok : Q (.ok ()) s ⟨c.current, none⟩)
    (error : ∀ e, fault e → Q (.error e) s c) :
    (Routine.invoke (E := Sql D ε) .commit).Wp (driver fault durable) Q s c := by
  refine .invoke fun c₁ same => ?_
  subst same
  refine ⟨⟨_, _, .inr ⟨rfl, rfl⟩⟩, ?_⟩
  rintro r c' (⟨e, raised, rfl, rfl⟩ | ⟨rfl, rfl⟩)
  · exact ⟨still _, Setting.settled_alone.mpr (error e raised)⟩
  · exact ⟨commits, Setting.settled_alone.mpr ok⟩

/-- A scope around `body`: a normal outcome publishes what `body` left as the
working copy, and an exception, also one of the commit, leaves the file as the
body left it. -/
theorem connect_wp (still : ∀ d, durable d d) {body : Routine (Sql D ε) ε σ α}
    {P : α → σ → D → Prop} {R : ε → σ → D → Prop}
    (run : body.Wp (driver fault durable) (Post
      (fun a s c => durable c.file c.current ∧ P a s c.current ∧ ∀ e, fault e → R e s c.file)
      (fun e s c => R e s c.file)) s ⟨d, none⟩)
    (failed : ∀ e, fault e → R e s d) :
    (connect body).Wp (driver fault durable) (Post (fun a s c => c.working = none ∧ P a s c.file)
      (fun e s c => c.working = none ∧ R e s c.file)) s ⟨d, none⟩ := by
  refine .ensuring (P := Post (fun a s c => P a s c.file) (fun e s c => R e s c.file)) ?_ ?_
  · refine .bind (P := Post (fun _ s' c => c = ⟨d, none⟩ ∧ s' = s)
      (fun e s' c => c = ⟨d, none⟩ ∧ s' = s ∧ fault e))
      (select_wp still ⟨rfl, rfl⟩ fun e raised => ⟨rfl, rfl, raised⟩) ?_ ?_
    · rintro _ _ _ ⟨rfl, rfl⟩
      refine .bind run ?_ fun e s c h => Setting.settled_alone.mpr h
      rintro a s c ⟨commits, h, failed⟩
      exact .bind (P := Post (fun _ s (c : Handle D) => P a s c.file)
          (fun e s c => R e s c.file))
        (commit_wp still commits h failed)
        (fun _ s c h => .pure (Setting.settled_alone.mpr h))
        fun e s c h => Setting.settled_alone.mpr h
    · rintro e s' _ ⟨rfl, rfl, raised⟩
      exact Setting.settled_alone.mpr (failed e raised)
  · intro r s c h
    refine .ask fun _ same => ?_
    subst same
    refine ⟨⟨(), _, rfl⟩, ?_⟩
    rintro _ c' rfl
    refine ⟨still _, Setting.settled_alone.mpr (Setting.settled_alone.mpr ?_)⟩
    cases r with
    | ok a => exact ⟨rfl, h⟩
    | error e => exact ⟨rfl, h⟩

end Rules

end Sqlite
