import DataBridge.Store.Startup

/-!
# Stopped first starts

The driver opens no transaction for a CREATE TABLE, so each statement of the
schema is durable at once, while the metadata rows wait for the commit. A start
that is stopped in between leaves a file with tables and without a schema
version (`HalfMade`), which every later start refuses. `initialize_recovers_iff`
is about any sequence of starts with one key, each stopped anywhere.
-/

namespace DataBridge

open Effect Routine Sqlite

/-- The schema was begun, and its metadata rows are not committed. -/
structure HalfMade (db : Database) : Prop where
  begun : db.tables ≠ []
  unversioned : db.metadata.getD [] = []

/-- The complete schema, with the schema version and the key check. -/
structure Complete (cipher : Fernet) (db : Database) : Prop where
  version : (db.metadata.getD []).lookup (bytesLit "schema_version") = some schemaVersion
  keyCheck : ∃ marker, (db.metadata.getD []).lookup (bytesLit "key_check") = some marker ∧
    marker ≠ [] ∧ (∀ b ∈ marker, b < 128) ∧ cipher.decrypt marker = some keyCheck
  connections : db.connections.isSome
  transfers : db.transfers.isSome
  transfersByStart : db.transfersByStart = true

/-- The file after the first `n` statements of the schema. -/
def begun (n : Nat) : Database where
  metadata := if 0 < n then some [] else none
  connections := if 1 < n then some ⟨[], List.nodup_nil⟩ else none
  transfers := if 2 < n then some ⟨[], List.nodup_nil⟩ else none
  transfersByStart := decide (3 < n)

/-- What a sequence of starts on an empty file can leave. -/
def Phase (cipher : Fernet) (db : Database) : Prop := db = {} ∨ HalfMade db ∨ Complete cipher db

theorem begun_zero : begun 0 = {} := rfl

theorem halfMade_begun (n : Nat) : HalfMade (begun (n + 1)) where
  begun := by
    intro none
    cases none
  unversioned := rfl

theorem phase_begun {cipher : Fernet} (n : Nat) : Phase cipher (begun n) := by
  cases n with
  | zero => exact .inl rfl
  | succ n => exact .inr (.inl (halfMade_begun n))

/-- Each statement of the schema finds the file that the ones before it made. -/
theorem schema_begun {done rest : List (Database → Except Exc Database)}
    {statement : Database → Except Exc Database} (split : schema = done ++ statement :: rest) :
    statement (begun done.length) = .ok (begun (done.length + 1)) := by
  have position : schema[done.length]? = some statement := by
    rw [split, List.getElem?_append_right (Nat.le_refl _), Nat.sub_self]
    rfl
  have short : done.length < 4 := (List.getElem?_eq_some_iff.mp position).1
  generalize done.length = n at position short
  interval_cases n
  all_goals
    cases position
    rfl

/-- The rows that the first start adds. -/
def metadataRows (cipher : Fernet) (nonce : Nat) : List (Bytes × Bytes) :=
  [(bytesLit "schema_version", schemaVersion), (bytesLit "key_check", cipher.encrypt nonce keyCheck)]

/-- The file after a start that was not stopped. -/
def made (cipher : Fernet) (nonce : Nat) : Database :=
  { begun 4 with metadata := some (metadataRows cipher nonce) }

theorem complete_made (cipher : Fernet) (nonce : Nat) : Complete cipher (made cipher nonce) where
  version := rfl
  keyCheck := ⟨cipher.encrypt nonce DataBridge.keyCheck, rfl, cipher.nonempty _ _,
    cipher.ascii _ _, cipher.decrypt_encrypt _ _⟩
  connections := rfl
  transfers := rfl
  transfersByStart := rfl

/-! ## Recovery and verification -/

section Recovery

variable {cipher : Fernet} {now : Instant} {db db' : Database} {n : Nat}

theorem HalfMade.recover (h : HalfMade db) (step : db.recover now = .ok (db', n)) :
    HalfMade db' := by
  unfold Database.recover at step
  split at step
  · cases step
  · rename_i t found
    cases step
    refine ⟨?_, h.unversioned⟩
    intro none
    simp only [Database.tables, Option.isSome_some, if_true, List.append_eq_nil_iff] at none
    cases none.1.2

theorem Complete.recover (h : Complete cipher db) (step : db.recover now = .ok (db', n)) :
    Complete cipher db' := by
  unfold Database.recover at step
  split at step
  · cases step
  · cases step
    exact ⟨h.version, h.keyCheck, h.connections, rfl, h.transfersByStart⟩

theorem HalfMade.not_verified (h : HalfMade db) : verifyMetadata cipher db ≠ .ok () := by
  intro verified
  unfold verifyMetadata at verified
  rw [h.unversioned] at verified
  cases verified

theorem Complete.tables_ne_nil (h : Complete cipher db) : db.tables ≠ [] := by
  intro none
  simp only [Database.tables, h.transfers, if_true, List.append_eq_nil_iff] at none
  cases none.1.2

theorem Complete.verified (h : Complete cipher db) : verifyMetadata cipher db = .ok () := by
  obtain ⟨marker, found, nonempty, ascii, decrypted⟩ := h.keyCheck
  have plain : marker.any (128 ≤ ·) = false := by
    rw [List.any_eq_false]
    intro b member
    have small := ascii b member
    simpa using small
  unfold verifyMetadata
  simp only [h.version, h.connections, h.transfers, found, plain, nonempty, decrypted]
  rfl

theorem Complete.recovers (h : Complete cipher db) (now : Instant) :
    ∃ db' n, db.recover now = .ok (db', n) := by
  obtain ⟨t, found⟩ := Option.isSome_iff_exists.mp h.transfers
  unfold Database.recover
  rw [found]
  exact ⟨_, _, rfl⟩

end Recovery

/-! ## One start -/

section Starts

variable {cipher : Fernet} {nonce : Nat} {now : Instant} {db : Database} {fault : Exc → Prop}
  {durable : Database → Database → Prop}

/-- A start is stopped by a fault, or has the outcome `P` and leaves a `Complete` file. -/
def Started (cipher : Fernet) (fault : Exc → Prop) :
    Except Exc Unit → Unit → Handle Database → Prop :=
  Post (fun _ _ c => c.working = none ∧ Complete cipher c.file) fun _ _ _ => ∃ e, fault e

theorem insertMetadata_wp (still : ∀ d, durable d d) {row : Bytes × Bytes} {d d' : Database}
    {file : Database} {working : Option Database} (current : working.getD file = d)
    (step : d.insertMetadata row = .ok (d', 1)) :
    Routine.Wp (driver fault durable) (do
        let _ ← .invoke (.execute (Database.insertMetadata row))
        pure ()) (Post (fun _ _ c => c = ⟨file, some d'⟩) fun _ _ c => c.file = file ∧ ∃ e, fault e)
      () (⟨file, working⟩ : Handle Database) := by
  have found : (⟨file, working⟩ : Handle Database).current = d := current
  refine .bind (P := Post (fun _ _ (c : Handle Database) => c = ⟨file, some d'⟩) fun _ _ c =>
      c.file = file ∧ ∃ e, fault e) (execute_wp still (fun d₁ n same => ?_) fun e c' failed same => ?_)
    (fun _ _ _ h => .pure (Setting.settled_alone.mpr h)) fun _ _ _ h => Setting.settled_alone.mpr h
  · rw [found, step] at same
    cases same
    rfl
  · rcases failed with failed | failed
    · exact ⟨same, e, failed⟩
    · rw [found, step] at failed
      cases failed

/-- The schema is made statement by statement, and its rows wait for the commit. -/
theorem createSchema_made_wp (still : ∀ d, durable d d)
    (grows : ∀ n, durable (begun n) (begun (n + 1))) :
    (createSchema cipher nonce).Wp (driver fault durable)
      (Post (fun _ _ c => c = ⟨begun 4, some (made cipher nonce)⟩)
        fun _ _ _ => ∃ e, fault e) () ⟨{}, none⟩ := by
  refine .bind (P := Post (fun _ _ (c : Handle Database) => c = ⟨begun 4, none⟩)
      fun _ _ _ => ∃ e, fault e) ?_ ?_ fun _ _ _ h => Setting.settled_alone.mpr h
  · refine .forEach (I := fun done _ (c : Handle Database) => c = ⟨begun done.length, none⟩) ?_
      (fun _ _ h => Setting.settled_alone.mpr h) rfl
    intro done statement rest split s c same
    subst same
    have step := schema_begun split
    rw [List.length_append, List.length_singleton]
    refine define_wp still (fun d' same => ?_) fun e failed => ?_
    · rw [step] at same
      cases same
      exact ⟨grows _, rfl⟩
    · rcases failed with failed | failed
      · exact Setting.settled_alone.mpr ⟨e, failed⟩
      · rw [step] at failed
        cases failed
  · intro _ s c same
    subst same
    refine .bind (insertMetadata_wp still rfl rfl) (fun _ s c same => ?_) fun _ _ _ h =>
      Setting.settled_alone.mpr h.2
    subst same
    have second : Database.insertMetadata (bytesLit "key_check", cipher.encrypt nonce keyCheck)
        { begun 4 with metadata := some [(bytesLit "schema_version", schemaVersion)] } =
        .ok (made cipher nonce, 1) := rfl
    refine .bind (insertMetadata_wp still rfl second) (fun _ s c same => ?_)
      fun _ _ _ h => Setting.settled_alone.mpr h.2
    subst same
    exact .pure (Setting.settled_alone.mpr rfl)

/-- The recovery at the end of a start. -/
theorem recover_complete_wp (still : ∀ d, durable d d) {c : Handle Database}
    (complete : Complete cipher c.current) :
    (Routine.invoke (E := Sql Database Exc) (.execute (Database.recover now))).Wp
      (driver fault durable) (Post
        (fun _ _ c' => c'.file = c.file ∧ Complete cipher c'.current) fun _ _ _ => ∃ e, fault e)
      () c := by
  refine execute_wp still (fun d' n step => ⟨rfl, complete.recover step⟩) fun e c' failed _ => ?_
  rcases failed with failed | failed
  · exact ⟨e, failed⟩
  · obtain ⟨d', n, step⟩ := complete.recovers now
    rw [step] at failed
    cases failed

/-- Some scope of `initialize`, when its body ends with a `Complete` working copy. -/
theorem initializeStore_started_wp (still : ∀ d, durable d d)
    (run : Routine.Wp (driver fault durable) (do
        if db.tables ≠ [] then verifyExisting cipher else createSchema cipher nonce
        let _ ← .invoke (.execute (Database.recover now))
        pure ()) (Post (fun _ _ c => durable c.file c.current ∧ Complete cipher c.current)
          fun _ _ _ => ∃ e, fault e) () ⟨db, none⟩) :
    (initializeStore cipher nonce now).Wp (driver fault durable) (Started cipher fault)
      () ⟨db, none⟩ := by
  refine .catching (connect_wp still (P := fun _ _ d => Complete cipher d)
    (R := fun _ _ _ => ∃ e, fault e) ?_ fun e failed => ⟨e, failed⟩)
    (fun _ s c h => Setting.settled_alone.mpr h)
    fun e s c h => .raise (Setting.settled_alone.mpr h.2)
  refine .bind (P := Post (fun d _ (c : Handle Database) => d = db ∧ c = ⟨db, none⟩)
      (fun _ _ _ => ∃ e, fault e))
    (select_wp still ⟨rfl, rfl⟩ fun e failed => ⟨e, failed⟩) ?_
    fun _ _ _ h => Setting.settled_alone.mpr h
  intro d s c same
  obtain ⟨rfl, rfl⟩ := same
  exact run.post (fun _ s c h => ⟨h.1, h.2, fun e failed => ⟨e, failed⟩⟩) fun _ _ _ h => h

/-- A start on an empty file. -/
theorem initializeStore_empty_wp (still : ∀ d, durable d d)
    (grows : ∀ n, durable (begun n) (begun (n + 1)))
    (commits : ∀ d, Complete cipher d → durable (begun 4) d) :
    (initializeStore cipher nonce now).Wp (driver fault durable) (Started cipher fault)
      () ⟨{}, none⟩ := by
  refine initializeStore_started_wp still ?_
  rw [if_neg (by decide)]
  refine .bind (createSchema_made_wp still grows) (fun _ s c same => ?_)
    fun _ _ _ h => Setting.settled_alone.mpr h
  subst same
  refine .bind (recover_complete_wp still (complete_made cipher nonce)) (fun n s c h => ?_)
    fun _ _ _ h => Setting.settled_alone.mpr h
  refine .pure (Setting.settled_alone.mpr ⟨?_, h.2⟩)
  rw [h.1]
  exact commits _ h.2

/-- A start on a complete file. -/
theorem initializeStore_complete_wp (still : ∀ d, durable d d) (complete : Complete cipher db)
    (commits : ∀ d, Complete cipher d → durable db d) :
    (initializeStore cipher nonce now).Wp (driver fault durable) (Started cipher fault)
      () ⟨db, none⟩ := by
  refine initializeStore_started_wp still ?_
  rw [if_pos complete.tables_ne_nil]
  refine .bind (P := Post (fun _ _ (c : Handle Database) => c = ⟨db, none⟩)
      fun _ _ _ => ∃ e, fault e) ?_ (fun _ s c same => ?_) fun _ _ _ h => Setting.settled_alone.mpr h
  · refine .bind (P := Post (fun d _ (c : Handle Database) => d = db ∧ c = ⟨db, none⟩)
        (fun _ _ _ => ∃ e, fault e))
      (select_wp still ⟨rfl, rfl⟩ fun e failed => ⟨e, failed⟩) (fun d s c same => ?_)
      fun _ _ _ h => Setting.settled_alone.mpr h
    obtain ⟨rfl, rfl⟩ := same
    refine .ofExcept (Setting.settled_alone.mpr ?_)
    rw [complete.verified]
    rfl
  · subst same
    refine .bind (recover_complete_wp still complete) (fun n s c h => ?_)
      fun _ _ _ h => Setting.settled_alone.mpr h
    refine .pure (Setting.settled_alone.mpr ⟨?_, h.2⟩)
    rw [h.1]
    exact commits _ h.2

/-- A start on a file that has tables and is not verified changes nothing. -/
theorem initializeStore_refused_wp (existing : db.tables ≠ [])
    (refused : verifyMetadata cipher db ≠ .ok ()) :
    (initializeStore cipher nonce now).Wp (driver fault fun d d' => HalfMade d → HalfMade d')
      (Post (fun _ _ _ => False) fun _ _ c => c.file = db) () ⟨db, none⟩ :=
  (initializeStore_existing_wp (fun _ h => h) (fun _ _ step h => h.recover step) existing).post
    (fun _ _ _ h => absurd h.2.1 refused) fun _ _ _ h => h.2

end Starts

/-! ## Sequences of starts -/

/-- A start on the file `db`, stopped by a fault, by the end of the process or not
at all, with the file it left. -/
def StoppedStart (cipher : Fernet) (db db' : Database) : Prop :=
  ∃ fault nonce now c,
    Prog.Reach (Sql.sem fault) (initializeStore cipher nonce now (), ⟨db, none⟩) c ∧ c.2.file = db'

/-- An uninterrupted start succeeds and leaves the complete schema. -/
def StartsUp (cipher : Fernet) (nonce : Nat) (now : Instant) (db : Database) : Prop :=
  Prog.Ends (Sql.sem fun _ => False) (initializeStore cipher nonce now ()) ⟨db, none⟩
    fun r c => r.1 = .ok () ∧ c.working = none ∧ Complete cipher c.file

section Sequences

variable {cipher : Fernet} {db db' : Database}

theorem not_halfMade_empty : ¬HalfMade {} := fun h => h.begun rfl

theorem HalfMade.not_complete (h : HalfMade db) : ¬Complete cipher db := by
  intro complete
  have version := complete.version
  rw [h.unversioned] at version
  cases version

/-- A file that was made halfway stays so. -/
theorem StoppedStart.phase (start : StoppedStart cipher db db') (phase : Phase cipher db) :
    Phase cipher db' ∧ (HalfMade db → HalfMade db') := by
  obtain ⟨fault, nonce, now, c, run, rfl⟩ := start
  rcases phase with rfl | half | complete
  · have wp : (initializeStore cipher nonce now).Wp
        (driver fault fun d d' => Phase cipher d → Phase cipher d') _ () ⟨{}, none⟩ :=
      initializeStore_empty_wp (fun _ h => h) (fun n _ => phase_begun (n + 1))
        fun _ complete _ => .inr (.inr complete)
    refine ⟨?_, fun half => absurd half not_halfMade_empty⟩
    exact Prog.Wp.invariant (I := fun c => Phase cipher c.file) wp (.inl rfl)
      (fun _ _ h kept => kept h) run
  · have wp : (initializeStore cipher nonce now).Wp
        (driver fault fun d d' => HalfMade d → HalfMade d') _ () ⟨db, none⟩ :=
      initializeStore_refused_wp half.begun half.not_verified
    have kept : HalfMade c.2.file :=
      Prog.Wp.invariant (I := fun c => HalfMade c.file) wp half (fun _ _ h kept => kept h) run
    exact ⟨.inr (.inl kept), fun _ => kept⟩
  · have wp : (initializeStore cipher nonce now).Wp
        (driver fault fun d d' => Complete cipher d → Complete cipher d') _ () ⟨db, none⟩ :=
      initializeStore_complete_wp (fun _ h => h) complete fun _ complete _ => complete
    refine ⟨.inr (.inr ?_), fun half => absurd complete half.not_complete⟩
    exact Prog.Wp.invariant (I := fun c => Complete cipher c.file) wp complete
      (fun _ _ h kept => kept h) run

theorem phase_last {files : List Database} (phase : Phase cipher db)
    (starts : List.IsChain (StoppedStart cipher) (db :: files)) :
    Phase cipher (files.getLastD db) ∧
      (HalfMade (files.getLastD db) ↔ HalfMade db ∨ ∃ f ∈ files, HalfMade f) := by
  induction files generalizing db with
  | nil =>
    refine ⟨phase, .inl, fun half => half.resolve_right ?_⟩
    intro found
    obtain ⟨f, member, -⟩ := found
    exact List.not_mem_nil member
  | cons f files ih =>
    obtain ⟨start, rest⟩ := List.isChain_cons_cons.mp starts
    obtain ⟨next, kept⟩ := start.phase phase
    obtain ⟨last, iff⟩ := ih next rest
    rw [List.getLastD_cons]
    refine ⟨last, iff.trans ?_⟩
    constructor
    · intro half
      rcases half with half | ⟨g, member, half⟩
      · exact .inr ⟨f, List.mem_cons_self, half⟩
      · exact .inr ⟨g, List.mem_cons_of_mem _ member, half⟩
    · intro half
      rcases half with half | ⟨g, member, half⟩
      · exact .inl (kept half)
      · rcases List.mem_cons.mp member with rfl | member
        · exact .inl half
        · exact .inr ⟨g, member, half⟩

/-- The next start finds a file that it can complete, or one that it refuses. -/
theorem startsUp_iff {nonce : Nat} {now : Instant} (phase : Phase cipher db) :
    StartsUp cipher nonce now db ↔ ¬HalfMade db := by
  have started : ∀ r (s : Unit) (c : Handle Database), Started cipher (fun _ => False) r s c →
      r = .ok () ∧ c.working = none ∧ Complete cipher c.file := by
    intro r s c h
    cases r with
    | ok _ => exact ⟨rfl, h⟩
    | error e => exact h.elim fun _ impossible => impossible.elim
  constructor
  · intro starts half
    obtain ⟨⟨r, s⟩, c, run⟩ := starts.outcome
    obtain ⟨rfl, -⟩ := starts.result _ _ run
    have wp : (initializeStore cipher nonce now).Wp
        (driver (fun _ => False) fun d d' => HalfMade d → HalfMade d')
        (Post (fun _ _ _ => False) fun _ _ c => c.file = db) () ⟨db, none⟩ :=
      initializeStore_refused_wp half.begun half.not_verified
    exact wp.result run
  · intro whole
    rcases phase with rfl | half | complete
    · have wp : (initializeStore cipher nonce now).Wp (driver (fun _ => False) fun _ _ => True)
          (Started cipher fun _ => False) () ⟨{}, none⟩ :=
        initializeStore_empty_wp (fun _ => trivial) (fun _ => trivial) fun _ _ => trivial
      exact (wp.mono started).ends
    · exact absurd half whole
    · have wp : (initializeStore cipher nonce now).Wp (driver (fun _ => False) fun _ _ => True)
          (Started cipher fun _ => False) () ⟨db, none⟩ :=
        initializeStore_complete_wp (fun _ => trivial) complete fun _ _ => trivial
      exact (wp.mono started).ends

end Sequences

/-- After any sequence of starts on an empty file, an uninterrupted one with the
same key succeeds if and only if none of them was stopped between its first
CREATE TABLE and its commit; and a start that raises leaves every table as it was. -/
theorem initialize_recovers_iff (cipher : Fernet) (files : List Database)
    (starts : List.IsChain (StoppedStart cipher) ({} :: files)) :
    (∀ nonce now, StartsUp cipher nonce now (files.getLastD {}) ↔ ∀ f ∈ files, ¬HalfMade f) ∧
      ∀ fault nonce now (db : Database) e c, Prog.Reach (Sql.sem fault)
        (initializeStore cipher nonce now (), ⟨db, none⟩) (.ret (.error e, ()), c) →
        db.tables = [] ∨ c.file = db := by
  constructor
  · intro nonce now
    obtain ⟨phase, halfway⟩ := phase_last (.inl rfl) starts
    rw [startsUp_iff phase, halfway]
    constructor
    · intro whole f member half
      exact whole (.inr ⟨f, member, half⟩)
    · intro whole half
      rcases half with half | ⟨f, member, half⟩
      · exact not_halfMade_empty half
      · exact whole f member half
  · intro fault nonce now db e c run
    by_cases existing : db.tables = []
    · exact .inl existing
    · have wp : (initializeStore cipher nonce now).Wp (driver fault fun _ _ => True)
          (Transacted db _) () ⟨db, none⟩ :=
        initializeStore_existing_wp (fun _ => trivial) (fun _ _ _ => trivial) existing
      exact .inr (wp.result run).2

/-- A start that was stopped at once. -/
theorem initialize_recovers_once : StartsUp default 0 0 {} := by
  have stopped : StoppedStart default {} {} := ⟨fun _ => False, 0, 0, _, .refl, rfl⟩
  have starts : List.IsChain (StoppedStart default) [{}, {}] :=
    List.isChain_pair.mpr stopped
  refine ((initialize_recovers_iff default [{}] starts).1 0 0).mpr fun f member half => ?_
  rw [List.mem_singleton.mp member] at half
  exact not_halfMade_empty half

/-- A driver whose fourth request, the second CREATE TABLE, raises. -/
def interruptedDriver : ∀ ⦃β : Type⦄, Sql Database Exc β → Nat → Handle Database →
    β × Nat × Handle Database
  | _, .define change, n, c =>
    if n = 3 then (.error (.other 0), n + 1, c)
    else ((Sql.answer (.define change) () c).1, n + 1, (Sql.answer (.define change) () c).2.2)
  | _, op, n, c => ((Sql.answer op () c).1, n + 1, (Sql.answer op () c).2.2)

theorem interruptedDriver_sem ⦃β : Type⦄ (op : Sql Database Exc β) (n : Nat)
    (c : Handle Database) : Sql.sem (· = .other 0) op c (interruptedDriver op n c).1
      (interruptedDriver op n c).2.2 := by
  cases op with
  | define change =>
    by_cases fourth : n = 3
    · subst fourth
      exact .inl ⟨_, rfl, rfl, rfl⟩
    · have same : interruptedDriver (.define change) n c = ((Sql.answer (.define change) () c).1,
          n + 1, (Sql.answer (.define change) () c).2.2) := if_neg fourth
      rw [same]
      exact Sql.answer_sem (.define change) () c
  | execute change => exact Sql.answer_sem (.execute change) () c
  | select => exact Sql.answer_sem .select () c
  | commit => exact Sql.answer_sem .commit () c
  | close => exact Sql.answer_sem .close () c

/-- The first start is stopped after its first CREATE TABLE: every later start
refuses the file. -/
theorem initialize_not_recovers : ¬∀ (cipher : Fernet) (files : List Database),
    List.IsChain (StoppedStart cipher) ({} :: files) →
    ∀ nonce now, StartsUp cipher nonce now (files.getLastD {}) := by
  intro recovers
  have stopped : (Prog.eval interruptedDriver 20 (initializeStore default 0 0 ()) 0
      ⟨{}, none⟩).map (fun r => (r.2.file.tables, r.2.file.metadata)) =
      some ([bytesLit "metadata"], some []) := by decide +kernel
  obtain ⟨⟨r, c⟩, run, left⟩ := Option.map_eq_some_iff.mp stopped
  obtain ⟨tables, metadata⟩ := Prod.mk.inj left
  have half : HalfMade c.file := by
    refine ⟨?_, ?_⟩
    · rw [tables]
      exact List.cons_ne_nil _ _
    · rw [metadata]
      rfl
  have start : StoppedStart default {} c.file :=
    ⟨_, 0, 0, _, Prog.eval_reach interruptedDriver_sem run, rfl⟩
  have starts := recovers default [c.file] (List.isChain_pair.mpr start) 0 0
  exact (startsUp_iff (.inr (.inl half))).mp starts half

end DataBridge
