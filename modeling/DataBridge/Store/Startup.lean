import DataBridge.Store.Transfers

/-!
# Startup of the store

`ConnectionStore.initialize`: verify an existing database or create a new one,
and mark every unfinished transfer as interrupted. The statements of the schema
run outside a transaction, so each is durable at once; the metadata rows and the
recovery share the transaction that the first INSERT or UPDATE opens.
-/

namespace DataBridge

open Effect Routine Sqlite

/-- Fernet under one key. The number stands for the time and the random vector
of a token. -/
structure Fernet where
  encrypt : Nat → Bytes → Bytes
  /-- `none` is an `InvalidToken`. -/
  decrypt : Bytes → Option Bytes
  decrypt_encrypt : ∀ nonce plain, decrypt (encrypt nonce plain) = some plain
  ascii : ∀ nonce plain, ∀ b ∈ encrypt nonce plain, b < 128
  nonempty : ∀ nonce plain, encrypt nonce plain ≠ []

/-- The bytes whose halves are listed. -/
def fromNibbles : Bytes → Bytes
  | high :: low :: rest => (high * 16 + low) :: fromNibbles rest
  | _ => []

theorem fromNibbles_flatMap (plain : Bytes) :
    fromNibbles (plain.flatMap fun b => [b / 16, b % 16]) = plain := by
  induction plain with
  | nil => rfl
  | cons b rest ih =>
    have whole : b / 16 * 16 + b % 16 = b := UInt8.toNat_inj.mp (by
      have small := b.toNat_lt
      simp
      omega)
    simp only [List.flatMap_cons, List.cons_append, List.nil_append, fromNibbles, whole, ih]

/-- Tokens that show the plain text, four bits a character. -/
instance : Inhabited Fernet where
  default := {
    encrypt := fun _ plain => 0x67 :: plain.flatMap fun b => [b / 16, b % 16]
    decrypt := fun token => some (fromNibbles token.tail)
    decrypt_encrypt := fun _ plain => congrArg some (fromNibbles_flatMap plain)
    ascii := by
      intro _ plain b member
      rcases List.mem_cons.mp member with rfl | member
      · decide
      · obtain ⟨c, -, member⟩ := List.mem_flatMap.mp member
        simp only [List.mem_cons, List.not_mem_nil, or_false] at member
        have small := c.toNat_lt
        rcases member with rfl | rfl
        all_goals
          rw [UInt8.lt_iff_toNat_lt]
          simp
          omega
    nonempty := fun _ _ => List.cons_ne_nil _ _ }

/-- A bytes literal of the source. -/
def bytesLit (s : String) : Bytes := s.toList.map fun c => UInt8.ofNat c.toNat

def schemaVersion : Bytes := bytesLit "1"

/-- `_KEY_CHECK`. -/
def keyCheck : Bytes := bytesLit "databridge-key-check-v1"

/-- `_INTERRUPTED["copying"]`. -/
def interruptedCopying : Text := lit "The service stopped before the transfer finished; the destination is unchanged, but its staging file may remain"

/-- `_INTERRUPTED["publishing"]`. -/
def interruptedPublishing : Text := lit "The service stopped while publishing; the destination may already contain the new file"

/-- The status IN ('running', 'publishing') of the recovery. -/
def Unfinished (r : TransferRecord) : Bool := r.status = .running || r.status = .publishing

/-- What the recovery assigns to an unfinished record. -/
def interrupt (now : Instant) (r : TransferRecord) : TransferRecord :=
  { r with
    status := .failed
    updatedAt := now
    failedAt := some now
    failurePhase := some .interruption
    errorCode := some .transferInterrupted
    error := some (if r.status = .publishing then interruptedPublishing else interruptedCopying) }

namespace Database

/-- The table names in `sqlite_master`, as bytes. -/
def tables (db : Database) : List Bytes :=
  (if db.metadata.isSome then [bytesLit "metadata"] else []) ++
    (if db.connections.isSome then [bytesLit "connections"] else []) ++
    (if db.transfers.isSome then [bytesLit "transfers"] else []) ++ db.otherTables

/-- The recovery UPDATE. -/
def recover (now : Instant) (db : Database) : Except Exc (Database × Nat) :=
  match db.transfers with
  | none => .error noSuchTable
  | some t => .ok ({ db with transfers := some (t.update Unfinished (interrupt now) fun _ => rfl) },
      t.rows.countP Unfinished)

def createMetadata (db : Database) : Except Exc Database :=
  if db.metadata.isSome then .error noSuchTable else .ok { db with metadata := some [] }

def createConnections (db : Database) : Except Exc Database :=
  if db.connections.isSome then .error noSuchTable
  else .ok { db with connections := some ⟨[], List.nodup_nil⟩ }

def createTransfers (db : Database) : Except Exc Database :=
  if db.transfers.isSome then .error noSuchTable
  else .ok { db with transfers := some ⟨[], List.nodup_nil⟩ }

def createTransfersByStart (db : Database) : Except Exc Database :=
  if db.transfers.isNone || db.transfersByStart then .error noSuchTable
  else .ok { db with transfersByStart := true }

/-- INSERT INTO metadata. -/
def insertMetadata (row : Bytes × Bytes) (db : Database) : Except Exc (Database × Nat) :=
  match db.metadata with
  | none => .error noSuchTable
  | some rows =>
    if row.1 ∈ rows.map (·.1) then .error (sqliteError "SQLITE_CONSTRAINT_PRIMARYKEY")
    else .ok ({ db with metadata := some (rows ++ [row]) }, 1)

end Database

/-- `_SCHEMA`. -/
def schema : List (Database → Except Exc Database) :=
  [Database.createMetadata, Database.createConnections, Database.createTransfers,
    Database.createTransfersByStart]

/-- `_verify_existing`, after its SELECT of the metadata. -/
def verifyMetadata (cipher : Fernet) (db : Database) : Except Exc Unit := do
  let metadata := db.metadata.getD []
  match metadata.lookup (bytesLit "schema_version") with
  | none => .error (.startup .noSchemaVersion)
  | some version =>
    if version ≠ schemaVersion then .error (.startup (.otherSchemaVersion version))
    let missing := (if db.connections.isSome then [] else [lit "connections"]) ++
      (if db.transfers.isSome then [] else [lit "transfers"])
    if missing ≠ [] then .error (.startup (.missingTables missing))
    match metadata.lookup (bytesLit "key_check") with
    | none => .error (.startup .noKeyCheck)
    | some marker =>
      if marker = [] ∨ marker.any (128 ≤ ·) then .error (.startup .noKeyCheck)
      if cipher.decrypt marker ≠ some keyCheck then .error (.startup .wrongKey)

/-- `_verify_existing`. -/
def verifyExisting (cipher : Fernet) : StoreRoutine Unit := do
  let db ← .invoke .select
  .ofExcept (verifyMetadata cipher db)

/-- The branch of `initialize` for a file without tables. -/
def createSchema (cipher : Fernet) (nonce : Nat) : StoreRoutine Unit := do
  forEach (fun statement => .invoke (.define statement)) schema
  forEach (fun row => do
      let _ ← .invoke (.execute (Database.insertMetadata row))
      pure ())
    [(bytesLit "schema_version", schemaVersion),
      (bytesLit "key_check", cipher.encrypt nonce keyCheck)]

/-- How `initialize` reports a damaged file. -/
def startupFailure : Exc → Exc
  | .sqlite name =>
    if name = lit "SQLITE_NOTADB" then .startup .notADatabase
    else if lit "SQLITE_CORRUPT" <+: name then .startup .damaged
    else .sqlite name
  | .unicodeDecode => .startup .damaged
  | e => e

/-- `ConnectionStore.initialize`, from its first connection to the database. -/
def initializeStore (cipher : Fernet) (nonce : Nat) (now : Instant) : StoreRoutine Unit :=
  .catching (connect do
    let db ← .invoke .select
    if db.tables ≠ [] then verifyExisting cipher else createSchema cipher nonce
    let _ ← .invoke (.execute (Database.recover now))
    pure ()) fun e => .raise (startupFailure e)

/-! ## What a startup does to the records -/

theorem Database.records_nil_of_tables {db : Database} (empty : db.tables = []) :
    db.records = [] := by
  simp only [Database.tables, List.append_eq_nil_iff] at empty
  cases h : db.transfers with
  | none => simp [Database.records, h]
  | some t => simp [h] at empty

theorem Database.recover_records {now : Instant} {db db' : Database} {n : Nat}
    (step : db.recover now = .ok (db', n)) :
    db'.records = db.records.map fun r => if Unfinished r then interrupt now r else r := by
  unfold Database.recover at step
  split at step
  · cases step
  · rename_i t found
    obtain ⟨rfl, -⟩ := Prod.mk.inj (Except.ok.inj step)
    simp [Database.records, found, TransferTable.update]

section Rules

variable {db : Database} {cipher : Fernet} {nonce : Nat} {now : Instant}
  {fault : Exc → Prop} {durable : Database → Database → Prop}

theorem verifyExisting_wp (still : ∀ d, durable d d) {c : Handle Database} :
    (verifyExisting cipher).Wp (driver fault durable)
      (Post (fun _ _ c' => c' = c ∧ verifyMetadata cipher c.current = .ok ())
        (fun _ _ c' => c' = c)) () c := by
  refine .bind (P := Post (fun d _ (c' : Handle Database) => d = c.current ∧ c' = c)
      (fun _ _ c' => c' = c))
    (select_wp still ⟨rfl, rfl⟩ fun _ _ => rfl) ?_ fun _ _ _ h => Setting.settled_alone.mpr h
  rintro d s c' ⟨rfl, rfl⟩
  refine .ofExcept (Setting.settled_alone.mpr ?_)
  cases verifyMetadata cipher c'.current with
  | ok u => exact ⟨rfl, rfl⟩
  | error e => rfl

theorem recover_wp (still : ∀ d, durable d d) {c : Handle Database} :
    (Routine.invoke (E := Sql Database Exc) (.execute (Database.recover now))).Wp
      (driver fault durable) (Post
        (fun n _ c' => c'.file = c.file ∧ c.current.recover now = .ok (c'.current, n))
        (fun _ _ c' => c'.file = c.file)) () c :=
  execute_wp still (fun _ _ step => ⟨rfl, step⟩) fun _ _ _ same => same

/-- A startup on an existing database commits the recovery, or changes nothing. -/
theorem initializeStore_existing_wp (still : ∀ d, durable d d)
    (commits : ∀ db' n, db.recover now = .ok (db', n) → durable db db')
    (existing : db.tables ≠ []) :
    (initializeStore cipher nonce now).Wp (driver fault durable)
      (Transacted db fun _ db' => verifyMetadata cipher db = .ok () ∧
        ∃ n, db.recover now = .ok (db', n)) () ⟨db, none⟩ := by
  refine .catching (connect_wp still
    (P := fun _ _ d => verifyMetadata cipher db = .ok () ∧ ∃ n, db.recover now = .ok (d, n))
    (R := fun _ _ d => d = db) ?_ fun _ _ => rfl)
    (fun _ s c h => Setting.settled_alone.mpr h)
    fun e s c h => .raise (Setting.settled_alone.mpr h)
  refine .bind (P := Post (fun d _ (c : Handle Database) => d = db ∧ c = ⟨db, none⟩)
      (fun _ _ c => c.file = db))
    (select_wp still ⟨rfl, rfl⟩ fun _ _ => rfl) ?_ fun _ _ _ h => Setting.settled_alone.mpr h
  rintro _ s _ ⟨rfl, rfl⟩
  rw [if_pos existing]
  refine .bind (verifyExisting_wp still) ?_ ?_
  · rintro _ s _ ⟨rfl, verified⟩
    refine .bind (recover_wp still) ?_ fun _ _ _ h => Setting.settled_alone.mpr h
    rintro n s c ⟨same, step⟩
    refine .pure (Setting.settled_alone.mpr ⟨?_, ⟨verified, n, step⟩, fun _ _ => same⟩)
    rw [same]
    exact commits _ n step
  · rintro e s _ rfl
    exact Setting.settled_alone.mpr rfl

/-- A statement of the schema creates an empty table, never a record. -/
theorem records_of_schema {statement : Database → Except Exc Database} {d d' : Database}
    (member : statement ∈ schema) (empty : d.records = []) (step : statement d = .ok d') :
    d'.records = [] := by
  simp only [schema, List.mem_cons, List.not_mem_nil, or_false] at member
  rcases member with rfl | rfl | rfl | rfl
  all_goals
    simp only [Database.createMetadata, Database.createConnections, Database.createTransfers,
      Database.createTransfersByStart] at step
    split at step
    · cases step
    · cases step
      first | exact empty | rfl

theorem records_of_insertMetadata {row : Bytes × Bytes} {d d' : Database} {n : Nat}
    (step : d.insertMetadata row = .ok (d', n)) : d'.records = d.records := by
  unfold Database.insertMetadata at step
  split at step
  · cases step
  · split at step
    · cases step
    · cases step
      rfl

theorem createSchema_wp (still : ∀ d, durable d d)
    (empties : ∀ d d', d'.records = [] → durable d d') {d : Database} (empty : d.records = []) :
    (createSchema cipher nonce).Wp (driver sqliteFault durable)
      (Post (fun _ _ c => c.file.records = [] ∧ c.current.records = [])
        (fun _ _ c => c.file.records = [])) () ⟨d, none⟩ := by
  refine .bind (P := Post (fun _ _ (c : Handle Database) => c.working = none ∧ c.file.records = [])
    (fun _ _ c => c.file.records = [])) ?_ ?_ fun _ _ _ h => Setting.settled_alone.mpr h
  · refine .forEach (I := fun _ _ (c : Handle Database) => c.working = none ∧ c.file.records = []) ?_
      (fun _ _ h => Setting.settled_alone.mpr h) ⟨rfl, empty⟩
    rintro done statement rest all s ⟨file, working⟩ ⟨rfl, empty⟩
    have member : statement ∈ schema := by
      rw [all]
      exact List.mem_append_right _ List.mem_cons_self
    exact define_wp still
      (fun d' step =>
        have empty' := records_of_schema member empty step
        ⟨empties _ _ empty', rfl, empty'⟩)
      fun e _ => Setting.settled_alone.mpr empty
  · rintro _ s ⟨file, working⟩ ⟨rfl, empty⟩
    refine .forEach (I := fun _ _ (c : Handle Database) => c.file.records = [] ∧ c.current.records = []) ?_
      (fun _ _ h => Setting.settled_alone.mpr h) ⟨empty, empty⟩
    rintro done row rest all s c ⟨emptyFile, emptyCopy⟩
    refine .bind (P := Post (fun _ _ (c : Handle Database) => c.file.records = [] ∧ c.current.records = [])
        (fun _ _ c => c.file.records = []))
      (execute_wp still (fun d' n step => ⟨emptyFile, ?_⟩) fun e c' _ same => ?_)
      (fun _ _ _ h => .pure (Setting.settled_alone.mpr h))
      fun _ _ _ h => Setting.settled_alone.mpr (Setting.settled_alone.mpr h)
    · exact (records_of_insertMetadata step).trans emptyCopy
    · change c'.file.records = []
      rw [same, emptyFile]

/-- Creating the schema in a file without tables stores no transfer record. -/
theorem initializeStore_fresh_wp (still : ∀ d, durable d d)
    (empties : ∀ d d', d'.records = [] → durable d d') (fresh : db.tables = []) :
    (initializeStore cipher nonce now).Wp (driver sqliteFault durable)
      (fun _ _ c => c.working = none ∧ c.file.records = []) () ⟨db, none⟩ := by
  have empty := Database.records_nil_of_tables fresh
  refine .catching (P := fun _ _ c => c.working = none ∧ c.file.records = [])
    (.mono (connect_wp still (P := fun _ _ d => d.records = []) (R := fun _ _ d => d.records = [])
      ?_ fun _ _ => empty) ?_)
    (fun _ s c h => Setting.settled_alone.mpr h)
    fun e s c h => .raise (Setting.settled_alone.mpr h)
  · refine .bind (P := Post (fun d _ (c : Handle Database) => d = db ∧ c = ⟨db, none⟩)
        (fun _ _ c => c.file.records = []))
      (select_wp still ⟨rfl, rfl⟩ fun _ _ => empty) ?_ fun _ _ _ h => Setting.settled_alone.mpr h
    rintro _ s _ ⟨rfl, rfl⟩
    rw [if_neg (by simp [fresh])]
    refine .bind (createSchema_wp still empties empty) ?_ fun _ _ _ h => Setting.settled_alone.mpr h
    rintro _ s c ⟨emptyFile, emptyCopy⟩
    refine .bind (recover_wp still) ?_ fun _ _ c' same => Setting.settled_alone.mpr ?_
    · rintro n s c' ⟨same, step⟩
      have emptied : c'.current.records = [] := by
        rw [Database.recover_records step, emptyCopy]
        rfl
      exact .pure (Setting.settled_alone.mpr
        ⟨empties _ _ emptied, emptied, fun _ _ => same ▸ emptyFile⟩)
    · change c'.file = c.file at same
      change c'.file.records = []
      rw [same, emptyFile]
  · intro r s c h
    cases r with
    | ok _ => exact h
    | error _ => exact h

end Rules

end DataBridge
