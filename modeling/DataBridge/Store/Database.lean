import DataBridge.Models

/-!
# The database of the service

The tables of the SQLite file and the statements the store sends to it. A
statement is a function of the database: it changes rows and counts them, or
fails as SQLite or the driver does, and then there is no changed database.
-/

namespace DataBridge

/-- The columns of a `connections` row. -/
structure ConnectionRow where
  name : Text
  type : Text
  settingsJson : Text
  secretsCiphertext : Option Text
  deriving DecidableEq

/-- The `transfers` table in rowid order; `id` is its primary key. -/
structure TransferTable where
  rows : List TransferRecord
  distinct : (rows.map TransferRecord.id).Nodup

/-- The `connections` table in rowid order; `name` is its primary key. -/
structure ConnectionTable where
  rows : List ConnectionRow
  distinct : (rows.map ConnectionRow.name).Nodup

/-- The contents of the file; an absent table is `none`. -/
structure Database where
  /-- `metadata`: keys and values, read as bytes. -/
  metadata : Option (List (Bytes × Bytes)) := none
  connections : Option ConnectionTable := none
  transfers : Option TransferTable := none
  /-- The index `transfers_by_start`. -/
  transfersByStart : Bool := false
  /-- Tables that the schema does not name. -/
  otherTables : List Bytes := []

/-! ## Binding parameters -/

/-- A Python `int` that SQLite can store. -/
def fitsInteger (n : Int) : Bool := -2 ^ 63 ≤ n && n < 2 ^ 63

/-- The driver converts the parameters of a statement before it runs it. -/
def bindParameters (texts : List Text) (numbers : List Int := []) : Except Exc Unit :=
  if texts.any fun text => text.any CodePoint.isSurrogate then .error .unicodeEncode
  else if numbers.all fitsInteger then .ok ()
  else .error .overflow

def sqliteError (name : String) : Exc := .sqlite (lit name)

/-- A statement names a table that the file does not have. -/
def noSuchTable : Exc := sqliteError "SQLITE_ERROR"

/-! ## Statements on transfers -/

namespace TransferTable

/-- INSERT with a fresh primary key. -/
def insert (t : TransferTable) (row : TransferRecord)
    (fresh : row.id ∉ t.rows.map TransferRecord.id) : TransferTable where
  rows := t.rows ++ [row]
  distinct := by
    rw [List.map_append, List.nodup_append]
    refine ⟨t.distinct, by simp, ?_⟩
    rintro a member b single rfl
    exact fresh (by simpa [List.mem_singleton.mp single] using member)

/-- UPDATE: assign columns other than the key in every row that `guard` selects. -/
def update (t : TransferTable) (guard : TransferRecord → Bool)
    (assign : TransferRecord → TransferRecord) (keepsId : ∀ r, (assign r).id = r.id) :
    TransferTable where
  rows := t.rows.map fun r => if guard r then assign r else r
  distinct := by
    have ids : (t.rows.map fun r => if guard r then assign r else r).map TransferRecord.id =
        t.rows.map TransferRecord.id := by
      rw [List.map_map]
      refine List.map_congr_left fun r _ => ?_
      simp only [Function.comp_apply]
      split
      · exact keepsId r
      · rfl
    rw [ids]
    exact t.distinct

end TransferTable

/-- The columns that one UPDATE of a transfer record assigns; `none` leaves a
column alone. -/
structure TransferChange where
  updatedAt : Instant
  status : Option TransferStatus := none
  bytesCopied : Option Int := none
  completedAt : Option Instant := none
  failure : Option (Instant × FailurePhase × ErrorCode × Text) := none

namespace TransferChange

/-- The row after the assignment; `bytes_copied` was checked before. -/
def assign (c : TransferChange) (r : TransferRecord) : TransferRecord :=
  { r with
    status := c.status.getD r.status
    updatedAt := c.updatedAt
    bytesCopied := (c.bytesCopied.map Int.toNat).getD r.bytesCopied
    completedAt := c.completedAt.or r.completedAt
    failedAt := (c.failure.map (·.1)).or r.failedAt
    failurePhase := (c.failure.map (·.2.1)).or r.failurePhase
    errorCode := (c.failure.map (·.2.2.1)).or r.errorCode
    error := (c.failure.map (·.2.2.2)).or r.error }

@[simp] theorem assign_identity (c : TransferChange) (r : TransferRecord) :
    (c.assign r).identity = r.identity := rfl

@[simp] theorem assign_id (c : TransferChange) (r : TransferRecord) : (c.assign r).id = r.id := rfl

/-- CHECK (bytes_copied >= 0). -/
def breaksCheck (c : TransferChange) : Bool := c.bytesCopied.any (· < 0)

/-- The texts and numbers this change passes to the driver. -/
def texts (c : TransferChange) : List Text := (c.failure.map (·.2.2.2)).toList

def numbers (c : TransferChange) : List Int := c.bytesCopied.toList

end TransferChange

namespace Database

/-- The stored transfer records in rowid order. -/
def records (db : Database) : List TransferRecord := (db.transfers.map (·.rows)).getD []

/-- The stored record of a transfer. -/
def transfer (db : Database) (id : Text) : Option TransferRecord :=
  db.records.find? (·.id = id)

/-- INSERT INTO transfers. -/
def insertTransfer (row : TransferRecord) (db : Database) : Except Exc (Database × Nat) := do
  bindParameters [row.id, row.source, row.sourceFile, row.destination, row.destinationFile]
  match db.transfers with
  | none => .error noSuchTable
  | some t =>
    if fresh : row.id ∉ t.rows.map TransferRecord.id then
      .ok ({ db with transfers := some (t.insert row fresh) }, 1)
    else .error (sqliteError "SQLITE_CONSTRAINT_PRIMARYKEY")

/-- Whether `WHERE id = ? AND status IN (...)` selects a row. -/
def selects (id : Text) (states : List TransferStatus) (r : TransferRecord) : Bool :=
  r.id = id && r.status ∈ states

/-- UPDATE transfers SET ... WHERE id = ? AND status IN (...). -/
def updateTransfer (id : Text) (states : List TransferStatus) (change : TransferChange)
    (db : Database) : Except Exc (Database × Nat) := do
  bindParameters (id :: change.texts) change.numbers
  match db.transfers with
  | none => .error noSuchTable
  | some t =>
    let changed := t.rows.countP (selects id states)
    if change.breaksCheck && changed ≠ 0 then .error (sqliteError "SQLITE_CONSTRAINT_CHECK")
    else
      .ok ({ db with
        transfers := some (t.update (selects id states) change.assign fun _ => rfl) }, changed)

end Database

end DataBridge
