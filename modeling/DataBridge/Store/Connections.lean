import DataBridge.Connections.Models
import DataBridge.Sqlite.Transactions
import DataBridge.Store.Startup

/-!
# Connections in the store

`create` .. `list_public` as routines on one SQLite connection. `_columns` splits a
connection into a JSON text of its public settings and an encrypted one of its
secrets; `get` puts the two together again and validates the result.
-/

namespace DataBridge

open Effect Routine Sqlite Json

/-- What the model leaves open about Python and pydantic. -/
structure Runtime (Φ : Type) where
  float : PythonFloat Φ
  int : LaxInt Φ
  codecs : JsonCodecs
  /-- How many containers of a JSON text may be open at once. -/
  stack : Nat
  stack_pos : 0 < stack

/-! ## Statements -/

namespace ConnectionTable

/-- INSERT with a fresh primary key. -/
def insert (t : ConnectionTable) (row : ConnectionRow)
    (fresh : row.name ∉ t.rows.map ConnectionRow.name) : ConnectionTable where
  rows := t.rows ++ [row]
  distinct := by
    rw [List.map_append, List.nodup_append]
    refine ⟨t.distinct, by simp, ?_⟩
    intro a member b single same
    rw [List.map_singleton, List.mem_singleton] at single
    rw [same, single] at member
    exact fresh member

/-- UPDATE of every column but the key, in the row with the key. -/
def update (t : ConnectionTable) (row : ConnectionRow) : ConnectionTable where
  rows := t.rows.map fun r => if r.name = row.name then { row with name := r.name } else r
  distinct := by
    have names : (t.rows.map fun r => if r.name = row.name then { row with name := r.name } else r).map
        ConnectionRow.name = t.rows.map ConnectionRow.name := by
      rw [List.map_map]
      apply List.map_congr_left
      intro r _
      simp only [Function.comp_apply]
      split
      · rfl
      · rfl
    rw [names]
    exact t.distinct

/-- DELETE. -/
def delete (t : ConnectionTable) (name : Text) : ConnectionTable where
  rows := t.rows.filter (·.name ≠ name)
  distinct := t.distinct.sublist (List.filter_sublist.map _)

end ConnectionTable

namespace Database

/-- INSERT INTO connections. -/
def insertConnection (row : ConnectionRow) (db : Database) : Except Exc (Database × Nat) := do
  bindParameters ([row.name, row.type, row.settingsJson] ++ row.secretsCiphertext.toList)
  match db.connections with
  | none => .error noSuchTable
  | some t =>
    if fresh : row.name ∉ t.rows.map ConnectionRow.name then
      .ok ({ db with connections := some (t.insert row fresh) }, 1)
    else .error (sqliteError "SQLITE_CONSTRAINT_PRIMARYKEY")

/-- UPDATE connections SET ... WHERE name = ?. -/
def updateConnection (row : ConnectionRow) (db : Database) : Except Exc (Database × Nat) := do
  bindParameters ([row.type, row.settingsJson] ++ row.secretsCiphertext.toList ++ [row.name])
  match db.connections with
  | none => .error noSuchTable
  | some t => .ok ({ db with connections := some (t.update row) },
      t.rows.countP (·.name = row.name))

/-- DELETE FROM connections WHERE name = ?. -/
def deleteConnection (name : Text) (db : Database) : Except Exc (Database × Nat) := do
  bindParameters [name]
  match db.connections with
  | none => .error noSuchTable
  | some t => .ok ({ db with connections := some (t.delete name) }, t.rows.countP (·.name = name))

/-- SELECT ... FROM connections WHERE name = ?. -/
def selectConnection (name : Text) (db : Database) : Except Exc (Option ConnectionRow) := do
  bindParameters [name]
  match db.connections with
  | none => .error noSuchTable
  | some t => .ok (t.rows.find? (·.name = name))

/-- SELECT ... FROM connections ORDER BY name. The collation compares the bytes of UTF-8,
which have the order of the code points. -/
def selectConnections (db : Database) : Except Exc (List ConnectionRow) :=
  match db.connections with
  | none => .error noSuchTable
  | some t => .ok (t.rows.insertionSort fun r r' => r.name ≤ r'.name)

end Database

/-! ## Columns -/

/-- `_connection_not_found`. -/
def connectionNotFound (name : Text) : Exc :=
  .ofCode .connectionNotFound (lit "Connection '" ++ name ++ lit "' not found")

def connectionExists (name : Text) : Exc :=
  .ofCode .connectionExists (lit "Connection '" ++ name ++ lit "' already exists")

/-- A JSON value behind `**` is a `TypeError` unless it is an object. -/
def unpacked {Φ : Type} : Value (JsonNumber Φ) → Except Exc (Fields Φ)
  | .object fields => .ok fields
  | _ => .error (.other 3)

section Columns

variable {Φ : Type} (rt : Runtime Φ) (cipher : Fernet)

/-- The encrypted secrets of `_columns`, if there are any. -/
def encryptSecrets (nonce : Nat) : Fields Φ → Except Exc (Option Text)
  | [] => .ok none
  | secret :: secrets => do
    let plain ← (jsonDumps rt.float (.object (secret :: secrets))).encode
    let token ← decodeAscii (cipher.encrypt nonce plain)
    .ok (some token)

/-- `_columns`, as the row they make. -/
def columns (nonce : Nat) (item : Connection) : Except Exc ConnectionRow := do
  let ciphertext ← encryptSecrets rt cipher nonce item.secrets
  .ok {
    name := item.name
    type := item.kind.text
    settingsJson := jsonDumps rt.float (.object item.settings)
    secretsCiphertext := ciphertext }

/-- `_view`. -/
def view (name kind : Text) (settings : Value (JsonNumber Φ)) : Except Exc ConnectionView := do
  let model ← connectionModels kind
  let settings ← unpacked settings
  validateView rt.int model
    (Dict.ofItems ([(lit "name", .string name), (lit "type", .string kind)] ++ settings))

/-- The view of a row. -/
def rowView (row : ConnectionRow) : Except Exc ConnectionView := do
  let settings ← jsonLoads rt.float rt.stack row.settingsJson
  view rt row.name row.type settings

/-- The secrets of a row. -/
def decryptSecrets (row : ConnectionRow) : Except Exc (Value (JsonNumber Φ)) :=
  match row.secretsCiphertext with
  | none => .ok (.object [])
  | some ciphertext => do
    let token ← ciphertext.encode
    match cipher.decrypt token with
    | none => .error .runtimeError
    | some plain => jsonLoadsBytes rt.float rt.codecs rt.stack plain

/-- The connection of a row, as `get` puts it together. -/
def rowConnection (name : Text) (row : ConnectionRow) : Except Exc Connection := do
  let model ← connectionModels row.type
  let secrets ← decryptSecrets rt cipher row
  let settings ← jsonLoads rt.float rt.stack row.settingsJson
  let settings ← unpacked settings
  let secrets ← unpacked secrets
  validateInput rt.int model
    (Dict.ofItems ([(lit "name", .string name), (lit "type", .string row.type)] ++ settings ++ secrets))

end Columns

/-! ## Methods -/

namespace ConnectionStore

variable {Φ : Type} (rt : Runtime Φ) (cipher : Fernet)

/-- How `create` reports a failing INSERT. -/
def creationFailure (name : Text) : Exc → Exc
  | .sqlite error =>
    if error = lit "SQLITE_CONSTRAINT_PRIMARYKEY" then connectionExists name else .sqlite error
  | e => e

def create (nonce : Nat) (item : Connection) : StoreRoutine ConnectionView := do
  let row ← .ofExcept (columns rt cipher nonce item)
  let _ ← .catching (connect (.invoke (.execute (Database.insertConnection row)))) fun e =>
    .raise (creationFailure item.name e)
  .ofExcept (view rt item.name item.kind.text (.object item.settings))

def replace (nonce : Nat) (item : Connection) : StoreRoutine ConnectionView := do
  let row ← .ofExcept (columns rt cipher nonce item)
  let changed ← connect (.invoke (.execute (Database.updateConnection row)))
  if changed ≠ 1 then .raise (connectionNotFound item.name)
  else .ofExcept (view rt item.name item.kind.text (.object item.settings))

def delete (name : Text) : StoreRoutine Unit := do
  let deleted ← connect (.invoke (.execute (Database.deleteConnection name)))
  if deleted ≠ 1 then .raise (connectionNotFound name) else pure ()

def get (name : Text) : StoreRoutine Connection := do
  let row ← connect do
    let db ← .invoke .select
    .ofExcept (db.selectConnection name)
  match row with
  | none => .raise (connectionNotFound name)
  | some row => .ofExcept (rowConnection rt cipher name row)

/-- `get_public`. -/
def getPublic (name : Text) : StoreRoutine ConnectionView := do
  let row ← connect do
    let db ← .invoke .select
    .ofExcept (db.selectConnection name)
  match row with
  | none => .raise (connectionNotFound name)
  | some row => .ofExcept (rowView rt row)

/-- `list_public`. -/
def listPublic : StoreRoutine (List ConnectionView) := do
  let rows ← connect do
    let db ← .invoke .select
    .ofExcept db.selectConnections
  .ofExcept (rows.mapM (rowView rt))

end ConnectionStore

end DataBridge
