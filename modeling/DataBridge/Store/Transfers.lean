import DataBridge.Sqlite.Driver
import DataBridge.Store.Database
import Mathlib.Data.List.Nodup

/-!
# Transfer records in the store

`start_transfer` .. `fail_transfer` as routines on one SQLite connection. Each of
them is a transaction around one compare-and-set statement; `Database.start` and
`Database.transition` are the committed effects, and `startTransfer_wp`,
`transition_wp` and `finishTransfer_wp` say that a call either takes exactly
that effect or raises and leaves the file alone.
-/

namespace DataBridge

open Effect Routine Sqlite

/-- A method of the store, on a connection of its own. -/
abbrev StoreRoutine (α : Type) : Type 1 := Routine (Sql Database Exc) Exc Unit α

/-- What SQLite may raise at any statement. -/
def sqliteFault (e : Exc) : Prop := ∃ name, e = .sqlite name

/-- The conflict that `_change` reports. -/
def stateConflict (transferId : Text) : Exc := .dataBridge {
  code := .transferStateConflict
  message := lit "The transfer record is not in the state this change requires; another operation already changed it"
  transferId }

/-- `_recording`: a database failure becomes a typed, attributable error. -/
def recording {α : Type} (transferId : Text) (body : StoreRoutine α) : StoreRoutine α :=
  .catching (connect body) fun
    | .sqlite name => .raise (.dataBridge {
        code := .transferRecordFailed
        message := lit "The transfer record could not be saved (" ++ name ++ lit ")"
        transferId })
    | e => .raise e

/-- `_change`: a record in another state is a conflict, never a silent no-op. -/
def change (transferId : Text) (statement : Database → Except Exc (Database × Nat)) :
    StoreRoutine Unit := do
  let changed ← .invoke (.execute statement)
  if changed ≠ 1 then .raise (stateConflict transferId) else pure ()

/-- `_transition`. -/
def transition (transferId : Text) (states : List TransferStatus) (update : TransferChange) :
    StoreRoutine Unit :=
  recording transferId (change transferId (Database.updateTransfer transferId states update))

/-- The row that `start_transfer` inserts. -/
def startedRecord (transferId : Text) (request : TransferRequest) (now : Instant) :
    TransferRecord where
  id := transferId
  source := request.source
  sourceFile := request.sourceFile
  destination := request.destination
  destinationFile := request.destinationFile
  overwrite := request.overwrite
  status := .running
  startedAt := now
  updatedAt := now
  completedAt := none
  failedAt := none
  bytesCopied := 0
  failurePhase := none
  errorCode := none
  error := none

def startTransfer (transferId : Text) (request : TransferRequest) (now : Instant) :
    StoreRoutine Unit :=
  recording transferId do
    let _ ← .invoke (.execute (Database.insertTransfer (startedRecord transferId request now)))
    pure ()

/-! ## The states each update requires and the columns it sets -/

def progressChange (bytesCopied : Int) (now : Instant) : TransferChange :=
  { updatedAt := now, bytesCopied := some bytesCopied }

def publishingChange (bytesCopied : Int) (now : Instant) : TransferChange :=
  { updatedAt := now, status := some .publishing, bytesCopied := some bytesCopied }

def completedChange (now : Instant) : TransferChange :=
  { updatedAt := now, status := some .completed, completedAt := some now }

def failedChange (bytesCopied : Int) (phase : FailurePhase) (code : ErrorCode) (message : Text)
    (now : Instant) : TransferChange :=
  { updatedAt := now, status := some .failed, bytesCopied := some bytesCopied
    failure := some (now, phase, code, message) }

def recordProgress (transferId : Text) (bytesCopied : Int) (now : Instant) : StoreRoutine Unit :=
  transition transferId [.running] (progressChange bytesCopied now)

def markPublishing (transferId : Text) (bytesCopied : Int) (now : Instant) : StoreRoutine Unit :=
  transition transferId [.running] (publishingChange bytesCopied now)

/-- If the completed record cannot be read back, nothing changes. -/
def finishTransfer (transferId : Text) (now : Instant) : StoreRoutine TransferRecord :=
  recording transferId do
    change transferId (Database.updateTransfer transferId [.publishing] (completedChange now))
    let db ← .invoke .select
    match db.transfer transferId with
    | some record => pure record
    | none => .raise (.other 0)  -- dict(None)

def failTransfer (transferId : Text) (bytesCopied : Int) (phase : FailurePhase)
    (code : ErrorCode) (message : Text) (now : Instant) : StoreRoutine Unit :=
  transition transferId [.running, .publishing] (failedChange bytesCopied phase code message now)

/-! ## Committed effects -/

namespace Database

/-- The committed effect of `start_transfer`. -/
def start (transferId : Text) (request : TransferRequest) (now : Instant) (db : Database) :
    Except Exc Database :=
  (db.insertTransfer (startedRecord transferId request now)).map (·.1)

/-- The committed effect of a compare-and-set state change. -/
def transition (transferId : Text) (states : List TransferStatus) (update : TransferChange)
    (db : Database) : Except Exc Database := do
  let (db', changed) ← db.updateTransfer transferId states update
  if changed ≠ 1 then .error (stateConflict transferId) else .ok db'

/-! ### The records after a committed effect -/

theorem start_records {id : Text} {request : TransferRequest} {now : Instant}
    {db db' : Database} (step : db.start id request now = .ok db') :
    id ∉ db.records.map TransferRecord.id ∧
      db'.records = db.records ++ [startedRecord id request now] := by
  unfold start insertTransfer at step
  cases bound : bindParameters _ with
  | error e =>
    rw [bound] at step
    cases step
  | ok _ =>
    simp only [bound, bind, Except.bind] at step
    cases found : db.transfers with
    | none =>
      rw [found] at step
      cases step
    | some t =>
      simp only [found] at step
      split at step
      · rename_i fresh
        cases step
        simp only [Database.records, found, Option.map_some, Option.getD_some]
        exact ⟨fresh, rfl⟩
      · cases step

theorem transition_records {id : Text} {states : List TransferStatus}
    {update : TransferChange} {db db' : Database}
    (step : db.transition id states update = .ok db') :
    db.records.countP (selects id states) = 1 ∧
      db'.records = db.records.map fun r => if selects id states r then update.assign r else r := by
  unfold transition updateTransfer at step
  cases bound : bindParameters _ _ with
  | error e =>
    rw [bound] at step
    cases step
  | ok _ =>
    simp only [bound, bind, Except.bind] at step
    cases found : db.transfers with
    | none =>
      rw [found] at step
      cases step
    | some t =>
      simp only [found] at step
      by_cases broken : update.breaksCheck && t.rows.countP (selects id states) ≠ 0
      · rw [if_pos broken] at step
        cases step
      · rw [if_neg broken] at step
        simp only at step
        split at step
        · cases step
        · rename_i one
          cases step
          simp only [Database.records, found, Option.map_some, Option.getD_some]
          exact ⟨of_not_not one, rfl⟩

/-- Finding a record by its id commutes with an update that keeps the ids. -/
theorem find_update {guard : TransferRecord → Bool} {assign : TransferRecord → TransferRecord}
    {id : Text} (keepsId : ∀ r, (assign r).id = r.id) (rows : List TransferRecord) :
    (rows.map fun r => if guard r then assign r else r).find? (·.id = id) =
      (rows.find? (·.id = id)).map fun r => if guard r then assign r else r := by
  rw [List.find?_map]
  congr 2
  funext r
  simp only [Function.comp_apply]
  split
  · rw [keepsId]
  · rfl

/-- An update of the record `id` is not seen by a search for another one. -/
theorem find_update_other {states : List TransferStatus} {update : TransferChange}
    {id other : Text} (differs : other ≠ id) (rows : List TransferRecord) :
    (rows.map fun r => if selects id states r then update.assign r else r).find?
      (·.id = other) = rows.find? (·.id = other) := by
  rw [find_update update.assign_id]
  cases found : rows.find? (·.id = other) with
  | none => rfl
  | some r =>
    have named : r.id = other := by simpa using List.find?_some found
    have unselected : selects id states r = false := by simp [selects, named, differs]
    simp [unselected]

theorem records_distinct (db : Database) : (db.records.map TransferRecord.id).Nodup := by
  cases found : db.transfers with
  | none => simp [records, found]
  | some t => simpa [records, found] using t.distinct

/-- The id of a stored record finds it. -/
theorem transfer_of_mem {db : Database} {r : TransferRecord} (member : r ∈ db.records) :
    db.transfer r.id = some r := by
  cases found : db.transfer r.id with
  | none => exact absurd (decide_eq_true rfl) (List.find?_eq_none.mp found r member)
  | some r' =>
    have same : r'.id = r.id := by simpa using List.find?_some found
    rw [List.inj_on_of_nodup_map db.records_distinct (List.mem_of_find?_eq_some found) member same]

/-- A started record is new, and no other record changes. -/
theorem start_transfer {id : Text} {request : TransferRequest} {now : Instant}
    {db db' : Database} (step : db.start id request now = .ok db') :
    db'.transfer id = some (startedRecord id request now) ∧
      ∀ other, other ≠ id → db'.transfer other = db.transfer other := by
  obtain ⟨fresh, stored⟩ := start_records step
  constructor
  · have absent : db.records.find? (·.id = id) = none := by
      rw [List.find?_eq_none]
      intro r member named
      exact fresh (List.mem_map.mpr ⟨r, member, of_decide_eq_true named⟩)
    rw [transfer, stored, List.find?_append, absent, Option.none_or]
    exact List.find?_cons_of_pos (decide_eq_true rfl)
  · intro other differs
    rw [transfer, stored, List.find?_append, List.find?_cons_of_neg, List.find?_nil,
      Option.or_none, transfer]
    exact fun same => differs (of_decide_eq_true same).symm

/-- A state change finds its record in one of the states it requires, assigns to
it, and changes no other record. -/
theorem transition_transfer {id : Text} {states : List TransferStatus} {update : TransferChange}
    {db db' : Database} (step : db.transition id states update = .ok db') :
    (∃ r, db.transfer id = some r ∧ r.status ∈ states ∧
      db'.transfer id = some (update.assign r)) ∧
    ∀ other, other ≠ id → db'.transfer other = db.transfer other := by
  obtain ⟨one, stored⟩ := transition_records step
  constructor
  · obtain ⟨r, member, selected⟩ := List.countP_pos_iff.mp (one ▸ Nat.one_pos)
    have guards := selected
    simp only [selects, Bool.and_eq_true, decide_eq_true_eq] at guards
    obtain ⟨rfl, inState⟩ := guards
    have found := transfer_of_mem member
    refine ⟨r, found, inState, ?_⟩
    rw [transfer, stored, find_update update.assign_id]
    change Option.map _ (db.transfer r.id) = _
    rw [found, Option.map_some, if_pos selected]
  · intro other differs
    rw [transfer, stored, find_update_other differs, transfer]

end Database

/-- A call on the file `db`: a normal outcome has the effect `after`, an
exception leaves the file alone, and the connection is closed in either case. -/
def Transacted {α : Type} (db : Database) (after : α → Database → Prop) :
    Except Exc α → Unit → Handle Database → Prop :=
  Post (fun a _ c => c.working = none ∧ after a c.file) (fun _ _ c => c.working = none ∧ c.file = db)

section Rules

variable {α : Type} {db : Database} {transferId : Text} {durable : Database → Database → Prop}

theorem recording_wp (still : ∀ d, durable d d) {body : StoreRoutine α}
    {after : α → Database → Prop} (commits : ∀ a db', after a db' → durable db db')
    (run : body.Wp (driver sqliteFault durable)
      (Post (fun a _ c => c.file = db ∧ after a c.current) (fun _ _ c => c.file = db)) () ⟨db, none⟩) :
    (recording transferId body).Wp (driver sqliteFault durable) (Transacted db after)
      () ⟨db, none⟩ := by
  refine .catching (connect_wp still (P := fun a _ d => after a d) (R := fun _ _ d => d = db)
    (run.post ?_ fun _ _ _ same => same) fun _ _ => rfl) ?_ ?_
  · rintro a s c ⟨same, h⟩
    exact ⟨same ▸ commits a _ h, h, fun _ _ => same⟩
  · exact fun a s c h => Setting.settled_alone.mpr h
  · rintro e s c h
    split <;> exact .raise (Setting.settled_alone.mpr h)

theorem change_wp (still : ∀ d, durable d d) {states : List TransferStatus}
    {update : TransferChange} {c : Handle Database} :
    (change transferId (Database.updateTransfer transferId states update)).Wp
      (driver sqliteFault durable) (Post
        (fun _ _ c' => c'.file = c.file ∧
          c.current.transition transferId states update = .ok c'.current)
        (fun _ _ c' => c'.file = c.file)) () c := by
  refine .bind (P := Post
      (fun n _ (c' : Handle Database) => c'.file = c.file ∧
        c.current.updateTransfer transferId states update = .ok (c'.current, n))
      (fun _ _ c' => c'.file = c.file))
    (execute_wp still (fun d' n step => ⟨rfl, step⟩) fun e c' _ same => same) ?_
    fun e s c' same => Setting.settled_alone.mpr same
  rintro n s c' ⟨same, step⟩
  split
  · exact .raise (Setting.settled_alone.mpr same)
  · rename_i one
    refine .pure (Setting.settled_alone.mpr ⟨same, ?_⟩)
    simp only [Database.transition, step, bind, Except.bind, if_neg one]

theorem transition_wp (still : ∀ d, durable d d) {states : List TransferStatus}
    {update : TransferChange}
    (commits : ∀ db', db.transition transferId states update = .ok db' → durable db db') :
    (transition transferId states update).Wp (driver sqliteFault durable)
      (Transacted db fun _ db' => db.transition transferId states update = .ok db')
      () ⟨db, none⟩ :=
  recording_wp still (fun _ => commits) (change_wp still (c := ⟨db, none⟩))

theorem startTransfer_wp (still : ∀ d, durable d d) {request : TransferRequest} {now : Instant}
    (commits : ∀ db', db.start transferId request now = .ok db' → durable db db') :
    (startTransfer transferId request now).Wp (driver sqliteFault durable)
      (Transacted db fun _ db' => db.start transferId request now = .ok db') () ⟨db, none⟩ := by
  refine recording_wp still (fun _ => commits) (.bind (P := Post
      (fun _ _ (c : Handle Database) => c.file = db ∧
        db.start transferId request now = .ok c.current)
      (fun _ _ c => c.file = db)) (execute_wp still ?_ fun e c _ same => same)
    (fun _ s c h => .pure (Setting.settled_alone.mpr h))
    fun e s c same => Setting.settled_alone.mpr same)
  intro d' n step
  change db.insertTransfer _ = _ at step
  refine ⟨rfl, ?_⟩
  simp only [Database.start, step]
  rfl

theorem finishTransfer_wp (still : ∀ d, durable d d) {now : Instant}
    (commits : ∀ db', db.transition transferId [.publishing] (completedChange now) = .ok db' →
      durable db db') :
    (finishTransfer transferId now).Wp (driver sqliteFault durable)
      (Transacted db fun record db' =>
        db.transition transferId [.publishing] (completedChange now) = .ok db' ∧
          db'.transfer transferId = some record) () ⟨db, none⟩ := by
  refine recording_wp still (fun _ db' h => commits db' h.1)
    (.bind (change_wp still (c := ⟨db, none⟩)) ?_ fun e s c same => Setting.settled_alone.mpr same)
  rintro _ s c ⟨same, step⟩
  refine .bind (P := Post (fun d _ (c' : Handle Database) => d = c.current ∧ c' = c)
      (fun _ _ c' => c'.file = db))
    (select_wp still ⟨rfl, rfl⟩ fun e _ => same) ?_ fun e s c same => Setting.settled_alone.mpr same
  rintro d s c' ⟨rfl, rfl⟩
  split
  · rename_i record found
    exact .pure (Setting.settled_alone.mpr ⟨same, step, found⟩)
  · exact .raise (Setting.settled_alone.mpr same)

end Rules

end DataBridge
