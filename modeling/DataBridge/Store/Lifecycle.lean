import DataBridge.Store.Startup

/-!
# The state machine of transfer records

A store is driven by calls in any order, each of which runs to its end and may
fail at any of its statements. `StoreCall.runs_cases` says once what a call can
do to the records: nothing, append a fresh running record, update the one record
it names, or recover all unfinished ones. Consistency of every record, the
allowed moves and the frame of a call follow from it.
-/

namespace DataBridge

open Effect Routine Sqlite

/-- A call of one of the methods that write transfer records; `startup` is
`initialize`. -/
inductive StoreCall
  | startTransfer (transferId : Text) (request : TransferRequest) (now : Instant)
  | recordProgress (transferId : Text) (bytesCopied : Int) (now : Instant)
  | markPublishing (transferId : Text) (bytesCopied : Int) (now : Instant)
  | finishTransfer (transferId : Text) (now : Instant)
  | failTransfer (transferId : Text) (bytesCopied : Int) (phase : FailurePhase)
      (code : ErrorCode) (message : Text) (now : Instant)
  | startup (cipher : Fernet) (nonce : Nat) (now : Instant)

namespace StoreCall

/-- The routine behind a call; `finish_transfer` also returns the record. -/
def routine : StoreCall → StoreRoutine (Option TransferRecord)
  | startTransfer id request now => do
      DataBridge.startTransfer id request now
      pure none
  | recordProgress id bytes now => do
      DataBridge.recordProgress id bytes now
      pure none
  | markPublishing id bytes now => do
      DataBridge.markPublishing id bytes now
      pure none
  | finishTransfer id now => do
      let record ← DataBridge.finishTransfer id now
      pure (some record)
  | failTransfer id bytes phase code message now => do
      DataBridge.failTransfer id bytes phase code message now
      pure none
  | startup cipher nonce now => do
      initializeStore cipher nonce now
      pure none

/-- The record a transfer call names. -/
def names : StoreCall → Option Text
  | startTransfer id .. | recordProgress id .. | markPublishing id .. | finishTransfer id ..
  | failTransfer id .. => some id
  | startup .. => none

/-- `call` on a store over the file `db` ends with `outcome` and leaves `db'`. -/
def Runs (call : StoreCall) (db : Database) (outcome : Except Exc (Option TransferRecord))
    (db' : Database) : Prop :=
  ∃ c, Prog.Reach (Sql.sem sqliteFault) (call.routine (), ⟨db, none⟩) (.ret (outcome, ()), c) ∧
    c.file = db'

end StoreCall

/-- The databases that finite sequences of calls reach from a new file. -/
inductive StoreReachable : Database → Prop
  | new : StoreReachable {}
  | call {db db' : Database} {outcome : Except Exc (Option TransferRecord)} (call : StoreCall) :
    StoreReachable db → call.Runs db outcome db' → StoreReachable db'

/-- `db'` is reached from `db` by finitely many calls. -/
def StoreRun : Database → Database → Prop :=
  Relation.ReflTransGen fun db db' => ∃ (call : StoreCall) (outcome : _), call.Runs db outcome db'

/-! ## What a call does to the records -/

/-- The state changes that the methods of the store request. -/
inductive Requested : List TransferStatus → TransferChange → Prop
  | progress {bytes : Int} {now : Instant} : Requested [.running] (progressChange bytes now)
  | publishing {bytes : Int} {now : Instant} : Requested [.running] (publishingChange bytes now)
  | completed {now : Instant} : Requested [.publishing] (completedChange now)
  | failed {bytes : Int} {phase : FailurePhase} {code : ErrorCode} {message : Text}
      {now : Instant} :
    Requested [.running, .publishing] (failedChange bytes phase code message now)

/-- What a call may do to the list of records; `named` is the record that a
transfer call names. -/
inductive RecordsStep (named : Option Text) : List TransferRecord → List TransferRecord → Prop
  | none {rows : List TransferRecord} : named = .none → RecordsStep named rows rows
  | started {rows : List TransferRecord} {id : Text} {request : TransferRequest} {now : Instant} :
    named = some id → id ∉ rows.map TransferRecord.id →
    RecordsStep named rows (rows ++ [startedRecord id request now])
  | changed {rows : List TransferRecord} {id : Text} {states : List TransferStatus}
      {update : TransferChange} :
    named = some id → Requested states update →
    RecordsStep named rows
      (rows.map fun r => if Database.selects id states r then update.assign r else r)
  | recovered {rows : List TransferRecord} {now : Instant} : named = .none →
    RecordsStep named rows (rows.map fun r => if Unfinished r then interrupt now r else r)

namespace StoreCall

/-- The possible results of a call. -/
def Spec (call : StoreCall) (db : Database) :
    Except Exc (Option TransferRecord) → Unit → Handle Database → Prop :=
  Post (fun _ _ c => RecordsStep call.names db.records c.file.records)
    (fun _ _ c => c.file.records = db.records)

/-- A transition as a call of the store. -/
theorem wp_of_transition {db : Database} {id : Text} {states : List TransferStatus}
    {update : TransferChange} (requested : Requested states update) :
    (transition id states update >>= fun _ => pure none : StoreRoutine (Option TransferRecord)).Wp
      (driver sqliteFault fun _ _ => True)
      (Post (fun _ _ c => RecordsStep (some id) db.records c.file.records)
        (fun _ _ c => c.file.records = db.records)) () ⟨db, none⟩ := by
  refine .bind (transition_wp (fun _ => trivial) fun _ _ => trivial) ?_ ?_
  · rintro _ _ c ⟨-, step⟩
    refine .pure (Setting.settled_alone.mpr ?_)
    rw [post_ok, (Database.transition_records step).2]
    exact .changed rfl requested
  · rintro _ _ c ⟨-, same⟩
    exact Setting.settled_alone.mpr (congrArg Database.records same)

theorem wp (call : StoreCall) (db : Database) :
    call.routine.Wp (driver sqliteFault fun _ _ => True) (call.Spec db) () ⟨db, none⟩ := by
  have still : ∀ d : Database, True := fun _ => trivial
  cases call with
  | startTransfer id request now =>
    refine .bind (startTransfer_wp still fun _ _ => trivial) ?_ ?_
    · rintro _ _ c ⟨-, step⟩
      obtain ⟨fresh, stored⟩ := Database.start_records step
      refine .pure (Setting.settled_alone.mpr ?_)
      rw [Spec, post_ok, stored]
      exact .started rfl fresh
    · rintro _ _ c ⟨-, same⟩
      exact Setting.settled_alone.mpr (congrArg Database.records same)
  | recordProgress id bytes now => exact wp_of_transition .progress
  | markPublishing id bytes now => exact wp_of_transition .publishing
  | failTransfer id bytes phase code message now => exact wp_of_transition .failed
  | finishTransfer id now =>
    refine .bind (finishTransfer_wp still fun _ _ => trivial) ?_ ?_
    · rintro record _ c ⟨-, step, -⟩
      refine .pure (Setting.settled_alone.mpr ?_)
      rw [Spec, post_ok, (Database.transition_records step).2]
      exact .changed rfl .completed
    · rintro _ _ c ⟨-, same⟩
      exact Setting.settled_alone.mpr (congrArg Database.records same)
  | startup cipher nonce now =>
    by_cases fresh : db.tables = []
    · refine .bind (initializeStore_fresh_wp still (fun _ _ _ => trivial) fresh) ?_ ?_
      · rintro _ _ c ⟨-, empty⟩
        refine .pure (Setting.settled_alone.mpr ?_)
        rw [Spec, post_ok, empty, Database.records_nil_of_tables fresh]
        exact .none rfl
      · rintro _ _ c ⟨-, empty⟩
        exact Setting.settled_alone.mpr
          (empty.trans (Database.records_nil_of_tables fresh).symm)
    · refine .bind (initializeStore_existing_wp still (fun _ _ _ => trivial) fresh) ?_ ?_
      · rintro _ _ c ⟨-, -, n, step⟩
        refine .pure (Setting.settled_alone.mpr ?_)
        rw [Spec, post_ok, Database.recover_records step]
        exact .recovered rfl
      · rintro _ _ c ⟨-, same⟩
        exact Setting.settled_alone.mpr (congrArg Database.records same)

/-- Everything a call can do to the records. -/
theorem runs_cases {call : StoreCall} {db db' : Database}
    {outcome : Except Exc (Option TransferRecord)} (run : call.Runs db outcome db') :
    (∃ e, outcome = .error e ∧ db'.records = db.records) ∨
      ∃ r, outcome = .ok r ∧ RecordsStep call.names db.records db'.records := by
  obtain ⟨c, reach, rfl⟩ := run
  have spec := Prog.Wp.result (call.wp db) reach
  cases outcome with
  | error e => exact .inl ⟨e, rfl, spec⟩
  | ok r => exact .inr ⟨r, rfl, spec⟩

end StoreCall

/-! ## What may happen to one record -/

/-- The moves of the state machine. -/
inductive StatusStep : TransferStatus → TransferStatus → Prop
  | publish : StatusStep .running .publishing
  | complete : StatusStep .publishing .completed
  | fail : StatusStep .running .failed
  | failPublishing : StatusStep .publishing .failed

/-- `r'` is a later state of the record `r`. -/
structure Evolves (r r' : TransferRecord) : Prop where
  identity : r'.identity = r.identity
  moves : Relation.ReflTransGen StatusStep r.status r'.status
  frozen : r.Terminal → r' = r

namespace Evolves

theorem refl (r : TransferRecord) : Evolves r r where
  identity := rfl
  moves := .refl
  frozen := fun _ => rfl

theorem trans {r r' r'' : TransferRecord} (first : Evolves r r') (second : Evolves r' r'') :
    Evolves r r'' where
  identity := second.identity.trans first.identity
  moves := first.moves.trans second.moves
  frozen := by
    intro terminal
    have same := first.frozen terminal
    rw [← same] at terminal
    exact (second.frozen terminal).trans same

theorem id {r r' : TransferRecord} (h : Evolves r r') : r'.id = r.id :=
  congrArg Prod.fst h.identity

end Evolves

/-- A requested change moves the status by at most one step, and only from a
status that is not terminal. -/
theorem Requested.evolves {states : List TransferStatus} {update : TransferChange} {id : Text}
    {r : TransferRecord} (requested : Requested states update)
    (selected : Database.selects id states r) : Evolves r (update.assign r) := by
  simp only [Database.selects, Bool.and_eq_true, decide_eq_true_eq] at selected
  refine ⟨rfl, ?_, fun terminal => ?_⟩
  · cases requested with
    | progress => exact .refl
    | publishing =>
      rw [List.mem_singleton.mp selected.2]
      exact .single .publish
    | completed =>
      rw [List.mem_singleton.mp selected.2]
      exact .single .complete
    | failed =>
      rcases List.mem_pair.mp selected.2 with status | status
      · rw [status]
        exact .single .fail
      · rw [status]
        exact .single .failPublishing
  · exfalso
    cases requested
    all_goals
      rcases terminal with status | status
      all_goals simp [status] at selected

theorem Requested.consistent {states : List TransferStatus} {update : TransferChange} {id : Text}
    {r : TransferRecord} (requested : Requested states update)
    (selected : Database.selects id states r) (consistent : r.Consistent) :
    (update.assign r).Consistent := by
  simp only [Database.selects, Bool.and_eq_true, decide_eq_true_eq] at selected
  have nulls : r.completedAt = none ∧ r.failedAt = none ∧ r.failurePhase = none ∧
      r.errorCode = none ∧ r.error = none := by
    cases requested
    all_goals
      simp only [List.mem_singleton, List.mem_pair] at selected
      obtain ⟨-, status⟩ := selected
    case failed =>
      rcases status with status | status
      all_goals
        rw [TransferRecord.Consistent, status] at consistent
        exact consistent
    all_goals
      rw [TransferRecord.Consistent, status] at consistent
      exact consistent
  obtain ⟨completedAt, failedAt, failurePhase, errorCode, error⟩ := nulls
  cases requested
  case progress =>
    rw [TransferRecord.Consistent, List.mem_singleton.mp selected.2] at consistent
    rw [TransferRecord.Consistent]
    simp only [TransferChange.assign, progressChange, Option.getD_none,
      List.mem_singleton.mp selected.2]
    exact consistent
  all_goals
    simp [TransferRecord.Consistent, TransferChange.assign, publishingChange, completedChange,
      failedChange, completedAt, failedAt, failurePhase, errorCode, error]

theorem interrupt_evolves {now : Instant} {r : TransferRecord} (unfinished : Unfinished r) :
    Evolves r (interrupt now r) := by
  simp only [Unfinished, Bool.or_eq_true, decide_eq_true_eq] at unfinished
  refine ⟨rfl, ?_, fun terminal => ?_⟩
  · rcases unfinished with status | status
    · rw [status]
      exact .single .fail
    · rw [status]
      exact .single .failPublishing
  · exfalso
    rcases terminal with terminal | terminal
    all_goals simp [terminal] at unfinished

theorem interrupt_consistent {now : Instant} {r : TransferRecord} (unfinished : Unfinished r)
    (consistent : r.Consistent) : (interrupt now r).Consistent := by
  simp only [Unfinished, Bool.or_eq_true, decide_eq_true_eq] at unfinished
  have completedAt : r.completedAt = none := by
    rcases unfinished with status | status
    all_goals
      rw [TransferRecord.Consistent, status] at consistent
      exact consistent.1
  simp [TransferRecord.Consistent, interrupt, completedAt]

namespace RecordsStep

variable {named : Option Text} {rows rows' : List TransferRecord}

theorem consistent (step : RecordsStep named rows rows') (all : ∀ r ∈ rows, r.Consistent) :
    ∀ r ∈ rows', r.Consistent := by
  cases step with
  | none _ => exact all
  | started _ _ =>
    intro r member
    rcases List.mem_append.mp member with member | member
    · exact all r member
    · rw [List.mem_singleton.mp member]
      simp [TransferRecord.Consistent, startedRecord]
  | changed _ requested =>
    intro _ changed
    obtain ⟨r, member, rfl⟩ := List.mem_map.mp changed
    split
    · exact requested.consistent ‹_› (all r member)
    · exact all r member
  | recovered _ =>
    intro _ changed
    obtain ⟨r, member, rfl⟩ := List.mem_map.mp changed
    split
    · exact interrupt_consistent ‹_› (all r member)
    · exact all r member

/-- A stored record stays stored, and is a later state of itself. -/
theorem evolves (step : RecordsStep named rows rows') {id : Text} {r : TransferRecord}
    (stored : rows.find? (·.id = id) = some r) :
    ∃ r', rows'.find? (·.id = id) = some r' ∧ Evolves r r' := by
  cases step with
  | none _ => exact ⟨r, stored, .refl r⟩
  | started _ _ => exact ⟨r, by rw [List.find?_append, stored]; rfl, .refl r⟩
  | @changed _ _ update _ requested =>
    refine ⟨_, by rw [Database.find_update update.assign_id, stored, Option.map_some], ?_⟩
    split
    · exact requested.evolves ‹_›
    · exact .refl r
  | @recovered now _ =>
    have keepsId : ∀ r, (interrupt now r).id = r.id := fun _ => rfl
    refine ⟨_, by rw [Database.find_update keepsId, stored, Option.map_some], ?_⟩
    split
    · exact interrupt_evolves ‹_›
    · exact .refl r

/-- A transfer call leaves every other record alone, stored or not. -/
theorem frame {id other : Text} (step : RecordsStep (some id) rows rows') (differs : other ≠ id) :
    rows'.find? (·.id = other) = rows.find? (·.id = other) := by
  cases step with
  | none noName => cases noName
  | recovered noName => cases noName
  | started named _ =>
    cases named
    rw [List.find?_append, List.find?_cons_of_neg, List.find?_nil, Option.or_none]
    exact fun same => differs (of_decide_eq_true same).symm
  | changed named _ =>
    cases named
    exact Database.find_update_other differs rows

end RecordsStep

/-! ## Whole runs -/

/-- One call from `db`: a raising call changes no record, a record it does not
name is left alone, and every stored record evolves. -/
structure CallEffect (call : StoreCall) (db : Database)
    (outcome : Except Exc (Option TransferRecord)) (db' : Database) : Prop where
  raised : ∀ e, outcome = .error e → db'.records = db.records
  frame : ∀ id, call.names = some id → ∀ other, other ≠ id →
    db'.transfer other = db.transfer other
  evolves : ∀ id r, db.transfer id = some r → ∃ r', db'.transfer id = some r' ∧ Evolves r r'

theorem StoreCall.effect {call : StoreCall} {db db' : Database}
    {outcome : Except Exc (Option TransferRecord)} (run : call.Runs db outcome db') :
    CallEffect call db outcome db' := by
  rcases call.runs_cases run with ⟨e, rfl, same⟩ | ⟨r, rfl, step⟩
  · have sameTransfer : ∀ id, db'.transfer id = db.transfer id := fun id => by
      rw [Database.transfer, same, Database.transfer]
    exact {
      raised := fun _ _ => same
      frame := fun _ _ other _ => sameTransfer other
      evolves := fun id r stored => ⟨r, (sameTransfer id).trans stored, .refl r⟩ }
  · refine ⟨fun _ raised => ?_, fun id named other differs => ?_,
      fun id r stored => step.evolves stored⟩
    · cases raised
    · rw [named] at step
      exact step.frame differs

theorem StoreReachable.consistent {db : Database} (reached : StoreReachable db) :
    ∀ r ∈ db.records, r.Consistent := by
  induction reached with
  | new => exact fun _ member => nomatch member
  | call call _ run ih =>
    rcases call.runs_cases run with ⟨_, _, same⟩ | ⟨_, _, step⟩
    · rw [same]
      exact ih
    · exact step.consistent ih

theorem StoreRun.evolves {db db' : Database} (run : StoreRun db db') {id : Text}
    {r : TransferRecord} (stored : db.transfer id = some r) :
    ∃ r', db'.transfer id = some r' ∧ Evolves r r' := by
  induction run with
  | refl => exact ⟨r, stored, .refl r⟩
  | tail _ last ih =>
    obtain ⟨r', stored, first⟩ := ih
    obtain ⟨call, outcome, run⟩ := last
    obtain ⟨r'', stored, second⟩ := (call.effect run).evolves _ _ stored
    exact ⟨r'', stored, first.trans second⟩

/-- The file that a call leaves when no statement fails. -/
def StoreCall.perform (call : StoreCall) (db : Database) : Database :=
  ((Prog.eval Sql.answer 40 (call.routine ()) () ⟨db, none⟩).map (·.2.file)).getD db

theorem StoreReachable.perform {db : Database} (reached : StoreReachable db) (call : StoreCall) :
    StoreReachable (call.perform db) := by
  unfold StoreCall.perform
  cases run : Prog.eval Sql.answer 40 (call.routine ()) () ⟨db, none⟩ with
  | none => exact reached
  | some result => exact .call call reached ⟨_, Prog.eval_reach Sql.answer_sem run, rfl⟩

end DataBridge
