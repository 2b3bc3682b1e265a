import DataBridge.Store.Transfers
import DataBridge.Transfer.Service

/-!
# The surroundings of one transfer

What the ledger, the source and the destination may answer. A ledger call either
has its committed effect on the database or is refused without one; a source
splits the rest of its bytes into non-empty chunks; a destination publishes what
it was given exactly when its context exits without an error. Every connector
call may raise any exception. `store_answers` connects the answers of the ledger to
the routines of the store.
-/

namespace DataBridge

open Effect Routine Sqlite

/-- The ledger calls of a transfer. -/
inductive LedgerCall
  | start | get | progress | publishing | finish | fail
  deriving DecidableEq, Repr

/-- The surroundings of one run. -/
structure TransferWorld where
  db : Database
  /-- The bytes the source has not delivered yet. -/
  remaining : Bytes
  /-- The bytes passed to the sink. -/
  staged : Bytes := []
  /-- What this run has published. -/
  published : Option Bytes := none
  /-- The ledger calls that were refused. -/
  refused : List LedgerCall := []

namespace TransferWorld

/-- The world before a run that will copy `content`. -/
def initial (db : Database) (content : Bytes) : TransferWorld := { db, remaining := content }

/-- A ledger call returned with the committed effect `effect`. -/
def Committed (w : TransferWorld) (effect : Instant → Database → Except Exc Database)
    (w' : TransferWorld) : Prop :=
  ∃ now db', effect now w.db = .ok db' ∧ w' = { w with db := db' }

/-- A ledger call was refused with `e`, without an effect. -/
def Refused (refusal : Exc → Prop) (call : LedgerCall) (w : TransferWorld) (e : Exc)
    (w' : TransferWorld) : Prop :=
  refusal e ∧ w' = { w with refused := call :: w.refused }

/-- The answer of a ledger call that returns nothing. -/
def Ledger (refusal : Exc → Prop) (call : LedgerCall)
    (effect : Instant → Database → Except Exc Database) (w : TransferWorld) :
    Except Exc Unit → TransferWorld → Prop
  | .ok _, w' => w.Committed effect w'
  | .error e, w' => Refused refusal call w e w'

/-- A connector call without an effect: it returns or raises anything. -/
def Plain (w : TransferWorld) (_ : Except Exc Unit) (w' : TransferWorld) : Prop := w' = w

end TransferWorld

open TransferWorld in
/-- The possible answers; `refusal` are the exceptions of a refused ledger call. -/
def transferSem (T : Type) (refusal : Exc → Prop) : Sem (TransferEffect T) TransferWorld
  | _, .startTransfer id request, w, r, w' =>
    w.Ledger refusal .start (fun now db => db.start id request now) r w'
  | _, .get _, w, r, w' => w' = w ∧ (∃ c, r = .ok c) ∨ ∃ e, r = .error e ∧ Refused refusal .get w e w'
  | _, .recordProgress id bytes, w, r, w' =>
    w.Ledger refusal .progress
      (fun now db => db.transition id [.running] (progressChange bytes now)) r w'
  | _, .markPublishing id bytes, w, r, w' =>
    w.Ledger refusal .publishing
      (fun now db => db.transition id [.running] (publishingChange bytes now)) r w'
  | _, .finishTransfer id, w, r, w' =>
    (∃ record, r = .ok record ∧
      w.Committed (fun now db => db.transition id [.publishing] (completedChange now)) w' ∧
      w'.db.transfer id = some record) ∨ ∃ e, r = .error e ∧ Refused refusal .finish w e w'
  | _, .failTransfer id bytes phase code message, w, r, w' =>
    w.Ledger refusal .fail (fun now db =>
      db.transition id [.running, .publishing] (failedChange bytes phase code message now)) r w'
  | _, .clock, w, _, w' => w' = w
  | _, .connector _, w, r, w' => w.Plain r w'
  | _, .openSource _, w, r, w' => w.Plain r w'
  | _, .read _, w, r, w' =>
    (∃ chunk rest, r = .ok chunk ∧ w.remaining = chunk ++ rest ∧
      (chunk = [] → rest = []) ∧ w' = { w with remaining := rest }) ∨
    ∃ e, r = .error e ∧ w' = w
  | _, .closeSource _, w, r, w' => w.Plain r w'
  | _, .openSink _ _ _, w, r, w' => w.Plain r w'
  | _, .write data, w, r, w' =>
    (r = .ok () ∧ w' = { w with staged := w.staged ++ data }) ∨
    ∃ e staged, r = .error e ∧ w' = { w with staged }
  | _, .finish, w, r, w' => w.Plain r w'
  -- After an error in its body the context publishes nothing; else it publishes
  -- exactly when its exit returns.
  | _, .closeSink (some _), w, r, w' => w.Plain r w'
  | _, .closeSink none, w, r, w' =>
    (r = .ok () ∧ w' = { w with published := some w.staged }) ∨ ∃ e, r = .error e ∧ w' = w

/-! ## The store as a ledger

A call of the store on its file gives an answer that the ledger may give, with
the file as its database. -/

section Store

variable {T : Type} {w : TransferWorld} {id : Text}

/-- A transacted call with a committed effect answers as the ledger does. -/
theorem TransferWorld.Ledger.of_transacted {call : LedgerCall}
    (effect : Instant → Database → Except Exc Database) {now : Instant} {r : Except Exc Unit}
    {c : Handle Database}
    (done : Transacted w.db (fun (_ : Unit) db' => effect now w.db = .ok db') r () c) :
    ∃ w', w.Ledger (fun _ => True) call effect r w' ∧ w'.db = c.file := by
  cases r with
  | ok _ => exact ⟨_, ⟨now, c.file, done.2, rfl⟩, rfl⟩
  | error e => exact ⟨_, ⟨trivial, rfl⟩, done.2.symm⟩

theorem startTransfer_answers {request : TransferRequest} {now : Instant} :
    (startTransfer id request now).Wp (driver sqliteFault fun _ _ => True)
      (fun r _ c => ∃ w', transferSem T (fun _ => True) (.startTransfer id request) w r w' ∧
        w'.db = c.file) () ⟨w.db, none⟩ :=
  (startTransfer_wp (fun _ => trivial) fun _ _ => trivial).mono fun _ _ _ =>
    TransferWorld.Ledger.of_transacted fun now db => db.start id request now

/-- The three calls that only change the state of a record. -/
theorem transition_answers {op : TransferEffect T (Except Exc Unit)} {call : LedgerCall}
    {states : List TransferStatus} (update : Instant → TransferChange) {now : Instant}
    (ledger : ∀ r w', transferSem T (fun _ => True) op w r w' ↔
      w.Ledger (fun _ => True) call (fun now db => db.transition id states (update now)) r w') :
    (transition id states (update now)).Wp (driver sqliteFault fun _ _ => True)
      (fun r _ c => ∃ w', transferSem T (fun _ => True) op w r w' ∧ w'.db = c.file)
      () ⟨w.db, none⟩ := by
  refine (transition_wp (fun _ => trivial) fun _ _ => trivial).mono fun r _ c done => ?_
  obtain ⟨w', answer, file⟩ := TransferWorld.Ledger.of_transacted
    (fun now db => db.transition id states (update now)) done
  exact ⟨w', (ledger r w').mpr answer, file⟩

theorem finishTransfer_answers {now : Instant} :
    (finishTransfer id now).Wp (driver sqliteFault fun _ _ => True)
      (fun r _ c => ∃ w', transferSem T (fun _ => True) (.finishTransfer id) w r w' ∧
        w'.db = c.file) () ⟨w.db, none⟩ := by
  refine (finishTransfer_wp (fun _ => trivial) fun _ _ => trivial).mono fun r _ c done => ?_
  cases r with
  | ok record =>
    exact ⟨{ w with db := c.file },
      .inl ⟨record, rfl, ⟨now, c.file, done.2.1, rfl⟩, done.2.2⟩, rfl⟩
  | error e => exact ⟨_, .inr ⟨e, rfl, trivial, rfl⟩, done.2.symm⟩

/-- What the store does is an answer of the ledger, for every ledger call. -/
theorem store_answers {bytes : Nat} {phase : FailurePhase} {code : ErrorCode} {message : Text}
    {now : Instant} :
    (recordProgress id bytes now).Wp (driver sqliteFault fun _ _ => True)
      (fun r _ c => ∃ w', transferSem T (fun _ => True) (.recordProgress id bytes) w r w' ∧
        w'.db = c.file) () ⟨w.db, none⟩ ∧
    (markPublishing id bytes now).Wp (driver sqliteFault fun _ _ => True)
      (fun r _ c => ∃ w', transferSem T (fun _ => True) (.markPublishing id bytes) w r w' ∧
        w'.db = c.file) () ⟨w.db, none⟩ ∧
    (failTransfer id bytes phase code message now).Wp (driver sqliteFault fun _ _ => True)
      (fun r _ c => ∃ w',
        transferSem T (fun _ => True) (.failTransfer id bytes phase code message) w r w' ∧
        w'.db = c.file) () ⟨w.db, none⟩ :=
  ⟨transition_answers (progressChange bytes) fun _ _ => Iff.rfl,
    transition_answers (publishingChange bytes) fun _ _ => Iff.rfl,
    transition_answers (failedChange bytes phase code message) fun _ _ => Iff.rfl⟩

end Store

end DataBridge
