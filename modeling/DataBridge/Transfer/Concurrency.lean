import DataBridge.Effect.Pool
import DataBridge.Transfer.World

/-!
# Concurrent transfers

`TransferService.run` takes one of `max_concurrent` slots, runs its transfer and
gives the slot back. Any number of calls run interleaved over one semaphore and
one table of records: `TransferService.concurrent` bounds the transfers in
progress, and takes each call out of the interleaving, so that the states of its
record are those of the call alone (`Pool.Runs.project`).
-/

namespace DataBridge

open Effect Routine

/-- The calls of the semaphore `self._slots`. -/
inductive SlotEffect : Type → Type
  /-- `acquire(blocking=False)`. -/
  | acquire : SlotEffect Bool
  | release : SlotEffect (Except Exc Unit)

/-- What a call of `TransferService.run` asks for. -/
abbrev ServiceEffect (T β : Type) : Type := SlotEffect β ⊕ TransferEffect T β

abbrev ServiceRoutine (T α : Type) : Type 1 := Routine (ServiceEffect T) Exc Unit α

def capacityExceeded (capacity : Nat) : Exc :=
  .ofCode .transferCapacityExceeded
    (decimal capacity ++ lit " transfers are already running; retry after one finishes")

namespace TransferService

section Methods

variable {T : Type} [OfNat T 0] [OfNat T 1] [Sub T] [LT T] [DecidableLT T]

/-- `_Transfer(self, request).run()`, with its fields. -/
def transfer (id : Text) (request : TransferRequest) : ServiceRoutine T TransferRecord := fun _ =>
  ((Transfer.run (T := T) id request { checkpoint := 0 }).lift (F := ServiceEffect T)
    fun _ => Sum.inr).bind fun r => .ret (r.1, ())

/-- The `try` of `run`, with its `finally`. -/
def withSlot (id : Text) (request : TransferRequest) : ServiceRoutine T TransferRecord :=
  .ensuring (transfer id request) (.invoke (.inl .release))

/-- `TransferService.run`; `id` is the generated id of the transfer. -/
def run (capacity : Nat) (id : Text) (request : TransferRequest) :
    ServiceRoutine T TransferRecord := do
  .ofExcept (precheck request)
  let acquired ← .ask (.inl .acquire)
  if acquired then withSlot id request else .raise (capacityExceeded capacity)

end Methods

end TransferService

/-! ## The ledger and the semaphore -/

/-- A ledger call that returns has its effect; one that raises may have committed
it already. -/
def Committed (effect : Instant → Database → Except Exc Database) (db : Database) {α : Type}
    (r : Except Exc α) (db' : Database) : Prop :=
  (∃ now, effect now db = .ok db') ∨ (∃ e, r = .error e) ∧ db' = db

/-- The answers to a transfer over a database that others use too; the connectors
and the clock may answer anything. -/
def ledgerSem (T : Type) : Sem (TransferEffect T) Database
  | _, .startTransfer id request, db, r, db' =>
    Committed (fun now db => db.start id request now) db r db'
  | _, .recordProgress id bytes, db, r, db' =>
    Committed (fun now db => db.transition id [.running] (progressChange bytes now)) db r db'
  | _, .markPublishing id bytes, db, r, db' =>
    Committed (fun now db => db.transition id [.running] (publishingChange bytes now)) db r db'
  | _, .finishTransfer id, db, r, db' =>
    Committed (fun now db => db.transition id [.publishing] (completedChange now)) db r db' ∧
      ∀ record, r = .ok record → db'.transfer id = some record
  | _, .failTransfer id bytes phase code message, db, r, db' =>
    Committed (fun now db => db.transition id [.running, .publishing]
      (failedChange bytes phase code message now)) db r db'
  | _, _, db, _, db' => db' = db

/-- The answers of the store to one transfer are answers of the shared ledger. -/
theorem ledgerSem_of_transferSem {T β : Type} {op : TransferEffect T β} {w w' : TransferWorld}
    {r : β} (answer : transferSem T (fun _ => True) op w r w') : ledgerSem T op w.db r w'.db := by
  have committed : ∀ {call : LedgerCall} {effect : Instant → Database → Except Exc Database}
      {r : Except Exc Unit}, w.Ledger (fun _ => True) call effect r w' →
      Committed effect w.db r w'.db := by
    intro call effect r answer
    cases r with
    | ok _ =>
      obtain ⟨now, db', step, rfl⟩ := answer
      exact .inl ⟨now, step⟩
    | error e =>
      obtain ⟨-, rfl⟩ := answer
      exact .inr ⟨⟨e, rfl⟩, rfl⟩
  cases op with
  | startTransfer _ _ | recordProgress _ _ | markPublishing _ _ | failTransfer _ _ _ _ _ =>
    exact committed answer
  | finishTransfer id =>
    rcases answer with ⟨record, rfl, ⟨now, db', step, rfl⟩, found⟩ | ⟨e, rfl, -, rfl⟩
    · refine ⟨.inl ⟨now, step⟩, fun record' same => ?_⟩
      cases same
      exact found
    · exact ⟨.inr ⟨⟨e, rfl⟩, rfl⟩, fun record impossible => by cases impossible⟩
  | get _ =>
    rcases answer with ⟨rfl, -⟩ | ⟨e, -, -, rfl⟩
    · rfl
    · rfl
  | read _ =>
    rcases answer with ⟨chunk, rest, -, -, -, rfl⟩ | ⟨e, -, rfl⟩
    · rfl
    · rfl
  | write _ =>
    rcases answer with ⟨-, rfl⟩ | ⟨e, staged, -, rfl⟩
    · rfl
    · rfl
  | closeSink failure =>
    cases failure with
    | none =>
      rcases answer with ⟨-, rfl⟩ | ⟨e, -, rfl⟩
      · rfl
      · rfl
    | some _ =>
      cases answer
      rfl
  | clock | connector _ | openSource _ | closeSource _ | openSink _ _ _ | finish =>
    cases answer
    rfl

/-- What the calls share: the free slots of the semaphore, and the database. -/
structure ServiceWorld where
  slots : Nat
  db : Database

/-- The answers to a call among others; a `BoundedSemaphore` refuses a release
that would pass its initial value. -/
def serviceSem (T : Type) (capacity : Nat) : Sem (ServiceEffect T) ServiceWorld
  | _, .inl .acquire, w, acquired, w' =>
    (acquired = true ∧ 0 < w.slots ∧ w' = { w with slots := w.slots - 1 }) ∨
      (acquired = false ∧ w.slots = 0 ∧ w' = w)
  | _, .inl .release, w, r, w' =>
    (w.slots < capacity ∧ r = .ok () ∧ w' = { w with slots := w.slots + 1 }) ∨
      (capacity ≤ w.slots ∧ r = .error (.other 0) ∧ w' = w)
  | _, .inr op, w, r, w' => ledgerSem T op w.db r w'.db ∧ w'.slots = w.slots

/-- The semaphore holds no records. -/
theorem serviceSem_db {T β : Type} {capacity : Nat} {op : SlotEffect β} {w w' : ServiceWorld}
    {b : β} (answer : serviceSem T capacity (.inl op) w b w') : w'.db = w.db := by
  cases op with
  | acquire =>
    rcases answer with ⟨-, -, rfl⟩ | ⟨-, -, rfl⟩
    · rfl
    · rfl
  | release =>
    rcases answer with ⟨-, -, rfl⟩ | ⟨-, -, rfl⟩
    · rfl
    · rfl

/-- A call alone, on its own database, with any answers of the semaphore. -/
def aloneSem (T : Type) : Sem (ServiceEffect T) Database
  | _, .inl _, db, _, db' => db' = db
  | _, .inr op, db, r, db' => ledgerSem T op db r db'

/-! ## The record of one transfer -/

/-- The ledger calls of a transfer name its own record. -/
def Names (id : Text) {T : Type} ⦃β : Type⦄ : TransferEffect T β → Prop
  | .startTransfer id' _ | .recordProgress id' _ | .markPublishing id' _ | .finishTransfer id'
  | .failTransfer id' _ _ _ _ => id' = id
  | _ => True

/-- The two databases have the same record of the transfer. -/
structure SameRecord (id : Text) (db v : Database) : Prop where
  table : db.transfers.isSome = v.transfers.isSome
  record : db.transfer id = v.transfer id

section Records

variable {id : Text} {db db' v : Database}

theorem start_isSome {request : TransferRequest} {now : Instant}
    (step : db.start id request now = .ok db') :
    db.transfers.isSome = true ∧ db'.transfers.isSome = true := by
  unfold Database.start Database.insertTransfer at step
  cases bound : bindParameters _ with
  | error e =>
    rw [bound] at step
    cases step
  | ok _ =>
    simp only [bound, bind, Except.bind] at step
    cases found : db.transfers with
    | none =>
      rw [found] at step
      cases step
    | some t =>
      simp only [found] at step
      split at step
      · cases step
        exact ⟨rfl, rfl⟩
      · cases step

theorem transition_isSome {states : List TransferStatus} {update : TransferChange}
    (step : db.transition id states update = .ok db') :
    db.transfers.isSome = true ∧ db'.transfers.isSome = true := by
  unfold Database.transition Database.updateTransfer at step
  cases bound : bindParameters _ _ with
  | error e =>
    rw [bound] at step
    cases step
  | ok _ =>
    simp only [bound, bind, Except.bind] at step
    cases found : db.transfers with
    | none =>
      rw [found] at step
      cases step
    | some t =>
      simp only [found] at step
      by_cases broken : update.breaksCheck && t.rows.countP (Database.selects id states) ≠ 0
      · rw [if_pos broken] at step
        cases step
      · rw [if_neg broken] at step
        simp only at step
        split at step
        · cases step
        · cases step
          exact ⟨rfl, rfl⟩

/-- One record is selected when the record of the transfer is in a required state. -/
theorem countP_selects {states : List TransferStatus} {r : TransferRecord}
    (found : v.transfer id = some r) (inState : r.status ∈ states) :
    v.records.countP (Database.selects id states) = 1 := by
  have member : r ∈ v.records := List.mem_of_find?_eq_some found
  have named : r.id = id := by simpa using List.find?_some found
  have selected : Database.selects id states r = true := by
    simp [Database.selects, named, inState]
  have some : 0 < v.records.countP (Database.selects id states) :=
    List.countP_pos_iff.mpr ⟨r, member, selected⟩
  have distinct : ((v.records.filter (Database.selects id states)).map TransferRecord.id).Nodup :=
    v.records_distinct.sublist ((List.filter_sublist).map _)
  have alike : (v.records.filter (Database.selects id states)).map TransferRecord.id ⊆ [id] := by
    intro other named
    obtain ⟨r', inside, rfl⟩ := List.mem_map.mp named
    have selected := (List.mem_filter.mp inside).2
    simp only [Database.selects, Bool.and_eq_true, decide_eq_true_eq] at selected
    exact List.mem_singleton.mpr selected.1
  have few := (List.subperm_of_subset distinct alike).length_le
  rw [List.length_map, ← List.countP_eq_length_filter, List.length_singleton] at few
  omega

/-- Whether a transfer can start depends on its own record alone. -/
theorem start_same {request : TransferRequest} {now : Instant} (same : SameRecord id db v)
    (step : db.start id request now = .ok db') :
    ∃ v', v.start id request now = .ok v' ∧ SameRecord id db' v' := by
  obtain ⟨present, present'⟩ := start_isSome step
  have started := (Database.start_transfer step).1
  have fresh : id ∉ v.records.map TransferRecord.id := by
    intro member
    obtain ⟨r, member, named⟩ := List.mem_map.mp member
    have found := Database.transfer_of_mem member
    rw [named, ← same.record] at found
    have stored := List.mem_of_find?_eq_some found
    exact (Database.start_records step).1 (List.mem_map.mpr ⟨r, stored, named⟩)
  have succeeds : ∃ v', v.start id request now = .ok v' := by
    rw [same.table] at present
    obtain ⟨t, table⟩ := Option.isSome_iff_exists.mp present
    unfold Database.start Database.insertTransfer at step ⊢
    cases bound : bindParameters _ with
    | error e =>
      rw [bound] at step
      cases step
    | ok _ =>
      rw [Database.records, table, Option.map_some, Option.getD_some] at fresh
      have fresh : (startedRecord id request now).id ∉ t.rows.map TransferRecord.id := fresh
      simp only [bind, Except.bind, table, dif_pos fresh]
      exact ⟨_, rfl⟩
  obtain ⟨v', step'⟩ := succeeds
  refine ⟨v', step', ?_, ?_⟩
  · rw [present', (start_isSome step').2]
  · rw [started, (Database.start_transfer step').1]

/-- Whether a state change succeeds depends on its own record alone. -/
theorem transition_same {states : List TransferStatus} {update : TransferChange}
    (same : SameRecord id db v) (step : db.transition id states update = .ok db') :
    ∃ v', v.transition id states update = .ok v' ∧ SameRecord id db' v' := by
  obtain ⟨present, present'⟩ := transition_isSome step
  obtain ⟨⟨r, found, inState, changed⟩, -⟩ := Database.transition_transfer step
  have found' : v.transfer id = some r := same.record ▸ found
  have one := countP_selects found' inState
  have succeeds : ∃ v', v.transition id states update = .ok v' := by
    rw [same.table] at present
    obtain ⟨t, table⟩ := Option.isSome_iff_exists.mp present
    have counted : t.rows.countP (Database.selects id states) = 1 := by
      rwa [Database.records, table, Option.map_some, Option.getD_some] at one
    have counted' := (Database.transition_records step).1
    unfold Database.transition Database.updateTransfer at step ⊢
    cases bound : bindParameters _ _ with
    | error e =>
      rw [bound] at step
      cases step
    | ok _ =>
      cases checked : update.breaksCheck with
      | true =>
        simp only [bound, bind, Except.bind] at step
        cases before : db.transfers with
        | none =>
          rw [before] at step
          cases step
        | some t' =>
          rw [Database.records, before, Option.map_some, Option.getD_some] at counted'
          simp [before, checked, counted'] at step
      | false =>
        simp only [bind, Except.bind, table, counted]
        exact ⟨_, rfl⟩
  obtain ⟨v', step'⟩ := succeeds
  obtain ⟨⟨r', found'', -, changed'⟩, -⟩ := Database.transition_transfer step'
  refine ⟨v', step', ?_, ?_⟩
  · rw [present', (transition_isSome step').2]
  · rw [found', Option.some.injEq] at found''
    rw [changed, changed', found'']

/-- A ledger call on one record, on two databases that agree on it. -/
theorem Committed.same {effect : Instant → Database → Except Exc Database} {α : Type}
    {r : Except Exc α} (agree : ∀ now db db' v, SameRecord id db v → effect now db = .ok db' →
      ∃ v', effect now v = .ok v' ∧ SameRecord id db' v')
    (same : SameRecord id db v) (step : Committed effect db r db') :
    ∃ v', Committed effect v r v' ∧ SameRecord id db' v' := by
  rcases step with ⟨now, step⟩ | ⟨failed, rfl⟩
  · obtain ⟨v', step', same'⟩ := agree now _ _ _ same step
    exact ⟨v', .inl ⟨now, step'⟩, same'⟩
  · exact ⟨v, .inr ⟨failed, rfl⟩, same⟩

/-- Another transfer's call leaves the record alone. -/
theorem Committed.frame {effect : Instant → Database → Except Exc Database} {α : Type}
    {r : Except Exc α} (apart : ∀ now db db', effect now db = .ok db' →
      db.transfers.isSome = db'.transfers.isSome ∧ db'.transfer id = db.transfer id)
    (same : SameRecord id db v) (step : Committed effect db r db') : SameRecord id db' v := by
  rcases step with ⟨now, step⟩ | ⟨-, rfl⟩
  · obtain ⟨table, record⟩ := apart now _ _ step
    exact ⟨table ▸ same.table, record ▸ same.record⟩
  · exact same

variable {T : Type}

theorem ledgerSem_same {β : Type} {op : TransferEffect T β} {r : β} (named : Names id op)
    (same : SameRecord id db v) (answer : ledgerSem T op db r db') :
    ∃ v', ledgerSem T op v r v' ∧ SameRecord id db' v' := by
  cases op with
  | startTransfer id' request =>
    obtain rfl : id' = id := named
    exact Committed.same (fun _ _ _ _ => start_same) same answer
  | recordProgress id' bytes | markPublishing id' bytes
  | failTransfer id' bytes phase code message =>
    obtain rfl : id' = id := named
    exact Committed.same (fun _ _ _ _ => transition_same) same answer
  | finishTransfer id' =>
    obtain rfl : id' = id := named
    have agree : ∀ (now : Instant) (db db' v : Database), SameRecord id' db v →
        db.transition id' [.publishing] (completedChange now) = .ok db' →
        ∃ v', v.transition id' [.publishing] (completedChange now) = .ok v' ∧
          SameRecord id' db' v' := fun _ _ _ _ => transition_same
    obtain ⟨v', answer', same'⟩ := Committed.same agree same answer.1
    refine ⟨v', ⟨answer', fun record returned => ?_⟩, same'⟩
    rw [← same'.record]
    exact answer.2 record returned
  | get _ | clock | connector _ | openSource _ | read _ | closeSource _ | openSink _ _ _ | write _
  | finish | closeSink _ =>
    obtain rfl : db' = db := answer
    exact ⟨v, rfl, same⟩

theorem ledgerSem_frame {other : Text} {β : Type} {op : TransferEffect T β} {r : β}
    (named : Names other op) (differs : id ≠ other) (same : SameRecord id db v)
    (answer : ledgerSem T op db r db') : SameRecord id db' v := by
  have started : ∀ (request : TransferRequest) (now : Instant) (db db' : Database),
      db.start other request now = .ok db' →
      db.transfers.isSome = db'.transfers.isSome ∧ db'.transfer id = db.transfer id := by
    intro request now db db' step
    obtain ⟨present, present'⟩ := start_isSome step
    exact ⟨present.trans present'.symm, (Database.start_transfer step).2 id differs⟩
  have changed : ∀ (states : List TransferStatus) (update : Instant → TransferChange)
      (now : Instant) (db db' : Database), db.transition other states (update now) = .ok db' →
      db.transfers.isSome = db'.transfers.isSome ∧ db'.transfer id = db.transfer id := by
    intro states update now db db' step
    obtain ⟨present, present'⟩ := transition_isSome step
    exact ⟨present.trans present'.symm, (Database.transition_transfer step).2 id differs⟩
  cases op with
  | startTransfer id' request =>
    obtain rfl : id' = other := named
    exact Committed.frame (started request) same answer
  | recordProgress id' bytes =>
    obtain rfl : id' = other := named
    exact Committed.frame (changed _ (progressChange bytes)) same answer
  | markPublishing id' bytes =>
    obtain rfl : id' = other := named
    exact Committed.frame (changed _ (publishingChange bytes)) same answer
  | failTransfer id' bytes phase code message =>
    obtain rfl : id' = other := named
    exact Committed.frame (changed _ (failedChange bytes phase code message)) same answer
  | finishTransfer id' =>
    obtain rfl : id' = other := named
    exact Committed.frame (changed _ completedChange) same answer.1
  | get _ | clock | connector _ | openSource _ | read _ | closeSource _ | openSink _ _ _ | write _
  | finish | closeSink _ =>
    obtain rfl : db' = db := answer
    exact same

end Records

/-! ## The calls of one transfer -/

namespace Transfer

variable {T : Type} {id : Text} {request : TransferRequest}

theorem connector_names {name : Text} : Routine.All (Names id) (connector (T := T) name) :=
  .bind (.invoke trivial) fun _ => .invoke trivial

theorem fail_names {e : Exc} : Routine.All (Names id) (fail (T := T) id request e) := by
  refine .bind .fields fun s => ?_
  refine .bind ?_ fun _ => .raise
  refine .catching (.invoke rfl) fun e' => ?_
  cases e' with
  | dataBridge _ => exact .pure
  | _ => exact .raise

theorem finish_names : Routine.All (Names id) (finish (T := T) id request) := by
  refine .catching (.invoke rfl) fun e => ?_
  cases e with
  | dataBridge _ => exact .raise
  | _ => exact .raise

variable [OfNat T 1] [Sub T] [LT T] [DecidableLT T]

theorem checkpoint_names : Routine.All (Names id) (checkpoint (T := T) id) := by
  refine .bind (.ask trivial) fun now => ?_
  refine .bind .fields fun s => ?_
  split
  · exact .pure
  · refine .bind .modify fun _ => ?_
    refine .catching (.invoke rfl) fun e => ?_
    cases e with
    | dataBridge _ => exact .pure
    | _ => exact .raise

theorem copy_names : Routine.All (Names id) (copy (T := T) id) := by
  refine .iterate (fun _ => ?_) ()
  refine .bind .modify fun _ => ?_
  refine .bind (.invoke trivial) fun chunk => ?_
  split
  · exact .pure
  · refine .bind .modify fun _ => ?_
    refine .bind (.invoke trivial) fun _ => ?_
    refine .bind .modify fun _ => ?_
    exact .bind checkpoint_names fun _ => .pure

theorem fill_names : Routine.All (Names id) (fill (T := T) id) := by
  refine .bind copy_names fun _ => ?_
  refine .bind .modify fun _ => ?_
  refine .bind (.invoke trivial) fun _ => ?_
  refine .bind .modify fun _ => ?_
  exact .bind .fields fun s => .invoke rfl

theorem attempt_names : Routine.All (Names id) (attempt (T := T) id request) := by
  refine .bind connector_names fun _ => ?_
  refine .bind .modify fun _ => ?_
  refine .bind connector_names fun _ => ?_
  refine .bind .modify fun _ => ?_
  refine .within (.invoke trivial) (fun _ => .invoke trivial) ?_
  refine .bind .modify fun _ => ?_
  refine .bind ?_ fun _ => .modify
  exact .within (.invoke trivial) (fun _ => .invoke trivial) fill_names

/-- Every ledger call of a transfer names its own record. -/
theorem run_names : Routine.All (Names id) (run (T := T) id request) := by
  refine .bind (.catching (.invoke rfl) fun e => ?_) fun _ => ?_
  · cases e with
    | dataBridge _ => exact .raise
    | _ => exact .raise
  · refine .bind (.ask trivial) fun now => ?_
    refine .bind .modify fun _ => ?_
    refine .bind (.catching attempt_names fun e => ?_) fun _ => finish_names
    refine .bind .fields fun s => ?_
    split
    · exact .pure
    · exact fail_names

end Transfer

/-! ## The slot of a call -/

namespace TransferService

/-- The exchange is one of the transfer itself. -/
def IsTransfer {T : Type} (x : Effect.Exchange (ServiceEffect T)) : Prop :=
  ∃ (β : Type) (op : TransferEffect T β) (answer : β), x = ⟨.inr op, answer⟩

section Calls

variable {T : Type}

/-- The exchange refuses a slot. -/
def IsRefusal : Effect.Exchange (ServiceEffect T) → Prop
  | ⟨.inl .acquire, acquired⟩ => acquired = false
  | _ => False

/-- What is left of a call when its transfer is over. -/
def releasing (r : Except Exc TransferRecord × TransferState T) :
    Prog (ServiceEffect T) (Except Exc TransferRecord × Unit) :=
  .call (.inl .release) fun
    | .ok _ => .ret (r.1, ())
    | .error e => .ret (.error e, ())

/-- A call that holds a slot: some of its transfer is left, then the release. -/
def Inside (p : Prog (ServiceEffect T) (Except Exc TransferRecord × Unit)) : Prop :=
  ∃ q : Prog (TransferEffect T) (Except Exc TransferRecord × TransferState T),
    p = (q.lift fun _ => Sum.inr).bind releasing

/-- The call has its slot, and every other exchange so far is of its transfer. -/
def Took (own : List (Effect.Exchange (ServiceEffect T))) : Prop :=
  ∃ rest, own = ⟨.inl .acquire, true⟩ :: rest ∧ ∀ x ∈ rest, IsTransfer x

variable [OfNat T 0] [OfNat T 1] [Sub T] [LT T] [DecidableLT T] {capacity : Nat} {id : Text}
  {request : TransferRequest}

/-- How far a call has come, with its exchanges; `slot` says whether it holds a slot. -/
inductive Stage (capacity : Nat) (id : Text) (request : TransferRequest) :
    (slot : Bool) → List (Effect.Exchange (ServiceEffect T)) →
    Prog (ServiceEffect T) (Except Exc TransferRecord × Unit) → Prop
  | rejected {e : Exc} : precheck request = .error e →
    Stage capacity id request false [] (.ret (.error e, ()))
  | ready {p : Prog (ServiceEffect T) (Except Exc TransferRecord × Unit)} :
    precheck request = .ok () → p = run capacity id request () →
    Stage capacity id request false [] p
  | refused : precheck request = .ok () → Stage capacity id request false [⟨.inl .acquire, false⟩]
      (.ret (.error (capacityExceeded capacity), ()))
  | inside {own : List (Effect.Exchange (ServiceEffect T))}
      {p : Prog (ServiceEffect T) (Except Exc TransferRecord × Unit)} :
    precheck request = .ok () → Took own → Inside p → Stage capacity id request true own p
  | ended {own : List (Effect.Exchange (ServiceEffect T))} {r : Except Exc TransferRecord × Unit} :
    precheck request = .ok () → ⟨.inl .acquire, true⟩ ∈ own → (∀ x ∈ own, ¬ IsRefusal x) →
    Stage capacity id request false own (.ret r)

theorem withSlot_inside : Inside (withSlot (T := T) id request ()) := by
  refine ⟨Transfer.run id request { checkpoint := 0 }, ?_⟩
  unfold withSlot Routine.ensuring transfer
  rw [Prog.bind_assoc]
  congr 1
  funext r
  refine congrArg (Prog.call _) (funext fun b => ?_)
  cases b <;> rfl

/-- A call that passes the checks asks for a slot. -/
theorem run_of_precheck (checked : precheck request = .ok ()) :
    run (T := T) capacity id request () = .call (.inl .acquire) fun acquired =>
      (if acquired then withSlot id request else .raise (capacityExceeded capacity)) () := by
  change Prog.bind (Prog.ret (precheck request, ())) _ = _
  rw [checked]
  rfl

theorem stage_run (capacity : Nat) (id : Text) (request : TransferRequest) :
    Stage (T := T) capacity id request false [] (run capacity id request ()) := by
  cases checked : precheck request with
  | error e =>
    have raised : run (T := T) capacity id request () = .ret (.error e, ()) := by
      change Prog.bind (Prog.ret (precheck request, ())) _ = _
      rw [checked]
      rfl
    rw [raised]
    exact .rejected checked
  | ok _ => exact .ready checked rfl

/-- An exchange moves the call on, and the slot it takes or gives back is its own. -/
theorem Stage.call {slot : Bool} {own : List (Effect.Exchange (ServiceEffect T))} {β : Type}
    {op : ServiceEffect T β} {k : β → Prog (ServiceEffect T) (Except Exc TransferRecord × Unit)}
    {w w' : ServiceWorld} {b : β} (stage : Stage capacity id request slot own (.call op k))
    (bound : slot = true → w.slots < capacity) (answer : serviceSem T capacity op w b w') :
    ∃ slot', Stage capacity id request slot' (own ++ [⟨op, b⟩]) (k b) ∧
      w'.slots + slot'.toNat = w.slots + slot.toNat := by
  cases stage with
  | ready checked next =>
    rw [run_of_precheck checked] at next
    cases next
    rcases answer with ⟨rfl, free, rfl⟩ | ⟨rfl, -, rfl⟩
    · refine ⟨true, .inside checked ⟨[], rfl, fun x none => by cases none⟩ withSlot_inside, ?_⟩
      simp only [Bool.toNat_true, Bool.toNat_false]
      omega
    · exact ⟨false, .refused checked, rfl⟩
  | inside checked took inside =>
    obtain ⟨rest, rfl, transfers⟩ := took
    obtain ⟨q, next⟩ := inside
    cases q with
    | ret r =>
      cases next
      rcases answer with ⟨-, rfl, rfl⟩ | ⟨full, -, -⟩
      · refine ⟨false, .ended checked (List.mem_append_left _ List.mem_cons_self) ?_, rfl⟩
        intro x member refusal
        rcases List.mem_append.mp member with member | member
        · rcases List.mem_cons.mp member with rfl | member
          · cases refusal
          · obtain ⟨_, _, _, rfl⟩ := transfers x member
            exact refusal
        · rw [List.mem_singleton.mp member] at refusal
          exact refusal
      · exact absurd (bound rfl) (by omega)
    | call op' k' =>
      cases next
      refine ⟨true, .inside checked ⟨rest ++ [⟨.inr op', b⟩], rfl, ?_⟩ ⟨k' b, rfl⟩, ?_⟩
      · intro x member
        rcases List.mem_append.mp member with member | member
        · exact transfers x member
        · rw [List.mem_singleton.mp member]
          exact ⟨_, op', b, rfl⟩
      · rw [answer.2]
    | loop body s k' => cases next

/-- The unrolling of a loop leaves the call where it is. -/
theorem Stage.loop {slot : Bool} {own : List (Effect.Exchange (ServiceEffect T))} {β σ : Type}
    {body : σ → Prog (ServiceEffect T) (σ ⊕ β)} {s : σ}
    {k : β → Prog (ServiceEffect T) (Except Exc TransferRecord × Unit)}
    (stage : Stage capacity id request slot own (.loop body s k)) :
    Stage capacity id request slot own (Prog.unroll body s k) := by
  cases stage with
  | ready checked next =>
    rw [run_of_precheck checked] at next
    cases next
  | inside checked took inside =>
    obtain ⟨q, next⟩ := inside
    cases q with
    | ret r => cases next
    | call op' k' => cases next
    | loop body' s k' =>
      cases next
      refine .inside checked took ⟨Prog.unroll body' s k', ?_⟩
      rw [Prog.lift_unroll, Prog.unroll_bind]

section Stages

variable {slot : Bool} {own : List (Effect.Exchange (ServiceEffect T))}
  {p : Prog (ServiceEffect T) (Except Exc TransferRecord × Unit)}

/-- A call with a slot that has not ended holds the slot. -/
theorem Stage.held (stage : Stage capacity id request slot own p)
    (took : ⟨.inl .acquire, true⟩ ∈ own) (running : ∀ r, p ≠ .ret r) : slot = true := by
  cases stage with
  | rejected _ => cases took
  | ready _ _ => cases took
  | refused _ => cases List.mem_singleton.mp took
  | inside _ _ _ => rfl
  | ended _ _ _ => exact absurd rfl (running _)

/-- Only a call with a slot goes on to its transfer. -/
theorem Stage.took (stage : Stage capacity id request slot own p)
    {x : Effect.Exchange (ServiceEffect T)} (member : x ∈ own) (transfers : IsTransfer x) :
    ⟨.inl .acquire, true⟩ ∈ own := by
  cases stage with
  | rejected _ => cases member
  | ready _ _ => cases member
  | refused _ =>
    obtain ⟨_, _, _, rfl⟩ := transfers
    cases List.mem_singleton.mp member
  | inside _ took _ =>
    obtain ⟨rest, rfl, -⟩ := took
    exact List.mem_cons_self
  | ended _ took _ => exact took

/-- A request that fails the checks ends its call at once. -/
theorem Stage.of_rejected (stage : Stage capacity id request slot own p) {e : Exc}
    (failed : precheck request = .error e) : own = [] ∧ p = .ret (.error e, ()) := by
  cases stage with
  | rejected failed' =>
    rw [failed] at failed'
    cases failed'
    exact ⟨rfl, rfl⟩
  | ready checked _ | refused checked | inside checked _ _ | ended checked _ _ =>
    rw [failed] at checked
    cases checked

/-- A call that gets no slot ends with `capacityExceeded`. -/
theorem Stage.of_refused (stage : Stage capacity id request slot own p)
    (refused : ⟨.inl .acquire, false⟩ ∈ own) : own = [⟨.inl .acquire, false⟩] ∧
      p = .ret (.error (capacityExceeded capacity), ()) := by
  cases stage with
  | rejected _ => cases refused
  | ready _ _ => cases refused
  | refused _ => exact ⟨rfl, rfl⟩
  | inside _ took _ =>
    obtain ⟨rest, rfl, transfers⟩ := took
    rcases List.mem_cons.mp refused with same | member
    · cases same
    · obtain ⟨_, _, _, same⟩ := transfers _ member
      cases same
  | ended _ _ others => exact absurd rfl (others _ refused)

/-- A call that holds a slot has begun, and has not ended. -/
theorem Stage.busy (stage : Stage capacity id request true own p) :
    ¬ (own = [] ∨ ∃ r, p = .ret r) := by
  cases stage with
  | inside _ took inside =>
    obtain ⟨rest, rfl, -⟩ := took
    obtain ⟨q, rfl⟩ := inside
    rintro (none | ⟨r, ended⟩)
    · cases none
    · cases q with
      | ret _ => cases ended
      | call _ _ => cases ended
      | loop _ _ _ => cases ended

end Stages

end Calls

/-! ## Any number of calls -/

section Runs

variable {T ι : Type} {capacity : Nat} {id : ι → Text} {request : ι → TransferRequest}

/-- The service, with the states that the record of each call passes through. -/
abbrev watchedSem (T : Type) (capacity : Nat) (id : ι → Text) :
    Sem (ServiceEffect T) (ServiceWorld × (ι → List (Option TransferRecord))) :=
  (serviceSem T capacity).watching fun i w => w.db.transfer (id i)

/-- A call alone, with the states that its record passes through. -/
abbrev watchedAlone (T : Type) (id : Text) :
    Sem (ServiceEffect T) (Database × (Unit → List (Option TransferRecord))) :=
  (aloneSem T).watching fun _ db => db.transfer id

/-- The ledger calls of a call name its own record. -/
def ServiceNames (id : Text) {T : Type} ⦃β : Type⦄ : ServiceEffect T β → Prop
  | .inl _ => True
  | .inr op => Names id op

/-- The record of one call, among the others and alone. -/
structure SameHistory (id : ι → Text) (i : ι)
    (w : ServiceWorld × (ι → List (Option TransferRecord)))
    (v : Database × (Unit → List (Option TransferRecord))) : Prop where
  record : SameRecord (id i) w.1.db v.1
  history : w.2 i = v.2 ()

theorem SameHistory.mine {i : ι} {β : Type} {op : ServiceEffect T β}
    {w w' : ServiceWorld × (ι → List (Option TransferRecord))} {b : β}
    {v : Database × (Unit → List (Option TransferRecord))} (named : ServiceNames (id i) op)
    (answer : watchedSem T capacity id op w b w') (same : SameHistory id i w v) :
    ∃ v', watchedAlone T (id i) op v b v' ∧ SameHistory id i w' v' := by
  obtain ⟨answer, seen⟩ := answer
  have alone : ∃ db', aloneSem T op v.1 b db' ∧ SameRecord (id i) w'.1.db db' := by
    cases op with
    | inl op => exact ⟨v.1, rfl, serviceSem_db answer ▸ same.record⟩
    | inr op => exact ledgerSem_same named same.record answer.1
  obtain ⟨db', answer', same'⟩ := alone
  refine ⟨(db', fun _ => w'.2 i), ⟨answer', fun _ => ?_⟩, same', rfl⟩
  have seen := seen i
  simp only [same.record.record, same'.record, same.history] at seen ⊢
  exact seen

theorem SameHistory.others {i j : ι} (differs : id i ≠ id j) {β : Type} {op : ServiceEffect T β}
    {w w' : ServiceWorld × (ι → List (Option TransferRecord))} {b : β}
    {v : Database × (Unit → List (Option TransferRecord))} (named : ServiceNames (id j) op)
    (answer : watchedSem T capacity id op w b w') (same : SameHistory id i w v) :
    SameHistory id i w' v := by
  obtain ⟨answer, seen⟩ := answer
  have record : SameRecord (id i) w'.1.db v.1 := by
    cases op with
    | inl op => exact serviceSem_db answer ▸ same.record
    | inr op => exact ledgerSem_frame named differs same.record answer.1
  refine ⟨record, ?_⟩
  rcases seen i with ⟨-, kept⟩ | ⟨changed, -⟩
  · rw [kept, same.history]
  · exact absurd (record.record.trans same.record.record.symm) changed

variable [OfNat T 0] [OfNat T 1] [Sub T] [LT T] [DecidableLT T] [DecidableEq ι]

/-- The pool of the service. -/
abbrev ServicePool (T ι : Type) : Type 1 :=
  Pool ι (ServiceEffect T) (ServiceWorld × (ι → List (Option TransferRecord)))
    (Except Exc TransferRecord × Unit)

/-- All calls before their first step, on a database. -/
def calls (T : Type) [OfNat T 0] [OfNat T 1] [Sub T] [LT T] [DecidableLT T] (capacity : Nat)
    (id : ι → Text) (request : ι → TransferRequest) (db : Database) : ServicePool T ι where
  thread := fun i => run capacity (id i) (request i) ()
  world := (⟨capacity, db⟩, fun _ => [])

/-- The calls that hold a slot; the other slots are free. -/
structure Slots (capacity : Nat) (id : ι → Text) (request : ι → TransferRequest)
    (l : List (ι × Effect.Exchange (ServiceEffect T))) (c : ServicePool T ι) (held : Finset ι) : Prop where
  stage : ∀ i, Stage capacity (id i) (request i) (decide (i ∈ held)) (Pool.own i l) (c.thread i)
  count : c.world.1.slots + held.card = capacity

/-- One call takes or gives back its slot. -/
theorem exists_held (held : Finset ι) (i : ι) (slot : Bool) : ∃ held' : Finset ι,
    decide (i ∈ held') = slot ∧ (∀ j, j ≠ i → (j ∈ held' ↔ j ∈ held)) ∧
      held'.card + (decide (i ∈ held)).toNat = held.card + slot.toNat := by
  by_cases member : i ∈ held
  · cases slot with
    | true => exact ⟨held, by simpa using member, fun _ _ => Iff.rfl, by simp [member]⟩
    | false =>
      refine ⟨held.erase i, by simp, fun j other => by simp [other], ?_⟩
      have card := Finset.card_erase_add_one member
      simp only [member, decide_true, Bool.toNat_true, Bool.toNat_false]
      omega
  · cases slot with
    | true =>
      refine ⟨insert i held, by simp, fun j other => by simp [other], ?_⟩
      have card := Finset.card_insert_of_notMem member
      simp only [member, decide_false, Bool.toNat_true, Bool.toNat_false]
      omega
    | false => exact ⟨held, by simpa using member, fun _ _ => Iff.rfl, by simp [member]⟩

/-- Each held slot has one call, at every moment of a run. -/
theorem exists_slots {db : Database} {l : List (ι × Effect.Exchange (ServiceEffect T))}
    {c : ServicePool T ι}
    (run : Pool.Runs (watchedSem T capacity id) (calls T capacity id request db) l c) :
    ∃ held, Slots capacity id request l c held := by
  induction run with
  | start => exact ⟨∅, fun i => stage_run capacity (id i) (request i), Nat.add_zero capacity⟩
  | @call l c i _ op k w b _ next answer ih =>
    obtain ⟨held, slots⟩ := ih
    have stage := slots.stage i
    rw [next] at stage
    have count := slots.count
    have bound : decide (i ∈ held) = true → c.world.1.slots < capacity := by
      intro member
      have positive := Finset.card_pos.mpr ⟨i, of_decide_eq_true member⟩
      omega
    obtain ⟨slot, stage', sum⟩ := stage.call bound answer.1
    obtain ⟨held', mine, others, card⟩ := exists_held held i slot
    refine ⟨held', fun j => ?_, ?_⟩
    · by_cases same : j = i
      · subst same
        rw [Pool.thread_goOn_self, Pool.own_append_self, mine]
        exact stage'
      · have other : i ≠ j := fun equal => same equal.symm
        rw [Pool.thread_goOn_other same, Pool.own_append_other l _ other,
          decide_eq_decide.mpr (others j same)]
        exact slots.stage j
    · rw [Pool.world_goOn]
      omega
  | @loop l c i _ _ body s k _ next ih =>
    obtain ⟨held, slots⟩ := ih
    refine ⟨held, fun j => ?_, slots.count⟩
    by_cases same : j = i
    · subst same
      have stage := slots.stage j
      rw [next] at stage
      rw [Pool.thread_goOn_self]
      exact stage.loop
    · rw [Pool.thread_goOn_other same]
      exact slots.stage j

theorem transfer_names {id : Text} {request : TransferRequest} :
    Routine.All (ServiceNames id) (transfer (T := T) id request) := by
  intro s
  refine .bind ?_ fun _ => trivial
  refine Prog.All.lift (P := Names id) ?_ (Transfer.run_names _)
  intro β op named
  exact named

theorem run_names {id : Text} {request : TransferRequest} :
    Routine.All (ServiceNames id) (run (T := T) capacity id request) := by
  refine .bind .ofExcept fun _ => ?_
  refine .bind (.ask trivial) fun acquired => ?_
  split
  · intro s
    refine .bind (transfer_names s) fun r => ?_
    refine .bind ⟨trivial, fun _ => trivial⟩ fun r' => ?_
    obtain ⟨r', s'⟩ := r'
    cases r' with
    | ok _ => exact trivial
    | error e => exact trivial
  · exact .raise

/-- A call has taken a slot, and has not ended. -/
def InProgress (l : List (ι × Effect.Exchange (ServiceEffect T))) (c : ServicePool T ι) (i : ι) : Prop :=
  ⟨.inl .acquire, true⟩ ∈ Pool.own i l ∧ ∀ r, c.thread i ≠ .ret r

/-- Concurrent calls of `TransferService.run`, with any failures of what they
call: no more of them are in progress than there are slots, a call without a slot
asks nothing of the ledger and the connectors, all slots are free when no call is
in progress, and the record of each call goes through the states that it goes
through when the call runs alone with the same answers. -/
theorem concurrent {db : Database} {l : List (ι × Effect.Exchange (ServiceEffect T))}
    {c : ServicePool T ι} (distinct : Function.Injective id)
    (run : Pool.Runs (watchedSem T capacity id) (calls T capacity id request db) l c) :
    (∀ F : Finset ι, (∀ i ∈ F, InProgress l c i) → F.card ≤ capacity) ∧
    (∀ i, ∀ x ∈ Pool.own i l, IsTransfer x → ⟨.inl .acquire, true⟩ ∈ Pool.own i l) ∧
    (∀ i e, precheck (request i) = .error e →
      Pool.own i l = [] ∧ c.thread i = .ret (.error e, ())) ∧
    (∀ i, ⟨.inl .acquire, false⟩ ∈ Pool.own i l → Pool.own i l = [⟨.inl .acquire, false⟩] ∧
      c.thread i = .ret (.error (capacityExceeded capacity), ())) ∧
    ((∀ i, Pool.own i l = [] ∨ ∃ r, c.thread i = .ret r) → c.world.1.slots = capacity) ∧
    ∀ i, ∃ db', Prog.Emits (watchedAlone T (id i))
        (TransferService.run capacity (id i) (request i) ()) (db, fun _ => [])
        (Pool.own i l) (c.thread i) (db', fun _ => c.world.2 i) ∧
      c.world.1.db.transfer (id i) = db'.transfer (id i) := by
  obtain ⟨held, slots⟩ := exists_slots run
  have count := slots.count
  refine ⟨fun F busy => ?_, fun i x member transfers => ?_, fun i e failed => ?_,
    fun i refused => ?_, fun idle => ?_, fun i => ?_⟩
  · have inside : F ⊆ held := by
      intro i member
      obtain ⟨took, running⟩ := busy i member
      exact of_decide_eq_true ((slots.stage i).held took running)
    have few := Finset.card_le_card inside
    omega
  · exact (slots.stage i).took member transfers
  · exact (slots.stage i).of_rejected failed
  · exact (slots.stage i).of_refused refused
  · have none : held = ∅ := by
      refine Finset.eq_empty_of_forall_notMem fun i member => ?_
      have stage := slots.stage i
      rw [decide_eq_true member] at stage
      exact stage.busy (idle i)
    rw [none, Finset.card_empty] at count
    exact count
  · obtain ⟨v, emits, same⟩ := run.project (P := fun j => ServiceNames (id j)) (i := i)
      (R := SameHistory id i) (v := (db, fun _ => []))
      (fun j => run_names ()) (fun _ _ _ _ _ _ => SameHistory.mine)
      (fun j other _ _ _ _ _ _ named answer same =>
        same.others (fun equal => other (distinct equal).symm) named answer)
      ⟨⟨rfl, rfl⟩, rfl⟩
    have history : v = (v.1, fun _ => c.world.2 i) := by
      rw [same.history]
    rw [history] at emits
    exact ⟨v.1, emits, same.record.record⟩

/-- One slot and two calls: the first takes the slot, and the second is refused. -/
theorem concurrent_refused : ∃ (l : List (Bool × Effect.Exchange (ServiceEffect Nat)))
    (c : ServicePool Nat Bool), Pool.own true l = [⟨.inl .acquire, false⟩] ∧
      c.thread true = .ret (.error (capacityExceeded 1), ()) ∧
      ∀ F : Finset Bool, (∀ i ∈ F, InProgress l c i) → F.card ≤ 1 := by
  let id : Bool → Text := fun i => if i then lit "2" else lit "1"
  let request : Bool → TransferRequest := fun _ => {
    source := lit "a", sourceFile := lit "f", destination := lit "b", destinationFile := lit "g" }
  have distinct : Function.Injective id := by decide +kernel
  have checked : ∀ i, precheck (request i) = .ok () := fun _ => by decide +kernel
  have before : Pool.Runs (watchedSem Nat 1 id) (calls Nat 1 id request {}) []
      (calls Nat 1 id request {}) := .start
  have taken := before.call (i := false) (run_of_precheck (checked false))
    (b := true) (w := (⟨0, {}⟩, fun _ => [])) ⟨.inl ⟨rfl, Nat.one_pos, rfl⟩, fun _ => .inl ⟨rfl, rfl⟩⟩
  have refused := taken.call (i := true) (run_of_precheck (checked true))
    (b := false) (w := (⟨0, {}⟩, fun _ => [])) ⟨.inr ⟨rfl, rfl, rfl⟩, fun _ => .inl ⟨rfl, rfl⟩⟩
  obtain ⟨few, -, -, ended, -⟩ := concurrent distinct refused
  obtain ⟨own, thread⟩ := ended true (List.mem_singleton.mpr rfl)
  exact ⟨_, _, own, thread, few⟩

end Runs

end TransferService

end DataBridge
