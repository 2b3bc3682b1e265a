import DataBridge.Store.Lifecycle
import DataBridge.Transfer.Outcome

/-!
# Recovery after a stop

A process may stop at any configuration that a run reaches, and at any statement
of the startups that follow. `startup_cases` tells what a startup leaves behind,
finished or not: the records as they were, or all unfinished ones interrupted.
The guarantee of `Transfer.run_wp` tells how far the stopped run had come.
-/

namespace DataBridge

open Effect Routine Sqlite TransferWorld

/-- The records after a recovery at `now`. -/
def recovered (now : Instant) (rows : List TransferRecord) : List TransferRecord :=
  rows.map fun r => if Unfinished r then interrupt now r else r

theorem unfinished_interrupt (now : Instant) (r : TransferRecord) :
    Unfinished (interrupt now r) = false := rfl

/-- A second recovery finds nothing to do. -/
theorem recovered_recovered (now later : Instant) (rows : List TransferRecord) :
    recovered later (recovered now rows) = recovered now rows := by
  rw [recovered, recovered, List.map_map]
  refine List.map_congr_left fun r _ => ?_
  simp only [Function.comp_apply]
  by_cases unfinished : Unfinished r
  · rw [if_pos unfinished, unfinished_interrupt, if_neg Bool.false_ne_true]
  · rw [if_neg unfinished, if_neg unfinished]

/-- What a startup may leave behind. -/
def Restarted (db db' : Database) : Prop :=
  db'.records = db.records ∨ ∃ now, db'.records = recovered now db.records

theorem Restarted.trans {d₁ d₂ d₃ : Database} (first : Restarted d₁ d₂)
    (second : Restarted d₂ d₃) : Restarted d₁ d₃ := by
  rcases first with same | ⟨now, first⟩
  · rw [Restarted, ← same]
    exact second
  · rcases second with same | ⟨later, second⟩
    · exact .inr ⟨now, same.trans first⟩
    · exact .inr ⟨now, by rw [second, first, recovered_recovered]⟩

/-- A startup on the file `db`, as far as it came, with what it left. -/
def Startup (cipher : Fernet) (db db' : Database) : Prop :=
  ∃ nonce now c, Prog.Reach (Sql.sem sqliteFault) (initializeStore cipher nonce now (), ⟨db, none⟩) c ∧
    c.2.file = db'

/-- A startup on the file `db` that succeeded and left `db'`. -/
def StartupSucceeds (cipher : Fernet) (db db' : Database) : Prop :=
  ∃ nonce now c, Prog.Reach (Sql.sem sqliteFault) (initializeStore cipher nonce now (), ⟨db, none⟩)
    (.ret (.ok (), ()), c) ∧ c.file = db'

/-- A startup, stopped at any statement, recovers all records or none. -/
theorem startup_cases {cipher : Fernet} {db db' : Database} (run : Startup cipher db db') :
    Restarted db db' := by
  obtain ⟨nonce, now, c, reach, rfl⟩ := run
  by_cases fresh : db.tables = []
  · have empty := Database.records_nil_of_tables fresh
    have wp : (initializeStore cipher nonce now).Wp
        (driver sqliteFault fun d d' => d.records = [] → d'.records = []) _ () ⟨db, none⟩ :=
      initializeStore_fresh_wp (fun _ h => h) (fun _ _ h _ => h) fresh
    have still : c.2.file.records = [] :=
      Prog.Wp.invariant (I := fun c => c.file.records = []) wp empty (fun _ _ h kept => kept h)
        reach
    exact .inl (still.trans empty.symm)
  · have wp : (initializeStore cipher nonce now).Wp (driver sqliteFault Restarted) _ ()
        ⟨db, none⟩ :=
      initializeStore_existing_wp (fun _ => .inl rfl)
        (fun _ _ step => .inr ⟨now, Database.recover_records step⟩) fresh
    refine Prog.Wp.invariant (I := fun c => Restarted db c.file) wp (.inl rfl) ?_ reach
    intro c c' before step
    exact Restarted.trans before step

/-- A startup that succeeds recovers all records. -/
theorem startup_succeeds {cipher : Fernet} {db db' : Database}
    (run : StartupSucceeds cipher db db') : ∃ now, db'.records = recovered now db.records := by
  obtain ⟨nonce, now, c, reach, rfl⟩ := run
  have still : ∀ d : Database, True := fun _ => trivial
  by_cases fresh : db.tables = []
  · have wp : (initializeStore cipher nonce now).Wp (driver sqliteFault fun _ _ => True) _ ()
        ⟨db, none⟩ := initializeStore_fresh_wp still (fun _ _ _ => trivial) fresh
    refine ⟨now, (wp.result reach).2.trans ?_⟩
    rw [Database.records_nil_of_tables fresh]
    rfl
  · have wp : (initializeStore cipher nonce now).Wp (driver sqliteFault fun _ _ => True) _ ()
        ⟨db, none⟩ := initializeStore_existing_wp still (fun _ _ _ => trivial) fresh
    obtain ⟨-, -, n, step⟩ := wp.result reach
    exact ⟨now, Database.recover_records step⟩

/-! ## A stopped transfer -/

/-- The guarantee of a run, from its start to the point where it stops. -/
theorem stopped_kept {T : Type} [OfNat T 1] [Sub T] [LT T] [DecidableLT T] {id : Text}
    {request : TransferRequest} {content : Bytes} {db : Database} {checkpoint : T}
    {c : Prog (TransferEffect T) (Except Exc TransferRecord × TransferState T) × TransferWorld}
    (run : Prog.Reach (transferSem T fun _ => True)
      (Transfer.run id request { checkpoint }, .initial db content) c) :
    c.2.Recorded id ∧ ∀ other, other ≠ id → c.2.db.transfer other = db.transfer other := by
  have wp : (Transfer.run id request).Wp (transferSetting T (fun _ => True) id) _ { checkpoint }
      (.initial db content) := Transfer.run_wp ⟨.timeout, trivial⟩
  refine Prog.Wp.invariant (I := fun w => w.Recorded id ∧
    ∀ other, other ≠ id → w.db.transfer other = db.transfer other) wp
    ⟨.of_none rfl, fun _ _ => rfl⟩ ?_ run
  intro w w' h step
  exact ⟨step.recorded, fun other differs => (step.frame other differs).trans (h.2 other differs)⟩

theorem interrupted_differ : interruptedPublishing ≠ interruptedCopying := by decide +kernel

/-- Restarts after a stop, the last one successful, are one recovery. -/
theorem restarts_recover {cipher : Fernet} {db db₁ db₂ : Database}
    (restarts : Relation.ReflTransGen (Startup cipher) db db₁)
    (success : StartupSucceeds cipher db₁ db₂) :
    ∃ now, db₂.records = recovered now db.records := by
  have before : Restarted db db₁ := by
    clear success
    induction restarts with
    | refl => exact .inl rfl
    | tail _ last ih => exact ih.trans (startup_cases last)
  obtain ⟨now, last⟩ := startup_succeeds success
  rcases before with same | ⟨earlier, before⟩
  · exact ⟨now, by rw [last, same]⟩
  · exact ⟨earlier, by rw [last, before, recovered_recovered]⟩

/-- The record that a recovery leaves in place of a stored one. -/
theorem transfer_recovered {now : Instant} {db db' : Database}
    (step : db'.records = recovered now db.records) (id : Text) :
    db'.transfer id = (db.transfer id).map fun r => if Unfinished r then interrupt now r else r := by
  have keepsId : ∀ r, (interrupt now r).id = r.id := fun _ => rfl
  rw [Database.transfer, step, recovered, Database.find_update keepsId, Database.transfer]

/-- Stop a transfer anywhere and restart the service until a startup succeeds:
nothing is left unfinished, the message of an interrupted record is true, and
terminal records are as they were. -/
theorem Transfer.recovery {T : Type} [OfNat T 1] [Sub T] [LT T] [DecidableLT T] {id : Text}
    {request : TransferRequest} {content : Bytes} {db db₁ db₂ : Database} {checkpoint : T}
    {cipher : Fernet}
    {c : Prog (TransferEffect T) (Except Exc TransferRecord × TransferState T) × TransferWorld}
    (run : Prog.Reach (transferSem T fun _ => True)
      (Transfer.run id request { checkpoint }, .initial db content) c)
    (restarts : Relation.ReflTransGen (Startup cipher) c.2.db db₁)
    (success : StartupSucceeds cipher db₁ db₂) :
    (∀ r ∈ db₂.records, r.status ≠ .running ∧ r.status ≠ .publishing) ∧
    (∀ r, db₂.transfer id = some r → r.error = some interruptedCopying → c.2.published = none) ∧
    (∀ bytes, c.2.published = some bytes → ∃ r, db₂.transfer id = some r ∧
      (r.status = .completed ∨ r.error = some interruptedPublishing)) ∧
    ∀ r ∈ c.2.db.records, r.Terminal → db₂.transfer r.id = some r := by
  obtain ⟨now, records⟩ := restarts_recover restarts success
  have recorded := (stopped_kept run).1
  refine ⟨?_, ?_, ?_, ?_⟩
  · rw [records]
    intro _ member
    obtain ⟨r, -, rfl⟩ := List.mem_map.mp member
    split
    · exact ⟨TransferStatus.noConfusion, TransferStatus.noConfusion⟩
    · rename_i finished
      simpa [Unfinished] using finished
  · intro r' stored' message
    rw [transfer_recovered records] at stored'
    cases published : c.2.published with
    | none => rfl
    | some bytes =>
      exfalso
      obtain ⟨r, stored, status, noError⟩ := recorded bytes published
      rw [stored, Option.map_some, Option.some.injEq] at stored'
      subst stored'
      rcases status with status | status
      · have unfinished : Unfinished r := by simp [Unfinished, status]
        rw [if_pos unfinished] at message
        simp only [interrupt, if_pos status, Option.some.injEq] at message
        exact interrupted_differ message
      · simp [Unfinished, status, noError] at message
  · intro bytes published
    obtain ⟨r, stored, status, -⟩ := recorded bytes published
    refine ⟨_, by rw [transfer_recovered records, stored, Option.map_some], ?_⟩
    rcases status with status | status
    · right
      simp [Unfinished, interrupt, status]
    · left
      simp [Unfinished, status]
  · intro r member terminal
    rw [transfer_recovered records, Database.transfer_of_mem member, Option.map_some]
    have finished : Unfinished r = false := by
      rcases terminal with status | status <;> simp [Unfinished, status]
    rw [finished, if_neg Bool.false_ne_true]

/-! ### A run whose completion is refused -/

/-- Refuse a ledger call that cannot have its effect, and no other. -/
def ledgerAnswer (call : LedgerCall) (effect : Instant → Database → Except Exc Database)
    (w : TransferWorld) : Except Exc Unit × Unit × TransferWorld :=
  match effect 0 w.db with
  | .ok db => (.ok (), (), { w with db })
  | .error e => (.error e, (), { w with refused := call :: w.refused })

theorem ledgerAnswer_allowed (call : LedgerCall)
    (effect : Instant → Database → Except Exc Database) (w : TransferWorld) :
    w.Ledger (fun _ => True) call effect (ledgerAnswer call effect w).1
      (ledgerAnswer call effect w).2.2 := by
  unfold ledgerAnswer
  cases step : effect 0 w.db with
  | ok db => exact ⟨0, db, step, rfl⟩
  | error e => exact ⟨trivial, rfl⟩

/-- Surroundings in which only the completion of the record is refused. -/
def unrecordedAnswer : ∀ ⦃β : Type⦄, TransferEffect Nat β → Unit → TransferWorld →
    β × Unit × TransferWorld
  | _, .startTransfer id request, _, w =>
    ledgerAnswer .start (fun now db => db.start id request now) w
  | _, .get name, _, w => (.ok (.local ⟨name, lit "/data"⟩), (), w)
  | _, .recordProgress id bytes, _, w =>
    ledgerAnswer .progress
      (fun now db => db.transition id [.running] (progressChange bytes now)) w
  | _, .markPublishing id bytes, _, w =>
    ledgerAnswer .publishing
      (fun now db => db.transition id [.running] (publishingChange bytes now)) w
  | _, .finishTransfer _, _, w =>
    (.error .timeout, (), { w with refused := .finish :: w.refused })
  | _, .failTransfer id bytes phase code message, _, w =>
    ledgerAnswer .fail (fun now db =>
      db.transition id [.running, .publishing] (failedChange bytes phase code message now)) w
  | _, .clock, _, w => (0, (), w)
  | _, .connector _, _, w | _, .openSource _, _, w | _, .closeSource _, _, w
  | _, .openSink _ _ _, _, w | _, .finish, _, w | _, .closeSink (some _), _, w => (.ok (), (), w)
  | _, .read _, _, w => (.ok w.remaining, (), { w with remaining := [] })
  | _, .write data, _, w => (.ok (), (), { w with staged := w.staged ++ data })
  | _, .closeSink none, _, w => (.ok (), (), { w with published := some w.staged })

theorem unrecordedAnswer_allowed ⦃β : Type⦄ (op : TransferEffect Nat β) (o : Unit)
    (w : TransferWorld) :
    transferSem Nat (fun _ => True) op w (unrecordedAnswer op o w).1
      (unrecordedAnswer op o w).2.2 := by
  cases op with
  | startTransfer | recordProgress | markPublishing | failTransfer =>
    exact ledgerAnswer_allowed _ _ w
  | get name => exact .inl ⟨rfl, _, rfl⟩
  | finishTransfer id => exact .inr ⟨_, rfl, trivial, rfl⟩
  | clock | connector | openSource | closeSource | openSink | finish => exact rfl
  | read size => exact .inl ⟨w.remaining, [], rfl, (List.append_nil _).symm, fun _ => rfl, rfl⟩
  | write data => exact .inl ⟨rfl, rfl⟩
  | closeSink failure =>
    cases failure with
    | none => exact .inl ⟨rfl, rfl⟩
    | some e => exact rfl

/-- The world in which an executed run stops. -/
def stoppedWorld (id : Text) (request : TransferRequest) (w : TransferWorld) : TransferWorld :=
  ((Prog.eval unrecordedAnswer 60 (Transfer.run id request { checkpoint := 0 }) () w).map
    (·.2)).getD w

/-- The file after an executed startup. -/
def startedFile (cipher : Fernet) (db : Database) : Option Database :=
  match Prog.eval Sql.answer 40 (initializeStore cipher 0 9 ()) () ⟨db, none⟩ with
  | some ((.ok _, _), c) => some c.file
  | _ => none

theorem startupSucceeds_of_startedFile {cipher : Fernet} {db db' : Database}
    (started : startedFile cipher db = some db') : StartupSucceeds cipher db db' := by
  unfold startedFile at started
  split at started
  · rename_i run
    exact ⟨0, 9, _, Prog.eval_reach Sql.answer_sem run, Option.some.inj started⟩
  · cases started

/-- A run that published two bytes, could not complete its record, and was
followed by one restart. -/
theorem Transfer.recovery_unrecorded : ∃ (w : TransferWorld) (db : Database),
    w.published = some [1, 2] ∧ ∃ r, db.transfer (lit "t") = some r ∧
      (r.status = .completed ∨ r.error = some interruptedPublishing) := by
  let request : TransferRequest := {
    source := lit "a", sourceFile := lit "f", destination := lit "b", destinationFile := lit "g" }
  let db := (StoreCall.startup default 0 5).perform {}
  let stopped := stoppedWorld (lit "t") request (.initial db [1, 2])
  obtain ⟨c, run, same⟩ : ∃ c, Prog.Reach (transferSem Nat fun _ => True)
      (Transfer.run (lit "t") request { checkpoint := 0 }, .initial db [1, 2]) c ∧
        c.2 = stopped := Prog.eval_stops unrecordedAnswer_allowed
  have published : stopped.published = some [1, 2] := by decide +kernel
  obtain ⟨db', started⟩ := Option.isSome_iff_exists.mp
    (show (startedFile default stopped.db).isSome by decide +kernel)
  have success := startupSucceeds_of_startedFile started
  rw [← same] at published success
  exact ⟨c.2, db', published,
    (Transfer.recovery run .refl success).2.2.1 [1, 2] published⟩

end DataBridge
