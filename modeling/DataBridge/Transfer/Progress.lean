import DataBridge.Effect.Calls
import DataBridge.Transfer.Outcome

/-!
# What a transfer records

`tracedSem` lets the surroundings of a transfer keep a trace: what `sink.write`
has taken, the readings at which progress was saved, and the operation that
raised. The clock never goes back, and clean-up after a failure raises nothing
new. `Tracked` relates the fields of `_Transfer` and its record to that trace at
every step, `Broken` once an operation has raised.
-/

namespace DataBridge

open Effect Routine

/-- The operations of a transfer whose failure is recorded. -/
inductive TransferOperation
  | sourceLookup | destinationLookup | openSource | openDestination | read | write | finish
  | markPublishing | publish
  deriving DecidableEq

namespace TransferOperation

/-- The phase that names the operation. -/
def phase : TransferOperation → FailurePhase
  | .sourceLookup => .sourceLookup
  | .destinationLookup => .destinationLookup
  | .openSource => .sourceOpen
  | .openDestination => .destinationOpen
  | .read => .sourceRead
  | .write | .finish => .destinationWrite
  | .markPublishing | .publish => .publication

def onSource : TransferOperation → Bool
  | .sourceLookup | .openSource | .read => true
  | _ => false

/-- The connection on the side of the operation. -/
def connection (request : TransferRequest) (op : TransferOperation) : Text :=
  if op.onSource then request.source else request.destination

/-- A text names the side of the operation and the connection there. -/
def NamedIn (request : TransferRequest) (op : TransferOperation) (text : Text) : Prop :=
  ∃ subject rest, text = subject ++ lit " connection '" ++ op.connection request ++ lit "'" ++ rest ∧
    subject ∈ if op.onSource then [lit "The source", lit "Source"]
      else [lit "The destination", lit "Destination"]

theorem phase_mem_sourcePhases (op : TransferOperation) :
    op.phase ∈ sourcePhases ↔ op.onSource = true := by
  cases op <;> decide

/-- What `_attributed` makes of a failure names its side. -/
theorem named_attributed (request : TransferRequest) (op : TransferOperation) (code : ErrorCode)
    (message : Text) : op.NamedIn request (attributed request op.phase code message) := by
  unfold attributed NamedIn connection
  by_cases source : op.onSource = true
  · simp only [op.phase_mem_sourcePhases, source, if_true]
    split
    · exact ⟨lit "The source", lit " does not exist", by simp [lit], by simp⟩
    · exact ⟨lit "Source", lit ": " ++ message, by simp [lit], by simp⟩
  · simp only [op.phase_mem_sourcePhases, source]
    split
    · exact ⟨lit "The destination", lit " does not exist", by simp [lit], by simp⟩
    · exact ⟨lit "Destination", lit ": " ++ message, by simp [lit], by simp⟩

end TransferOperation

/-! ## The trace of a run -/

/-- What a run has done so far. -/
structure TransferTrace (T : Type) where
  /-- The record was started. -/
  started : Bool := false
  /-- The last reading of the clock. -/
  now : Option T := none
  /-- The connectors that were built. -/
  lookups : Nat := 0
  /-- The bytes whose `sink.write` has returned. -/
  written : Nat := 0
  /-- The readings at which progress was saved, the last one first. -/
  saves : List T := []
  /-- The operation that raised, and its exception. -/
  raised : Option (TransferOperation × Exc) := none

namespace TransferTrace

variable {T α : Type}

/-- The connection that is looked up. -/
def lookup (t : TransferTrace T) : TransferOperation :=
  if t.lookups = 0 then .sourceLookup else .destinationLookup

/-- The operation was answered. -/
def settle (op : TransferOperation) (r : Except Exc α) (t : TransferTrace T) : TransferTrace T :=
  match r with
  | .ok _ => t
  | .error e => { t with raised := some (op, e) }

/-- The trace after an answer. -/
def note : ∀ ⦃β : Type⦄, TransferEffect T β → β → TransferTrace T → TransferTrace T
  | _, .startTransfer _ _, .ok _, t => { t with started := true }
  | _, .clock, now, t => { t with now := some now }
  | _, .get _, r, t => t.settle t.lookup r
  | _, .connector _, .ok _, t => { t with lookups := t.lookups + 1 }
  | _, .connector _, .error e, t => { t with raised := some (t.lookup, e) }
  | _, .openSource _, r, t => t.settle .openSource r
  | _, .openSink _ _ _, r, t => t.settle .openDestination r
  | _, .read _, r, t => t.settle .read r
  | _, .write data, .ok _, t => { t with written := t.written + data.length }
  | _, .write _, .error e, t => { t with raised := some (.write, e) }
  | _, .recordProgress _ _, .ok _, t => { t with saves := t.now.toList ++ t.saves }
  | _, .finish, r, t => t.settle .finish r
  | _, .markPublishing _ _, r, t => t.settle .markPublishing r
  | _, .closeSink none, r, t => t.settle .publish r
  | _, _, _, t => t

end TransferTrace

/-- The clock does not go back, and clean-up after a failure raises nothing new. -/
def Undisturbed {T : Type} [LE T] :
    ∀ ⦃β : Type⦄, TransferEffect T β → TransferTrace T → β → Prop
  | _, .clock, t, now => ∀ last, t.now = some last → last ≤ now
  | _, .closeSource (some e), _, r => ∀ e', r = .error e' → e' = e
  | _, .closeSink (some e), _, r => ∀ e', r = .error e' → e' = e
  | _, _, _, _ => True

/-- The world of a run with its trace. -/
abbrev TracedWorld (T : Type) : Type := TransferWorld × TransferTrace T

/-- The answers of the surroundings, noted in the trace. -/
def tracedSem (T : Type) [LE T] : Sem (TransferEffect T) (TracedWorld T) :=
  fun _ op v r v' => transferSem T TypedRefusal op v.1 r v'.1 ∧ Undisturbed op v.2 r ∧
    v'.2 = v.2.note op r

/-! ## The invariant -/

section Invariant

variable {T : Type} [OfNat T 1] [Sub T] [LinearOrder T] {id : Text} {s : TransferState T}
  {v v' : TracedWorld T}

/-- Two saves of progress are at least the interval apart. -/
def Apart (saves : List T) : Prop := saves.Pairwise fun later earlier => 1 ≤ later - earlier

/-- What each step promises: the recorded bytes do not decrease and were written,
and progress is not saved too often. -/
structure Advances (id : Text) (v v' : TracedWorld T) : Prop where
  grows : ∀ r, v.1.db.transfer id = some r →
    ∃ r', v'.1.db.transfer id = some r' ∧ r.bytesCopied ≤ r'.bytesCopied
  written : v'.2.started = true → ∀ r, v'.1.db.transfer id = some r → r.bytesCopied ≤ v'.2.written
  apart : Apart v'.2.saves

/-- The run `id`, alone with its traced surroundings. -/
abbrev tracedSetting (T : Type) [OfNat T 1] [Sub T] [LinearOrder T] (id : Text) :
    Setting (TransferEffect T) (TracedWorld T) :=
  Setting.alone (tracedSem T) (Advances id)

/-- The fields of the run, its record and its trace agree. -/
structure Tracked (id : Text) (s : TransferState T) (v : TracedWorld T) : Prop where
  record : ∃ r, v.1.db.transfer id = some r ∧ r.status ≠ .failed ∧ r.bytesCopied ≤ v.2.written
  counted : s.copied = v.2.written
  clock : ∃ now, v.2.now = some now ∧ s.checkpoint ≤ now
  saves : ∀ saved ∈ v.2.saves, saved ≤ s.checkpoint
  apart : Apart v.2.saves

/-- Nothing has raised yet. -/
structure Steady (id : Text) (lookups : Nat) (s : TransferState T) (v : TracedWorld T) : Prop
    extends Tracked id s v where
  unpublished : s.published = false
  lookups : v.2.lookups = lookups

/-- The operation that the phase names has raised. -/
structure Broken (id : Text) (e : Exc) (s : TransferState T) (v : TracedWorld T) : Prop
    extends Tracked id s v where
  unpublished : s.published = false
  raised : ∃ op, v.2.raised = some (op, e) ∧ op.phase = s.phase

/-- A step that leaves the database alone. -/
theorem Tracked.advances (tracked : Tracked id s v') (same : v'.1.db = v.1.db) :
    Advances id v v' where
  grows r stored := ⟨r, same ▸ stored, le_refl _⟩
  written _ r stored := by
    obtain ⟨r', stored', -, le⟩ := tracked.record
    rw [stored] at stored'
    cases stored'
    exact le
  apart := tracked.apart

/-- The database was changed by a transition of the record. -/
theorem Tracked.advances_transition {w : TransferWorld} {t : TransferTrace T} {db : Database}
    {states : List TransferStatus} {change : TransferChange}
    (step : v.1.db.transition id states change = .ok db)
    (grows : ∀ r : TransferRecord, v.1.db.transfer id = some r →
      r.bytesCopied ≤ (change.assign r).bytesCopied)
    (written : ∀ r : TransferRecord, v.1.db.transfer id = some r →
      (change.assign r).bytesCopied ≤ t.written) (stored : w.db = db) (apart : Apart t.saves) :
    Advances id v (w, t) := by
  obtain ⟨⟨r, before, -, after⟩, -⟩ := Database.transition_transfer step
  rw [← stored] at after
  refine ⟨fun r' found => ⟨_, after, ?_⟩, fun _ r' found => ?_, apart⟩
  · rw [before] at found
    cases found
    exact grows r before
  · rw [after] at found
    cases found
    exact written r before

/-- The world may change apart from the database. -/
theorem Tracked.world {w : TransferWorld} (tracked : Tracked id s v) (same : w.db = v.1.db) :
    Tracked id s (w, v.2) where
  record := by
    rw [same]
    exact tracked.record
  counted := tracked.counted
  clock := tracked.clock
  saves := tracked.saves
  apart := tracked.apart

theorem Tracked.setPhase (tracked : Tracked id s v) (phase : FailurePhase) :
    Tracked id { s with phase } v :=
  ⟨tracked.record, tracked.counted, tracked.clock, tracked.saves, tracked.apart⟩

theorem Tracked.raise {raised : Option (TransferOperation × Exc)} (tracked : Tracked id s v) :
    Tracked id s (v.1, { v.2 with raised }) :=
  ⟨tracked.record, tracked.counted, tracked.clock, tracked.saves, tracked.apart⟩

theorem Steady.setPhase {lookups : Nat} (steady : Steady id lookups s v) (phase : FailurePhase) :
    Steady id lookups { s with phase } v :=
  ⟨steady.toTracked.setPhase phase, steady.unpublished, steady.lookups⟩

/-- An operation raises in its own phase. -/
theorem Steady.broken {lookups : Nat} {e : Exc} {op : TransferOperation}
    (steady : Steady id lookups s v) (phase : op.phase = s.phase) :
    Broken id e s (v.1, { v.2 with raised := some (op, e) }) :=
  ⟨steady.toTracked.raise, steady.unpublished, op, rfl, phase⟩

theorem Steady.world {lookups : Nat} {w : TransferWorld} (steady : Steady id lookups s v)
    (same : w.db = v.1.db) : Steady id lookups s (w, v.2) :=
  ⟨steady.toTracked.world same, steady.unpublished, steady.lookups⟩

end Invariant

/-! ## One operation -/

section Rules

variable {T α : Type} [OfNat T 1] [Sub T] [LinearOrder T] {id : Text} {s : TransferState T}
  {v : TracedWorld T} {lookups : Nat}

theorem Transfer.traced_wp {op : TransferEffect T (Except Exc α)}
    {Q : Except Exc α → TransferState T → TracedWorld T → Prop}
    (answers : ∃ r w', transferSem T TypedRefusal op v.1 r w' ∧ Undisturbed op v.2 r)
    (step : ∀ r w', transferSem T TypedRefusal op v.1 r w' → Undisturbed op v.2 r →
      Advances id v (w', v.2.note op r) ∧ Q r s (w', v.2.note op r)) :
    (invoke op).Wp (tracedSetting T id) Q s v := by
  refine .invoke ?_
  intro v₁ same
  subst same
  constructor
  · obtain ⟨r, w', answer, calm⟩ := answers
    exact ⟨r, (w', v.2.note op r), answer, calm, rfl⟩
  · intro r v' answer
    obtain ⟨w', t⟩ := v'
    obtain ⟨answer, calm, rfl⟩ := answer
    exact ⟨(step r w' answer calm).1, Setting.settled_alone.mpr (step r w' answer calm).2⟩

/-- An operation that leaves the database alone is answered, or raises and is
the one that the phase names. -/
theorem Steady.operation_wp {op : TransferEffect T (Except Exc α)} (o : TransferOperation)
    (steady : Steady id lookups s v) (phase : o.phase = s.phase)
    (noted : ∀ r, v.2.note op r = v.2.settle o r)
    (plain : ∀ r w', transferSem T TypedRefusal op v.1 r w' → w'.db = v.1.db)
    (answers : ∃ r w', transferSem T TypedRefusal op v.1 r w' ∧ Undisturbed op v.2 r) :
    (invoke op).Wp (tracedSetting T id)
      (Post (fun _ s' v' => s' = s ∧ Steady id lookups s' v')
        fun e s' v' => Broken id e s' v') s v := by
  refine Transfer.traced_wp answers ?_
  intro r w' answer _
  have same := plain r w' answer
  have steady' : Steady id lookups s (w', v.2) := steady.world same
  rw [noted]
  cases r with
  | ok a => exact ⟨steady'.advances same, rfl, steady'⟩
  | error e =>
    have broken : Broken id e s (w', { v.2 with raised := some (o, e) }) := steady'.broken phase
    exact ⟨broken.advances same, broken⟩

/-- `_connector` finds one more connector, or its lookup raises. -/
theorem Steady.connector_wp {name : Text} (steady : Steady id lookups s v)
    (phase : v.2.lookup.phase = s.phase) :
    (Transfer.connector name).Wp (tracedSetting T id)
      (Post (fun _ s' v' => s' = s ∧ Steady id (lookups + 1) s' v')
        fun e s' v' => Broken id e s' v') s v := by
  have refusable : TypedRefusal (.ofCode .internalError []) := ⟨_, rfl⟩
  refine .bind (P := Post (fun _ s' v' => s' = s ∧ Steady id lookups s' v' ∧ v'.2 = v.2)
      fun e s' v' => Broken id e s' v') (Transfer.traced_wp ?_ ?_) ?_
    fun _ _ _ failed => Setting.settled_alone.mpr failed
  · exact ⟨.error (.ofCode .internalError []), _, .inr ⟨_, rfl, refusable, rfl⟩, trivial⟩
  · intro r w' answer _
    rcases answer with ⟨rfl, connection, rfl⟩ | ⟨e, rfl, -, rfl⟩
    · exact ⟨steady.advances rfl, rfl, steady, rfl⟩
    · have refused : Steady id lookups s ({ v.1 with refused := .get :: v.1.refused }, v.2) :=
        steady.world rfl
      have broken : Broken id e s ({ v.1 with refused := .get :: v.1.refused },
          { v.2 with raised := some (v.2.lookup, e) }) := refused.broken phase
      exact ⟨broken.advances rfl, broken⟩
  · intro connection s' v' found
    obtain ⟨rfl, steady, same⟩ := found
    refine Transfer.traced_wp ⟨.ok (), v'.1, rfl, trivial⟩ ?_
    intro r w' answer _
    obtain rfl : w' = v'.1 := answer
    cases r with
    | ok _ =>
      have found : Steady id (lookups + 1) s' (v'.1, { v'.2 with lookups := v'.2.lookups + 1 }) :=
        ⟨⟨steady.record, steady.counted, steady.clock, steady.saves, steady.apart⟩,
          steady.unpublished, congrArg (· + 1) steady.lookups⟩
      exact ⟨found.advances rfl, rfl, found⟩
    | error e =>
      have broken : Broken id e s' (v'.1, { v'.2 with raised := some (v'.2.lookup, e) }) :=
        steady.broken (same ▸ phase)
      exact ⟨broken.advances rfl, broken⟩

/-- A reading of the clock is not before the last one. -/
theorem Steady.clock_wp (steady : Steady id lookups s v) :
    (ask (.clock : TransferEffect T T) : TransferRoutine T T).Wp (tracedSetting T id)
      (Post (fun now s' v' => s' = s ∧ Steady id lookups s v' ∧ v'.1 = v.1 ∧
          v'.2.now = some now ∧ s.checkpoint ≤ now)
        fun _ _ _ => False) s v := by
  obtain ⟨last, read, le⟩ := steady.clock
  refine .ask ?_
  intro v₁ same
  subst same
  constructor
  · refine ⟨last, (v.1, { v.2 with now := some last }), rfl, ?_, rfl⟩
    intro last' read'
    rw [read] at read'
    cases read'
    exact le_refl _
  · intro now v' answer
    obtain ⟨w', t⟩ := v'
    obtain ⟨rfl, later, rfl⟩ := answer
    have reached : s.checkpoint ≤ now := le.trans (later last read)
    have steady' : Steady id lookups s (v.1, { v.2 with now := some now }) :=
      ⟨⟨steady.record, steady.counted, ⟨now, rfl, reached⟩, steady.saves, steady.apart⟩,
        steady.unpublished, steady.lookups⟩
    exact ⟨steady'.advances rfl, Setting.settled_alone.mpr ⟨rfl, steady', rfl, rfl, reached⟩⟩

/-- A save of the progress, when the interval is over. -/
theorem Steady.save {now : T} {w : TransferWorld} {db : Database} {instant : Instant}
    (antitone : ∀ a b c : T, a ≤ b → c - b ≤ c - a) (steady : Steady id lookups s v)
    (read : v.2.now = some now) (reached : s.checkpoint ≤ now) (due : 1 ≤ now - s.checkpoint)
    (step : v.1.db.transition id [.running] (progressChange s.copied instant) = .ok db)
    (stored : w.db = db) :
    Advances id v (w, { v.2 with saves := v.2.now.toList ++ v.2.saves }) ∧
      Steady id lookups { s with checkpoint := now }
        (w, { v.2 with saves := v.2.now.toList ++ v.2.saves }) := by
  obtain ⟨r, found, notFailed, le⟩ := steady.record
  obtain ⟨⟨r', before, status, after⟩, -⟩ := Database.transition_transfer step
  rw [found] at before
  cases before
  have apart : Apart (v.2.now.toList ++ v.2.saves) := by
    rw [read]
    refine List.pairwise_cons.mpr ⟨?_, steady.apart⟩
    intro saved member
    exact due.trans (antitone _ _ _ (steady.saves saved member))
  constructor
  · refine Tracked.advances_transition step ?_ ?_ stored apart
    · intro r' found'
      rw [found] at found'
      cases found'
      exact le.trans steady.counted.ge
    · intro _ _
      exact steady.counted.le
  · have record : ∃ r, w.db.transfer id = some r ∧ r.status ≠ .failed ∧
        r.bytesCopied ≤ v.2.written := by
      rw [stored]
      exact ⟨_, after, notFailed, steady.counted.le⟩
    refine ⟨⟨record, steady.counted, ⟨now, read, le_refl _⟩, ?_, apart⟩, steady.unpublished,
      steady.lookups⟩
    intro saved member
    rw [read] at member
    rcases List.mem_cons.mp member with rfl | before
    · exact le_refl _
    · exact (steady.saves saved before).trans reached

theorem Steady.checkpoint_wp (antitone : ∀ a b c : T, a ≤ b → c - b ≤ c - a)
    (steady : Steady id lookups s v) :
    (Transfer.checkpoint id).Wp (tracedSetting T id)
      (Post (fun _ s' v' => Steady id lookups s' v' ∧ v'.1.remaining = v.1.remaining)
        fun _ _ _ => False) s v := by
  refine .bind steady.clock_wp ?_ fun _ _ _ impossible => impossible.elim
  intro now s₁ v₁ ready
  obtain ⟨rfl, steady, same, read, reached⟩ := ready
  rw [Wp.fields_bind]
  split
  · exact .pure (Setting.settled_alone.mpr ⟨steady, by rw [same]⟩)
  · rename_i due
    rw [Wp.modify_bind]
    have later : Tracked id { s₁ with checkpoint := now } v₁ :=
      ⟨steady.record, steady.counted, ⟨now, read, le_refl _⟩,
        fun saved member => (steady.saves saved member).trans reached, steady.apart⟩
    have refusable : TypedRefusal (.ofCode .internalError []) := ⟨_, rfl⟩
    refine .catching (P := Post (fun _ s' v' => Steady id lookups s' v' ∧
          v'.1.remaining = v.1.remaining)
        fun e s' v' => TypedRefusal e ∧ Steady id lookups s' v' ∧ v'.1.remaining = v.1.remaining)
      (Transfer.traced_wp ⟨.error (.ofCode .internalError []), _, ⟨refusable, rfl⟩, trivial⟩ ?_)
      (fun _ _ _ done => Setting.settled_alone.mpr done) ?_
    · intro r w' answer _
      cases r with
      | ok _ =>
        obtain ⟨instant, db, step, rfl⟩ := answer
        obtain ⟨advances, saved⟩ :=
          steady.save antitone read reached (not_lt.mp due) step (w := { v₁.1 with db }) rfl
        exact ⟨advances, saved, by rw [same]⟩
      | error e =>
        obtain ⟨typed, rfl⟩ := answer
        have refused : Steady id lookups { s₁ with checkpoint := now }
            ({ v₁.1 with refused := .progress :: v₁.1.refused }, v₁.2) :=
          ⟨later.world rfl, steady.unpublished, steady.lookups⟩
        exact ⟨refused.advances rfl, typed, refused, by rw [same]⟩
    · intro e s' v' refused
      obtain ⟨⟨error, rfl⟩, steady⟩ := refused
      exact .pure (Setting.settled_alone.mpr steady)

/-- One pass of `_copy` ends it, moves a chunk, or raises in its phase. -/
theorem Steady.copyChunk_wp (antitone : ∀ a b c : T, a ≤ b → c - b ≤ c - a)
    (steady : Steady id lookups s v) :
    (Transfer.copyChunk id).Wp (tracedSetting T id)
      (Post (fun r s' v' => Steady id lookups s' v' ∧
          r.elim (fun _ => v'.1.remaining.length < v.1.remaining.length) fun _ => True)
        fun e s' v' => Broken id e s' v') s v := by
  rw [Transfer.copyChunk, Transfer.setPhase, Wp.modify_bind]
  have reading := steady.setPhase .sourceRead
  refine .bind (P := Post (fun chunk s' v' => s' = { s with phase := .sourceRead } ∧
      Steady id lookups s' v' ∧ v.1.remaining = chunk ++ v'.1.remaining)
      fun e s' v' => Broken id e s' v') (Transfer.traced_wp ?_ ?_) ?_
    fun _ _ _ broken => Setting.settled_alone.mpr broken
  · exact ⟨.error .timeout, v.1, .inr ⟨_, rfl, rfl⟩, trivial⟩
  · intro r w' answer _
    rcases answer with ⟨chunk, rest, rfl, split, -, rfl⟩ | ⟨e, rfl, rfl⟩
    · have read : Steady id lookups { s with phase := .sourceRead }
          ({ v.1 with remaining := rest }, v.2) := reading.world rfl
      exact ⟨read.advances rfl, rfl, read, split⟩
    · have broken : Broken id e { s with phase := .sourceRead }
          (v.1, { v.2 with raised := some (.read, e) }) := reading.broken rfl
      exact ⟨broken.advances rfl, broken⟩
  · intro chunk s₁ v₁ read
    obtain ⟨rfl, steady₁, split⟩ := read
    by_cases empty : chunk = []
    · rw [if_pos empty]
      exact .pure (Setting.settled_alone.mpr ⟨steady₁, trivial⟩)
    rw [if_neg empty, Transfer.setPhase, Wp.modify_bind]
    have writing := steady₁.setPhase .destinationWrite
    refine .bind (P := Post (fun _ s' v' => s' = { s with phase := .destinationWrite } ∧
        Steady id lookups { s' with copied := s'.copied + chunk.length } v' ∧
        v'.1.remaining = v₁.1.remaining) fun e s' v' => Broken id e s' v')
      (Transfer.traced_wp ?_ ?_) ?_ fun _ _ _ broken => Setting.settled_alone.mpr broken
    · exact ⟨.ok (), _, .inl ⟨rfl, rfl⟩, trivial⟩
    · intro r w' answer _
      rcases answer with ⟨rfl, rfl⟩ | ⟨e, staged, rfl, rfl⟩
      · obtain ⟨stored, found, notFailed, le⟩ := writing.record
        have wrote : Steady id lookups
            { s with phase := .destinationWrite, copied := s.copied + chunk.length }
            ({ v₁.1 with staged := v₁.1.staged ++ chunk },
              { v₁.2 with written := v₁.2.written + chunk.length }) :=
          ⟨⟨⟨stored, found, notFailed, le.trans (Nat.le_add_right _ _)⟩,
            congrArg (· + chunk.length) writing.counted, writing.clock, writing.saves,
            writing.apart⟩, writing.unpublished, writing.lookups⟩
        exact ⟨wrote.advances rfl, rfl, wrote, rfl⟩
      · have left : Steady id lookups { s with phase := .destinationWrite }
            ({ v₁.1 with staged }, v₁.2) := writing.world rfl
        have broken : Broken id e { s with phase := .destinationWrite }
            ({ v₁.1 with staged }, { v₁.2 with raised := some (.write, e) }) := left.broken rfl
        exact ⟨broken.advances rfl, broken⟩
    · intro _ s₂ v₂ wrote
      obtain ⟨rfl, steady₂, kept⟩ := wrote
      rw [Wp.modify_bind]
      refine .bind (steady₂.checkpoint_wp antitone) ?_ fun _ _ _ impossible => impossible.elim
      intro _ s₃ v₃ saved
      obtain ⟨steady₃, same⟩ := saved
      refine .pure (Setting.settled_alone.mpr ⟨steady₃, ?_⟩)
      have some := List.length_pos_of_ne_nil empty
      have shorter : v₃.1.remaining.length < v.1.remaining.length := by
        rw [same, kept, split, List.length_append]
        omega
      exact shorter

theorem Steady.copy_wp (antitone : ∀ a b c : T, a ≤ b → c - b ≤ c - a)
    (steady : Steady id lookups s v) :
    (Transfer.copy id).Wp (tracedSetting T id)
      (Post (fun _ s' v' => Steady id lookups s' v') fun e s' v' => Broken id e s' v') s v := by
  refine .iterate (I := fun n _ s v => Steady id lookups s v ∧ v.1.remaining.length = n) ?_
    ⟨steady, rfl⟩
  intro n _ s v inv
  obtain ⟨steady, rfl⟩ := inv
  refine (steady.copyChunk_wp antitone).post ?_ fun _ _ _ broken => Setting.settled_alone.mpr broken
  intro r s' v' passed
  cases r with
  | inl _ => exact Setting.settled_alone.mpr ⟨_, passed.2, passed.1, rfl⟩
  | inr _ => exact Setting.settled_alone.mpr passed.1

/-! ## The whole run -/

/-- The body of the destination's context raises in the phase of an operation, or
leaves the publication. -/
theorem Steady.fill_wp (antitone : ∀ a b c : T, a ≤ b → c - b ≤ c - a)
    (steady : Steady id lookups s v) :
    (Transfer.fill id).Wp (tracedSetting T id)
      (Post (fun _ s' v' => Steady id lookups s' v' ∧ s'.phase = .publication)
        fun e s' v' => Broken id e s' v') s v := by
  have refusable : TypedRefusal (.ofCode .internalError []) := ⟨_, rfl⟩
  refine .bind (steady.copy_wp antitone) ?_ fun _ _ _ broken => Setting.settled_alone.mpr broken
  intro _ s₁ v₁ steady
  rw [Transfer.setPhase, Wp.modify_bind]
  refine .bind ((steady.setPhase .destinationWrite).operation_wp .finish rfl (fun _ => rfl) ?_ ?_) ?_
    fun _ _ _ broken => Setting.settled_alone.mpr broken
  · intro r w' answer
    exact congrArg TransferWorld.db answer
  · exact ⟨.ok (), v₁.1, rfl, trivial⟩
  · intro _ s₂ v₂ finished
    obtain ⟨rfl, steady⟩ := finished
    rw [Transfer.setPhase, Wp.modify_bind, Wp.fields_bind]
    have publishing := steady.setPhase .publication
    refine Transfer.traced_wp ⟨.error (.ofCode .internalError []), _, ⟨refusable, rfl⟩, trivial⟩ ?_
    intro r w' answer _
    cases r with
    | ok _ =>
      obtain ⟨instant, db, step, rfl⟩ := answer
      obtain ⟨stored, found, notFailed, le⟩ := publishing.record
      obtain ⟨⟨stored', before, status, after⟩, -⟩ := Database.transition_transfer step
      rw [found] at before
      cases before
      refine ⟨Tracked.advances_transition step ?_ ?_ rfl steady.apart, ⟨⟨?_, publishing.counted,
        publishing.clock, publishing.saves, publishing.apart⟩, publishing.unpublished,
        publishing.lookups⟩, rfl⟩
      · intro r found'
        rw [found] at found'
        cases found'
        exact le.trans publishing.counted.ge
      · intro _ _
        exact publishing.counted.le
      · refine ⟨_, after, ?_, publishing.counted.le⟩
        exact TransferStatus.noConfusion
    | error e =>
      obtain ⟨-, rfl⟩ := answer
      have refused : Steady id lookups { s₁ with phase := .publication }
          ({ v₂.1 with refused := .publishing :: v₂.1.refused }, v₂.2) := publishing.world rfl
      have broken : Broken id e { s₁ with phase := .publication }
          ({ v₂.1 with refused := .publishing :: v₂.1.refused },
            { v₂.2 with raised := some (.markPublishing, e) }) := refused.broken rfl
      exact ⟨broken.advances rfl, broken⟩

/-- Clean-up after a failure, which raises nothing new. -/
theorem Broken.cleanup_wp {e : Exc} {op : TransferEffect T (Except Exc Unit)}
    (broken : Broken id e s v) (noted : ∀ r, v.2.note op r = v.2)
    (plain : ∀ r w', transferSem T TypedRefusal op v.1 r w' ↔ w' = v.1)
    (calm : ∀ r, Undisturbed op v.2 r ↔ ∀ e', r = .error e' → e' = e) :
    (invoke op).Wp (tracedSetting T id)
      (Post (fun _ s' v' => Broken id e s' v') fun e' s' v' => e' = e ∧ Broken id e' s' v') s v := by
  refine Transfer.traced_wp ⟨.ok (), v.1, (plain _ _).mpr rfl, (calm _).mpr ?_⟩ ?_
  · intro e' impossible
    cases impossible
  · intro r w' answer quiet
    obtain rfl := (plain r w').mp answer
    rw [noted]
    refine ⟨broken.advances rfl, ?_⟩
    cases r with
    | ok _ => exact broken
    | error e' =>
      obtain rfl := (calm _).mp quiet e' rfl
      exact ⟨rfl, broken⟩

/-- The body of the source's context publishes, or raises in its phase. -/
theorem Steady.copyAndPublish_wp (antitone : ∀ a b c : T, a ≤ b → c - b ≤ c - a)
    {request : TransferRequest} (steady : Steady id lookups s v) :
    (Transfer.copyAndPublish id request).Wp (tracedSetting T id)
      (Post (fun _ s' v' => Tracked id s' v' ∧ s'.published = true)
        fun e s' v' => Broken id e s' v') s v := by
  rw [Transfer.copyAndPublish, Transfer.setPhase, Wp.modify_bind]
  refine .bind (P := Post (fun _ s' v' => Tracked id s' v') fun e s' v' => Broken id e s' v')
    (.within (I := Steady id lookups)
      (A := fun _ s' v' => Steady id lookups s' v' ∧ s'.phase = .publication)
      (B := fun e s' v' => Broken id e s' v') ?_ ?_ ?_ ?_) ?_
    fun _ _ _ broken => Setting.settled_alone.mpr broken
  · refine ((steady.setPhase .destinationOpen).operation_wp .openDestination rfl (fun _ => rfl)
      ?_ ?_).post (fun _ _ _ opened => opened.2) ?_
    · intro r w' answer
      exact congrArg TransferWorld.db answer
    · exact ⟨.ok (), v.1, rfl, trivial⟩
    · intro e s' v' broken
      exact Setting.settled_alone.mpr broken
  · intro s₁ v₁ steady
    exact steady.fill_wp antitone
  · intro _ s₁ v₁ filled
    obtain ⟨steady, phase⟩ := filled
    refine (steady.operation_wp .publish phase.symm (fun _ => rfl) ?_ ?_).post ?_ ?_
    · intro r w' answer
      rcases answer with ⟨rfl, rfl⟩ | ⟨e, rfl, rfl⟩
      · rfl
      · rfl
    · exact ⟨.error .timeout, v₁.1, .inr ⟨_, rfl, rfl⟩, trivial⟩
    · intro _ s' v' closed
      exact Setting.settled_alone.mpr closed.2.toTracked
    · intro e s' v' broken
      exact Setting.settled_alone.mpr broken
  · intro e s₁ v₁ broken
    refine (broken.cleanup_wp (fun _ => rfl) (fun _ _ => Iff.rfl) fun _ => Iff.rfl).post ?_ ?_
    · intro _ _ _ broken
      exact Setting.settled_alone.mpr broken
    · intro e' _ _ failed
      exact Setting.settled_alone.mpr failed.2
  · intro _ s₁ v₁ tracked
    exact .modify (Setting.settled_alone.mpr
      ⟨⟨tracked.record, tracked.counted, tracked.clock, tracked.saves, tracked.apart⟩, rfl⟩)

/-- The `try` body of `run` publishes, also when the source cannot be released,
or raises in the phase of an operation. -/
theorem Steady.attempt_wp (antitone : ∀ a b c : T, a ≤ b → c - b ≤ c - a)
    {request : TransferRequest} (steady : Steady id 0 s v) (phase : s.phase = .sourceLookup) :
    (Transfer.attempt id request).Wp (tracedSetting T id)
      (Post (fun _ s' v' => Tracked id s' v' ∧ s'.published = true)
        fun e s' v' => Broken id e s' v' ∨ Tracked id s' v' ∧ s'.published = true) s v := by
  have first : v.2.lookup.phase = s.phase := by
    rw [TransferTrace.lookup, steady.lookups, phase]
    rfl
  refine .bind (steady.connector_wp first) ?_
    fun _ _ _ broken => Setting.settled_alone.mpr (.inl broken)
  intro _ s₁ v₁ found
  obtain ⟨rfl, steady₁⟩ := found
  rw [Transfer.setPhase, Wp.modify_bind]
  have second : v₁.2.lookup.phase = .destinationLookup := by
    rw [TransferTrace.lookup, steady₁.lookups]
    rfl
  refine .bind ((steady₁.setPhase .destinationLookup).connector_wp second) ?_
    fun _ _ _ broken => Setting.settled_alone.mpr (.inl broken)
  intro _ s₂ v₂ found
  obtain ⟨rfl, steady₂⟩ := found
  rw [Transfer.setPhase, Wp.modify_bind]
  refine .within (I := Steady id (0 + 1 + 1))
    (A := fun _ s' v' => Tracked id s' v' ∧ s'.published = true)
    (B := fun e s' v' => Broken id e s' v') ?_ ?_ ?_ ?_
  · refine ((steady₂.setPhase .sourceOpen).operation_wp .openSource rfl (fun _ => rfl)
      ?_ ?_).post (fun _ _ _ opened => opened.2) ?_
    · intro r w' answer
      exact congrArg TransferWorld.db answer
    · exact ⟨.ok (), v₂.1, rfl, trivial⟩
    · intro e s' v' broken
      exact Setting.settled_alone.mpr (.inl broken)
  · intro s₃ v₃ steady
    exact steady.copyAndPublish_wp antitone
  · intro _ s₃ v₃ done
    refine Transfer.traced_wp ⟨.ok (), v₃.1, rfl, trivial⟩ ?_
    intro r w' answer _
    obtain rfl : w' = v₃.1 := answer
    refine ⟨done.1.advances rfl, ?_⟩
    cases r with
    | ok _ => exact Setting.settled_alone.mpr done
    | error _ => exact Setting.settled_alone.mpr (.inr done)
  · intro e s₃ v₃ broken
    refine (broken.cleanup_wp (fun _ => rfl) (fun _ _ => Iff.rfl) fun _ => Iff.rfl).post ?_ ?_
    · intro _ _ _ broken
      exact Setting.settled_alone.mpr (.inl broken)
    · intro e' _ _ failed
      exact Setting.settled_alone.mpr (.inl failed.2)

/-- What the failed record of a run says about the operation that raised. -/
structure Explained (request : TransferRequest) (outcome : Except Exc TransferRecord)
    (record : TransferRecord) (t : TransferTrace T) (op : TransferOperation) (e : Exc)
    (error : DataBridgeError) : Prop where
  raised : t.raised = some (op, e)
  outcome : outcome = .error (.dataBridge error)
  bytesCopied : record.bytesCopied = t.written
  failurePhase : record.failurePhase = some op.phase
  errorCode : record.errorCode = some error.code
  message : record.error = some error.message
  failure : (error.code, error.message) = failure request op.phase e
  attributed : error.code ∉ unattributed → op.NamedIn request error.message

/-- A failure whose code is attributed names its side. -/
theorem failure_named {request : TransferRequest} {op : TransferOperation} {e : Exc}
    (attributed : (failure request op.phase e).1 ∉ unattributed) :
    op.NamedIn request (failure request op.phase e).2 := by
  unfold failure at attributed ⊢
  dsimp only at attributed ⊢
  rw [if_neg attributed]
  exact op.named_attributed request _ _

/-- `_fail` records the operation that raised, and raises the error it records. -/
theorem Broken.fail_wp {request : TransferRequest} {e : Exc} (broken : Broken id e s v) :
    (Transfer.fail id request e).Wp (tracedSetting T id)
      (Post (fun _ _ _ => False) fun e' _ v' => ∀ record, v'.1.db.transfer id = some record →
        record.status = .failed → ∃ op e₀ error, Explained request (.error e') record v'.2 op e₀ error)
      s v := by
  have refusable : TypedRefusal (.ofCode .internalError []) := ⟨_, rfl⟩
  obtain ⟨op, raised, phase⟩ := broken.raised
  obtain ⟨stored, found, notFailed, le⟩ := broken.record
  rw [Transfer.fail, Wp.fields_bind]
  -- What is left in the database, whether the failure was saved or not.
  let Left := fun (v' : TracedWorld T) => ∀ record, v'.1.db.transfer id = some record →
    record.status = .failed → v'.2.raised = some (op, e) ∧ record.bytesCopied = v'.2.written ∧
      record.failurePhase = some op.phase ∧
      record.errorCode = some (failure request op.phase e).1 ∧
      record.error = some (failure request op.phase e).2
  rw [← phase]
  refine .bind (P := Post (fun _ _ v' => Left v') fun _ _ _ => False) ?_ ?_
    fun _ _ _ impossible => impossible.elim
  · refine .catching (P := Post (fun _ _ v' => Left v') fun e' _ v' => TypedRefusal e' ∧ Left v')
      (Transfer.traced_wp ⟨.error (.ofCode .internalError []), _, ⟨refusable, rfl⟩, trivial⟩ ?_)
      (fun _ _ _ left => Setting.settled_alone.mpr left) ?_
    · intro r w' answer _
      cases r with
      | ok _ =>
        obtain ⟨instant, db, step, rfl⟩ := answer
        obtain ⟨⟨before, old, -, after⟩, -⟩ := Database.transition_transfer step
        refine ⟨Tracked.advances_transition step ?_ ?_ rfl broken.apart, ?_⟩
        · intro r found'
          rw [found] at found'
          cases found'
          exact le.trans broken.counted.ge
        · intro _ _
          exact broken.counted.le
        · intro record found' _
          obtain rfl := Option.some.inj (after.symm.trans found')
          exact ⟨raised, broken.counted, rfl, rfl, rfl⟩
      | error e' =>
        obtain ⟨typed, rfl⟩ := answer
        have kept : Tracked id s ({ v.1 with refused := .fail :: v.1.refused }, v.2) :=
          broken.toTracked.world rfl
        refine ⟨kept.advances rfl, typed, ?_⟩
        intro record found' failed
        obtain rfl := Option.some.inj (found.symm.trans found')
        exact absurd failed notFailed
    · intro e' s' v' refused
      obtain ⟨⟨error, rfl⟩, left⟩ := refused
      exact .pure (Setting.settled_alone.mpr left)
  · intro _ s' v' left
    refine .raise (Setting.settled_alone.mpr ?_)
    intro record found failed
    obtain ⟨raised, bytes, phase, code, message⟩ := left record found failed
    exact ⟨op, e, _, {
      raised := raised
      outcome := rfl
      bytesCopied := bytes
      failurePhase := phase
      errorCode := code
      message := message
      failure := rfl
      attributed := failure_named }⟩

/-- `_finish` does not fail the record. -/
theorem Tracked.finish_wp {request : TransferRequest} (tracked : Tracked id s v) :
    (Transfer.finish id request).Wp (tracedSetting T id)
      (fun _ _ v' => ∀ record, v'.1.db.transfer id = some record → record.status ≠ .failed) s v := by
  have refusable : TypedRefusal (.ofCode .internalError []) := ⟨_, rfl⟩
  obtain ⟨stored, found, notFailed, le⟩ := tracked.record
  refine .catching (P := fun _ _ v' => ∀ record, v'.1.db.transfer id = some record →
      record.status ≠ .failed)
    (Transfer.traced_wp ⟨.error (.ofCode .internalError []), _, .inr ⟨_, rfl, refusable, rfl⟩, trivial⟩ ?_)
    (fun _ _ _ left => Setting.settled_alone.mpr left) ?_
  · intro r w' answer _
    rcases answer with ⟨record, rfl, ⟨instant, db, step, rfl⟩, -⟩ | ⟨e, rfl, -, rfl⟩
    · obtain ⟨⟨before, old, -, after⟩, -⟩ := Database.transition_transfer step
      rw [found] at old
      cases old
      refine ⟨Tracked.advances_transition step ?_ ?_ rfl tracked.apart, ?_⟩
      · intro _ _
        exact le_refl _
      · intro r found'
        rw [found] at found'
        cases found'
        exact le
      · intro record found'
        obtain rfl := Option.some.inj (after.symm.trans found')
        exact TransferStatus.noConfusion
    · have kept : Tracked id s ({ v.1 with refused := .finish :: v.1.refused }, v.2) :=
        tracked.world rfl
      refine ⟨kept.advances rfl, ?_⟩
      intro record found'
      obtain rfl := Option.some.inj (found.symm.trans found')
      exact notFailed
  · intro e s' v' left
    split
    · exact .raise (Setting.settled_alone.mpr left)
    · exact .raise (Setting.settled_alone.mpr left)

/-- Every run: its steps keep the promise, and a failed record is explained. -/
theorem Transfer.run_traced (antitone : ∀ a b c : T, a ≤ b → c - b ≤ c - a) (id : Text)
    (request : TransferRequest) (content : Bytes) (db : Database) (checkpoint : T) :
    (Transfer.run id request).Wp (tracedSetting T id)
      (fun outcome _ v' => v'.2.started = true → ∀ record, v'.1.db.transfer id = some record →
        record.status = .failed → ∃ op e error, Explained request outcome record v'.2 op e error)
      { checkpoint } (.initial db content, {}) := by
  have refusable : TypedRefusal (.ofCode .internalError []) := ⟨_, rfl⟩
  -- The record was started, and the clock was not read yet.
  let Started := fun (s' : TransferState T) (v' : TracedWorld T) => s' = { checkpoint } ∧
    v'.2 = { started := true } ∧
      ∃ r, v'.1.db.transfer id = some r ∧ r.status ≠ .failed ∧ r.bytesCopied = 0
  refine .bind (P := Post (fun _ s' v' => Started s' v') fun _ _ v' => v'.2.started = false) ?_ ?_ ?_
  · refine .catching (P := Post (fun _ s' v' => Started s' v') fun _ _ v' => v'.2.started = false)
      (Transfer.traced_wp ⟨.error (.ofCode .internalError []), _, ⟨refusable, rfl⟩, trivial⟩ ?_)
      (fun _ _ _ done => Setting.settled_alone.mpr done) ?_
    · intro r w' answer _
      cases r with
      | ok _ =>
        obtain ⟨instant, db', step, rfl⟩ := answer
        obtain ⟨stored, -⟩ := Database.start_transfer step
        have fresh : db.transfer id = none := by
          have absent := (Database.start_records step).1
          rw [Database.transfer, List.find?_eq_none]
          intro r member named
          exact absent (List.mem_map.mpr ⟨r, member, of_decide_eq_true named⟩)
        refine ⟨⟨fun r found => ?_, fun _ r found => ?_, .nil⟩, rfl, rfl, _, stored,
          TransferStatus.noConfusion, rfl⟩
        · cases fresh.symm.trans found
        · obtain rfl := Option.some.inj (stored.symm.trans found)
          exact le_refl _
      | error e =>
        obtain ⟨-, rfl⟩ := answer
        exact ⟨⟨fun r found => ⟨r, found, le_refl _⟩, fun never => Bool.noConfusion never, .nil⟩, rfl⟩
    · intro e s' v' unstarted
      split
      · exact .raise (Setting.settled_alone.mpr unstarted)
      · exact .raise (Setting.settled_alone.mpr unstarted)
  · intro _ s₁ v₁ started
    obtain ⟨rfl, trace, r, found, notFailed, none⟩ := started
    refine .bind (P := Post (fun now s' v' => s' = { checkpoint } ∧
        Steady id 0 { checkpoint := now } v') fun _ _ _ => False) (.ask ?_) ?_
      fun _ _ _ impossible => impossible.elim
    · intro v same
      subst same
      constructor
      · refine ⟨checkpoint, (v₁.1, v₁.2.note .clock checkpoint), rfl, ?_, rfl⟩
        intro last impossible
        rw [trace] at impossible
        cases impossible
      · intro now v' answer
        obtain ⟨w', t⟩ := v'
        obtain ⟨rfl, -, rfl⟩ := answer
        have steady : Steady id 0 { checkpoint := now } (v₁.1, v₁.2.note .clock now) := by
          rw [trace]
          exact ⟨⟨⟨r, found, notFailed, none.le⟩, rfl, ⟨now, rfl, le_refl _⟩,
            fun _ impossible => (List.not_mem_nil impossible).elim, .nil⟩, rfl, rfl⟩
        exact ⟨steady.advances rfl, Setting.settled_alone.mpr ⟨rfl, steady⟩⟩
    · intro now s₂ v₂ ready
      obtain ⟨rfl, steady⟩ := ready
      rw [Wp.modify_bind]
      refine .bind (P := Post (fun _ s' v' => Tracked id s' v')
          fun e' _ v' => ∀ record, v'.1.db.transfer id = some record → record.status = .failed →
            ∃ op e error, Explained request (.error e') record v'.2 op e error) ?_ ?_ ?_
      · refine .catching (steady.attempt_wp antitone rfl)
          (fun _ _ _ done => Setting.settled_alone.mpr done.1) ?_
        intro e s₃ v₃ raised
        rw [Wp.fields_bind]
        rcases raised with broken | ⟨tracked, published⟩
        · rw [broken.unpublished]
          exact broken.fail_wp.post (fun _ _ _ impossible => impossible.elim) fun _ _ _ left => left
        · rw [published]
          exact .pure (Setting.settled_alone.mpr tracked)
      · intro _ s₃ v₃ tracked
        exact tracked.finish_wp.mono fun _ _ _ left _ record found failed =>
          absurd failed (left record found)
      · exact fun e s₃ v₃ explained => Setting.settled_alone.mpr fun _ => explained
  · intro e s' v' unstarted
    refine Setting.settled_alone.mpr fun started => ?_
    rw [unstarted] at started
    cases started

end Rules

/-- In every run, the recorded bytes never decrease and were all written, two
saves of progress are at least the interval apart on the clock, and a failed
record tells what was written, which operation raised, and the error the run
raised, which names the connection on the side of the operation. -/
theorem Transfer.run_recorded {T : Type} [OfNat T 1] [Sub T] [LinearOrder T]
    (antitone : ∀ a b c : T, a ≤ b → c - b ≤ c - a) (id : Text) (request : TransferRequest)
    (content : Bytes) (db : Database) (checkpoint : T) (c : _ × TracedWorld T)
    (run : Prog.Reach (tracedSem T)
      (Transfer.run id request { checkpoint }, (.initial db content, {})) c) :
    (∀ c', Prog.Reach (tracedSem T) c c' → ∀ r, c.2.1.db.transfer id = some r →
      ∃ r', c'.2.1.db.transfer id = some r' ∧ r.bytesCopied ≤ r'.bytesCopied) ∧
    (c.2.2.started = true → ∀ r, c.2.1.db.transfer id = some r → r.bytesCopied ≤ c.2.2.written) ∧
    Apart c.2.2.saves ∧
    ∀ outcome s, c.1 = .ret (outcome, s) → c.2.2.started = true → ∀ record,
      c.2.1.db.transfer id = some record → record.status = .failed →
        ∃ op e error, Explained request outcome record c.2.2 op e error := by
  have runs := Transfer.run_traced antitone id request content db checkpoint
  refine ⟨fun c' later r found => ?_, ?_⟩
  · exact (runs.reach run).invariant (I := fun v => ∃ r', v.1.db.transfer id = some r' ∧
      r.bytesCopied ≤ r'.bytesCopied) ⟨r, found, le_refl _⟩ (fun v v' kept advances => by
        obtain ⟨r', stored, le⟩ := kept
        obtain ⟨r'', stored', le'⟩ := advances.grows r' stored
        exact ⟨r'', stored', le.trans le'⟩) later
  · have promised := runs.invariant (I := fun v => (v.2.started = true → ∀ r,
        v.1.db.transfer id = some r → r.bytesCopied ≤ v.2.written) ∧ Apart v.2.saves)
      ⟨(fun impossible => nomatch impossible), .nil⟩
      (fun _ _ _ advances => ⟨advances.written, advances.apart⟩) run
    refine ⟨promised.1, promised.2, fun outcome s ended => ?_⟩
    obtain ⟨p, v⟩ := c
    obtain rfl : p = .ret (outcome, s) := ended
    exact runs.result run

/-! ## A run whose second write raises -/

/-- The ledger commits. -/
def TransferWorld.commit (w : TransferWorld) (r : Except Exc Database) :
    Option (Except Exc Unit × TransferWorld) :=
  match r with
  | .ok db => some (.ok (), { w with db })
  | .error _ => none

/-- A clock that goes on by two, chunks of one byte, and a sink that takes one. -/
def smallSink : ∀ ⦃β : Type⦄, TransferEffect Int β → TracedWorld Int → Option (β × TransferWorld)
  | _, .startTransfer id request, v => v.1.commit (v.1.db.start id request 0)
  | _, .get name, v => some (.ok (.local ⟨name, []⟩), v.1)
  | _, .recordProgress id bytes, v =>
    v.1.commit (v.1.db.transition id [.running] (progressChange bytes 1))
  | _, .failTransfer id bytes phase code message, v =>
    v.1.commit (v.1.db.transition id [.running, .publishing]
      (failedChange bytes phase code message 2))
  | _, .clock, v => some ((v.2.now.map (· + 2)).getD 0, v.1)
  | _, .connector _, v => some (.ok (), v.1)
  | _, .openSource _, v => some (.ok (), v.1)
  | _, .openSink _ _ _, v => some (.ok (), v.1)
  | _, .read _, v =>
    some (.ok (v.1.remaining.take 1), { v.1 with remaining := v.1.remaining.drop 1 })
  | _, .write data, v =>
    if v.1.staged = [] then some (.ok (), { v.1 with staged := v.1.staged ++ data })
    else some (.error .timeout, v.1)
  | _, .closeSink (some _), v => some (.ok (), v.1)
  | _, .closeSource (some _), v => some (.ok (), v.1)
  | _, _, _ => none

/-- The answers of `smallSink`, noted. -/
def smallSinkAnswer ⦃β : Type⦄ (op : TransferEffect Int β) (v : TracedWorld Int) :
    Option (β × TracedWorld Int) :=
  (smallSink op v).map fun r => (r.1, (r.2, v.2.note op r.1))

theorem TransferWorld.commit_ledger {w w' : TransferWorld} {call : LedgerCall} {now : Instant}
    {effect : Instant → Database → Except Exc Database} {r : Except Exc Unit}
    (committed : w.commit (effect now w.db) = some (r, w')) :
    w.Ledger TypedRefusal call effect r w' := by
  unfold TransferWorld.commit at committed
  split at committed
  · rename_i db step
    cases committed
    exact ⟨now, db, step, rfl⟩
  · cases committed

theorem smallSinkAnswer_sem ⦃β : Type⦄ (op : TransferEffect Int β) (v : TracedWorld Int) (b : β)
    (v' : TracedWorld Int) (answered : smallSinkAnswer op v = some (b, v')) :
    tracedSem Int op v b v' := by
  obtain ⟨⟨r, w'⟩, script, same⟩ := Option.map_eq_some_iff.mp answered
  cases same
  cases op with
  | startTransfer id request => exact ⟨TransferWorld.commit_ledger script, trivial, rfl⟩
  | recordProgress id bytes => exact ⟨TransferWorld.commit_ledger script, trivial, rfl⟩
  | failTransfer id bytes phase code message =>
    exact ⟨TransferWorld.commit_ledger script, trivial, rfl⟩
  | get name =>
    cases script
    exact ⟨.inl ⟨rfl, _, rfl⟩, trivial, rfl⟩
  | clock =>
    cases script
    refine ⟨rfl, ?_, rfl⟩
    intro last read
    rw [read]
    exact Int.le_add_of_nonneg_right (by decide)
  | connector connection | openSource filename | openSink filename id overwrite =>
    cases script
    exact ⟨rfl, trivial, rfl⟩
  | read size =>
    cases script
    refine ⟨.inl ⟨_, _, rfl, (List.take_append_drop 1 _).symm, ?_, rfl⟩, trivial, rfl⟩
    intro none
    rcases List.take_eq_nil_iff.mp none with impossible | empty
    · cases impossible
    · rw [empty]
      rfl
  | write data =>
    change (if v.1.staged = [] then some (.ok (), { v.1 with staged := v.1.staged ++ data })
      else some (.error .timeout, v.1)) = some (r, w') at script
    split at script
    · cases script
      exact ⟨.inl ⟨rfl, rfl⟩, trivial, rfl⟩
    · cases script
      exact ⟨.inr ⟨.timeout, v.1.staged, rfl, rfl⟩, trivial, rfl⟩
  | closeSource failure | closeSink failure =>
    cases failure with
    | none => cases script
    | some e =>
      cases script
      exact ⟨rfl, (fun _ impossible => nomatch impossible), rfl⟩
  | markPublishing | finishTransfer | finish => cases script

/-- Two bytes are copied: the first is saved as progress, the second is not taken. -/
theorem Transfer.run_recorded_second : ∃ outcome s v op e error record,
    Prog.Reach (tracedSem Int) (Transfer.run (lit "t") ⟨lit "a", lit "x", lit "b", lit "y", false⟩
      { checkpoint := 0 }, (.initial { transfers := some ⟨[], List.nodup_nil⟩ } [7, 8], {}))
      (.ret (outcome, s), v) ∧
    v.2.saves.length = 1 ∧ record.bytesCopied = 1 ∧
    Explained ⟨lit "a", lit "x", lit "b", lit "y", false⟩ outcome record v.2 op e error := by
  let request : TransferRequest := ⟨lit "a", lit "x", lit "b", lit "y", false⟩
  have played : (Prog.follow smallSinkAnswer 60 (Transfer.run (lit "t") request { checkpoint := 0 })
      (.initial { transfers := some ⟨[], List.nodup_nil⟩ } [7, 8], {})).map (fun r =>
        (r.2.2.saves.length, r.2.2.started,
          (r.2.1.db.transfer (lit "t")).map fun record => (record.status, record.bytesCopied))) =
      some (1, true, some (.failed, 1)) := by decide +kernel
  obtain ⟨⟨⟨outcome, s⟩, v⟩, run, facts⟩ := Option.map_eq_some_iff.mp played
  obtain ⟨saves, facts⟩ := Prod.mk.inj facts
  obtain ⟨started, stored⟩ := Prod.mk.inj facts
  obtain ⟨record, found, facts⟩ := Option.map_eq_some_iff.mp stored
  obtain ⟨failed, bytes⟩ := Prod.mk.inj facts
  have reached : Prog.Reach (tracedSem Int) _ _ := Prog.follow_reach smallSinkAnswer_sem run
  obtain ⟨op, e, error, explained⟩ := (Transfer.run_recorded (fun a b c => by omega) (lit "t") request
    [7, 8] _ (0 : Int) _ reached).2.2.2 outcome s rfl started record found failed
  exact ⟨outcome, s, v, op, e, error, record, reached, saves, bytes, explained⟩

end DataBridge
