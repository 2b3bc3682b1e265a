import DataBridge.Effect.Ensures
import DataBridge.RequestLog.Rotation

/-!
# When calls of the log fail

A rotation that fails between the close and the reopening leaves the log without
an open stream, but with the size it tracked before. The next write goes through
a rotation of its own, which opens the log again, if its line is long enough for
the tracked size; otherwise it finds no stream and raises what is not an
`OSError`. `RequestLog.Ready` says which, and the theorem at the end that this is
all there is to say: of every write of every run, and of the write that follows
once the calls stop failing.
-/

namespace DataBridge

open Effect Routine Files

/-- Any call of the log may fail with an `OSError`. -/
abbrev faultyLog : Sem LogCall LogWorld := LogCall.sem fun e => e.isOSError = true

/-- No name of the log is a directory. -/
def NoDirectory (d : Directory Nat) : Prop := ∀ name, d.entries name ≠ some .directory

/-- The stream is open. -/
def RequestLogState.IsOpen (log : RequestLogState) : Prop :=
  ∃ stream, log.stream = some stream ∧ stream.closed = false

/-- An open stream belongs to the log file. -/
def Attached (log : RequestLogState) (w : LogWorld) : Prop :=
  ∀ stream, log.stream = some stream → stream.closed = false →
    w.directory.entries 0 = some (.file stream.file)

/-- There is no open stream. -/
abbrev Detached (log : RequestLogState) (_ : LogWorld) : Prop := ¬ log.IsOpen

theorem attached_of_detached {log : RequestLogState} {w : LogWorld} (h : Detached log w) :
    Attached log w :=
  fun stream present opened => absurd ⟨stream, present, opened⟩ h

/-- There is no open stream, and nothing in the way of one. -/
structure Vacant (log : RequestLogState) (w : LogWorld) : Prop where
  files : NoDirectory w.directory
  stream : ¬ log.IsOpen

/-! ## Files -/

section Files

variable {d : Directory Nat}

theorem NoDirectory.create (h : NoDirectory d) (mode : Nat) : NoDirectory (d.create 0 mode) := by
  intro name
  by_cases first : name = 0
  · subst first
    rw [Directory.create_entries_self]
    intro impossible
    cases impossible
  · rw [Directory.create_entries_of_ne first]
    exact h name

theorem NoDirectory.unlink (h : NoDirectory d) : NoDirectory (d.unlink 0) := by
  intro name
  by_cases first : name = 0
  · subst first
    rw [Directory.unlink_entries_self]
    intro impossible
    cases impossible
  · rw [Directory.unlink_entries_of_ne first]
    exact h name

theorem NoDirectory.rename (h : NoDirectory d) {source target : Nat} (apart : source ≠ target) :
    NoDirectory (d.rename source target) := by
  intro name
  by_cases old : name = source
  · subst old
    rw [Directory.rename_entries_old apart]
    intro impossible
    cases impossible
  · by_cases new : name = target
    · subst new
      rw [Directory.rename_entries_new]
      exact h source
    · rw [Directory.rename_entries_of_ne old new]
      exact h name

theorem NoDirectory.append {w : LogWorld} (h : NoDirectory w.directory) (file : Nat)
    (data : Bytes) : NoDirectory (w.append file data).directory := by
  intro name
  rw [LogWorld.append_entries]
  exact h name

end Files

/-! ## What each method leaves, whatever fails -/

section Faulty

variable {c : RequestLog} {log : RequestLogState} {w : LogWorld} {α β : Type}

/-- The outcomes of a method whose exceptions are all `OSError`s. -/
abbrev Faults (A : α → RequestLogState → LogWorld → Prop) (B : RequestLogState → LogWorld → Prop) :
    Except Exc α → RequestLogState → LogWorld → Prop :=
  Post A fun e log w => e.isOSError = true ∧ B log w

/-- A call that fails with an `OSError` and then changes nothing. -/
theorem call_ensures {op : LogCall (Except Exc α)} {A : α → RequestLogState → LogWorld → Prop}
    {B : RequestLogState → LogWorld → Prop}
    (answers : ∀ r w', faultyLog op w r w' →
      (∃ e, e.isOSError = true ∧ r = .error e ∧ w' = w) ∨ ∃ a, r = .ok a ∧ A a log w')
    (before : B log w) : (Routine.invoke op).Ensures faultyLog (Faults A B) log w := by
  refine .invoke fun r w' answer => ?_
  rcases answers r w' answer with ⟨e, fault, rfl, rfl⟩ | ⟨a, rfl, after⟩
  · exact ⟨fault, before⟩
  · exact after

/-- A call that passes data on: the file has some of it, and the buffer what it may. -/
theorem handOn_ensures {op : LogCall (Bytes × Except Exc Unit)} (file : Nat) (data : Bytes)
    {g : Bytes → RequestLogState → RequestLogState} {A : RequestLogState → LogWorld → Prop}
    (answers : ∀ r w', faultyLog op w r w' →
      (∃ stored, w' = w.append file (data.take stored)) ∧ (r.2 = .ok () ∨
        ∃ e, e.isOSError = true ∧ r.2 = .error e))
    (after : ∀ rest stored, A (g rest log) (w.append file (data.take stored))) :
    (Routine.ask op >>= fun answer => Routine.modify (g answer.1) >>= fun _ =>
      Routine.ofExcept answer.2).Ensures faultyLog (Faults (fun _ => A) A) log w := by
  refine .bind (P := Post (fun r log' w' => log' = log ∧
      (∃ stored, w' = w.append file (data.take stored)) ∧ (r.2 = .ok () ∨
        ∃ e, e.isOSError = true ∧ r.2 = .error e)) fun _ _ _ => False)
    (.ask fun r w' answer => ⟨rfl, answers r w' answer⟩) ?_ fun _ _ _ impossible => impossible.elim
  rintro r log' w' ⟨rfl, ⟨stored, rfl⟩, fine | ⟨e, fault, failed⟩⟩
  · rw [Ensures.modify_bind, fine]
    exact .ofExcept (after r.1 stored)
  · rw [Ensures.modify_bind, failed]
    exact .ofExcept ⟨fault, after r.1 stored⟩

theorem torn_answers {file : Nat} {data : Bytes} {r : Bytes × Except Exc Unit} {w' : LogWorld}
    (torn : LogCall.Torn (fun e => e.isOSError = true) file data w r w') :
    (∃ stored, w' = w.append file (data.take stored)) ∧ (r.2 = .ok () ∨
      ∃ e, e.isOSError = true ∧ r.2 = .error e) := by
  obtain ⟨e, stored, kept, fault, rfl, rfl⟩ := torn
  exact ⟨⟨stored, rfl⟩, .inr ⟨e, fault, rfl⟩⟩

theorem whole_answers {file : Nat} {data : Bytes} {w' : LogWorld} (whole : w' = w.append file data) :
    ∃ stored, w' = w.append file (data.take stored) :=
  ⟨data.length, by rw [List.take_length, whole]⟩

theorem close_ensures :
    RequestLog.close.Ensures faultyLog (Faults (fun _ => Detached) Detached) log w := by
  unfold RequestLog.close onStream
  rw [Ensures.fields_bind]
  cases present : log.stream with
  | none =>
    refine .pure ?_
    rintro ⟨stream, impossible, -⟩
    rw [present] at impossible
    cases impossible
  | some stream =>
    refine .bind (P := Faults (fun _ _ _ => True) Detached) ?_ ?_ fun _ _ _ failed => failed
    · unfold LogStream.close
      by_cases closed : stream.closed = true
      · rw [if_pos closed]
        exact .pure trivial
      · rw [if_neg closed]
        refine (handOn_ensures stream.file stream.buffer (A := Detached)
          (g := fun _ log =>
            { log with stream := some { stream with buffer := [], closed := true } })
          ?_ fun rest stored => ?_).mono ?_
        · rintro r w' (torn | ⟨rfl, rfl⟩)
          · exact torn_answers torn
          · exact ⟨whole_answers rfl, .inl rfl⟩
        · rintro ⟨other, same, opened⟩
          cases same
          cases opened
        · rintro (e | _) log' w' after
          · exact after
          · exact trivial
    · intro _ log' w' _
      refine .modify ?_
      rintro ⟨stream, impossible, -⟩
      cases impossible

theorem discard_ensures (detached : Detached log w) :
    c.discard.Ensures faultyLog (Faults (fun _ => Detached) Detached) log w := by
  unfold RequestLog.discard
  split
  · refine call_ensures (fun r w' answer => ?_) detached
    rcases answer with failed | answer
    · exact .inl failed
    · split at answer
      · exact .inl ⟨_, rfl, answer⟩
      · exact .inr ⟨(), answer.1, detached⟩
      · exact .inr ⟨(), answer.1, detached⟩
  · exact .pure detached

theorem shift_ensures {number : Nat} (detached : Detached log w) :
    (RequestLog.shift number).Ensures faultyLog (Faults (fun _ => Detached) Detached) log w := by
  refine .bind (P := Faults (fun _ => Detached) Detached) (call_ensures ?_ detached) ?_
    fun _ _ _ failed => failed
  · rintro r w' (failed | answer)
    · exact .inl failed
    · exact .inr ⟨_, answer.1, detached⟩
  · intro present log w detached
    split
    · refine call_ensures (fun r w' answer => ?_) detached
      rcases answer with failed | answer
      · exact .inl failed
      · split at answer
        · exact .inl ⟨_, rfl, answer⟩
        · exact .inl ⟨_, rfl, answer⟩
        · exact .inl ⟨_, rfl, answer⟩
        · exact .inr ⟨(), answer.1, detached⟩
    · exact .pure detached

theorem openLog_ensures (detached : Detached log w) :
    RequestLog.openLog.Ensures faultyLog
      (Faults (fun _ log w => log.IsOpen ∧ Attached log w) Attached) log w := by
  have attached : ∀ {log w}, Detached log w → Attached log w := attached_of_detached
  -- From here on the descriptor is the one of the log file.
  have later : ∀ {α : Type} {op : LogCall (Except Exc α)} {log : RequestLogState} {w : LogWorld}
      {descriptor : Nat}, Detached log w → w.directory.entries 0 = some (.file descriptor) →
      (∀ r w', faultyLog op w r w' → (∃ e, e.isOSError = true ∧ r = .error e ∧ w' = w) ∨
        ∃ a, r = .ok a ∧ w'.directory.entries = w.directory.entries) →
      (Routine.invoke op).Ensures faultyLog (Faults (fun _ log' w' => Detached log' w' ∧
        w'.directory.entries 0 = some (.file descriptor)) Attached) log w := by
    intro α op log w descriptor detached entry answers
    refine call_ensures (fun r w' answer => ?_) (attached detached)
    rcases answers r w' answer with failed | ⟨a, rfl, entries⟩
    · exact .inl failed
    · exact .inr ⟨a, rfl, detached, (congrFun entries 0).trans entry⟩
  refine .bind (P := Faults (fun descriptor log' w' => Detached log' w' ∧
    w'.directory.entries 0 = some (.file descriptor)) Attached)
    (call_ensures ?_ (attached detached)) ?_ fun _ _ _ failed => failed
  · rintro r w' (failed | answer)
    · exact .inl failed
    · split at answer
      · rename_i file entry
        obtain ⟨rfl, rfl⟩ := answer
        exact .inr ⟨file, rfl, detached, entry⟩
      · exact .inl ⟨_, rfl, answer⟩
      · obtain ⟨rfl, rfl⟩ := answer
        exact .inr ⟨_, rfl, detached, Directory.create_entries_self⟩
  · rintro descriptor log₁ w₁ ⟨detached, entry⟩
    refine .bind (later detached entry ?_) ?_ fun _ _ _ failed => failed
    · rintro r w' (failed | ⟨rfl, rfl⟩)
      · exact .inl failed
      · exact .inr ⟨(), rfl, rfl⟩
    · rintro _ log₂ w₂ ⟨detached, entry⟩
      refine .bind (later detached entry ?_) ?_ fun _ _ _ failed => failed
      · rintro r w' (failed | ⟨rfl, rfl⟩)
        · exact .inl failed
        · exact .inr ⟨_, rfl, rfl⟩
      · rintro size log₃ w₃ ⟨detached, entry⟩
        have sized : Detached { log₃ with size } w₃ := detached
        rw [Ensures.modify_bind]
        refine .bind (later sized entry ?_) ?_ fun _ _ _ failed => failed
        · rintro r w' (failed | ⟨rfl, rfl⟩)
          · exact .inl failed
          · exact .inr ⟨(), rfl, rfl⟩
        · rintro _ log₄ w₄ ⟨-, entry⟩
          refine .modify ⟨⟨_, rfl, rfl⟩, fun stream same _ => ?_⟩
          cases same
          exact entry

theorem rotate_ensures : c.rotate.Ensures faultyLog
    (Faults (fun _ log w => log.IsOpen ∧ Attached log w) Attached) log w := by
  have gone : ∀ {e : Exc} {log : RequestLogState} {w : LogWorld},
      e.isOSError = true ∧ Detached log w → e.isOSError = true ∧ Attached log w :=
    fun failed => ⟨failed.1, attached_of_detached failed.2⟩
  refine .bind close_ensures (fun _ log w detached => ?_) fun _ _ _ => gone
  refine .bind (discard_ensures detached) (fun _ log w detached => ?_) fun _ _ _ => gone
  refine .bind (P := Faults (fun _ => Detached) Detached) ?_
    (fun _ log w detached => openLog_ensures detached) fun _ _ _ => gone
  exact .forEach (I := fun _ => Detached) (fun _ _ _ _ detached => shift_ensures detached)
    (fun _ _ done => done) detached

/-- The stream keeps what it could not pass on, and stays open. -/
theorem handOn_open_ensures {op : LogCall (Bytes × Except Exc Unit)} {stream : LogStream}
    (data : Bytes) (opened : stream.closed = false)
    (entry : w.directory.entries 0 = some (.file stream.file))
    (answers : ∀ r w', faultyLog op w r w' →
      (∃ stored, w' = w.append stream.file (data.take stored)) ∧ (r.2 = .ok () ∨
        ∃ e, e.isOSError = true ∧ r.2 = .error e)) :
    (Routine.ask op >>= fun answer => Routine.modify (fun log : RequestLogState =>
      { log with stream := some { stream with buffer := answer.1 } }) >>= fun _ =>
      Routine.ofExcept answer.2).Ensures faultyLog
      (Faults (fun _ log w => log.IsOpen ∧ Attached log w) Attached) log w := by
  have after : ∀ rest stored, RequestLogState.IsOpen
        { log with stream := some { stream with buffer := rest } } ∧
      Attached { log with stream := some { stream with buffer := rest } }
        (w.append stream.file (data.take stored)) := by
    intro rest stored
    refine ⟨⟨_, rfl, opened⟩, fun other same _ => ?_⟩
    cases same
    rw [LogWorld.append_entries]
    exact entry
  refine (handOn_ensures stream.file data (A := fun log w => log.IsOpen ∧ Attached log w)
    (g := fun rest log => { log with stream := some { stream with buffer := rest } })
    answers after).mono ?_
  rintro (e | _) log' w' after
  · exact ⟨after.1, after.2.2⟩
  · exact after

theorem streamWrite_ensures (line : LogLine) (opened : log.IsOpen) (attached : Attached log w) :
    (onStream (fun stream => stream.write line) (.raise .runtimeError)).Ensures faultyLog
      (Faults (fun _ log w => log.IsOpen ∧ Attached log w) Attached) log w := by
  obtain ⟨stream, present, closed⟩ := opened
  unfold onStream
  rw [Ensures.fields_bind, present]
  dsimp only
  unfold LogStream.write
  rw [if_neg (closed ▸ Bool.false_ne_true)]
  refine handOn_open_ensures (stream.buffer ++ line.text) closed
    (attached stream present closed) ?_
  rintro r w' (torn | ⟨stored, rfl, rfl⟩)
  · exact torn_answers torn
  · exact ⟨⟨stored, rfl⟩, .inl rfl⟩

theorem streamFlush_ensures (opened : log.IsOpen) (attached : Attached log w) :
    (onStream LogStream.flush (.raise .runtimeError)).Ensures faultyLog
      (Faults (fun _ log w => log.IsOpen ∧ Attached log w) Attached) log w := by
  obtain ⟨stream, present, closed⟩ := opened
  unfold onStream
  rw [Ensures.fields_bind, present]
  dsimp only
  unfold LogStream.flush
  rw [if_neg (closed ▸ Bool.false_ne_true)]
  refine handOn_open_ensures stream.buffer closed
    (attached stream present closed) ?_
  rintro r w' (torn | ⟨rfl, rfl⟩)
  · exact torn_answers torn
  · exact ⟨whole_answers rfl, .inl rfl⟩

end Faulty

/-! ## The state before a write decides -/

namespace RequestLog

variable {c : RequestLog} {log : RequestLogState} {w : LogWorld}

/-- The write will find an open stream: there is one, or its own rotation opens one. -/
def Ready (c : RequestLog) (log : RequestLogState) (line : LogLine) : Prop :=
  log.IsOpen ∨ c.Due log.size line

theorem write_ensures (attached : Attached log w) {line : LogLine} (ready : c.Ready log line) :
    (c.write line).Ensures faultyLog (Faults (fun _ => Attached) Attached) log w := by
  refine .bind (P := Faults (fun _ log w => log.IsOpen ∧ Attached log w) Attached) ?_ ?_
    fun _ _ _ failed => failed
  · unfold makeRoom
    rw [Ensures.fields_bind]
    by_cases due : c.Due log.size line
    · rw [if_pos due]
      exact rotate_ensures
    · rw [if_neg due]
      exact .pure ⟨ready.resolve_right due, attached⟩
  · rintro _ log₁ w₁ ⟨opened, attached⟩
    refine .bind (streamWrite_ensures line opened attached) ?_ fun _ _ _ failed => failed
    rintro _ log₂ w₂ ⟨opened, attached⟩
    refine .bind (streamFlush_ensures opened attached) ?_ fun _ _ _ failed => failed
    rintro _ log₃ w₃ ⟨-, attached⟩
    exact .modify attached

/-- Otherwise it raises before any call. -/
theorem write_unready {sem : Sem LogCall LogWorld} {line : LogLine}
    (unready : ¬ c.Ready log line) :
    (c.write line).Ensures sem (fun r log' w' =>
      (∃ e, e.isOSError = false ∧ r = .error e) ∧ log' = log ∧ w' = w) log w := by
  have notDue : ¬ c.Due log.size line := fun due => unready (.inr due)
  refine .bind (P := Post (fun _ log' w' => log' = log ∧ w' = w) fun _ _ _ => False) ?_ ?_
    fun _ _ _ impossible => impossible.elim
  · unfold makeRoom
    rw [Ensures.fields_bind, if_neg notDue]
    exact .pure ⟨rfl, rfl⟩
  · rintro _ log₁ w₁ ⟨rfl, rfl⟩
    refine .bind (P := Post (fun _ _ _ => False) fun e log' w' =>
      e.isOSError = false ∧ log' = log₁ ∧ w' = w₁) ?_ (fun _ _ _ impossible => impossible.elim) ?_
    · unfold onStream
      rw [Ensures.fields_bind]
      cases present : log₁.stream with
      | none => exact .raise ⟨rfl, rfl, rfl⟩
      | some stream =>
        have closed : stream.closed = true := by
          cases closed : stream.closed with
          | false => exact absurd (.inl ⟨stream, present, closed⟩) unready
          | true => rfl
        dsimp only
        rw [LogStream.write, if_pos closed]
        exact .raise ⟨rfl, rfl, rfl⟩
    · rintro e log' w' ⟨notOS, same, same'⟩
      exact ⟨⟨e, notOS, rfl⟩, same, same'⟩

/-! ## Once the calls stop failing -/

/-- The log file ends with the line. -/
def Logged (line : LogLine) (w : LogWorld) : Prop :=
  ∃ file, w.directory.entries 0 = some (.file file) ∧
    line.text <:+ (w.directory.nodes file).content

theorem reliable_close (files : NoDirectory w.directory) :
    close.Wp reliableLog (Post (fun _ => Vacant) fun _ _ _ => False) log w := by
  unfold close onStream
  rw [Wp.fields_bind]
  cases present : log.stream with
  | none =>
    refine .pure (Setting.settled_alone.mpr ⟨files, ?_⟩)
    rintro ⟨stream, impossible, -⟩
    rw [present] at impossible
    cases impossible
  | some stream =>
    have absent : ∀ size, ¬ RequestLogState.IsOpen ⟨none, size⟩ := by
      rintro size ⟨stream, impossible, -⟩
      cases impossible
    refine reliable_then (P := fun _ _ w' => NoDirectory w'.directory) ?_ fun _ log' w' files =>
      .modify (Setting.settled_alone.mpr ⟨files, absent _⟩)
    unfold LogStream.close
    by_cases closed : stream.closed = true
    · rw [if_pos closed]
      exact .pure (Setting.settled_alone.mpr files)
    · rw [if_neg closed]
      refine reliable_then (P := fun answer _ w' => answer.2 = .ok () ∧
        NoDirectory w'.directory) ?_ ?_
      · refine .ask fun w₁ same => ?_
        subst same
        refine ⟨⟨_, _, .inr ⟨rfl, rfl⟩⟩, ?_⟩
        rintro answer w' (⟨_, _, _, impossible, -⟩ | ⟨rfl, rfl⟩)
        · exact impossible.elim
        · exact ⟨trivial, Setting.settled_alone.mpr ⟨rfl, files.append _ _⟩⟩
      · rintro answer log' w' ⟨fine, files⟩
        rw [Wp.modify_bind, fine]
        exact .ofExcept (Setting.settled_alone.mpr files)

theorem reliable_discard (vacant : Vacant log w) :
    c.discard.Wp reliableLog (Post (fun _ => Vacant) fun _ _ _ => False) log w := by
  unfold discard
  by_cases none : c.backups = 0
  · rw [if_pos none]
    cases entry : w.directory.entries 0 with
    | none =>
      exact reliable_invoke (r := .ok ()) (v := w)
        (fun r' w' => by simp [LogCall.sem, entry]) vacant
    | some e =>
      cases e with
      | directory => exact absurd entry (vacant.files 0)
      | file file =>
        exact reliable_invoke (r := .ok ()) (v := { w with directory := w.directory.unlink 0 })
          (fun r' w' => by simp [LogCall.sem, entry]) ⟨vacant.files.unlink, vacant.stream⟩
  · rw [if_neg none]
    exact .pure (Setting.settled_alone.mpr vacant)

theorem reliable_shift {number : Nat} (positive : 0 < number) (vacant : Vacant log w) :
    (shift number).Wp reliableLog (Post (fun _ => Vacant) fun _ _ _ => False) log w := by
  refine reliable_bind exist_answers ?_
  cases source : w.directory.entries (number - 1) with
  | none => exact .pure (Setting.settled_alone.mpr vacant)
  | some e =>
    cases e with
    | directory => exact absurd source (vacant.files _)
    | file file =>
      refine reliable_invoke (r := .ok ())
        (v := { w with directory := w.directory.rename (number - 1) number }) (fun r' w' => ?_)
        ⟨vacant.files.rename (by omega), vacant.stream⟩
      cases target : w.directory.entries number with
      | none => simp [LogCall.sem, source, target]
      | some e =>
        cases e with
        | directory => exact absurd target (vacant.files _)
        | file file' => simp [LogCall.sem, source, target]

theorem reliable_openLog (vacant : Vacant log w) :
    openLog.Wp reliableLog (Post (fun _ log' w' => NoDirectory w'.directory ∧ ∃ file,
      log'.stream = some ⟨file, [], false⟩ ∧ w'.directory.entries 0 = some (.file file))
      fun _ _ _ => False) log w := by
  have rest : ∀ file w₁, NoDirectory w₁.directory → w₁.directory.entries 0 = some (.file file) →
      (∀ r' w', LogCall.sem (fun _ => False) .openFile w r' w' ↔ r' = .ok file ∧ w' = w₁) →
      openLog.Wp reliableLog (Post (fun _ log' w' => NoDirectory w'.directory ∧ ∃ file,
        log'.stream = some ⟨file, [], false⟩ ∧ w'.directory.entries 0 = some (.file file))
        fun _ _ _ => False) log w := by
    intro file w₁ files entry answers
    refine reliable_bind answers
      (reliable_bind chmod_answers (reliable_bind fileSize_answers ?_))
    refine Wp.modify_bind.mpr (reliable_bind fdopen_answers ?_)
    exact .modify (Setting.settled_alone.mpr ⟨files, file, rfl, entry⟩)
  cases entry : w.directory.entries 0 with
  | none =>
    exact rest w.directory.next { w with directory := w.directory.create 0 0o600 }
      (vacant.files.create _) Directory.create_entries_self
      fun r' w' => by simp [LogCall.sem, entry]
  | some e =>
    cases e with
    | directory => exact absurd entry (vacant.files 0)
    | file file => exact rest file w vacant.files entry fun r' w' => by simp [LogCall.sem, entry]

theorem reliable_rotate (files : NoDirectory w.directory) :
    c.rotate.Wp reliableLog (Post (fun _ log' w' => log'.IsOpen ∧ Attached log' w')
      fun _ _ _ => False) log w := by
  refine reliable_then (reliable_close files) fun _ log w vacant => ?_
  refine reliable_then (reliable_discard vacant) fun _ log w vacant => ?_
  refine reliable_then (P := fun _ => Vacant) ?_ fun _ log w vacant => ?_
  · refine .forEach (I := fun _ => Vacant) ?_ (fun _ _ done => Setting.settled_alone.mpr done)
      vacant
    rintro done number rest split log w vacant
    have member : number ∈ numbers c.backups := by
      rw [split]
      exact List.mem_append_right _ List.mem_cons_self
    obtain ⟨n, rfl, -⟩ := mem_numbers member
    exact (reliable_shift (Nat.succ_pos n) vacant).post (fun _ _ _ after => after)
      fun _ _ _ impossible => impossible.elim
  · refine (reliable_openLog vacant).post ?_ fun _ _ _ impossible => impossible
    rintro _ log' w' ⟨-, file, stream, entry⟩
    refine ⟨⟨_, stream, rfl⟩, fun other same _ => ?_⟩
    cases stream.symm.trans same
    exact entry

theorem reliable_write (files : NoDirectory w.directory) (attached : Attached log w)
    {line : LogLine} (ready : c.Ready log line) :
    (c.write line).Wp reliableLog (Post (fun _ _ => Logged line) fun _ _ _ => False) log w := by
  refine reliable_then (P := fun _ log w => log.IsOpen ∧ Attached log w) ?_ ?_
  · unfold makeRoom
    rw [Wp.fields_bind]
    by_cases due : c.Due log.size line
    · rw [if_pos due]
      exact reliable_rotate files
    · rw [if_neg due]
      exact .pure (Setting.settled_alone.mpr ⟨ready.resolve_right due, attached⟩)
  · rintro _ log₁ w₁ ⟨⟨⟨file, buffer, closed⟩, present, opened⟩, attached⟩
    cases opened
    have entry := attached _ present rfl
    refine reliable_then (streamWrite_wp line present) ?_
    rintro _ log₂ w₂ ⟨stored, rfl, rfl⟩
    refine reliable_then (streamFlush_wp rfl) ?_
    rintro _ log₃ w₃ ⟨rfl, rfl⟩
    refine .modify (Setting.settled_alone.mpr ⟨file, ?_, ?_⟩)
    · rw [LogWorld.append_entries, LogWorld.append_entries]
      exact entry
    · rw [LogWorld.append_content, LogWorld.append_content, List.append_assoc,
        List.take_append_drop, ← List.append_assoc]
      exact List.suffix_append _ _

/-- An event is logged again exactly when its write is ready. -/
theorem reliable_write_iff (files : NoDirectory w.directory) (attached : Attached log w)
    (line : LogLine) :
    (c.write line).Wp reliableLog (Post (fun _ _ => Logged line) fun _ _ _ => False) log w ↔
      c.Ready log line := by
  constructor
  · intro wp
    by_contra unready
    obtain ⟨⟨r, log'⟩, w', run⟩ := (Prog.Wp.ends wp).outcome
    obtain ⟨⟨e, -, raised⟩, -⟩ := write_unready unready r log' w' run
    have logged := Runs.result wp run
    subst raised
    exact logged
  · exact reliable_write files attached

end RequestLog

/-! ## Runs -/

/-- One write: the state it found, its line, and how it ended. -/
structure LogStep where
  before : RequestLogState
  line : LogLine
  outcome : Except Exc Unit

/-- Only an `OSError` left the write. -/
def LogStep.Contained (step : LogStep) : Prop :=
  ∀ e, step.outcome = .error e → e.isOSError = true

/-- The writes of a log, one after another, whatever the calls answer and however
each write ends. -/
inductive LogRun (c : RequestLog) (log : RequestLogState) (w : LogWorld) :
    List LogStep → RequestLogState → LogWorld → Prop
  | start : LogRun c log w [] log w
  | write {steps : List LogStep} {log₁ log₂ : RequestLogState} {w₁ w₂ : LogWorld}
    {r : Except Exc Unit} (line : LogLine) : LogRun c log w steps log₁ w₁ →
    Runs faultyLog (c.write line) log₁ w₁ r log₂ w₂ →
    LogRun c log w (steps ++ [⟨log₁, line, r⟩]) log₂ w₂

theorem LogRun.attached {c : RequestLog} {log log' : RequestLogState} {w w' : LogWorld}
    {steps : List LogStep} (run : LogRun c log w steps log' w') (start : Attached log w) :
    Attached log' w' := by
  induction run with
  | start => exact start
  | @write steps log₁ log₂ w₁ w₂ r line before ran ih =>
    by_cases ready : c.Ready log₁ line
    · have after := RequestLog.write_ensures ih ready _ _ _ ran
      cases r with
      | ok _ => exact after
      | error e => exact after.2
    · obtain ⟨-, rfl, rfl⟩ := RequestLog.write_unready ready _ _ _ ran
      exact ih

/-- A write raises nothing but an `OSError` exactly when it is ready. -/
theorem RequestLog.contained_iff {c : RequestLog} {log log' : RequestLogState} {w w' : LogWorld}
    {line : LogLine} {r : Except Exc Unit} (attached : Attached log w)
    (ran : Runs faultyLog (c.write line) log w r log' w') :
    (∀ e, r = .error e → e.isOSError = true) ↔ c.Ready log line := by
  constructor
  · intro contained
    by_contra unready
    obtain ⟨⟨e, other, raised⟩, -⟩ := RequestLog.write_unready unready _ _ _ ran
    rw [contained e raised] at other
    cases other
  · intro ready e raised
    have after := RequestLog.write_ensures attached ready _ _ _ ran
    subst raised
    exact after.1

/-- What leaves the middleware, when the write is ready, is what the request came to. -/
theorem RequestContextMiddleware.call_result {c : RequestLog} {log log' : RequestLogState}
    {w w' : LogWorld} {line : LogLine} {answered r : Except Exc Unit} (attached : Attached log w)
    (ready : c.Ready log line) (ran : Runs faultyLog (call c answered line) log w r log' w') :
    r = answered := by
  obtain ⟨r₁, log₁, w₁, body, ⟨-, rfl⟩ | ⟨e, raised, -⟩⟩ := Runs.of_ensuring ran
  · exact body.of_ofExcept.1
  · obtain ⟨-, rfl, rfl⟩ := body.of_ofExcept
    rcases raised.of_catching with ⟨_, impossible, -⟩ | ⟨e', log₂, w₂, left, handled⟩
    · cases impossible
    · rw [(RequestLog.contained_iff attached left).mpr ready e' rfl, if_pos rfl] at handled
      cases handled.of_pure.1

/-! ## An operating system that cannot rename -/

/-- An operating system whose only failing call is the rename. -/
def failingRename : ∀ ⦃β : Type⦄, LogCall β → Unit → LogWorld → β × Unit × LogWorld
  | _, .openFile, _, w =>
    match w.directory.entries 0 with
    | some (.file file) => (.ok file, (), w)
    | some .directory => (.error (.osError .EISDIR), (), w)
    | none => (.ok w.directory.next, (), { w with directory := w.directory.create 0 0o600 })
  | _, .chmod file mode, _, w => (.ok (), (), w.chmod file mode)
  | _, .fileSize file, _, w => (.ok (w.directory.nodes file).content.length, (), w)
  | _, .fdopen _, _, w => (.ok (), (), w)
  | _, .write _ data, _, w => ((data, .ok ()), (), w.append 0 [])
  | _, .flush file data, _, w => (([], .ok ()), (), w.append file data)
  | _, .close file data, _, w => (([], .ok ()), (), w.append file data)
  | _, .unlink _, _, w => (.error (.osError .EACCES), (), w)
  | _, .exist name, _, w => (.ok (w.directory.entries name).isSome, (), w)
  | _, .replace _ _, _, w => (.error (.osError .EACCES), (), w)

theorem failingRename_sem ⦃β : Type⦄ (op : LogCall β) (o : Unit) (w : LogWorld) :
    faultyLog op w (failingRename op o w).1 (failingRename op o w).2.2 := by
  cases op with
  | openFile =>
    refine .inr ?_
    simp only [failingRename]
    cases w.directory.entries 0 with
    | none => exact ⟨rfl, rfl⟩
    | some e =>
      cases e with
      | file file => exact ⟨rfl, rfl⟩
      | directory => exact ⟨rfl, rfl⟩
  | chmod file mode => exact .inr ⟨rfl, rfl⟩
  | fileSize file => exact .inr ⟨rfl, rfl⟩
  | fdopen file => exact .inr ⟨rfl, rfl⟩
  | write file data => exact .inr ⟨0, rfl, rfl⟩
  | flush file data => exact .inr ⟨rfl, rfl⟩
  | close file data => exact .inr ⟨rfl, rfl⟩
  | unlink name => exact .inl ⟨_, rfl, rfl, rfl⟩
  | exist name => exact .inr ⟨rfl, rfl⟩
  | replace source target => exact .inl ⟨_, rfl, rfl, rfl⟩

theorem runs_failingRename {x : LogRoutine Unit} (fuel : Nat) {log log' : RequestLogState}
    {w w' : LogWorld} {r : Except Exc Unit}
    (ran : Prog.eval failingRename fuel (x log) () w = some ((r, log'), w')) :
    Runs faultyLog x log w r log' w' :=
  Prog.eval_reach failingRename_sem ran

/-- The lines of the events `{"a":1}` and `{}`. -/
def eventLine : LogLine := ⟨[123, 34, 97, 34, 58, 49, 125], by decide⟩
def emptyEventLine : LogLine := ⟨[123, 125], by decide⟩

/-- Room for one `{"a":1}` and one `{}`, and one backup. -/
def smallLog : RequestLog := ⟨11, 1, by decide⟩

/-! ## Every run -/

/-- Of an opened log, whatever calls fail: the writes of a run raise nothing but
an `OSError` exactly when each of them is ready; the next event is logged once no
call fails any more exactly when its write is ready; and nothing of a ready write
leaves the middleware. -/
theorem requestLog_contained_iff (c : RequestLog) {d : Directory Nat} {log log' : RequestLogState}
    {w w' : LogWorld} {steps : List LogStep}
    (opened : Runs faultyLog RequestLog.openLog ⟨none, 0⟩ ⟨d, []⟩ (.ok ()) log w)
    (run : LogRun c log w steps log' w') :
    ((∀ step ∈ steps, step.Contained) ↔ ∀ step ∈ steps, c.Ready step.before step.line) ∧
    (NoDirectory w'.directory → ∀ line,
      (c.write line).Wp reliableLog (Post (fun _ _ => RequestLog.Logged line) fun _ _ _ => False)
        log' w' ↔ c.Ready log' line) ∧
    ∀ answered line r log'' w'', c.Ready log' line →
      Runs faultyLog (RequestContextMiddleware.call c answered line) log' w' r log'' w'' →
      r = answered := by
  have closed : Detached ⟨none, 0⟩ (⟨d, []⟩ : LogWorld) := by
    rintro ⟨stream, impossible, -⟩
    cases impossible
  have start : Attached log w := (openLog_ensures closed _ _ _ opened).2
  have attached : Attached log' w' := run.attached start
  refine ⟨?_, fun files line => RequestLog.reliable_write_iff files attached line,
    fun answered line r log'' w'' ready ran =>
      RequestContextMiddleware.call_result attached ready ran⟩
  have each : ∀ step ∈ steps, step.Contained ↔ c.Ready step.before step.line := by
    clear attached
    induction run with
    | start => exact fun _ none => (List.not_mem_nil none).elim
    | write line before ran ih =>
      intro step member
      rcases List.mem_append.mp member with earlier | last
      · exact ih step earlier
      · rw [List.mem_singleton.mp last]
        exact RequestLog.contained_iff (before.attached start) ran
  exact ⟨fun contained step member => (each step member).mp (contained step member),
    fun ready step member => (each step member).mpr (ready step member)⟩

theorem requestLog_contained_small :
    ∃ (log log' : RequestLogState) (w w' : LogWorld) (r : Except Exc Unit),
      LogRun smallLog log w [⟨log, eventLine, r⟩] log' w' ∧
      ((∀ step ∈ [LogStep.mk log eventLine r], step.Contained) ↔
        ∀ step ∈ [LogStep.mk log eventLine r], smallLog.Ready step.before step.line) := by
  obtain ⟨log, w, opened, r, log', w', run⟩ : ∃ log w,
      Runs faultyLog RequestLog.openLog ⟨none, 0⟩ ⟨.empty, []⟩ (.ok ()) log w ∧
      ∃ r log' w', LogRun smallLog log w ([] ++ [⟨log, eventLine, r⟩]) log' w' :=
    ⟨_, _, runs_failingRename 20 rfl, _, _, _,
      LogRun.start.write eventLine (runs_failingRename 40 rfl)⟩
  exact ⟨log, log', w, w', r, run, (requestLog_contained_iff smallLog opened run).1⟩

/-- The second event starts a rotation whose rename fails, which is contained. The
third one is short, so it finds no stream: its write raises a `RuntimeError`,
which leaves the middleware, and it is not logged either when no call fails. -/
theorem requestLog_not_contained :
    ∃ (log log' : RequestLogState) (w w' : LogWorld) (steps : List LogStep),
      Runs faultyLog RequestLog.openLog ⟨none, 0⟩ ⟨.empty, []⟩ (.ok ()) log w ∧
      LogRun smallLog log w steps log' w' ∧ (∃ step ∈ steps, ¬ step.Contained) ∧
      (∃ log'' w'', Runs faultyLog (RequestContextMiddleware.call smallLog (.ok ()) emptyEventLine)
        log' w' (.error .runtimeError) log'' w'') ∧
      ¬ (smallLog.write emptyEventLine).Wp reliableLog
        (Post (fun _ _ => RequestLog.Logged emptyEventLine) fun _ _ _ => False) log' w' := by
  refine ⟨_, _, _, _, _, runs_failingRename 20 rfl,
    ((LogRun.start.write eventLine (runs_failingRename 40 rfl)).write eventLine
      (runs_failingRename 40 rfl)).write emptyEventLine (runs_failingRename 40 rfl), ?_, ?_, ?_⟩
  · refine ⟨_, List.mem_append_right _ List.mem_cons_self, fun contained => ?_⟩
    cases contained .runtimeError rfl
  · exact ⟨_, _, runs_failingRename 40 rfl⟩
  · intro wp
    obtain ⟨⟨r, log'⟩, w', run⟩ := (Prog.Wp.ends wp).outcome
    have unready : ¬ smallLog.Ready ⟨none, 8⟩ emptyEventLine := by
      rintro (⟨stream, impossible, -⟩ | due)
      · cases impossible
      · exact absurd due (by decide)
    obtain ⟨⟨e, -, rfl⟩, -⟩ := RequestLog.write_unready unready r log' w' run
    exact Runs.result wp run

end DataBridge
