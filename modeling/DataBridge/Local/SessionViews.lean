import DataBridge.Local.Sessions

/-!
# What one session does to its files

A session alone, on a view of what it owns: its descriptors, what it opened, and
whether its staging file is named and published. A call that is not its own has no
answer on the view. A write session publishes exactly the bytes of its block, and
raises nothing after it has; a read session returns parts of what it opened.
-/

namespace DataBridge

open Effect Routine Files

/-! ## Views -/

structure View where
  /-- The descriptor of the staging file, or of the file that is read. -/
  descriptor : Option Nat := none
  /-- The descriptor that `_sync_directory` opens. -/
  directory : Option Nat := none
  /-- What the session opened. -/
  entry : Option Entry := none
  content : Bytes := []
  offset : Nat := 0
  /-- The staging name is there. -/
  named : Bool := false
  published : Bool := false

namespace View

def Holds (v : View) (descriptor : Nat) : Prop :=
  v.descriptor = some descriptor ∨ v.directory = some descriptor

/-- Give a descriptor back. -/
def detach (descriptor : Nat) (v : View) : View :=
  { v with
    descriptor := if v.descriptor = some descriptor then none else v.descriptor
    directory := if v.directory = some descriptor then none else v.directory }

end View

/-- The calls on a descriptor. Only a staging file that has its name and is not yet
published is written to. -/
def FileCall.onView : Sem FileCall View
  | _, .write descriptor data, v, r, v' =>
    v.descriptor = some descriptor ∧ v.named = true ∧ v.published = false ∧
      ((∃ count, count ≤ data.length ∧ (data ≠ [] → 0 < count) ∧ r = .ok count ∧
        v' = { v with content := v.content ++ data.take count }) ∨ OsFails r ∧ v' = v)
  | _, .fsync _, v, r, v' => (r = .ok () ∨ OsFails r) ∧ v' = v
  | _, .fileSize descriptor, v, r, v' =>
    v.descriptor = some descriptor ∧ (r = .ok v.content.length ∨ OsFails r) ∧ v' = v
  | _, .fchmod descriptor _, v, r, v' =>
    v.descriptor = some descriptor ∧ v.named = true ∧ (r = .ok () ∨ OsFails r) ∧ v' = v
  | _, .close descriptor, v, r, v' =>
    v.Holds descriptor ∧
      (r = .ok () ∧ v' = v.detach descriptor ∨ OsFails r ∧ (v' = v ∨ v' = v.detach descriptor))

def viewSem (own : Sem DiskCall View) : Sem LocalEffect View
  | _, .inl op => FileCall.onView op
  | _, .inr op => own op

/-- The filename policy accepts the name. -/
def Accepted (filename : Text) : Prop := ∃ name, validateFilename filename = .ok name

/-! ## Requests -/

/-- The arguments of `write`, and its block. -/
structure WriteRequest where
  filename : Text
  stagingId : Uuid
  overwrite : Bool
  body : SinkBody

/-- The arguments of `read`, and its block. -/
structure ReadRequest where
  filename : Text
  limit : Option Nat
  sizes : List Nat

namespace WriteRequest

variable (c : LocalConnector) (q : WriteRequest)

/-- What the session is to publish. -/
def bytes : Bytes := SinkCall.written q.body.calls

def stage : Text := posixJoin c.root (stageName q.stagingId)

def destination : Text := posixJoin c.root q.filename

/-- The staging file may be published: it is complete. -/
def Ready (v : View) : Prop :=
  Accepted q.filename ∧ v.named = true ∧ v.published = false ∧ v.content = q.bytes

/-- A write session alone. -/
def alone : Sem DiskCall View
  | _, .resolve path, v, r, v' =>
    (r = .ok path ∨ ∃ e, (e.isOSError ∨ e = .runtimeError) ∧ r = .error e) ∧ v' = v
  | _, .isDirectory _, v, r, v' => ((∃ found, r = .ok found) ∨ OsFails r) ∧ v' = v
  | _, .stat _, v, r, v' => ((∃ mode, r = .ok mode) ∨ OsFails r) ∧ v' = v
  | _, .openNew path _, v, r, v' =>
    path = q.stage c ∧ v.entry = none ∧
      ((∃ descriptor number, r = .ok descriptor ∧ v' = { v with
          descriptor := some descriptor, entry := some (.file number), named := true }) ∨
        OsFails r ∧ v' = v)
  | _, .openDirectory _, v, r, v' =>
    v.directory = none ∧ ((∃ descriptor, r = .ok descriptor ∧
      v' = { v with directory := some descriptor }) ∨ OsFails r ∧ v' = v)
  | _, .replace source target, v, r, v' =>
    (source = q.stage c ∧ target = q.destination c ∧ q.overwrite = true ∧ q.Ready v) ∧
      (r = .ok () ∧ v' = { v with named := false, published := true } ∨ OsFails r ∧ v' = v)
  | _, .link source target, v, r, v' =>
    (source = q.stage c ∧ target = q.destination c ∧ q.overwrite = false ∧ q.Ready v) ∧
      (r = .ok () ∧ v' = { v with published := true } ∨ OsFails r ∧ v' = v)
  | _, .unlink path, v, r, v' =>
    path = q.stage c ∧ v.entry ≠ none ∧
      (r = .ok () ∧ v' = { v with named := false } ∨ OsFails r ∧ v' = v)
  | _, .openRead _, _, _, _ => False
  | _, .fstat _, _, _, _ => False
  | _, .setBlocking _, _, _, _ => False
  | _, .read _ _, _, _, _ => False

end WriteRequest

namespace ReadRequest

variable (c : LocalConnector) (q : ReadRequest)

def path : Text := posixJoin c.root q.filename

/-- A read session alone. -/
def alone : Sem DiskCall View
  | _, .resolve path, v, r, v' =>
    (r = .ok path ∨ ∃ e, (e.isOSError ∨ e = .runtimeError) ∧ r = .error e) ∧ v' = v
  | _, .isDirectory _, v, r, v' => ((∃ found, r = .ok found) ∨ OsFails r) ∧ v' = v
  | _, .openRead path, v, r, v' =>
    (path = q.path c ∧ Accepted q.filename ∧ v.entry = none) ∧
      ((∃ descriptor entry content, r = .ok descriptor ∧ v' = { v with
          descriptor := some descriptor, entry := some entry, content }) ∨ OsFails r ∧ v' = v)
  | _, .fstat descriptor, v, r, v' =>
    v.descriptor = some descriptor ∧ v' = v ∧
      ((∃ mode size, r = .ok (mode, size) ∧ (isRegular mode = true →
        (∃ number, v.entry = some (.file number)) ∧ size = v.content.length)) ∨ OsFails r)
  | _, .setBlocking _, v, r, v' => (r = .ok () ∨ OsFails r) ∧ v' = v
  | _, .read descriptor size, v, r, v' =>
    v.descriptor = some descriptor ∧ ((∃ count, count ≤ min size (v.content.length - v.offset) ∧
      (count = 0 → size = 0 ∨ v.content.length ≤ v.offset) ∧
      r = .ok ((v.content.drop v.offset).take count) ∧
      v' = { v with offset := v.offset + count }) ∨ OsFails r ∧ v' = v)
  | _, .stat _, _, _, _ => False
  | _, .openNew _ _, _, _, _ => False
  | _, .openDirectory _, _, _, _ => False
  | _, .replace _ _, _, _, _ => False
  | _, .link _ _, _, _, _ => False
  | _, .unlink _, _, _, _ => False

end ReadRequest

/-! ## The sink -/

/-- The staging file is named and not published, and the sink has its descriptor or none. -/
structure StageOpen (s : FileSinkState) (v : View) : Prop where
  attached : ∀ descriptor, s.descriptor = some descriptor → v.descriptor = some descriptor
  opened : v.entry ≠ none
  named : v.named = true
  unpublished : v.published = false
  undirected : v.directory = none

section Sink

variable {s : FileSinkState} {v : View} {sink : FileSink} {own : Sem DiskCall View}

theorem osFails_error {α : Type} {e : Exc} (isOSError : e.isOSError = true) :
    OsFails (.error e : Except Exc α) := ⟨e, isOSError, rfl⟩

theorem withWriteErrors_wp {E : Type → Type} {V σ α : Type} {sem : Sem E V} {action : Text}
    {body : Routine E Exc σ α} {A : α → σ → V → Prop} {B : σ → V → Prop} {s : σ} {v : V}
    (h : body.Wp (.own sem) (Post A fun _ => B) s v) :
    (withWriteErrors action body).Wp (.own sem) (Post A fun _ => B) s v :=
  .catching h (fun _ _ _ done => Setting.settle done) fun _ _ _ failed =>
    .raise (Setting.settle failed)

theorem FileSink.writeSome_wp {view : Bytes} (filling : StageOpen s v) :
    (FileSink.writeSome view).Wp (.own FileCall.onView)
      (Post (fun count s' v' => s' = s ∧ count ≤ view.length ∧ (view ≠ [] → 0 < count) ∧
          v' = { v with content := v.content ++ view.take count })
        fun _ s' v' => s' = s ∧ v' = v) s v := by
  rw [FileSink.writeSome, FileSink.openDescriptor]
  cases opened : s.descriptor with
  | none =>
    apply Wp.bind (P := Post (fun _ _ _ => False) fun _ s' v' => s' = s ∧ v' = v)
    · rw [Wp.fields_bind, opened]
      exact .raise (Setting.settle ⟨rfl, rfl⟩)
    · intro _ _ _ impossible
      exact impossible.elim
    · intro _ s' v' same
      exact Setting.settle same
  | some descriptor =>
    apply Wp.bind (P := Post (fun d s' v' => d = descriptor ∧ s' = s ∧ v' = v) fun _ _ _ => False)
    · rw [Wp.fields_bind, opened]
      exact .pure (Setting.settle ⟨rfl, rfl, rfl⟩)
    · intro d s' v' same
      obtain ⟨rfl, rfl, rfl⟩ := same
      apply Wp.invoke_own
      · exact ⟨.error .timeout, v', filling.attached _ opened, filling.named, filling.unpublished,
          .inr ⟨osFails_error rfl, rfl⟩⟩
      · intro r v'' answer
        obtain ⟨-, -, -, ⟨count, fits, some, rfl, rfl⟩ | ⟨⟨e, -, rfl⟩, rfl⟩⟩ := answer
        · exact ⟨rfl, fits, some, rfl⟩
        · exact ⟨rfl, rfl⟩
    · intro _ _ _ impossible
      exact impossible.elim

theorem FileSink.write_wp {data : Bytes} (filling : StageOpen s v) :
    (FileSink.write data).Wp (.own FileCall.onView)
      (Post (fun _ s' v' => StageOpen s' v' ∧ v'.content = v.content ++ data)
        fun _ s' v' => StageOpen s' v') s v := by
  -- `done` is what the passes so far have stored; each of them stores something.
  refine Wp.iterate (I := fun n view s' v' => n = view.length ∧ StageOpen s' v' ∧
    ∃ done, data = done ++ view ∧ v'.content = v.content ++ done) ?_
    ⟨rfl, filling, [], rfl, (List.append_nil _).symm⟩
  · intro n view s' v' inv
    obtain ⟨rfl, filling, done, split, stored⟩ := inv
    rw [FileSink.writeView]
    by_cases last : view = []
    · rw [if_pos last]
      rw [last, List.append_nil] at split
      subst split
      exact .pure (Setting.settle (Setting.settle ⟨filling, stored⟩))
    · rw [if_neg last]
      apply Wp.bind (withWriteErrors_wp (FileSink.writeSome_wp filling))
      · intro count s'' v'' wrote
        obtain ⟨rfl, fits, some, rfl⟩ := wrote
        rw [Wp.modify_bind]
        apply Wp.pure
        apply Setting.settle
        apply Setting.settle
        have some := some last
        refine ⟨(view.drop count).length, ?_, rfl, ⟨filling.attached, filling.opened, filling.named,
          filling.unpublished, filling.undirected⟩, done ++ view.take count, ?_, ?_⟩
        · rw [List.length_drop]
          omega
        · rw [split, List.append_assoc, List.take_append_drop]
        · rw [stored, List.append_assoc]
      · intro e s'' v'' failed
        obtain ⟨rfl, rfl⟩ := failed
        exact Setting.settle (Setting.settle filling)

/-- A sink without a descriptor goes on without it. -/
theorem StageOpen.closed {descriptor : Nat} (filling : StageOpen s v) (closed : s.descriptor = none) :
    StageOpen s (v.detach descriptor) where
  attached d opened := by
    rw [closed] at opened
    cases opened
  opened := filling.opened
  named := filling.named
  unpublished := filling.unpublished
  undirected := by
    unfold View.detach
    simp only [filling.undirected]
    split <;> rfl

theorem closing_wp {σ : Type} {s : σ} {descriptor : Nat} (holds : v.Holds descriptor) :
    (.invoke (.close descriptor) : Routine FileCall Exc σ Unit).Wp (.own FileCall.onView)
      (Post (fun _ s' v' => s' = s ∧ (v' = v ∨ v' = v.detach descriptor))
        fun e s' v' => e.isOSError = true ∧ s' = s ∧ (v' = v ∨ v' = v.detach descriptor)) s v := by
  apply Wp.invoke_own
  · exact ⟨.error .timeout, v, holds, .inr ⟨osFails_error rfl, .inl rfl⟩⟩
  · intro r v' answer
    obtain ⟨-, ⟨rfl, same⟩ | ⟨⟨e, failed, rfl⟩, same⟩⟩ := answer
    · exact ⟨rfl, .inr same⟩
    · exact ⟨failed, rfl, same⟩

theorem FileSink.closeQuietly_wp {descriptor : Nat} (holds : v.Holds descriptor) :
    (FileSink.closeQuietly descriptor).Wp (.own FileCall.onView)
      (Post (fun _ s' v' => s' = s ∧ (v' = v ∨ v' = v.detach descriptor)) fun _ _ _ => False) s v := by
  apply Wp.catching (closing_wp holds)
  · intro _ s' v' closed
    exact Setting.settle closed
  · intro e s' v' failed
    obtain ⟨isOSError, kept⟩ := failed
    rw [if_pos isOSError]
    exact .pure (Setting.settle kept)

/-- A call that changes nothing. -/
theorem asking_wp {σ α : Type} {s : σ} (op : FileCall (Except Exc α))
    (same : ∀ r v', FileCall.onView op v r v' → v' = v)
    (may : FileCall.onView op v (.error .timeout) v) :
    (.invoke op : Routine FileCall Exc σ α).Wp (.own FileCall.onView)
      (Post (fun _ s' v' => s' = s ∧ v' = v) fun _ s' v' => s' = s ∧ v' = v) s v := by
  apply Wp.invoke_own ⟨_, _, may⟩
  intro r v' answer
  cases r with
  | ok _ => exact ⟨rfl, same _ _ answer⟩
  | error _ => exact ⟨rfl, same _ _ answer⟩

/-- Neither outcome of `_persist` changes what is staged. -/
theorem FileSink.persist_wp {descriptor expected : Nat} (attached : v.descriptor = some descriptor)
    (named : v.named = true) :
    (FileSink.persist sink descriptor expected).Wp (.own FileCall.onView)
      (Post (fun _ s' v' => s' = s ∧ v' = v) fun _ s' v' => s' = s ∧ v' = v) s v := by
  apply Wp.bind (P := Post (fun _ s' v' => s' = s ∧ v' = v) fun _ s' v' => s' = s ∧ v' = v)
  · apply withWriteErrors_wp
    apply Wp.bind (asking_wp (.fsync descriptor) (fun _ _ answer => answer.2)
      ⟨.inr (osFails_error rfl), rfl⟩)
    · intro _ s' v' same
      obtain ⟨rfl, rfl⟩ := same
      apply Wp.bind (asking_wp (.fileSize descriptor) (fun _ _ answer => answer.2.2)
        ⟨attached, .inr (osFails_error rfl), rfl⟩)
      · intro size s'' v'' same
        obtain ⟨rfl, rfl⟩ := same
        apply Wp.bind (P := Post (fun _ s' v' => s' = s'' ∧ v' = v'') fun _ s' v' => s' = s'' ∧ v' = v'')
        · rw [FileSink.copyMode]
          cases sink.existing with
          | none => exact .pure (Setting.settle ⟨rfl, rfl⟩)
          | some mode =>
            exact asking_wp (.fchmod descriptor (permissionBits mode))
              (fun _ _ answer => answer.2.2.2) ⟨attached, named, .inr (osFails_error rfl), rfl⟩
        · intro _ s' v' same
          exact .pure (Setting.settle same)
        · intro _ s' v' same
          exact Setting.settle same
      · intro _ s'' v'' same
        exact Setting.settle same
    · intro _ s' v' same
      exact Setting.settle same
  · intro size s' v' same
    split
    · exact .raise (Setting.settle same)
    · exact .pure (Setting.settle same)
  · intro _ s' v' same
    exact Setting.settle same

theorem FileSink.finish_wp (filling : StageOpen s v) :
    (FileSink.finish sink).Wp (.own FileCall.onView)
      (Post (fun _ s' v' => StageOpen s' v' ∧ s'.descriptor = none ∧ v'.content = v.content)
        fun _ s' v' => StageOpen s' v') s v := by
  rw [FileSink.finish, Wp.fields_bind]
  cases opened : s.descriptor with
  | none => exact .pure (Setting.settle ⟨filling, opened, rfl⟩)
  | some descriptor =>
    have attached := filling.attached _ opened
    have parted : StageOpen { s with descriptor := none } v :=
      { filling with attached := by intro _ impossible; cases impossible }
    rw [Wp.modify_bind]
    apply Wp.bind (P := Post (fun _ s' v' => s' = { s with descriptor := none } ∧ v' = v)
      fun _ s' v' => StageOpen s' v')
    · apply Wp.catching (FileSink.persist_wp attached filling.named)
      · intro _ s' v' same
        exact Setting.settle same
      · intro e s' v' same
        obtain ⟨rfl, rfl⟩ := same
        apply Wp.bind (FileSink.closeQuietly_wp (.inl attached))
        · intro _ s' v' closed
          obtain ⟨rfl, rfl | rfl⟩ := closed
          · exact .raise (Setting.settle parted)
          · exact .raise (Setting.settle (parted.closed rfl))
        · intro _ _ _ impossible
          exact impossible.elim
    · intro _ s' v' same
      obtain ⟨rfl, rfl⟩ := same
      apply Wp.catching (closing_wp (.inl attached))
      · intro _ s' v' closed
        obtain ⟨rfl, rfl | rfl⟩ := closed
        · exact Setting.settle ⟨parted, rfl, rfl⟩
        · exact Setting.settle ⟨parted.closed rfl, rfl, rfl⟩
      · intro e s' v' failed
        obtain ⟨-, rfl, rfl | rfl⟩ := failed
        · exact .raise (Setting.settle parted)
        · exact .raise (Setting.settle (parted.closed rfl))
    · intro _ s' v' failed
      exact Setting.settle failed

theorem FileSink.release_wp {published : Bool} (attached : ∀ descriptor,
      s.descriptor = some descriptor → v.descriptor = some descriptor) (opened : v.entry ≠ none)
    (known : v.published = published) :
    FileSink.release.Wp (.own FileCall.onView)
      (Post (fun _ _ v' => v'.entry ≠ none ∧ v'.published = published) fun _ _ _ => False) s v := by
  rw [FileSink.release, Wp.fields_bind]
  cases open_ : s.descriptor with
  | none => exact .pure (Setting.settle ⟨opened, known⟩)
  | some descriptor =>
    rw [Wp.modify_bind]
    apply Wp.post (FileSink.closeQuietly_wp (.inl (attached _ open_)))
    · intro _ s' v' closed
      obtain ⟨-, rfl | rfl⟩ := closed
      · exact ⟨opened, known⟩
      · exact ⟨opened, known⟩
    · intro _ _ _ impossible
      exact impossible

/-- The block of a session stores the bytes of all its calls, or it raises. -/
theorem FileSink.runBody_wp {body : SinkBody} (filling : StageOpen s v) (empty : v.content = []) :
    (FileSink.runBody sink body).Wp (.own FileCall.onView)
      (Post (fun _ s' v' => StageOpen s' v' ∧ v'.content = SinkCall.written body.calls)
        fun _ s' v' => StageOpen s' v') s v := by
  apply Wp.bind (P := Post (fun _ s' v' => StageOpen s' v' ∧ v'.content = SinkCall.written body.calls)
    fun _ s' v' => StageOpen s' v')
  · refine Wp.forEach (I := fun done s' v' => StageOpen s' v' ∧ v'.content = SinkCall.written done)
      ?_ (fun _ _ filled => Setting.settle filled) ⟨filling, empty⟩
    intro done call rest _ s' v' filled
    obtain ⟨filling, stored⟩ := filled
    cases call with
    | write data =>
      apply Wp.post (FileSink.write_wp filling)
      · intro _ s'' v'' wrote
        obtain ⟨filling, more⟩ := wrote
        exact ⟨filling, by rw [more, stored, SinkCall.written_concat, SinkCall.written_write]⟩
      · intro _ s'' v'' failed
        exact Setting.settle failed
    | finish =>
      apply Wp.post (FileSink.finish_wp filling)
      · intro _ s'' v'' finished
        obtain ⟨filling, -, same⟩ := finished
        exact ⟨filling, by
          rw [same, stored, SinkCall.written_concat, SinkCall.written_finish, List.append_nil]⟩
      · intro _ s'' v'' failed
        exact Setting.settle failed
  · intro _ s' v' filled
    cases body.failure with
    | none => exact .pure (Setting.settle filled)
    | some e => exact .raise (Setting.settle filled.1)
  · intro _ s' v' failed
    exact Setting.settle failed

end Sink

/-! ## Calls of a session -/

/-- The error is not `SOURCE_CHANGED`. -/
def Unshortened (e : Exc) : Prop := ∀ error, e = .dataBridge error → error.code ≠ .sourceChanged

theorem unshortened_ofCode {code : ErrorCode} {message : Text} (other : code ≠ .sourceChanged) :
    Unshortened (.ofCode code message) := by
  intro error same
  cases same
  exact other

theorem unshortened_osError {e : Exc} (isOSError : e.isOSError = true) : Unshortened e := by
  intro error same
  subst same
  cases isOSError

section Calls

variable {own : Sem DiskCall View} {σ α : Type} {s : σ} {v : View}

theorem onSink_wp {x : FileSinkRoutine α} {Q : Except Exc α → FileSinkState → View → Prop}
    {s : FileSinkState} (h : x.Wp (.own FileCall.onView) Q s v) :
    (onSink x).Wp (.own (viewSem own)) Q s v :=
  Wp.lift h

theorem onFile_wp {op : FileCall (Except Exc α)} {Q : Except Exc α → σ → View → Prop}
    (h : (.invoke op : Routine FileCall Exc σ α).Wp (.own FileCall.onView) Q s v) :
    (.invoke (.inl op) : Routine LocalEffect Exc σ α).Wp (.own (viewSem own)) Q s v :=
  Wp.lift (M := .own (viewSem own)) (f := fun _ => Sum.inl) h

theorem onDisk_wp {op : DiskCall (Except Exc α)} {Q : Except Exc α → σ → View → Prop}
    (may : ∃ r v', own op v r v') (each : ∀ r v', own op v r v' → Q r s v') :
    (onDisk op : Routine LocalEffect Exc σ α).Wp (.own (viewSem own)) Q s v :=
  Wp.invoke_own may each

/-- The conversion of an `OSError` only changes the exception. -/
theorem raisingFor_wp {convert : Exc → Exc} {body : Routine LocalEffect Exc σ α}
    {A : α → σ → View → Prop} {B B' : Exc → σ → View → Prop}
    (h : body.Wp (.own (viewSem own)) (Post A B) s v)
    (kept : ∀ e s v, B e s v → B' (if e.isOSError then convert e else e) s v) :
    (raisingFor convert body).Wp (.own (viewSem own)) (Post A B') s v :=
  .catching h (fun _ _ _ done => Setting.settle done) fun e s v failed =>
    .raise (Setting.settle (kept e s v failed))

/-- What only an `OSError` can end early ends well. -/
theorem suppressing_wp {body : Routine LocalEffect Exc σ Unit} {I : σ → View → Prop}
    (h : body.Wp (.own (viewSem own)) (Post (fun _ => I) fun e s v => e.isOSError = true ∧ I s v) s v) :
    (suppressing body).Wp (.own (viewSem own)) (Post (fun _ => I) fun _ _ _ => False) s v := by
  apply Wp.catching h
  · intro _ s v done
    exact Setting.settle done
  · intro e s v failed
    rw [if_pos failed.1]
    exact .pure (Setting.settle failed.2)

/-- The answers that say where a path leads. -/
structure Locates (own : Sem DiskCall View) : Prop where
  resolve : ∀ path v r v', own (.resolve path) v r v' ↔
    (r = .ok path ∨ ∃ e, (e.isOSError ∨ e = .runtimeError) ∧ r = .error e) ∧ v' = v
  isDirectory : ∀ path v r v', own (.isDirectory path) v r v' ↔
    ((∃ found, r = .ok found) ∨ OsFails r) ∧ v' = v

theorem WriteRequest.locates (c : LocalConnector) (q : WriteRequest) : Locates (q.alone c) where
  resolve _ _ _ _ := Iff.rfl
  isDirectory _ _ _ _ := Iff.rfl

theorem ReadRequest.locates (c : LocalConnector) (q : ReadRequest) : Locates (q.alone c) where
  resolve _ _ _ _ := Iff.rfl
  isDirectory _ _ _ _ := Iff.rfl

theorem validateFilename_error {filename : Text} {e : Exc} (refused : validateFilename filename = .error e) :
    ∃ message, e = invalidFilename message := by
  unfold validateFilename at refused
  split at refused
  · cases refused
    exact ⟨_, rfl⟩
  · split at refused
    · cases refused
      exact ⟨_, rfl⟩
    · split at refused
      · cases refused
        exact ⟨_, rfl⟩
      · split at refused
        · cases refused
          exact ⟨_, rfl⟩
        · cases refused

namespace LocalConnector

variable {c : LocalConnector} {filename : Text}

theorem resolving_wp (locates : Locates own) {path : Text} {refusal : Exc}
    (unshortened : Unshortened refusal) :
    (.catching (onDisk (.resolve path)) fun e => .raise (if e.isOSError ∨ e = .runtimeError then
        refusal else e) : Routine LocalEffect Exc σ Text).Wp (.own (viewSem own))
      (Post (fun found s' v' => found = path ∧ s' = s ∧ v' = v)
        fun e s' v' => Unshortened e ∧ s' = s ∧ v' = v) s v := by
  apply Wp.catching (P := Post (fun found s' v' => found = path ∧ s' = s ∧ v' = v)
    fun e s' v' => (e.isOSError ∨ e = .runtimeError) ∧ s' = s ∧ v' = v)
  · apply onDisk_wp
    · exact ⟨.ok path, v, (locates.resolve _ _ _ _).mpr ⟨.inl rfl, rfl⟩⟩
    · intro r v' answer
      obtain ⟨rfl | ⟨e, failed, rfl⟩, rfl⟩ := (locates.resolve _ _ _ _).mp answer
      · exact ⟨rfl, rfl, rfl⟩
      · exact ⟨failed, rfl, rfl⟩
  · intro found s' v' resolved
    exact Setting.settle resolved
  · intro e s' v' failed
    rw [if_pos failed.1]
    exact .raise (Setting.settle ⟨unshortened, failed.2⟩)

theorem findRoot_wp (locates : Locates own) :
    (c.findRoot : Routine LocalEffect Exc σ Text).Wp (.own (viewSem own))
      (Post (fun root s' v' => root = c.root ∧ s' = s ∧ v' = v)
        fun e s' v' => Unshortened e ∧ s' = s ∧ v' = v) s v := by
  apply Wp.bind (resolving_wp locates (unshortened_ofCode (by decide)))
  · intro root s' v' resolved
    obtain ⟨rfl, rfl, rfl⟩ := resolved
    apply Wp.bind (P := Post (fun _ s'' v'' => s'' = s' ∧ v'' = v')
      fun e s'' v'' => Unshortened e ∧ s'' = s' ∧ v'' = v')
    · apply onDisk_wp
      · exact ⟨.ok true, v', (locates.isDirectory _ _ _ _).mpr ⟨.inl ⟨_, rfl⟩, rfl⟩⟩
      · intro r v'' answer
        obtain ⟨⟨found, rfl⟩ | ⟨e, failed, rfl⟩, rfl⟩ := (locates.isDirectory _ _ _ _).mp answer
        · exact ⟨rfl, rfl⟩
        · exact ⟨unshortened_osError failed, rfl, rfl⟩
    · intro found s'' v'' same
      cases found with
      | true => exact .pure (Setting.settle ⟨rfl, same⟩)
      | false => exact .raise (Setting.settle ⟨unshortened_ofCode (by decide), same⟩)
    · intro e s'' v'' failed
      exact Setting.settle failed
  · intro e s' v' failed
    exact Setting.settle failed

/-- A file that is found has an accepted name. -/
theorem findFile_wp (locates : Locates own) :
    (c.findFile filename : Routine LocalEffect Exc σ (Text × Text)).Wp (.own (viewSem own))
      (Post (fun found s' v' => (found = (c.root, posixJoin c.root filename) ∧ Accepted filename) ∧
          s' = s ∧ v' = v)
        fun e s' v' => Unshortened e ∧ s' = s ∧ v' = v) s v := by
  apply Wp.bind (P := Post (fun _ s' v' => Accepted filename ∧ s' = s ∧ v' = v)
    fun e s' v' => Unshortened e ∧ s' = s ∧ v' = v)
  · apply Wp.ofExcept
    apply Setting.settle
    cases accepted : validateFilename filename with
    | ok name => exact ⟨⟨name, accepted⟩, rfl, rfl⟩
    | error e =>
      obtain ⟨message, rfl⟩ := validateFilename_error accepted
      exact ⟨unshortened_ofCode (by decide), rfl, rfl⟩
  · intro _ s' v' checked
    obtain ⟨accepted, rfl, rfl⟩ := checked
    apply Wp.bind (findRoot_wp locates)
    · intro root s'' v'' found
      obtain ⟨rfl, rfl, rfl⟩ := found
      apply Wp.bind (resolving_wp locates (unshortened_ofCode (by decide)))
      · intro resolved s' v' found
        obtain ⟨rfl, rfl, rfl⟩ := found
        split
        · exact .pure (Setting.settle ⟨⟨rfl, accepted⟩, rfl, rfl⟩)
        · exact .raise (Setting.settle ⟨unshortened_ofCode (by decide), rfl, rfl⟩)
      · intro e s' v' failed
        exact Setting.settle failed
    · intro e s'' v'' failed
      exact Setting.settle failed
  · intro e s' v' failed
    exact Setting.settle failed

end LocalConnector

end Calls

/-! ## A write session -/

namespace LocalConnector

variable {c : LocalConnector} {q : WriteRequest} {s : FileSinkState} {v : View}

theorem existingMode_wp {destination filename : Text} {overwrite : Bool} :
    (existingMode destination filename overwrite).Wp (.own (viewSem (q.alone c)))
      (Post (fun _ s' v' => s' = s ∧ v' = v) fun _ s' v' => s' = s ∧ v' = v) s v := by
  apply Wp.bind (P := Post (fun _ s' v' => s' = s ∧ v' = v) fun _ s' v' => s' = s ∧ v' = v)
  · apply Wp.catching (P := Post (fun _ s' v' => s' = s ∧ v' = v) fun _ s' v' => s' = s ∧ v' = v)
    · apply Wp.bind (P := Post (fun _ s' v' => s' = s ∧ v' = v) fun _ s' v' => s' = s ∧ v' = v)
      · apply onDisk_wp
        · exact ⟨.error .timeout, v, .inr (osFails_error rfl), rfl⟩
        · intro r v' answer
          obtain ⟨⟨mode, rfl⟩ | ⟨e, -, rfl⟩, rfl⟩ := answer
          · exact ⟨rfl, rfl⟩
          · exact ⟨rfl, rfl⟩
      · intro mode s' v' same
        exact .pure (Setting.settle same)
      · intro e s' v' same
        exact Setting.settle same
    · intro found s' v' same
      exact Setting.settle same
    · intro e s' v' same
      split
      · exact .pure (Setting.settle same)
      · exact .raise (Setting.settle same)
  · intro found s' v' same
    cases found with
    | none => exact .pure (Setting.settle same)
    | some mode =>
      dsimp only
      split
      · exact .raise (Setting.settle same)
      · split
        · exact .raise (Setting.settle same)
        · exact .pure (Setting.settle same)
  · intro e s' v' same
    exact Setting.settle same

theorem openStage_wp :
    (openStage (q.stage c)).Wp (.own (viewSem (q.alone c)))
      (Post (fun descriptor _ v' => ∃ number,
          v' = { descriptor := some descriptor, entry := some (.file number), named := true })
        fun _ _ v' => v' = {}) s {} := by
  apply raisingFor_wp (B := fun _ _ v' => v' = {})
  · apply onDisk_wp
    · exact ⟨.error .timeout, {}, rfl, rfl, .inr ⟨osFails_error rfl, rfl⟩⟩
    · intro r v' answer
      obtain ⟨-, -, ⟨descriptor, number, rfl, rfl⟩ | ⟨⟨e, -, rfl⟩, rfl⟩⟩ := answer
      · exact ⟨number, rfl⟩
      · exact rfl
  · intro _ _ _ same
    exact same

/-- The sink has no descriptor any more, and the session has published or not. -/
def SinkClosed (published : Bool) (s : FileSinkState) (v : View) : Prop :=
  s.descriptor = none ∧ v.entry ≠ none ∧ v.published = published

theorem publishStage_wp (filling : StageOpen s v) (closed : s.descriptor = none) (ready : q.Ready v) :
    (publishStage (q.stage c) (q.destination c) q.filename q.overwrite).Wp
      (.own (viewSem (q.alone c)))
      (Post (fun _ s' v' => SinkClosed true s' v' ∧ v'.directory = none) fun _ s' v' => StageOpen s' v') s v := by
  apply raisingFor_wp (B := fun _ s' v' => StageOpen s' v')
  · cases chosen : q.overwrite with
    | true =>
      apply onDisk_wp
      · exact ⟨.error .timeout, v, ⟨rfl, rfl, chosen, ready⟩, .inr ⟨osFails_error rfl, rfl⟩⟩
      · intro r v' answer
        obtain ⟨-, ⟨rfl, rfl⟩ | ⟨⟨e, -, rfl⟩, rfl⟩⟩ := answer
        · exact ⟨⟨closed, filling.opened, rfl⟩, filling.undirected⟩
        · exact filling
    | false =>
      apply onDisk_wp
      · exact ⟨.error .timeout, v, ⟨rfl, rfl, chosen, ready⟩, .inr ⟨osFails_error rfl, rfl⟩⟩
      · intro r v' answer
        obtain ⟨-, ⟨rfl, rfl⟩ | ⟨⟨e, -, rfl⟩, rfl⟩⟩ := answer
        · exact ⟨⟨closed, filling.opened, rfl⟩, filling.undirected⟩
        · exact filling
  · intro _ _ _ failed
    exact failed

theorem syncDirectory_wp {root : Text} (ended : SinkClosed true s v) (undirected : v.directory = none) :
    (syncDirectory root).Wp (.own (viewSem (q.alone c)))
      (Post (fun _ s' v' => SinkClosed true s' v') fun _ _ _ => False) s v := by
  apply suppressing_wp
  apply Wp.bind (P := Post (fun descriptor s' v' => SinkClosed true s' v' ∧ v'.directory = some descriptor)
    fun e s' v' => e.isOSError = true ∧ SinkClosed true s' v')
  · apply onDisk_wp
    · exact ⟨.error .timeout, v, undirected, .inr ⟨osFails_error rfl, rfl⟩⟩
    · intro r v' answer
      obtain ⟨-, ⟨descriptor, rfl, rfl⟩ | ⟨⟨e, failed, rfl⟩, rfl⟩⟩ := answer
      · exact ⟨ended, rfl⟩
      · exact ⟨failed, ended⟩
  · intro descriptor s' v' opened
    obtain ⟨ended, opened⟩ := opened
    apply Wp.ensuring (P := fun r s'' v'' => (∀ e, r = .error e → e.isOSError = true) ∧ s'' = s' ∧ v'' = v')
    · apply onFile_wp
      apply Wp.invoke_own
      · exact ⟨.ok (), v', .inl rfl, rfl⟩
      · intro r v'' answer
        obtain ⟨rfl | ⟨e, failed, rfl⟩, rfl⟩ := answer
        · exact ⟨(fun _ impossible => by cases impossible), rfl, rfl⟩
        · exact ⟨(fun _ same => by cases same; exact failed), rfl, rfl⟩
    · intro r s'' v'' synced
      obtain ⟨failed, rfl, rfl⟩ := synced
      apply Wp.post (onFile_wp (closing_wp (.inr opened)))
      · intro _ s₃ v₃ closed
        apply Setting.settle
        obtain ⟨rfl, rfl | rfl⟩ := closed
        · cases r with
          | ok _ => exact ended
          | error e => exact ⟨failed e rfl, ended⟩
        · cases r with
          | ok _ => exact ended
          | error e => exact ⟨failed e rfl, ended⟩
      · intro e s₃ v₃ failed
        apply Setting.settle
        obtain ⟨failed, rfl, rfl | rfl⟩ := failed
        · exact ⟨failed, ended⟩
        · exact ⟨failed, ended⟩
  · intro e s' v' failed
    exact Setting.settle failed

theorem removeStage_wp {published : Bool} (opened : v.entry ≠ none) (known : v.published = published) :
    (removeStage (q.stage c)).Wp (.own (viewSem (q.alone c)))
      (Post (fun _ _ v' => v'.published = published) fun _ _ _ => False) s v := by
  apply suppressing_wp (I := fun _ v' => v'.published = published)
  apply Wp.catching (P := Post (fun _ _ v' => v'.published = published)
    fun e _ v' => e.isOSError = true ∧ v'.published = published)
  · apply onDisk_wp
    · exact ⟨.error .timeout, v, rfl, opened, .inr ⟨osFails_error rfl, rfl⟩⟩
    · intro r v' answer
      obtain ⟨-, -, ⟨rfl, rfl⟩ | ⟨⟨e, failed, rfl⟩, rfl⟩⟩ := answer
      · exact known
      · exact ⟨failed, known⟩
  · intro _ s' v' removed
    exact Setting.settle removed
  · intro e s' v' failed
    split
    · exact .pure (Setting.settle failed.2)
    · exact .raise (Setting.settle failed)

theorem cleanup_wp {published : Bool} (attached : ∀ descriptor,
      s.descriptor = some descriptor → v.descriptor = some descriptor) (opened : v.entry ≠ none)
    (known : v.published = published) :
    (onSink FileSink.release >>= fun _ => removeStage (q.stage c)).Wp (.own (viewSem (q.alone c)))
      (Post (fun _ _ v' => v'.published = published) fun _ _ _ => False) s v := by
  apply Wp.bind (onSink_wp (FileSink.release_wp attached opened known))
  · intro _ s' v' released
    exact removeStage_wp released.1 released.2
  · intro _ _ _ impossible
    exact impossible.elim

/-- Whatever happens to it, the session has published exactly when it returns. -/
theorem fillAndPublish_wp {sink : FileSink} (filling : StageOpen s v) (empty : v.content = [])
    (accepted : Accepted q.filename) :
    (fillAndPublish sink c.root (q.stage c) (q.destination c) q.filename q.overwrite q.body).Wp
      (.own (viewSem (q.alone c)))
      (Post (fun _ _ v' => v'.published = true) fun _ _ v' => v'.published = false) s v := by
  apply Wp.ensuring (P := Post (fun _ s' v' => SinkClosed true s' v') fun _ s' v' => StageOpen s' v')
  · apply Wp.bind (onSink_wp (FileSink.runBody_wp filling empty))
    · intro _ s' v' filled
      apply Wp.bind (onSink_wp (FileSink.finish_wp filled.1))
      · intro _ s'' v'' finished
        obtain ⟨filling, closed, same⟩ := finished
        have ready : q.Ready v'' :=
          ⟨accepted, filling.named, filling.unpublished, same.trans filled.2⟩
        apply Wp.bind (publishStage_wp filling closed ready)
        · intro _ s₃ v₃ published
          apply Wp.post (syncDirectory_wp published.1 published.2)
          · intro _ s₄ v₄ ended
            exact ended
          · intro _ _ _ impossible
            exact impossible.elim
        · intro e s₃ v₃ failed
          exact Setting.settle failed
      · intro e s'' v'' failed
        exact Setting.settle failed
    · intro e s' v' failed
      exact Setting.settle failed
  · intro r s' v' left
    cases r with
    | ok _ =>
      obtain ⟨closed, opened, published⟩ := left
      apply Wp.post (cleanup_wp (fun d same => by rw [closed] at same; cases same) opened published)
      · intro _ _ _ published
        exact Setting.settle published
      · intro _ _ _ impossible
        exact impossible.elim
    | error e =>
      apply Wp.post (cleanup_wp left.attached left.opened left.unpublished)
      · intro _ _ _ unpublished
        exact Setting.settle unpublished
      · intro _ _ _ impossible
        exact impossible.elim

theorem writeSession_wp :
    (c.writeSession q.filename q.stagingId q.overwrite q.body).Wp (.own (viewSem (q.alone c)))
      (Post (fun _ _ v' => v'.published = true) fun _ _ v' => v'.published = false) s {} := by
  apply Wp.bind (findFile_wp (q.locates c))
  · intro found s' v' resolved
    obtain ⟨⟨rfl, accepted⟩, rfl, rfl⟩ := resolved
    apply Wp.bind existingMode_wp
    · intro existing s'' v'' same
      obtain ⟨rfl, rfl⟩ := same
      apply Wp.bind openStage_wp
      · intro descriptor s₃ v₃ opened
        obtain ⟨number, rfl⟩ := opened
        rw [Wp.modify_bind]
        exact fillAndPublish_wp ⟨fun _ same => same, by simp, rfl, rfl, rfl⟩ rfl accepted
      · intro e s₃ v₃ failed
        subst failed
        exact Setting.settle rfl
    · intro e s'' v'' same
      obtain ⟨rfl, rfl⟩ := same
      exact Setting.settle rfl
  · intro e s' v' failed
    obtain ⟨-, rfl, rfl⟩ := failed
    exact Setting.settle rfl

end LocalConnector

/-! ## A read session -/

/-- The source has its descriptor, and what remains is in the file. -/
structure SourceOpen (s : FileSourceState) (v : View) : Prop where
  attached : v.descriptor = some s.descriptor
  fits : v.offset + s.remaining ≤ v.content.length

/-- The bytes that the source still has to give. -/
def FileSourceState.rest (s : FileSourceState) (v : View) : Bytes :=
  (v.content.drop v.offset).take s.remaining

/-- What the calls of a block return: parts of `wanted` in order, and all of it when one
of them returns nothing. -/
structure Delivers (wanted : Bytes) (sizes : List Nat) (chunks : List Bytes) : Prop where
  each : List.Forall₂ (fun chunk size => chunk.length ≤ size) chunks sizes
  start : chunks.flatten <+: wanted
  whole : [] ∈ chunks → chunks.flatten = wanted

theorem Delivers.cons {data wanted : Bytes} {size : Nat} {sizes : List Nat} {chunks : List Bytes}
    (fits : data.length ≤ size) (last : data = [] → wanted = []) (rest : Delivers wanted sizes chunks) :
    Delivers (data ++ wanted) (size :: sizes) (data :: chunks) where
  each := .cons fits rest.each
  start := by
    rw [List.flatten_cons]
    exact (List.prefix_append_right_inj data).mpr rest.start
  whole empty := by
    rw [List.flatten_cons]
    rcases List.mem_cons.mp empty with same | later
    · have nothing := last same.symm
      subst nothing
      rw [List.prefix_nil.mp rest.start]
    · rw [rest.whole later]

namespace FileSource

variable {c : LocalConnector} {q : ReadRequest} {source : FileSource} {s : FileSourceState} {v : View}

/-- What keeps the file of a view. -/
def Same (v v' : View) : Prop :=
  v'.descriptor = v.descriptor ∧ v'.entry = v.entry ∧ v'.content = v.content

theorem read_wp {size : Nat} (reading : SourceOpen s v) :
    (source.read size).Wp (.own (viewSem (q.alone c)))
      (Post (fun data s' v' => (SourceOpen s' v' ∧ Same v v') ∧ data.length ≤ size ∧
          s.rest v = data ++ s'.rest v' ∧ (data = [] → s'.rest v' = []))
        fun e _ v' => Same v v' ∧ (0 < size → Unshortened e)) s v := by
  rw [FileSource.read, Wp.fields_bind]
  by_cases finished : s.remaining = 0
  · rw [if_pos finished]
    have nothing : s.rest v = [] := by rw [FileSourceState.rest, finished, List.take_zero]
    apply Wp.pure
    apply Setting.settle
    exact ⟨⟨reading, rfl, rfl, rfl⟩, Nat.zero_le _, nothing.trans nothing.symm, fun _ => nothing⟩
  · rw [if_neg finished]
    apply Wp.bind (P := Post (fun data s' v' => s' = s ∧ ∃ count,
        count ≤ min (min size s.remaining) (v.content.length - v.offset) ∧
        (count = 0 → min size s.remaining = 0 ∨ v.content.length ≤ v.offset) ∧
        data = (v.content.drop v.offset).take count ∧ v' = { v with offset := v.offset + count })
      fun e s' v' => Unshortened e ∧ v' = v)
    · apply raisingFor_wp (B := fun e _ v' => e.isOSError = true ∧ v' = v)
      · apply onDisk_wp
        · exact ⟨.error .timeout, v, reading.attached, .inr ⟨osFails_error rfl, rfl⟩⟩
        · intro r v' answer
          obtain ⟨-, ⟨count, fits, last, rfl, rfl⟩ | ⟨⟨e, failed, rfl⟩, rfl⟩⟩ := answer
          · exact ⟨rfl, count, fits, last, rfl, rfl⟩
          · exact ⟨failed, rfl⟩
      · intro e s' v' failed
        rw [if_pos failed.1]
        exact ⟨unshortened_ofCode (by decide), failed.2⟩
    · intro data s' v' answer
      obtain ⟨rfl, count, fits, last, rfl, rfl⟩ := answer
      have fit := reading.fits
      have length : ((v.content.drop v.offset).take count).length = count := by
        rw [List.length_take, List.length_drop]
        omega
      by_cases empty : (v.content.drop v.offset).take count = []
      · rw [if_pos empty]
        apply Wp.raise
        apply Setting.settle
        refine ⟨⟨rfl, rfl, rfl⟩, fun positive => ?_⟩
        rw [empty, List.length_nil] at length
        have stuck := last length.symm
        omega
      · rw [if_neg empty, Wp.modify_bind]
        apply Wp.pure
        apply Setting.settle
        rw [length]
        refine ⟨⟨⟨reading.attached, ?_⟩, rfl, rfl, rfl⟩, by omega, ?_, fun none => absurd none empty⟩
        · show v.offset + count + (s'.remaining - count) ≤ v.content.length
          omega
        · have split : s'.remaining = count + (s'.remaining - count) := by omega
          rw [FileSourceState.rest, FileSourceState.rest, split, List.take_add, List.drop_drop]
          simp only [Nat.add_sub_cancel_left]
    · intro e s' v' failed
      obtain ⟨unshortened, rfl⟩ := failed
      exact Setting.settle ⟨⟨rfl, rfl, rfl⟩, fun _ => unshortened⟩

theorem readAll_wp {sizes : List Nat} (reading : SourceOpen s v) :
    (source.readAll sizes).Wp (.own (viewSem (q.alone c)))
      (Post (fun chunks _ v' => Same v v' ∧ Delivers (s.rest v) sizes chunks)
        fun e _ v' => Same v v' ∧ ((∀ size ∈ sizes, 0 < size) → Unshortened e)) s v := by
  induction sizes generalizing s v with
  | nil =>
    apply Wp.pure
    apply Setting.settle
    exact ⟨⟨rfl, rfl, rfl⟩, .nil, List.nil_prefix,
      fun impossible => (List.not_mem_nil impossible).elim⟩
  | cons size sizes ih =>
    apply Wp.bind (read_wp reading)
    · intro data s' v' got
      obtain ⟨⟨reading, same⟩, fits, split, last⟩ := got
      apply Wp.bind (ih reading)
      · intro chunks s'' v'' rest
        apply Wp.pure
        apply Setting.settle
        rw [split]
        exact ⟨⟨rest.1.1.trans same.1, rest.1.2.1.trans same.2.1, rest.1.2.2.trans same.2.2⟩,
          .cons fits last rest.2⟩
      · intro e s'' v'' failed
        apply Setting.settle
        obtain ⟨kept, unshortened⟩ := failed
        exact ⟨⟨kept.1.trans same.1, kept.2.1.trans same.2.1, kept.2.2.trans same.2.2⟩,
          fun positive => unshortened fun size member => positive size (List.mem_cons_of_mem _ member)⟩
    · intro e s' v' failed
      apply Setting.settle
      exact ⟨failed.1, fun positive => failed.2 (positive size List.mem_cons_self)⟩

end FileSource

namespace LocalConnector

variable {c : LocalConnector} {q : ReadRequest} {s : FileSourceState} {v : View}

/-- What `read` gives of a file. -/
def wantedOf (limit : Option Nat) (content : Bytes) : Bytes :=
  content.take (sourceSize limit content.length)

theorem sourceSize_le (limit : Option Nat) (size : Nat) : sourceSize limit size ≤ size := by
  cases limit with
  | none => exact le_refl _
  | some limit => exact Nat.min_le_left _ _

theorem inspectOpened_wp {filename : Text} {descriptor : Nat} (attached : v.descriptor = some descriptor) :
    (inspectOpened filename descriptor).Wp (.own (viewSem (q.alone c)))
      (Post (fun seen _ v' => v' = v ∧ (isRegular seen.1 = true →
          (∃ number, v.entry = some (.file number)) ∧ seen.2 = v.content.length))
        fun e _ v' => v' = v ∧ Unshortened e) s v := by
  apply raisingFor_wp (B := fun e _ v' => e.isOSError = true ∧ v' = v)
  · apply Wp.bind (P := Post (fun seen _ v' => v' = v ∧ (isRegular seen.1 = true →
        (∃ number, v.entry = some (.file number)) ∧ seen.2 = v.content.length))
      fun e _ v' => e.isOSError = true ∧ v' = v)
    · apply onDisk_wp
      · exact ⟨.error .timeout, v, attached, rfl, .inr (osFails_error rfl)⟩
      · intro r v' answer
        obtain ⟨-, rfl, ⟨mode, size, rfl, regular⟩ | ⟨e, failed, rfl⟩⟩ := answer
        · exact ⟨rfl, regular⟩
        · exact ⟨failed, rfl⟩
    · intro seen s' v' known
      obtain ⟨rfl, regular⟩ := known
      apply Wp.bind (P := Post (fun _ _ v'' => v'' = v') fun e _ v'' => e.isOSError = true ∧ v'' = v')
      · unfold blockOnFile
        split
        · apply onDisk_wp
          · exact ⟨.ok (), v', .inl rfl, rfl⟩
          · intro r v'' answer
            obtain ⟨rfl | ⟨e, failed, rfl⟩, rfl⟩ := answer
            · exact rfl
            · exact ⟨failed, rfl⟩
        · exact .pure (Setting.settle rfl)
      · intro _ s'' v'' same
        subst same
        exact .pure (Setting.settle ⟨rfl, regular⟩)
      · intro e s'' v'' failed
        exact Setting.settle failed
    · intro e s' v' failed
      exact Setting.settle failed
  · intro e s' v' failed
    rw [if_pos failed.1]
    exact ⟨failed.2, unshortened_ofCode (by decide)⟩

theorem readOpened_wp {descriptor : Nat} (attached : v.descriptor = some descriptor) (start : v.offset = 0) :
    (readOpened q.filename q.limit descriptor q.sizes).Wp (.own (viewSem (q.alone c)))
      (Post (fun chunks _ v' => FileSource.Same v v' ∧ (∃ number, v.entry = some (.file number)) ∧
          Delivers (wantedOf q.limit v.content) q.sizes chunks)
        fun e _ v' => FileSource.Same v v' ∧ ((∀ size ∈ q.sizes, 0 < size) → Unshortened e)) s v := by
  apply Wp.bind (inspectOpened_wp attached)
  · intro seen s' v' known
    obtain ⟨rfl, regular⟩ := known
    obtain ⟨mode, size⟩ := seen
    dsimp only
    split
    · apply Wp.raise
      exact Setting.settle ⟨⟨rfl, rfl, rfl⟩, fun _ => unshortened_ofCode (by decide)⟩
    · rename_i known
      obtain ⟨file, rfl⟩ := regular (Bool.eq_true_of_not_eq_false known)
      rw [Wp.modify_bind]
      have fits := sourceSize_le q.limit v'.content.length
      have reading : SourceOpen { descriptor, remaining := sourceSize q.limit v'.content.length } v' :=
        ⟨attached, by rw [start, Nat.zero_add]; exact fits⟩
      apply Wp.post (FileSource.readAll_wp reading)
      · intro chunks s'' v'' read
        obtain ⟨same, delivers⟩ := read
        rw [FileSourceState.rest, start, List.drop_zero] at delivers
        exact ⟨same, file, delivers⟩
      · intro e s'' v'' failed
        exact failed
  · intro e s' v' failed
    obtain ⟨rfl, unshortened⟩ := failed
    exact Setting.settle ⟨⟨rfl, rfl, rfl⟩, fun _ => unshortened⟩

/-- A read session returns parts of the file that it opened, and does not find it
shorter than it was. -/
theorem readSession_wp :
    (c.readSession q.filename q.limit q.sizes).Wp (.own (viewSem (q.alone c)))
      (Post (fun chunks _ v' => (∃ number, v'.entry = some (.file number)) ∧
          Delivers (wantedOf q.limit v'.content) q.sizes chunks)
        fun e _ _ => (∀ size ∈ q.sizes, 0 < size) → Unshortened e) s {} := by
  apply Wp.bind (findFile_wp (q.locates c))
  · intro found s' v' resolved
    obtain ⟨⟨rfl, accepted⟩, -, rfl⟩ := resolved
    apply Wp.bind (P := Post (fun descriptor _ v' => v'.descriptor = some descriptor ∧ v'.offset = 0)
      fun e _ _ => Unshortened e)
    · apply raisingFor_wp (B := fun e _ _ => e.isOSError = true)
      · apply onDisk_wp
        · exact ⟨.error .timeout, {}, ⟨rfl, accepted, rfl⟩, .inr ⟨osFails_error rfl, rfl⟩⟩
        · intro r v' answer
          obtain ⟨-, ⟨descriptor, entry, content, rfl, rfl⟩ | ⟨⟨e, failed, rfl⟩, rfl⟩⟩ := answer
          · exact ⟨rfl, rfl⟩
          · exact failed
      · intro e s' v' failed
        rw [if_pos failed]
        unfold openFailure openError
        split
        · split <;> exact unshortened_ofCode (by decide)
        · exact unshortened_ofCode (by decide)
    · intro descriptor s'' v'' opened
      obtain ⟨attached, start⟩ := opened
      apply Wp.ensuring (readOpened_wp attached start)
      intro r s₃ v₃ left
      have same : FileSource.Same v'' v₃ := by
        cases r with
        | ok _ => exact left.1
        | error _ => exact left.1
      have closing : (suppressing (.invoke (.inl (.close descriptor))) : FileSourceRoutine Unit).Wp
          (.own (viewSem (q.alone c))) (Post (fun _ _ v' => v'.entry = v₃.entry ∧
            v'.content = v₃.content) fun _ _ _ => False) s₃ v₃ := by
        apply suppressing_wp (I := fun _ v' => v'.entry = v₃.entry ∧ v'.content = v₃.content)
        apply Wp.post (onFile_wp (closing_wp (.inl (same.1.trans attached))))
        · intro _ _ v' closed
          obtain ⟨-, rfl | rfl⟩ := closed
          · exact ⟨rfl, rfl⟩
          · exact ⟨rfl, rfl⟩
        · intro e _ v' failed
          obtain ⟨failed, -, rfl | rfl⟩ := failed
          · exact ⟨failed, rfl, rfl⟩
          · exact ⟨failed, rfl, rfl⟩
      apply Wp.post closing
      · intro _ s₄ v₄ closed
        apply Setting.settle
        cases r with
        | ok chunks =>
          obtain ⟨⟨-, entry, content⟩, file, delivers⟩ := left
          show (∃ number, v₄.entry = some (.file number)) ∧ Delivers (wantedOf q.limit v₄.content) _ _
          rw [closed.1, closed.2, entry, content]
          exact ⟨file, delivers⟩
        | error e => exact left.2
      · intro _ _ _ impossible
        exact impossible.elim
    · intro e s' v' failed
      exact Setting.settle fun _ => failed
  · intro e s' v' failed
    exact Setting.settle fun _ => failed.1

end LocalConnector

end DataBridge
