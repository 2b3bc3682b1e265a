import DataBridge.Connectors.Base
import DataBridge.Effect.Calls

/-!
# The staging file of the local connector

`_FileSink` of `local.py` over the system calls it makes on its descriptor. A
call may fail with any `OSError`, and a write may be short; `refused` keeps what
failing writes raised.
-/

namespace DataBridge

open Effect Routine

/-! ## The descriptor -/

/-- The file behind a descriptor, which is open at its end. -/
structure OpenFile where
  content : Bytes := []
  mode : Nat
  refused : List Exc := []

/-- The system calls of `_FileSink`. -/
inductive FileCall : Type → Type
  /-- `os.write`: the number of bytes written. -/
  | write (descriptor : Nat) (data : Bytes) : FileCall (Except Exc Nat)
  | fsync (descriptor : Nat) : FileCall (Except Exc Unit)
  /-- `os.fstat(descriptor).st_size`. -/
  | fileSize (descriptor : Nat) : FileCall (Except Exc Nat)
  | fchmod (descriptor mode : Nat) : FileCall (Except Exc Unit)
  | close (descriptor : Nat) : FileCall (Except Exc Unit)

/-- The answers of the operating system. -/
def FileCall.sem : Sem FileCall OpenFile
  | _, .write _ data, w, r, w' =>
    (∃ count, count ≤ data.length ∧ r = .ok count ∧
      w' = { w with content := w.content ++ data.take count }) ∨
    ∃ e, e.isOSError ∧ r = .error e ∧ w' = { w with refused := w.refused ++ [e] }
  | _, .fsync _, w, r, w' => (r = .ok () ∨ ∃ e, e.isOSError ∧ r = .error e) ∧ w' = w
  | _, .fileSize _, w, r, w' =>
    (r = .ok w.content.length ∨ ∃ e, e.isOSError ∧ r = .error e) ∧ w' = w
  | _, .fchmod _ mode, w, r, w' =>
    (r = .ok () ∧ w' = { w with mode }) ∨ ∃ e, e.isOSError ∧ r = .error e ∧ w' = w
  | _, .close _, w, r, w' => (r = .ok () ∨ ∃ e, e.isOSError ∧ r = .error e) ∧ w' = w

/-! ## The sink -/

/-- `_write_error`. -/
def writeError (action : Text) : Exc → Exc
  | .osError .ENOSPC | .osError .EDQUOT =>
    .ofCode .destinationFull (lit "The destination has no space left to " ++ action)
  | .osError .EACCES | .osError .EPERM | .osError .EROFS =>
    .ofCode .destinationNotWritable
      (lit "The connection directory does not allow DataBridge to " ++ action)
  | _ => .ofCode .destinationWriteFailed (lit "Cannot " ++ action)

/-- `except OSError as exc: raise _write_error(exc, action)`. -/
def withWriteErrors {E : Type → Type} {σ α : Type} (action : Text) (body : Routine E Exc σ α) :
    Routine E Exc σ α :=
  .catching body fun e => .raise (if e.isOSError then writeError action e else e)

/-- The fields of `_FileSink` that change; a negative descriptor is `none`. -/
structure FileSinkState where
  descriptor : Option Nat
  bytesWritten : Nat := 0

/-- A method of `_FileSink`. -/
abbrev FileSinkRoutine (α : Type) : Type 1 := Routine FileCall Exc FileSinkState α

/-- The field of `_FileSink` that stays: the mode of the file it replaces. -/
structure FileSink where
  existing : Option Nat

namespace FileSink

/-- `_open`. -/
def openDescriptor : FileSinkRoutine Nat := do
  let s ← .fields
  match s.descriptor with
  | none => .raise .runtimeError
  | some descriptor => pure descriptor

/-- `os.write(self._open(), view)`. -/
def writeSome (view : Bytes) : FileSinkRoutine Nat := do
  let descriptor ← openDescriptor
  .invoke (.write descriptor view)

/-- One pass of the loop of `write`; `view` is what is left of the data. -/
def writeView (view : Bytes) : FileSinkRoutine (Bytes ⊕ Unit) :=
  if view = [] then pure (.inr ())
  else do
    let written ← withWriteErrors (lit "write the staging file") (writeSome view)
    .modify fun s => { s with bytesWritten := s.bytesWritten + written }
    pure (.inl (view.drop written))

/-- `_FileSink.write`. -/
def write (data : Bytes) : FileSinkRoutine Unit := .iterate writeView data

variable (sink : FileSink)

/-- Give the staging file the mode of the file it replaces. -/
def copyMode (descriptor : Nat) : FileSinkRoutine Unit :=
  match sink.existing with
  | none => pure ()
  | some mode => .invoke (.fchmod descriptor (permissionBits mode))

def shortFile (size expected : Nat) : Exc :=
  .ofCode .destinationWriteFailed (lit "The staging file holds " ++ decimal size ++ lit " of " ++
    decimal expected ++ lit " bytes")

/-- `_persist`. -/
def persist (descriptor expected : Nat) : FileSinkRoutine Unit := do
  let size ← withWriteErrors (lit "persist the staging file") do
    .invoke (.fsync descriptor)
    let size ← .invoke (.fileSize descriptor)
    copyMode sink descriptor
    pure size
  if size ≠ expected then .raise (shortFile size expected) else pure ()

/-- `with suppress(OSError): os.close(descriptor)`. -/
def closeQuietly (descriptor : Nat) : FileSinkRoutine Unit :=
  .catching (.invoke (.close descriptor)) fun e => if e.isOSError then pure () else .raise e

/-- `_FileSink.finish`. -/
def finish : FileSinkRoutine Unit := do
  let s ← .fields
  match s.descriptor with
  | none => pure ()
  | some descriptor => do
    .modify fun s => { s with descriptor := none }
    .catching (persist sink descriptor s.bytesWritten) fun e => do
      closeQuietly descriptor
      .raise e
    withWriteErrors (lit "close the staging file") (.invoke (.close descriptor))

def perform : SinkCall → FileSinkRoutine Unit
  | .write data => write data
  | .finish => finish sink

end FileSink

/-! ## What the calls do to the file -/

section Rules

variable {sink : FileSink} {s s' : FileSinkState} {w w' : OpenFile}

theorem withWriteErrors_ensures {E : Type → Type} {W σ α : Type} {sem : Sem E W} {action : Text}
    {body : Routine E Exc σ α} {A : α → σ → W → Prop} {B : σ → W → Prop} {s : σ} {w : W}
    (h : body.Ensures sem (Post A fun _ => B) s w) :
    (withWriteErrors action body).Ensures sem (Post A fun _ => B) s w :=
  .catching h (fun _ _ _ done => done) fun _ _ _ failed => .raise failed

/-- A write stores what it counts, or the descriptor is closed or refuses. -/
theorem FileSink.writeSome_ensures {view : Bytes} :
    (FileSink.writeSome view).Ensures FileCall.sem
      (Post (fun count s' w' => s' = s ∧ s.descriptor ≠ none ∧ count ≤ view.length ∧
          w' = { w with content := w.content ++ view.take count })
        fun _ s' w' => s' = s ∧ w'.content = w.content ∧
          (s.descriptor = none ∨ w'.refused ≠ w.refused)) s w := by
  rw [FileSink.writeSome, FileSink.openDescriptor]
  cases opened : s.descriptor with
  | none =>
    refine .bind (P := Post (fun _ _ _ => False) fun _ s' w' => s' = s ∧ w' = w) ?_
      (fun _ _ _ impossible => impossible.elim) ?_
    · rw [Ensures.fields_bind, opened]
      exact .raise ⟨rfl, rfl⟩
    · intro _ s' w' same
      obtain ⟨rfl, rfl⟩ := same
      exact ⟨rfl, rfl, .inl rfl⟩
  | some descriptor =>
    refine .bind (P := Post (fun _ s' w' => s' = s ∧ w' = w) fun _ _ _ => False) ?_ ?_
      fun _ _ _ impossible => impossible.elim
    · rw [Ensures.fields_bind, opened]
      exact .pure ⟨rfl, rfl⟩
    · intro d s' w' same
      obtain ⟨rfl, rfl⟩ := same
      refine .invoke ?_
      intro r w' answer
      rcases answer with ⟨count, fits, rfl, rfl⟩ | ⟨e, -, rfl, rfl⟩
      · exact ⟨rfl, Option.some_ne_none _, fits, rfl⟩
      · exact ⟨rfl, rfl, .inr (by simp)⟩

/-- A write stores its data, or a part of it when the descriptor is closed or
refuses. -/
theorem FileSink.write_ensures {data : Bytes} :
    (FileSink.write data).Ensures FileCall.sem
      (Post (fun _ _ w' => w'.content = w.content ++ data ∧
          (data = [] ∨ s.descriptor ≠ none ∧ w'.refused = w.refused))
        fun _ _ w' => ∃ done rest, data = done ++ rest ∧ rest ≠ [] ∧
          w'.content = w.content ++ done ∧
          (s.descriptor = none ∨ w'.refused ≠ w.refused)) s w := by
  -- `done` is what the passes so far have stored.
  refine .iterate (I := fun view s' w' => ∃ done, data = done ++ view ∧
    w'.content = w.content ++ done ∧ s'.descriptor = s.descriptor ∧ w'.refused = w.refused ∧ (done = [] ∨ s.descriptor ≠ none)) ?_
    ⟨[], rfl, (List.append_nil _).symm, rfl, rfl, .inl rfl⟩
  intro view s' w' inv
  obtain ⟨done, split, stored, same, unrefused, opened⟩ := inv
  rw [FileSink.writeView]
  by_cases last : view = []
  · rw [if_pos last]
    rw [last, List.append_nil] at split
    subst split
    exact .pure ⟨stored, opened.imp_right fun opened => ⟨opened, unrefused⟩⟩
  · rw [if_neg last]
    refine .bind (withWriteErrors_ensures FileSink.writeSome_ensures) ?_ ?_
    · intro count s'' w'' wrote
      obtain ⟨rfl, opened', -, rfl⟩ := wrote
      rw [Ensures.modify_bind]
      refine .pure ⟨done ++ view.take count, ?_, ?_, same, unrefused, .inr (same ▸ opened')⟩
      · rw [split, List.append_assoc, List.take_append_drop]
      · rw [stored, List.append_assoc]
    · intro e s'' w'' failed
      obtain ⟨rfl, content, cause⟩ := failed
      refine ⟨done, view, split, last, content.trans stored, ?_⟩
      rw [same] at cause
      exact unrefused ▸ cause

theorem withWriteErrors_keeps {E : Type → Type} {W σ α : Type} {sem : Sem E W} {action : Text}
    {I : σ → W → Prop} {body : Routine E Exc σ α} (h : Keeps sem I body) :
    Keeps sem I (withWriteErrors action body) :=
  .catching h fun _ => .raise

theorem FileSink.close_keeps {descriptor : Nat} {content : Bytes} :
    Keeps FileCall.sem (fun _ w => w.content = content)
      (.invoke (.close descriptor) : FileSinkRoutine Unit) := by
  refine .invoke ?_
  intro s w r w' holds answer
  obtain ⟨-, rfl⟩ := answer
  exact holds

theorem FileSink.persist_keeps {descriptor expected : Nat} {content : Bytes} :
    Keeps FileCall.sem (fun _ w => w.content = content) (FileSink.persist sink descriptor expected) := by
  refine .bind (withWriteErrors_keeps (.bind ?_ fun _ => .bind ?_ fun _ => .bind ?_ fun _ => .pure))
    fun stored => ?_
  · refine .invoke ?_
    intro s w r w' holds answer
    obtain ⟨-, rfl⟩ := answer
    exact holds
  · refine .invoke ?_
    intro s w r w' holds answer
    obtain ⟨-, rfl⟩ := answer
    exact holds
  · rw [FileSink.copyMode]
    split
    · exact .pure
    · refine .invoke ?_
      intro s w r w' holds answer
      rcases answer with ⟨-, rfl⟩ | ⟨e, -, -, rfl⟩
      · exact holds
      · exact holds
  · split
    · exact .raise
    · exact .pure

/-- `finish` neither stores nor forgets bytes. -/
theorem FileSink.finish_keeps {content : Bytes} :
    Keeps FileCall.sem (fun _ w => w.content = content) (FileSink.finish sink) := by
  refine .bind .fields fun s => ?_
  cases s.descriptor with
  | none => exact .pure
  | some descriptor =>
    refine .bind (.modify fun _ _ holds => holds) fun _ => ?_
    refine .bind (.catching FileSink.persist_keeps fun e => ?_) fun _ => ?_
    · refine .bind (.catching FileSink.close_keeps fun e => ?_) fun _ => .raise
      split
      · exact .pure
      · exact .raise
    · exact withWriteErrors_keeps FileSink.close_keeps

end Rules

/-! ## Callers that go on after an exception -/

/-- A call of the sink, with the file before and after it. -/
abbrev FileSink.Made := Routine.Made SinkCall Exc FileSinkState OpenFile

/-- A call that lost nothing: a write of bytes found the descriptor open, and
the operating system refused none of them. -/
def FileSink.Clean (made : FileSink.Made) : Prop :=
  ∀ data, made.call = .write data → data = [] ∨
    made.before.descriptor ≠ none ∧ made.left.refused = made.world.refused

/-- The bytes of all writes are stored while every call is clean, and fewer bytes
than those once a call is not. -/
structure FileSink.Tally (made : List FileSink.Made) (w : OpenFile) : Prop where
  whole : (∀ m ∈ made, FileSink.Clean m) →
    w.content = SinkCall.written (callsOf made)
  short : (∃ m ∈ made, ¬FileSink.Clean m) →
    w.content.length < (SinkCall.written (callsOf made)).length

namespace FileSink.Tally

variable {sink : FileSink} {made : List FileSink.Made} {m : FileSink.Made} {w w' : OpenFile}

theorem length_le (tally : FileSink.Tally made w) :
    w.content.length ≤ (SinkCall.written (callsOf made)).length := by
  by_cases clean : ∀ m ∈ made, FileSink.Clean m
  · rw [tally.whole clean]
  · push Not at clean
    exact (tally.short clean).le

/-- A clean call stores all it was given. -/
theorem concat_clean (tally : FileSink.Tally made w) (clean : FileSink.Clean m)
    (content : w'.content = w.content ++ SinkCall.written [m.call]) :
    FileSink.Tally (made ++ [m]) w' := by
  constructor
  · intro all
    rw [callsOf_concat, SinkCall.written_concat, content,
      tally.whole fun m member => all m (List.mem_append_left _ member)]
  · intro some
    obtain ⟨other, member, unclean⟩ := some
    rcases List.mem_append.mp member with member | last
    · have short := tally.short ⟨other, member, unclean⟩
      rw [callsOf_concat, SinkCall.written_concat, content,
        List.length_append, List.length_append]
      omega
    · rw [List.mem_singleton.mp last] at unclean
      exact absurd clean unclean

/-- A call that is not clean stores less than it was given. -/
theorem concat_unclean {stored : Bytes} (tally : FileSink.Tally made w)
    (unclean : ¬FileSink.Clean m) (content : w'.content = w.content ++ stored)
    (less : stored.length < (SinkCall.written [m.call]).length) :
    FileSink.Tally (made ++ [m]) w' := by
  constructor
  · intro all
    exact absurd (all m (List.mem_append_right _ List.mem_cons_self)) unclean
  · intro _
    have before := tally.length_le
    rw [callsOf_concat, SinkCall.written_concat, content,
      List.length_append, List.length_append]
    omega

theorem of_call {call : SinkCall} {outcome : Except Exc Unit} {s s' : FileSinkState}
    (tally : FileSink.Tally made w)
    (run : Runs FileCall.sem (sink.perform call) s w outcome s' w') :
    FileSink.Tally (made ++ [⟨s, w, call, outcome, s', w'⟩]) w' := by
  cases call with
  | finish =>
    have content := FileSink.finish_keeps s w rfl _ _ _ run
    refine tally.concat_clean (fun data impossible => by cases impossible) ?_
    rw [content, SinkCall.written_finish, List.append_nil]
  | write data =>
    have wrote := FileSink.write_ensures _ _ _ run
    cases outcome with
    | ok =>
      obtain ⟨stored, cause⟩ := wrote
      refine tally.concat_clean ?_ (by rw [stored, SinkCall.written_write])
      intro data' same
      cases same
      exact cause
    | error e =>
      obtain ⟨done, rest, split, more, stored, cause⟩ := wrote
      refine tally.concat_unclean ?_ stored ?_
      · intro clean
        rcases clean data rfl with none | ⟨opened, unrefused⟩
        · rw [none] at split
          exact more (List.append_eq_nil_iff.mp split.symm).2
        · exact cause.elim opened fun refused => refused unrefused
      · rw [SinkCall.written_write, split, List.length_append]
        have := List.length_pos_of_ne_nil more
        omega

/-- Over every run, the stage holds all bytes exactly when every call is clean. -/
theorem of_calls {s s' : FileSinkState} {mode : Nat}
    (calls : Calls FileCall.sem sink.perform s { mode } made s' w) : FileSink.Tally made w := by
  refine calls.keep (I := fun made _ w => FileSink.Tally made w) ⟨fun _ => rfl, ?_⟩ ?_
  · intro some
    obtain ⟨m, none, -⟩ := some
    exact (List.not_mem_nil none).elim
  · intro made s w call outcome s' w' tally run
    exact tally.of_call run

theorem stored_iff (tally : FileSink.Tally made w) :
    w.content = SinkCall.written (callsOf made) ↔ ∀ m ∈ made, FileSink.Clean m := by
  constructor
  · intro same
    by_contra unclean
    push Not at unclean
    have short := tally.short unclean
    rw [same] at short
    exact (lt_irrefl _ short).elim
  · exact tally.whole

end FileSink.Tally

end DataBridge
