import DataBridge.Effect.Routine
import DataBridge.Errors
import DataBridge.Files.Directory

/-!
# The request log

`RequestLog` of `request_log.py` over the system calls it makes. The log file
and its backups are the names of a directory: 0 is `path` and every other number
its backup. The stream writes through the descriptor it was opened with, so it
stays with its file when a name moves.

`LogCall.sem` lets any call fail with the exceptions of `fault`; a failing write,
flush or close may have stored a part of what it was given.
-/

namespace DataBridge

open Effect Routine Files

/-! ## Files and calls -/

/-- The line of one event. `json.dumps` escapes every line feed, so the only one
ends the line. -/
structure LogLine where
  body : Bytes
  plain : 10 ∉ body

def LogLine.text (line : LogLine) : Bytes := line.body ++ [10]

def LogLine.size (line : LogLine) : Nat := line.text.length

/-- The directory of the log, and the files that were written to through a stream. -/
structure LogWorld where
  directory : Directory Nat
  written : List Nat

/-- Store some bytes at the end of a file. -/
def LogWorld.append (file : Nat) (data : Bytes) (w : LogWorld) : LogWorld :=
  if data = [] then w
  else
    { directory := w.directory.modify file fun node =>
        { node with content := node.content ++ data }
      written := file :: w.written }

/-- Change the mode of a file. -/
def LogWorld.chmod (file mode : Nat) (w : LogWorld) : LogWorld :=
  { w with directory := w.directory.modify file fun node => { node with mode } }

/-- The calls of the log. A call that passes data on answers what is left of it
in the buffer of the stream. -/
inductive LogCall : Type → Type
  /-- `os.open(path, O_WRONLY | O_CREAT | O_APPEND, 0o600)`. -/
  | openFile : LogCall (Except Exc Nat)
  | chmod (file mode : Nat) : LogCall (Except Exc Unit)
  | fileSize (file : Nat) : LogCall (Except Exc Nat)
  | fdopen (file : Nat) : LogCall (Except Exc Unit)
  | write (file : Nat) (data : Bytes) : LogCall (Bytes × Except Exc Unit)
  | flush (file : Nat) (data : Bytes) : LogCall (Bytes × Except Exc Unit)
  | close (file : Nat) (data : Bytes) : LogCall (Bytes × Except Exc Unit)
  /-- `Path.unlink(missing_ok=True)`. -/
  | unlink (name : Nat) : LogCall (Except Exc Unit)
  | exist (name : Nat) : LogCall (Except Exc Bool)
  | replace (source target : Nat) : LogCall (Except Exc Unit)

/-- A failing write, flush or close: the file has some of the data, and the
buffer some of the rest. -/
def LogCall.Torn (fault : Exc → Prop) (file : Nat) (data : Bytes) (w : LogWorld)
    (r : Bytes × Except Exc Unit) (w' : LogWorld) : Prop :=
  ∃ e stored kept, fault e ∧ w' = w.append file (data.take stored) ∧
    r = ((data.drop stored).take kept, .error e)

/-- The answers of the operating system; `fault` are the exceptions with which
any call may fail. -/
def LogCall.sem (fault : Exc → Prop) : Sem LogCall LogWorld
  | _, .openFile, w, r, w' => (∃ e, fault e ∧ r = .error e ∧ w' = w) ∨
    match w.directory.entries 0 with
    | some (.file file) => r = .ok file ∧ w' = w
    | some .directory => r = .error (.osError .EISDIR) ∧ w' = w
    | none => r = .ok w.directory.next ∧
        w' = { w with directory := w.directory.create 0 0o600 }
  | _, .chmod file mode, w, r, w' => (∃ e, fault e ∧ r = .error e ∧ w' = w) ∨
    (r = .ok () ∧ w' = w.chmod file mode)
  | _, .fileSize file, w, r, w' => (∃ e, fault e ∧ r = .error e ∧ w' = w) ∨
    (r = .ok (w.directory.nodes file).content.length ∧ w' = w)
  | _, .fdopen _, w, r, w' => (∃ e, fault e ∧ r = .error e ∧ w' = w) ∨ (r = .ok () ∧ w' = w)
  | _, .write file data, w, r, w' => Torn fault file data w r w' ∨
    ∃ stored, w' = w.append file (data.take stored) ∧ r = (data.drop stored, .ok ())
  | _, .flush file data, w, r, w' => Torn fault file data w r w' ∨
    (w' = w.append file data ∧ r = ([], .ok ()))
  | _, .close file data, w, r, w' => Torn fault file data w r w' ∨
    (w' = w.append file data ∧ r = ([], .ok ()))
  | _, .unlink name, w, r, w' => (∃ e, fault e ∧ r = .error e ∧ w' = w) ∨
    match w.directory.entries name with
    | some .directory => r = .error (.osError .EISDIR) ∧ w' = w
    | some (.file _) => r = .ok () ∧ w' = { w with directory := w.directory.unlink name }
    | none => r = .ok () ∧ w' = w
  | _, .exist name, w, r, w' => (∃ e, fault e ∧ r = .error e ∧ w' = w) ∨
    (r = .ok (w.directory.entries name).isSome ∧ w' = w)
  | _, .replace source target, w, r, w' => (∃ e, fault e ∧ r = .error e ∧ w' = w) ∨
    match w.directory.entries source, w.directory.entries target with
    | none, _ => r = .error (.osError .ENOENT) ∧ w' = w
    | some (.file _), some .directory => r = .error (.osError .EISDIR) ∧ w' = w
    | some .directory, some (.file _) => r = .error (.osError .ENOTDIR) ∧ w' = w
    | _, _ => r = .ok () ∧ w' = { w with directory := w.directory.rename source target }

/-! ## The log object -/

/-- The text stream over a descriptor. -/
structure LogStream where
  file : Nat
  buffer : Bytes
  closed : Bool

/-- The fields `_stream` and `_size`. -/
structure RequestLogState where
  stream : Option LogStream
  size : Nat

/-- The settings of a `RequestLog`, as `__init__` accepts them. -/
structure RequestLog where
  maxBytes : Nat
  backups : Nat
  positive : 1 ≤ maxBytes

abbrev LogRoutine (α : Type) : Type 1 := Routine LogCall Exc RequestLogState α

/-- `ValueError`: I/O operation on closed file. -/
def closedStream : Exc := .other 0

namespace LogStream

/-- `TextIOWrapper.write`. -/
def write (stream : LogStream) (line : LogLine) : LogRoutine Unit :=
  if stream.closed then .raise closedStream
  else do
    let answer ← .ask (.write stream.file (stream.buffer ++ line.text))
    .modify fun log => { log with stream := some { stream with buffer := answer.1 } }
    .ofExcept answer.2

/-- `TextIOWrapper.flush`. -/
def flush (stream : LogStream) : LogRoutine Unit :=
  if stream.closed then .raise closedStream
  else do
    let answer ← .ask (.flush stream.file stream.buffer)
    .modify fun log => { log with stream := some { stream with buffer := answer.1 } }
    .ofExcept answer.2

/-- `TextIOWrapper.close`: the stream is closed also when this raises, and a
closed one is left alone. -/
def close (stream : LogStream) : LogRoutine Unit :=
  if stream.closed then pure ()
  else do
    let answer ← .ask (.close stream.file stream.buffer)
    .modify fun log => { log with stream := some { stream with buffer := [], closed := true } }
    .ofExcept answer.2

end LogStream

/-- Call a method of the stream. -/
def onStream (method : LogStream → LogRoutine Unit) (absent : LogRoutine Unit) :
    LogRoutine Unit := do
  let log ← .fields
  match log.stream with
  | none => absent
  | some stream => method stream

theorem onStream_wp {L : Setting LogCall LogWorld} {method : LogStream → LogRoutine Unit}
    {absent : LogRoutine Unit} {log : RequestLogState} {w : LogWorld} {stream : LogStream}
    {Q : Except Exc Unit → RequestLogState → LogWorld → Prop} (present : log.stream = some stream)
    (h : (method stream).Wp L Q log w) : (onStream method absent).Wp L Q log w := by
  unfold onStream
  rw [Wp.fields_bind, present]
  exact h

namespace RequestLog

variable (c : RequestLog)

/-- `RequestLog.open`. -/
def openLog : LogRoutine Unit := do
  let descriptor ← .invoke .openFile
  .invoke (.chmod descriptor 0o600)
  let size ← .invoke (.fileSize descriptor)
  .modify fun log => { log with size }
  .invoke (.fdopen descriptor)
  .modify fun log => { log with stream := some ⟨descriptor, [], false⟩ }

/-- `RequestLog.close`. -/
def close : LogRoutine Unit :=
  onStream (fun stream => do
    stream.close
    .modify fun log => { log with stream := none }) (pure ())

/-- The log file goes when there are no backups. -/
def discard : LogRoutine Unit :=
  if c.backups = 0 then .invoke (.unlink 0) else pure ()

/-- One pass of the loop of `_rotate`; the source of backup 1 is the log file. -/
def shift (number : Nat) : LogRoutine Unit := do
  let present ← .invoke (.exist (number - 1))
  if present then .invoke (.replace (number - 1) number) else pure ()

/-- `range(backups, 0, -1)`. -/
def numbers : Nat → List Nat
  | 0 => []
  | n + 1 => (n + 1) :: numbers n

/-- `_rotate`. -/
def rotate : LogRoutine Unit := do
  close
  c.discard
  .forEach shift (numbers c.backups)
  openLog

/-- The line would make the log file too long. -/
def Due (size : Nat) (line : LogLine) : Prop :=
  size ≠ 0 ∧ c.maxBytes < size + line.size

instance (size : Nat) (line : LogLine) : Decidable (c.Due size line) :=
  inferInstanceAs (Decidable (_ ∧ _))

/-- The check at the head of `write`. -/
def makeRoom (line : LogLine) : LogRoutine Unit := do
  let log ← .fields
  if c.Due log.size line then c.rotate else pure ()

/-- `RequestLog.write`, from the line of the event. -/
def write (line : LogLine) : LogRoutine Unit := do
  c.makeRoom line
  onStream (fun stream => stream.write line) (.raise .runtimeError)
  onStream LogStream.flush (.raise .runtimeError)
  .modify fun log => { log with size := log.size + line.size }

end RequestLog

/-! ## The middleware -/

namespace RequestContextMiddleware

/-- `_log`, from the line of the event. -/
def log (c : RequestLog) (line : LogLine) : LogRoutine Unit :=
  .catching (c.write line) fun e => if e.isOSError then pure () else .raise e

/-- `__call__`, from what the request comes to before its `finally`. -/
def call (c : RequestLog) (answered : Except Exc Unit) (line : LogLine) : LogRoutine Unit :=
  .ensuring (.ofExcept answered) (log c line)

end RequestContextMiddleware

end DataBridge
