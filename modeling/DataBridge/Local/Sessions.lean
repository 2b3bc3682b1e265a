import DataBridge.Effect.Views
import DataBridge.Local.Confinement
import DataBridge.Local.Disk
import DataBridge.Sftp.Connector

/-!
# Read and write sessions of the local connector

The context managers `LocalConnector.read` and `LocalConnector.write` with the block
under their `yield`: the block of a write makes calls of the sink and may raise, the
one of a read asks the source for some sizes.
-/

namespace DataBridge

open Effect Routine

/-- The calls of the sink among those of its session. -/
def onSink {α : Type} (x : FileSinkRoutine α) : Routine LocalEffect Exc FileSinkState α :=
  x.lift fun _ => Sum.inl

/-- A call of a session itself. -/
def onDisk {σ α : Type} (op : DiskCall (Except Exc α)) : Routine LocalEffect Exc σ α :=
  .invoke (.inr op)

/-- `except OSError as exc: raise ...`. -/
def raisingFor {σ α : Type} (convert : Exc → Exc) (body : Routine LocalEffect Exc σ α) :
    Routine LocalEffect Exc σ α :=
  .catching body fun e => .raise (if e.isOSError then convert e else e)

/-- `with suppress(OSError)`. -/
def suppressing {σ : Type} (body : Routine LocalEffect Exc σ Unit) : Routine LocalEffect Exc σ Unit :=
  .catching body fun e => if e.isOSError then pure () else .raise e

/-! ## Paths -/

namespace LocalConnector

variable (c : LocalConnector) {σ : Type}

/-- `path.is_relative_to(root)`. -/
def isRelativeTo (path root : Text) : Bool :=
  (Path.parse path).absolute == (Path.parse root).absolute &&
    (Path.parse root).parts.isPrefixOf (Path.parse path).parts

/-- `_root`. -/
def findRoot : Routine LocalEffect Exc σ Text := do
  let root ← .catching (onDisk (.resolve c.root)) fun e =>
    .raise (if e.isOSError ∨ e = .runtimeError then localRootUnavailable else e)
  let found ← onDisk (.isDirectory root)
  if found then pure root else .raise localRootUnavailable

/-- `_resolve`. -/
def findFile (filename : Text) : Routine LocalEffect Exc σ (Text × Text) := do
  let _ ← .ofExcept (validateFilename filename)
  let root ← c.findRoot
  let resolved ← .catching (onDisk (.resolve (posixJoin root filename))) fun e =>
    .raise (if e.isOSError ∨ e = .runtimeError then
      .ofCode .invalidFilename (lit "Filename cannot be resolved inside the connection root") else e)
  if isRelativeTo resolved root then pure (root, resolved)
  else .raise (.ofCode .invalidFilename (lit "Filename escapes the connection root"))

end LocalConnector

/-! ## Writing -/

/-- `_FileSink.release`. -/
def FileSink.release : FileSinkRoutine Unit := do
  let s ← .fields
  match s.descriptor with
  | none => pure ()
  | some descriptor => do
    .modify fun s => { s with descriptor := none }
    closeQuietly descriptor

/-- The block under the `yield` of `write`. -/
def FileSink.runBody (sink : FileSink) (body : SinkBody) : FileSinkRoutine Unit := do
  .forEach (FileSink.perform sink) body.calls
  match body.failure with
  | none => pure ()
  | some e => .raise e

namespace LocalConnector

abbrev WriteRoutine (α : Type) : Type 1 := Routine LocalEffect Exc FileSinkState α

/-- `os.stat(destination)`, if there is something. -/
def statDestination (destination : Text) : WriteRoutine (Option Nat) :=
  .catching (do
    let mode ← onDisk (.stat destination)
    pure (some mode)) fun e =>
      if e = .osError .ENOENT then pure none
      else .raise (if e.isOSError then writeError (lit "inspect the destination") e else e)

/-- `_existing_file`: the mode of the file. -/
def existingMode (destination filename : Text) (overwrite : Bool) : WriteRoutine (Option Nat) := do
  match ← statDestination destination with
  | none => pure none
  | some mode =>
    if overwrite = false then .raise (destinationExists filename)
    else if isRegular mode = false then
      .raise (.ofCode .destinationExists
        (lit "'" ++ filename ++ lit "' exists and is not a regular file"))
    else pure (some mode)

/-- Create the staging file. -/
def openStage (stage : Text) : WriteRoutine Nat :=
  raisingFor (fun e => if e = .osError .ENOENT ∨ e = .osError .ENOTDIR then localRootUnavailable
    else writeError (lit "create the staging file") e) (onDisk (.openNew stage 0o666))

/-- What `_publish` raises for an `OSError`. -/
def publishError (filename : Text) (overwrite : Bool) (e : Exc) : Exc :=
  if e = .osError .EEXIST then destinationExists filename
  else if overwrite = false ∧ e ∈ [Exc.osError .EPERM, .osError .ENOTSUP, .osError .EXDEV,
      .osError .EMLINK] then publishUnsupportedLocally
  else writeError (lit "publish the destination file") e

/-- `_publish`. -/
def publishStage (stage destination filename : Text) (overwrite : Bool) : WriteRoutine Unit :=
  raisingFor (publishError filename overwrite) (onDisk
    (if overwrite then .replace stage destination else .link stage destination))

/-- `_sync_directory`. -/
def syncDirectory (directory : Text) : WriteRoutine Unit :=
  suppressing do
    let descriptor ← onDisk (.openDirectory directory)
    .ensuring (.invoke (.inl (.fsync descriptor))) (.invoke (.inl (.close descriptor)))

/-- `_remove`. -/
def removeStage (stage : Text) : WriteRoutine Unit :=
  suppressing (.catching (onDisk (.unlink stage)) fun e =>
    if e = .osError .ENOENT then pure () else .raise e)

/-- The block of `write` with its `finally`. -/
def fillAndPublish (sink : FileSink) (root stage destination filename : Text) (overwrite : Bool)
    (body : SinkBody) : WriteRoutine Unit :=
  .ensuring (do
    onSink (FileSink.runBody sink body)
    onSink (FileSink.finish sink)
    publishStage stage destination filename overwrite
    syncDirectory root) (do
    onSink FileSink.release
    removeStage stage)

/-- `LocalConnector.write`. -/
def writeSession (c : LocalConnector) (filename : Text) (stagingId : Uuid) (overwrite : Bool)
    (body : SinkBody) : WriteRoutine Unit := do
  let (root, destination) ← c.findFile filename
  let existing ← existingMode destination filename overwrite
  let stage := posixJoin root (stageName stagingId)
  let descriptor ← openStage stage
  .modify fun _ => { descriptor := some descriptor }
  fillAndPublish { existing } root stage destination filename overwrite body

end LocalConnector

/-! ## Reading -/

/-- The fields of `_FileSource` that change. -/
structure FileSourceState where
  descriptor : Nat := 0
  remaining : Nat := 0

/-- The field of `_FileSource` that stays. -/
structure FileSource where
  filename : Text

abbrev FileSourceRoutine (α : Type) : Type 1 := Routine LocalEffect Exc FileSourceState α

namespace FileSource

variable (source : FileSource)

/-- `_FileSource.read`. -/
def read (size : Nat) : FileSourceRoutine Bytes := do
  let s ← .fields
  if s.remaining = 0 then pure []
  else do
    let data ← raisingFor
      (fun _ => .ofCode .sourceReadFailed (lit "Cannot read the local source file"))
      (onDisk (.read s.descriptor (min size s.remaining)))
    if data = [] then .raise (sourceChanged source.filename)
    else do
      .modify fun s => { s with remaining := s.remaining - data.length }
      pure data

/-- The block under the `yield` of `read`: what its calls return. -/
def readAll : List Nat → FileSourceRoutine (List Bytes)
  | [] => pure []
  | size :: sizes => do
    let data ← source.read size
    let rest ← readAll sizes
    pure (data :: rest)

end FileSource

namespace LocalConnector

/-- `except` around `os.open` in `read`. -/
def openFailure (filename : Text) : Exc → Exc
  | .osError errno => openError filename errno
  | _ => .ofCode .localIoError (lit "Cannot open the local file")

/-- `if stat.S_ISREG(opened.st_mode): os.set_blocking(descriptor, True)`. -/
def blockOnFile (mode descriptor : Nat) : FileSourceRoutine Unit :=
  if isRegular mode then onDisk (.setBlocking descriptor) else pure ()

/-- `os.fstat` of what was opened. -/
def inspectOpened (filename : Text) (descriptor : Nat) : FileSourceRoutine (Nat × Nat) :=
  raisingFor (fun _ => .ofCode .localIoError
      (lit "Cannot inspect the opened file '" ++ filename ++ lit "'")) do
    let opened ← onDisk (.fstat descriptor)
    blockOnFile opened.1 descriptor
    pure opened

/-- How many bytes the source gives at most. -/
def sourceSize (limit : Option Nat) (size : Nat) : Nat :=
  match limit with
  | none => size
  | some limit => min size limit

/-- The `try` of `read`. -/
def readOpened (filename : Text) (limit : Option Nat) (descriptor : Nat) (sizes : List Nat) :
    FileSourceRoutine (List Bytes) := do
  let (mode, size) ← inspectOpened filename descriptor
  if isRegular mode = false then
    .raise (.ofCode .fileNotFound (lit "'" ++ filename ++ lit "' is not a regular file"))
  else do
    .modify fun _ => { descriptor, remaining := sourceSize limit size }
    FileSource.readAll ⟨filename⟩ sizes

/-- `LocalConnector.read`. -/
def readSession (c : LocalConnector) (filename : Text) (limit : Option Nat) (sizes : List Nat) :
    FileSourceRoutine (List Bytes) := do
  let (_, path) ← c.findFile filename
  let descriptor ← raisingFor (openFailure filename) (onDisk (.openRead path))
  .ensuring (readOpened filename limit descriptor sizes)
    (suppressing (.invoke (.inl (.close descriptor))))

end LocalConnector

end DataBridge
