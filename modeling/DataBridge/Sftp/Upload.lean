import DataBridge.Connectors.Base
import DataBridge.Sftp.Download

/-!
# The pipelined upload

`_Upload` writes a staging file with up to `WINDOW` unacknowledged requests, and
`finish` collects every write status, closes the file and compares the size that
the server reports with the number of bytes sent.
-/

namespace DataBridge

open Effect Routine

/-- The fields of `_Upload` that change. -/
structure UploadState where
  requests : Requests := {}
  handle : Option Bytes
  unacknowledged : List Nat := []
  finished : Bool := false
  size : Nat := 0

/-- A method of `_Upload`. -/
abbrev UploadRoutine (α : Type) : Type 1 := Routine Wire Exc UploadState α

/-- The fields of `_Upload` that stay. -/
structure Upload where
  root : Text
  stage : Text
  mode : Option Nat

namespace Upload

/-- A call of `self._requests`. -/
def onRequests {α : Type} (x : RequestsRoutine α) : UploadRoutine α :=
  .zoom (·.requests) (fun requests s => { s with requests }) x

/-- `_open`. -/
def openHandle : UploadRoutine Bytes := do
  let s ← .fields
  match s.handle with
  | none => .raise .runtimeError
  | some handle => pure handle

/-- Receive the status of the oldest write. -/
def acknowledge : UploadRoutine Unit := do
  let s ← .fields
  match s.unacknowledged with
  | [] => .raise (.other 0)  -- pop from an empty deque
  | number :: unacknowledged => do
    .modify fun s => { s with unacknowledged }
    let _ ← onRequests (Requests.receive number)
    pure ()

def makeRoom : UploadRoutine Unit := do
  let s ← .fields
  if requestWindow ≤ s.unacknowledged.length then acknowledge else pure ()

/-- One pass of the loop of `write`, from `start`. -/
def writeChunk (data : Bytes) (start : Nat) : UploadRoutine (Nat ⊕ Unit) :=
  if start < data.length then do
    makeRoom
    let chunk := (data.drop start).take requestSize
    let handle ← openHandle
    let s ← .fields
    let number ← onRequests (Requests.send (.write handle s.size chunk))
    .modify fun s => { s with
      unacknowledged := s.unacknowledged ++ [number], size := s.size + chunk.length }
    pure (.inl (start + requestSize))
  else pure (.inr ())

variable (u : Upload)

/-- `_failures` around `write`. -/
def writeFailures : Failures where
  action := lit "write the staging file"
  denied := some (notWritable u.root)

/-- `_Upload.write`. -/
def write (data : Bytes) : UploadRoutine Unit :=
  withFailures u.writeFailures (.iterate (writeChunk data) 0)

/-- Receive the status of every write. -/
def acknowledgeAll : UploadRoutine Unit :=
  .iterate (fun _ => do
    let s ← .fields
    if s.unacknowledged = [] then pure (.inr ())
    else do
      acknowledge
      pure (.inl ())) ()

/-- Sync the file where the server can. -/
def sync : UploadRoutine Unit := do
  let handle ← openHandle
  .catching (do
    let _ ← onRequests (Requests.call (.fsync handle))
    pure ()) fun e => if e = .status sftpOpUnsupported then pure () else .raise e

/-- The first block of `finish`; the result is the size the server reports. -/
def settle : UploadRoutine (Option Nat) := do
  acknowledgeAll
  sync
  let handle ← openHandle
  .modify fun s => { s with handle := none }
  let _ ← onRequests (Requests.call (.close handle))
  let attributes ← onRequests (Requests.attributes (.stat u.stage))
  pure attributes.size

/-- Give the stage the mode of the file it replaces. -/
def copyMode : UploadRoutine Unit :=
  match u.mode with
  | none => pure ()
  | some mode =>
    withFailures { action := lit "copy the replaced file's permissions to the staging file" } do
      let _ ← onRequests (Requests.call (.setstat u.stage mode))
      pure ()

/-- `_failures` around the first block of `finish`. -/
def finishFailures : Failures where
  action := lit "finish the staging file"
  denied := some (notWritable u.root)

def unverified : Exc :=
  .ofCode .sftpOperationFailed (lit "The SFTP server did not report the staging file's size, so the upload cannot be verified; nothing was published")

def storedOther (stored size : Nat) : Exc :=
  .ofCode .sftpOperationFailed (lit "The SFTP server stored " ++ decimal stored ++ lit " of " ++
    decimal size ++ lit " bytes of the staging file; nothing was published")

/-- `_Upload.finish`. -/
def finish : UploadRoutine Unit := do
  let s ← .fields
  if s.finished then pure ()
  else do
    let stored ← withFailures u.finishFailures (settle u)
    let s ← .fields
    match stored with
    | none => .raise unverified
    | some stored =>
      if stored ≠ s.size then .raise (storedOther stored s.size)
      else do
        copyMode u
        .modify fun s => { s with finished := true }

/-- `release`. -/
def release : UploadRoutine Unit := do
  .modify fun s => { s with
    requests := s.unacknowledged.foldl (fun requests number => requests.ignore number) s.requests
    unacknowledged := [] }
  let s ← .fields
  match s.handle with
  | none => pure ()
  | some handle => do
    .modify fun s => { s with handle := none }
    onRequests (Requests.closeQuietly handle)

def perform : SinkCall → UploadRoutine Unit
  | .write data => write u data
  | .finish => finish u

/-- A caller that writes the strings in order and finishes. -/
def transmit (datas : List Bytes) : UploadRoutine Unit := do
  .forEach (write u) datas
  finish u

end Upload

end DataBridge
