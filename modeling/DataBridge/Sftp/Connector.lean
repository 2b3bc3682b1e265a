import DataBridge.Connectors.Base
import DataBridge.Sftp.Upload

/-!
# The SFTP connector: one write session

`SFTPConnector.write` inspects the destination, creates a staging file, hands it
to the caller's body, finishes it and publishes it with one rename. What the
session raises while it connects is a parameter, and so is the body: the calls
it makes on the sink, and the exception it may end with.
-/

namespace DataBridge

open Effect Routine

/-- `posixpath.join`. -/
def posixJoin (path name : Text) : Text :=
  if name.head? = some (.ofChar '/') then name
  else if path = [] ∨ path.getLast? = some (.ofChar '/') then path ++ name
  else path ++ lit "/" ++ name

/-- The fields of `SFTPConnector` that a session uses. -/
structure SFTPConnector where
  root : Text

/-- The block under `yield`: its calls, then the exception it raises, if any. An
exception of a call ends the body. -/
structure SinkBody where
  calls : List SinkCall
  failure : Option Exc := none

namespace Upload

variable (u : Upload)

def runBody (body : SinkBody) : UploadRoutine Unit := do
  .forEach (perform u) body.calls
  match body.failure with
  | none => pure ()
  | some e => .raise e

end Upload

namespace SFTPConnector

variable (c : SFTPConnector)

/-- `_path`. -/
def path (filename : Text) : Except Exc Text := do
  let _ ← validateFilename filename
  return posixJoin c.root filename

/-- The attributes behind a path, if there are any. -/
def lookup (path : Text) : UploadRoutine (Option Attributes) :=
  .catching (do
    let attributes ← Upload.onRequests (Requests.attributes (.stat path))
    pure (some attributes)) fun e =>
      if e = .status sftpNoSuchFile then pure none else .raise e

def notRegular (filename : Text) : Exc :=
  .ofCode .destinationExists (lit "'" ++ filename ++ lit "' exists and is not a regular file")

/-- `_replaceable_mode`. -/
def replaceableMode (destination filename : Text) (overwrite : Bool) :
    UploadRoutine (Option Nat) := do
  match ← lookup destination with
  | none => pure none
  | some attributes =>
    if overwrite = false then .raise (destinationExists filename)
    else match attributes.mode with
      | none => pure none
      | some mode =>
        if isRegular mode then pure (some (permissionBits mode)) else .raise (notRegular filename)

/-- `_failures` around an inspection. -/
def inspectFailures (filename : Text) (denied : Option DataBridgeError) : Failures where
  action := lit "inspect '" ++ filename ++ lit "'"
  denied := denied

/-- Refuse an existing destination. -/
def refuseExisting (destination filename : Text) (denied : Option DataBridgeError) :
    UploadRoutine Unit :=
  withFailures (inspectFailures filename denied) do
    match ← lookup destination with
    | none => pure ()
    | some _ => .raise (destinationExists filename)

/-- The error for a publication whose outcome is not known. -/
def publishLost (filename : Text) : DataBridgeError where
  code := .sftpUnavailable
  message := lit "The SFTP connection was lost while publishing '" ++ filename ++
    lit "'; the destination may already contain the new file"

def publishUnsupported (filename : Text) : DataBridgeError where
  code := .publishUnsupported
  message :=
    lit "The SFTP server cannot replace files atomically (it lacks the posix-rename@openssh.com extension), so '" ++
      filename ++ lit "' was left unchanged; choose another destination file name"

def publishFailures (filename : Text) : Failures where
  action := lit "publish '" ++ filename ++ lit "'"
  denied := some (notWritable c.root)
  unsupported := some (publishUnsupported filename)
  lost := some (publishLost filename)

/-- The request that publishes. -/
def publishRequest (stage destination : Text) (overwrite : Bool) : Request :=
  if overwrite then .posixRename stage destination else .rename stage destination

/-- An error of the rename, inspected once more when the server answered it. -/
def reinspect (destination filename : Text) (overwrite : Bool) : Exc → UploadRoutine Unit
  | .dataBridge error => do
    if overwrite = false ∧ error.code = .sftpOperationFailed then
      refuseExisting destination filename none
    else pure ()
    .raise (.dataBridge error)
  | e => .raise e

/-- The check before a rename that must not replace a file. -/
def checkAbsent (destination filename : Text) (overwrite : Bool) : UploadRoutine Unit :=
  if overwrite then pure ()
  else refuseExisting destination filename (some (notWritable c.root))

/-- `_publish`. -/
def publish (stage destination filename : Text) (overwrite : Bool) : UploadRoutine Unit := do
  c.checkAbsent destination filename overwrite
  .catching (withFailures (c.publishFailures filename) do
    let _ ← Upload.onRequests (Requests.call (publishRequest stage destination overwrite))
    pure ()) (reinspect destination filename overwrite)

def openFailures : Failures where
  action := lit "create the staging file"
  missing := some (rootUnavailable c.root)
  denied := some (notWritable c.root)

/-- Create the staging file. -/
def openStage (stage : Text) : UploadRoutine Bytes :=
  withFailures c.openFailures (Upload.onRequests (Requests.openHandle (.openNew stage)))

/-- `finally` without an upload: the staging file is removed. -/
def discardStage (stage : Text) : UploadRoutine Unit :=
  Upload.onRequests (Requests.removeQuietly stage)

/-- `finally` with an upload. -/
def discardUpload (stage : Text) : UploadRoutine Unit := do
  Upload.release
  discardStage stage

/-- The body, `finish` and the publication of an upload. -/
def fillStage (u : Upload) (destination filename : Text) (overwrite : Bool) (body : SinkBody) :
    UploadRoutine Unit := do
  u.runBody body
  u.finish
  c.publish u.stage destination filename overwrite

/-- The session, from the inspection of the destination on. -/
def stageAndPublish (destination stage filename : Text) (overwrite : Bool) (body : SinkBody) :
    UploadRoutine Unit := do
  let mode ← withFailures (inspectFailures filename (some (notWritable c.root)))
    (replaceableMode destination filename overwrite)
  let handle ← .catching (c.openStage stage) fun e => do
    discardStage stage
    .raise e
  .modify fun s => { s with handle := some handle }
  .catching (c.fillStage { root := c.root, stage, mode } destination filename overwrite body)
    fun e => do
      discardUpload stage
      .raise e

/-- `SFTPConnector.write`. -/
def write (connected : Except Exc Unit) (filename : Text) (stagingId : Uuid) (overwrite : Bool)
    (body : SinkBody) : UploadRoutine Unit := do
  let destination ← .ofExcept (c.path filename)
  .ofExcept connected
  c.stageAndPublish destination (posixJoin c.root (stageName stagingId)) filename overwrite body

end SFTPConnector

end DataBridge
