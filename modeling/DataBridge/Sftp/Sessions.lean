import DataBridge.Sftp.Listing

/-!
# The SFTP connector: sessions, reads and the access check

`_session` with what its teardown may raise, `SFTPConnector.read` with the block
under it, and `SFTPConnector.check_access`. Beside each operation stands its main
path: the same steps without the cleanup that follows an error.
-/

namespace DataBridge

open Effect Routine

/-- What `sftp.close()` and `client.close()` raise. -/
structure Teardown where
  sftp : Except Exc Unit := .ok ()
  client : Except Exc Unit := .ok ()

/-- `with suppress(*_LOST)`. -/
def suppressLost {σ : Type} (x : Routine Wire Exc σ Unit) : Routine Wire Exc σ Unit :=
  .catching x fun e => if Requests.lost e then pure () else .raise e

/-- The end of `_session`. -/
def closeSession {σ : Type} (t : Teardown) : Routine Wire Exc σ Unit :=
  .ensuring (suppressLost (.ofExcept t.sftp)) (suppressLost (.ofExcept t.client))

/-- `with self._session()`, once the session is open. -/
def inSession {σ α : Type} (t : Teardown) (x : Routine Wire Exc σ α) : Routine Wire Exc σ α :=
  .ensuring x (closeSession t)

/-- The block under `yield` of `read`: the sizes it asks for and the exception it
raises itself, if any. An exception of a call ends it, and where the sizes depend
on the data, they are those of the run. -/
structure SourceBody where
  sizes : List Nat
  failure : Option Exc := none

/-- `_readable_size`. -/
def readableSize (attributes : Attributes) (filename : Text) : Except Exc Nat :=
  if attributes.mode.any fun mode => !isRegular mode then
    .error (.ofCode .fileNotFound (lit "'" ++ filename ++ lit "' is not a regular file"))
  else match attributes.size with
  | none => .error (.ofCode .sftpOperationFailed (lit "The SFTP server did not report the size of '" ++
      filename ++ lit "', so it cannot be read"))
  | some size => .ok size

def Download.runBody (d : Download) (body : SourceBody) : DownloadRoutine Unit := do
  .forEach (fun size => do
    let _ ← d.read size
    pure ()) body.sizes
  match body.failure with
  | none => pure ()
  | some e => .raise e

namespace SFTPConnector

variable (c : SFTPConnector)

/-! ## Reading -/

/-- `_missing`. -/
def missing (filename : Text) : RequestsRoutine DataBridgeError :=
  .catching (do
    let _ ← Requests.attributes (.stat c.root)
    pure {
      code := .fileNotFound
      message := lit "No file named '" ++ filename ++ lit "' at the SFTP root '" ++ c.root ++ lit "'" })
    fun e => match e with
      | .status _ => pure (rootUnavailable c.root)
      | e => .raise e

/-- The STAT of `_check_regular`. -/
def statSource (path filename : Text) : RequestsRoutine Attributes :=
  .catching (Requests.attributes (.stat path)) fun e =>
    if e = .status sftpNoSuchFile then do
      let error ← c.missing filename
      .raise (.dataBridge error)
    else .raise e

/-- `_check_regular`. -/
def checkRegular (path filename : Text) : RequestsRoutine Unit := do
  let attributes ← c.statSource path filename
  if attributes.mode.any fun mode => !isRegular mode then
    .raise (.ofCode .fileNotFound (lit "'" ++ filename ++ lit "' is not a regular file"))
  else pure ()

/-- The size of an opened file. -/
def openedSize (handle : Bytes) (filename : Text) : RequestsRoutine Nat := do
  let payload ← Requests.call (.fstat handle) .attrs
  let attributes ← .ofExcept (Reader.parse Reader.attributes payload)
  .ofExcept (readableSize attributes filename)

/-- Check and open the file; it is closed again when its size cannot be told. -/
def openSource (path filename : Text) : RequestsRoutine (Bytes × Nat) := do
  c.checkRegular path filename
  let handle ← Requests.openHandle (.openRead path)
  let size ← .catching (openedSize handle filename) fun e => do
    Requests.closeQuietly handle
    .raise e
  pure (handle, size)

/-- `_failures` around the opening of a file. -/
def sourceFailures (filename : Text) : Failures where
  action := lit "open '" ++ filename ++ lit "'"
  missing := some {
    code := .fileNotFound
    message := lit "'" ++ filename ++ lit "' was removed while it was opened" }
  denied := some {
    code := .fileNotReadable
    message := lit "The SFTP user may not read '" ++ filename ++ lit "'" }

/-- The download that `read` yields. -/
def download (filename : Text) (limit : Option Nat) (opened : Bytes × Nat) : Download where
  handle := opened.1
  size := limit.elim opened.2 (min opened.2)
  name := filename

/-- `SFTPConnector.read`. -/
def read (t : Teardown) (filename : Text) (limit : Option Nat) (body : SourceBody) :
    DownloadRoutine Unit := do
  let path ← .ofExcept (c.path filename)
  inSession t do
    let opened ← withFailures (sourceFailures filename)
      (Download.onRequests (c.openSource path filename))
    .ensuring ((download filename limit opened).runBody body) (download filename limit opened).release

/-- Open the probe; nothing when the user may not. -/
def openProbe (probe : Text) : RequestsRoutine (Option Bytes) :=
  .catching (do
    let handle ← Requests.openHandle (.openNew probe)
    pure (some handle)) fun e => if e = .status sftpPermissionDenied then pure none else .raise e

def testFailures : Failures where
  action := lit "test write access to '" ++ c.root ++ lit "'"
  missing := some (rootUnavailable c.root)

def removeFailures (name : Text) : Failures where
  action := lit "remove the write-access probe '" ++ name ++ lit "' from '" ++ c.root ++ lit "'"
  missing := some (rootUnavailable c.root)

/-- Close and remove the probe. -/
def removeProbe (name probe : Text) : Option Bytes → RequestsRoutine Bool
  | none => pure false
  | some handle => do
    Requests.closeQuietly handle
    withFailures (c.removeFailures name) do
      let _ ← Requests.call (.remove probe)
      pure ()
    pure true

/-- The `try` of `check_access`; the result tells whether the probe was removed. -/
def tryProbe (name probe : Text) : RequestsRoutine Bool := do
  let handle ← withFailures c.testFailures (openProbe probe)
  c.removeProbe name probe handle

/-- The root can be listed. -/
def checkRoot : RequestsRoutine Unit :=
  withFailures c.rootFailures do
    let handle ← Requests.openHandle (.openDirectory c.root)
    Requests.closeQuietly handle

/-- `return` inside the `try`, with its `finally`. -/
def finishProbe (probe : Text) : Bool → RequestsRoutine Bool
  | true => pure true
  | false => do
    Requests.removeQuietly probe
    pure false

/-- `SFTPConnector.check_access`; the result is `writable`. -/
def checkAccess (t : Teardown) (probeId : Uuid) : RequestsRoutine Bool :=
  inSession t do
    c.checkRoot
    let removed ← .catching (c.tryProbe (probeName probeId) (posixJoin c.root (probeName probeId)))
      fun e => do
        Requests.removeQuietly (posixJoin c.root (probeName probeId))
        .raise e
    finishProbe (posixJoin c.root (probeName probeId)) removed

/-- `write` with the end of its session. -/
def writeSession (t : Teardown) (filename : Text) (stagingId : Uuid) (overwrite : Bool)
    (body : SinkBody) : UploadRoutine Unit := do
  let destination ← .ofExcept (c.path filename)
  inSession t (c.stageAndPublish destination (posixJoin c.root (stageName stagingId)) filename
    overwrite body)

end SFTPConnector

end DataBridge
