import DataBridge.Effect.Routine
import DataBridge.Sftp.Reader

/-!
# The translation of SFTP failures

`_failures` turns what leaves a block of SFTP requests into a typed error. Each
use of it names its action and the errors for some of the causes.
-/

namespace DataBridge

open Effect Routine

/-- `SFTP_DESC`. -/
def sftpDescriptions : List String :=
  ["Success", "End of file", "No such file", "Permission denied", "Failure", "Bad message",
    "No connection", "Connection lost", "Operation unsupported"]

/-- `_describe`. -/
def describe (code : Nat) : Text :=
  match sftpDescriptions[code]? with
  | some text => lit text
  | none => lit "status " ++ decimal code

/-- `_unavailable`. -/
def unavailable (action : Text) : DataBridgeError where
  code := .sftpUnavailable
  message := lit "The SFTP connection was lost while trying to " ++ action

/-- `_root_unavailable`. -/
def rootUnavailable (root : Text) : DataBridgeError where
  code := .connectionRootUnavailable
  message := lit "The SFTP root '" ++ root ++ lit "' does not exist or is not a directory"

/-- `_not_writable`. -/
def notWritable (root : Text) : DataBridgeError where
  code := .destinationNotWritable
  message := lit "The SFTP user may not create or replace files in '" ++ root ++ lit "'"

/-- The arguments of `_failures`; `action` completes "while trying to ...". -/
structure Failures where
  action : Text
  missing : Option DataBridgeError := none
  denied : Option DataBridgeError := none
  unsupported : Option DataBridgeError := none
  lost : Option DataBridgeError := none

namespace Failures

/-- The error named for a status code, if any. -/
def classified (f : Failures) (code : Nat) : Option DataBridgeError :=
  if code = sftpNoSuchFile then f.missing
  else if code = sftpPermissionDenied then f.denied
  else if code = sftpOpUnsupported then f.unsupported
  else none

/-- The exception that leaves the block. -/
def translate (f : Failures) : Exc → Exc
  | .status code =>
    match f.classified code with
    | some error => .dataBridge error
    | none =>
      if code = sftpNoConnection ∨ code = sftpConnectionLost then .dataBridge (f.lost.getD (unavailable f.action))
      else .ofCode .sftpOperationFailed
        (lit "The SFTP server refused to " ++ f.action ++ lit " (" ++ describe code ++ lit ")")
  | .unicodeEncode =>
    .ofCode .invalidConnectionSettings (lit "The SFTP root must be valid UTF-8 text")
  | .sftpError =>
    .ofCode .sftpOperationFailed
      (lit "The SFTP server sent an invalid reply while trying to " ++ f.action)
  | .timeout =>
    .dataBridge (f.lost.getD {
      code := .sftpUnavailable
      message :=
        lit "The SFTP server did not respond within the time allowed while trying to " ++
          f.action })
  | .osError _ | .transport => .dataBridge (f.lost.getD (unavailable f.action))
  | e => e

end Failures

/-- `with _failures(...)`. -/
def withFailures {E : Type → Type} {σ α : Type} (f : Failures) (body : Routine E Exc σ α) :
    Routine E Exc σ α :=
  .catching body fun e => .raise (f.translate e)

/-- A block under `_failures`: its exceptions are translated. -/
theorem withFailures_wp {E : Type → Type} {W σ α : Type} {L : Setting E W} {f : Failures}
    {body : Routine E Exc σ α} {Q : Except Exc α → σ → W → Prop} {s : σ} {w : W}
    (h : body.Wp L (fun r s w => L.Settled (Q (r.mapError f.translate) s) w) s w) :
    (withFailures f body).Wp L Q s w :=
  .catching h (fun _ _ _ h => h) fun _ _ _ h => .raise h

end DataBridge
