import DataBridge.Connectors.Base
import DataBridge.Effect.Routine

/-!
# The transfer service

`_Transfer.run`: look up both connections, copy the source into a staging file
chunk by chunk, record that publishing starts, publish, and complete the record;
any failure before publication is recorded with its phase. `T` is the type of
the readings of the clock.
-/

namespace DataBridge

open Effect Routine

/-- What a transfer asks of its ledger, its clock and its two connectors. -/
inductive TransferEffect (T : Type) : Type → Type
  | startTransfer (id : Text) (request : TransferRequest) : TransferEffect T (Except Exc Unit)
  | get (name : Text) : TransferEffect T (Except Exc Connection)
  | recordProgress (id : Text) (bytesCopied : Nat) : TransferEffect T (Except Exc Unit)
  | markPublishing (id : Text) (bytesCopied : Nat) : TransferEffect T (Except Exc Unit)
  | finishTransfer (id : Text) : TransferEffect T (Except Exc TransferRecord)
  | failTransfer (id : Text) (bytesCopied : Nat) (phase : FailurePhase) (code : ErrorCode)
      (message : Text) : TransferEffect T (Except Exc Unit)
  | clock : TransferEffect T T
  /-- `connector_factory`. -/
  | connector (connection : Connection) : TransferEffect T (Except Exc Unit)
  /-- `source.read(filename)`, entered. -/
  | openSource (filename : Text) : TransferEffect T (Except Exc Unit)
  | read (size : Nat) : TransferEffect T (Except Exc Bytes)
  | closeSource (failure : Option Exc) : TransferEffect T (Except Exc Unit)
  /-- `destination.write(filename, staging_id, overwrite)`, entered. -/
  | openSink (filename stagingId : Text) (overwrite : Bool) : TransferEffect T (Except Exc Unit)
  | write (data : Bytes) : TransferEffect T (Except Exc Unit)
  | finish : TransferEffect T (Except Exc Unit)
  | closeSink (failure : Option Exc) : TransferEffect T (Except Exc Unit)

/-- The fields of `_Transfer` that change, and the local flag of `run`. -/
structure TransferState (T : Type) where
  phase : FailurePhase := .sourceLookup
  copied : Nat := 0
  checkpoint : T
  published : Bool := false

/-- A method of `_Transfer`. -/
abbrev TransferRoutine (T α : Type) : Type 1 :=
  Routine (TransferEffect T) Exc (TransferState T) α

/-! ## What a failure is recorded as -/

/-- `_SOURCE_PHASES`. -/
def sourcePhases : List FailurePhase := [.sourceLookup, .sourceOpen, .sourceRead]

/-- `_UNATTRIBUTED`. -/
def unattributed : List ErrorCode :=
  [.transferInternalError, .transferRecordFailed, .transferStateConflict]

/-- `_CONTRACT_VIOLATIONS`, with its default. -/
def contractViolation : FailurePhase → ErrorCode × Text
  | .sourceRead => (.sourceReadFailed, lit "Cannot read the source file")
  | .destinationWrite => (.destinationWriteFailed, lit "Cannot write the destination file")
  | _ => (.transferInternalError, lit "The transfer could not finish")

/-- `_attributed`: name the side and the connection behind a failure. -/
def attributed (request : TransferRequest) (phase : FailurePhase) (code : ErrorCode)
    (message : Text) : Text :=
  let fromSource := phase ∈ sourcePhases
  let name := if fromSource then request.source else request.destination
  if code = .connectionNotFound then
    lit "The " ++ lit (if fromSource then "source" else "destination") ++ lit " connection '" ++
      name ++ lit "' does not exist"
  else
    lit (if fromSource then "Source" else "Destination") ++ lit " connection '" ++ name ++
      lit "': " ++ message

/-- The code and the message that `_fail` records for an exception. -/
def failure (request : TransferRequest) (phase : FailurePhase) (e : Exc) : ErrorCode × Text :=
  let (code, message) := match e with
    | .dataBridge error => (error.code, error.message)
    | _ => contractViolation phase
  (code, if code ∈ unattributed then message else attributed request phase code message)

/-- The message of a transfer that was published and not completed. -/
def unrecordedMessage (request : TransferRequest) (message : Text) : Text :=
  lit "'" ++ request.destinationFile ++ lit "' was published, but its transfer record could not be completed and stays 'publishing': " ++ message

namespace Transfer

section Methods

variable {T : Type} [OfNat T 1] [Sub T] [LT T] [DecidableLT T] (id : Text)
  (request : TransferRequest)

def setPhase (phase : FailurePhase) : TransferRoutine T Unit :=
  .modify fun s => { s with phase }

/-- `_connector`. -/
def connector (name : Text) : TransferRoutine T Unit := do
  let connection ← .invoke (.get name)
  .invoke (.connector connection)

/-- `_checkpoint`: progress is informational, so a refusal is only logged. -/
def checkpoint : TransferRoutine T Unit := do
  let now ← .ask .clock
  let s ← .fields
  if now - s.checkpoint < 1 then pure ()
  else do
    .modify fun s => { s with checkpoint := now }
    .catching (.invoke (.recordProgress id s.copied)) fun
      | .dataBridge _ => pure ()
      | e => .raise e

/-- One pass of `_copy`; `.inr` is its return. -/
def copyChunk : TransferRoutine T (Unit ⊕ Unit) := do
  setPhase .sourceRead
  let chunk ← .invoke (.read chunkSize)
  if chunk = [] then pure (.inr ())
  else do
    setPhase .destinationWrite
    .invoke (.write chunk)
    .modify fun s => { s with copied := s.copied + chunk.length }
    checkpoint id
    pure (.inl ())

/-- `_copy`. -/
def copy : TransferRoutine T Unit := .iterate (fun _ => copyChunk id) ()

/-- The body of the destination's context. -/
def fill : TransferRoutine T Unit := do
  copy id
  setPhase .destinationWrite
  .invoke .finish
  setPhase .publication
  let s ← .fields
  .invoke (.markPublishing id s.copied)

/-- The body of the source's context. -/
def copyAndPublish : TransferRoutine T Unit := do
  setPhase .destinationOpen
  within (.invoke (.openSink request.destinationFile id request.overwrite))
    (fun failure => .invoke (.closeSink failure)) (fill id)
  .modify fun s => { s with published := true }

/-- The `try` body of `run`. -/
def attempt : TransferRoutine T Unit := do
  connector request.source
  setPhase .destinationLookup
  connector request.destination
  setPhase .sourceOpen
  within (.invoke (.openSource request.sourceFile)) (fun failure => .invoke (.closeSource failure))
    (copyAndPublish id request)

/-- `_finish`. -/
def finish : TransferRoutine T TransferRecord :=
  .catching (.invoke (.finishTransfer id)) fun
    | .dataBridge e => .raise (.dataBridge {
        code := .transferRecordFailed
        message := unrecordedMessage request e.message
        transferId := id })
    | e => .raise e

/-- `_fail`. -/
def fail (e : Exc) : TransferRoutine T Unit := do
  let s ← .fields
  let (code, message) := failure request s.phase e
  .catching (.invoke (.failTransfer id s.copied s.phase code message)) fun
    | .dataBridge _ => pure ()
    | e => .raise e
  .raise (.dataBridge { code, message, transferId := id })

/-- `_Transfer.run`. -/
def run : TransferRoutine T TransferRecord := do
  .catching (.invoke (.startTransfer id request)) fun
    | .dataBridge e => .raise (.dataBridge { code := e.code, message := e.message })
    | e => .raise e
  let now ← .ask .clock
  .modify fun s => { s with checkpoint := now }
  .catching (attempt id request) fun e => do
    let s ← .fields
    if s.published then pure () else fail id request e
  finish id request

end Methods

end Transfer

/-- The checks of `TransferService.run` before a transfer starts. -/
def precheck (request : TransferRequest) : Except Exc Unit := do
  let _ ← validateFilename request.sourceFile
  let _ ← validateFilename request.destinationFile
  if request.source = request.destination ∧ request.sourceFile = request.destinationFile then
    .error (.ofCode .sameFile (lit "Source and destination identify the same file"))

end DataBridge
