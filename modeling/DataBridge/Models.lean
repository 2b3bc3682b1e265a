import DataBridge.Errors

/-!
# Connections, transfer requests and records

The models that the store, the transfer service and the API share.
-/

namespace DataBridge

/-- `LocalConnection`. -/
structure LocalConnection where
  name : Text
  path : Text
  deriving DecidableEq, Repr

/-- `SFTPConnection`. -/
structure SFTPConnection where
  name : Text
  host : Text
  port : Nat
  username : Text
  password : Text
  root : Text
  deriving DecidableEq, Repr

inductive Connection
  | local (connection : LocalConnection)
  | sftp (connection : SFTPConnection)
  deriving DecidableEq, Repr

/-- A point in time, in microseconds. -/
abbrev Instant := Nat

inductive TransferStatus
  | running | publishing | completed | failed
  deriving DecidableEq, Repr

inductive FailurePhase
  | sourceLookup | destinationLookup | sourceOpen | destinationOpen | sourceRead
  | destinationWrite | publication | interruption
  deriving DecidableEq, Repr

structure TransferRequest where
  source : Text
  sourceFile : Text
  destination : Text
  destinationFile : Text
  overwrite : Bool := false
  deriving DecidableEq, Repr

/-- `TransferRecord`, also the columns of a `transfers` row. The CHECK
constraints on `overwrite`, `status` and `bytes_copied` are the field types. -/
structure TransferRecord where
  id : Text
  source : Text
  sourceFile : Text
  destination : Text
  destinationFile : Text
  overwrite : Bool
  status : TransferStatus
  startedAt : Instant
  updatedAt : Instant
  completedAt : Option Instant
  failedAt : Option Instant
  bytesCopied : Nat
  failurePhase : Option FailurePhase
  errorCode : Option ErrorCode
  error : Option Text
  deriving DecidableEq, Repr

namespace TransferRecord

/-- The columns an INSERT fills once and no UPDATE assigns. -/
def identity (r : TransferRecord) : Text × Text × Text × Text × Text × Bool × Instant :=
  (r.id, r.source, r.sourceFile, r.destination, r.destinationFile, r.overwrite, r.startedAt)

/-- No further state change is allowed. -/
def Terminal (r : TransferRecord) : Prop := r.status = .completed ∨ r.status = .failed

instance (r : TransferRecord) : Decidable r.Terminal :=
  inferInstanceAs (Decidable (_ ∨ _))

/-- The nullable columns that belong to the status are set, all others null. -/
def Consistent (r : TransferRecord) : Prop :=
  match r.status with
  | .running | .publishing =>
    r.completedAt = none ∧ r.failedAt = none ∧ r.failurePhase = none ∧ r.errorCode = none ∧
      r.error = none
  | .completed =>
    r.completedAt.isSome ∧ r.failedAt = none ∧ r.failurePhase = none ∧ r.errorCode = none ∧
      r.error = none
  | .failed =>
    r.completedAt = none ∧ r.failedAt.isSome ∧ r.failurePhase.isSome ∧ r.errorCode.isSome ∧
      r.error.isSome

end TransferRecord

end DataBridge
