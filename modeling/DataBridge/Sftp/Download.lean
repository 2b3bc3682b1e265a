import DataBridge.Connectors.Base
import DataBridge.Sftp.Failures
import DataBridge.Sftp.Requests

/-!
# The pipelined download

`_Download` reads the first `size` bytes of a remote file with up to `window`
READ requests in flight (the source has `WINDOW` = 64). The requested ranges
cover the file without gaps from the delivered position to the next request, and
the rest of a short reply is requested again in front of them; `Window` is that
invariant. `Download.read_wp` is the specification of one call from it.
-/

namespace DataBridge

open Effect Routine

/-- `REQUEST_SIZE`. -/
def requestSize : Nat := 32768

/-- `WINDOW`. -/
def requestWindow : Nat := 64

/-- The fields of `_Download` that change; a pending request is its number,
offset and length. -/
structure DownloadState where
  requests : Requests := {}
  nextOffset : Nat := 0
  pending : List (Nat × Nat × Nat) := []
  leftover : Bytes := []

/-- A method of `_Download`. -/
abbrev DownloadRoutine (α : Type) : Type 1 := Routine Wire Exc DownloadState α

/-- The fields of `_Download` that stay, and the window. -/
structure Download where
  handle : Bytes
  size : Nat
  name : Text
  window : Nat := requestWindow

namespace Download

/-- A call of `self._requests`. -/
def onRequests {α : Type} (x : RequestsRoutine α) : DownloadRoutine α :=
  .zoom (·.requests) (fun requests s => { s with requests }) x

variable (d : Download)

/-- `_request`. -/
def request (offset length : Nat) : DownloadRoutine (Nat × Nat × Nat) := do
  let number ← onRequests (Requests.send (.read d.handle offset length))
  pure (number, offset, length)

/-- One pass of the loop that keeps the window full. -/
def requestNext : DownloadRoutine (Unit ⊕ Unit) := do
  let s ← .fields
  if s.pending.length < d.window ∧ s.nextOffset < d.size then do
    let length := min requestSize (d.size - s.nextOffset)
    let pending ← request d s.nextOffset length
    .modify fun s =>
      { s with pending := s.pending ++ [pending], nextOffset := s.nextOffset + length }
    pure (.inl ())
  else pure (.inr ())

/-- The data of the reply to one request, or `b""` at the end of the file. -/
def receiveData (number : Nat) : DownloadRoutine Bytes :=
  .catching (do
    let payload ← onRequests (Requests.receive number .data)
    .ofExcept (Reader.parse Reader.string payload)) fun e =>
    if e = .status sftpEof then pure [] else .raise e

/-- `_next_reply`. -/
def nextReply : DownloadRoutine Bytes := do
  .iterate (fun _ => requestNext d) ()
  let s ← .fields
  match s.pending with
  | [] => .raise (.other 0)  -- pop from an empty deque
  | (number, offset, length) :: pending => do
    .modify fun s => { s with pending }
    let data ← receiveData number
    if data = [] then .raise (sourceChanged d.name)
    else if length < data.length then .raise (.status sftpBadMessage)
    else if data.length < length then do
      let rest ← request d (offset + data.length) (length - data.length)
      .modify fun s => { s with pending := rest :: s.pending }
      pure data
    else pure data

/-- Have some bytes left over. -/
def refill : DownloadRoutine Unit := do
  let s ← .fields
  if s.leftover = [] then do
    let data ← nextReply d
    .modify fun s => { s with leftover := data }
  else pure ()

/-- One pass of the loop of `read`, with the bytes collected so far. -/
def readMore (size : Nat) (buffer : Bytes) : DownloadRoutine (Bytes ⊕ Bytes) := do
  let s ← .fields
  if buffer.length < size ∧ (s.leftover ≠ [] ∨ s.pending ≠ [] ∨ s.nextOffset < d.size) then do
    refill d
    let s ← .fields
    .modify fun s => { s with leftover := s.leftover.drop (size - buffer.length) }
    pure (.inl (buffer ++ s.leftover.take (size - buffer.length)))
  else pure (.inr buffer)

/-- `_failures` around `read`. -/
def readFailures : Failures where
  action := lit "read '" ++ d.name ++ lit "'"
  denied := some {
    code := .fileNotReadable
    message := lit "The SFTP user may not read '" ++ d.name ++ lit "'" }

/-- `_Download.read`. -/
def read (size : Nat) : DownloadRoutine Bytes :=
  withFailures d.readFailures (.iterate (readMore d size) [])

/-- `release`. -/
def release : DownloadRoutine Unit := do
  .modify fun s => { s with
    requests := s.pending.foldl (fun requests p => requests.ignore p.1) s.requests
    pending := [] }
  onRequests (Requests.closeQuietly d.handle)

/-- A caller that makes one call after the other, also after one that raised. -/
def calls : List Nat → DownloadRoutine (List (Except Exc Bytes))
  | [] => pure []
  | size :: sizes => do
    let outcome ← .catching (do
      let data ← read d size
      pure (.ok data)) fun e => pure (.error e)
    let outcomes ← calls sizes
    pure (outcome :: outcomes)

/-- A caller that reads until the end, with the bytes it has so far. -/
def drain (size : Nat) : DownloadRoutine Bytes :=
  .iterate (fun (all : Bytes) => do
    let data ← read d size
    if data = [] then pure (.inr all) else pure (.inl (all ++ data))) []

end Download

/-! ## The server -/

/-- The replies to a READ of a file with `content`: some of the bytes at the
offset, or the end of the file. -/
inductive ReadReply (content : Bytes) (offset length : Nat) : Reply → Prop
  | data {bytes : Bytes} : bytes ≠ [] → bytes.length ≤ length → bytes <+: content.drop offset →
    ReadReply content offset length ⟨.data, stringField bytes⟩
  | eof {payload : Bytes} : content.length ≤ offset → IsStatus sftpEof payload →
    ReadReply content offset length ⟨.status, payload⟩

/-- A server that answers every READ. -/
def readServer (content : Bytes) : Unit → Request → Reply → Unit → Prop
  | _, .read _ offset length, reply, _ => ReadReply content offset length reply
  | _, _, _, _ => True

end DataBridge
