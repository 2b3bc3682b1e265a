import DataBridge.Sftp.Connector

/-!
# The SFTP connector: listing the root

`SFTPConnector.list_files` drives two nested generators: `_entries` reads the
directory page by page, and `_classified` looks up the entries of a page whose
type READDIR left out, a window at a time. `bounded_listing` pulls the entries
and may stop at any of them. Here each loop passes its entries to the scan of
`bounded_listing` and stops with it; what the generators do when they are closed
follows.
-/

namespace DataBridge

open Effect Routine

/-- An entry of a NAME reply: its name, if the API can address it, and its attributes. -/
abbrev RawEntry : Type := Option Text × Attributes

/-- The name of an entry that the API can address. -/
def addressableName (raw : Bytes) : Option Text :=
  match decodeUtf8 raw with
  | none => none
  | some name => if name = lit "." ∨ name = lit ".." then none else some name

/-- The loop of `_names`. -/
def Reader.entries : Nat → Reader (List RawEntry)
  | 0 => pure []
  | count + 1 => do
    let raw ← Reader.string
    let _ ← Reader.string
    let attributes ← Reader.attributes
    let rest ← Reader.entries count
    return (addressableName raw, attributes) :: rest

/-- The entries of a page that says it has `count`. -/
def Reader.someEntries (count : Nat) : Reader (List RawEntry) :=
  if count = 0 then fun _ => .error (.status sftpBadMessage) else Reader.entries count

/-- `_names`. -/
def Reader.names : Reader (List RawEntry) := do
  let count ← Reader.uint32
  Reader.someEntries count

/-- The lookup that an entry needs. -/
def lookupPath (root : Text) : RawEntry → Option Text
  | (some name, ⟨_, none⟩) => some (posixJoin root name)
  | _ => none

namespace Requests

/-- `ignore` for each of some requests. -/
def ignoreAll (numbers : List Nat) (s : Requests) : Requests :=
  numbers.foldl (fun s number => s.ignore number) s

/-- The lookup of one entry, if it needs one. -/
def sendLookup : Option Text → RequestsRoutine (Option Nat)
  | none => pure none
  | some path => do
    let number ← send (.lstat path)
    pure (some number)

/-- The dictionary of lookups of a batch, with one place for each entry. -/
def sendLookups (root : Text) : List RawEntry → RequestsRoutine (List (Option Nat))
  | [] => pure []
  | entry :: batch => do
    let number ← sendLookup (lookupPath root entry)
    let rest ← sendLookups root batch
    pure (number :: rest)

/-- The answer to a lookup: the mode, or nothing for an entry removed or hidden
since READDIR. -/
def receiveMode (number : Nat) : RequestsRoutine (Option Nat) :=
  .catching (do
    let payload ← receive number .attrs
    let attributes ← .ofExcept (Reader.parse Reader.attributes payload)
    pure attributes.mode) fun e =>
      if e = .status sftpNoSuchFile ∨ e = .status sftpPermissionDenied then pure none else .raise e

/-- The pair that `_classified` yields for an entry with a known mode. -/
def classifiedAs (name : Option Text) (mode : Option Nat) : Text × Bool :=
  match name with
  | none => ([], false)
  | some name => (name, mode.any isRegular)

/-- The pair that `_classified` yields for an entry. -/
def classify (entry : RawEntry) : Option Nat → RequestsRoutine (Text × Bool)
  | none => pure (classifiedAs entry.1 entry.2.mode)
  | some number => do
    let mode ← receiveMode number
    pure (classifiedAs entry.1 mode)

/-- The `try` of one batch of `_classified`. What leaves it, an error or a
consumer that wants no more, drops the lookups that were not received. -/
def scanBatch : List (RawEntry × Option Nat) → Scan → RequestsRoutine (Scan ⊕ Listing)
  | [], scan => pure (.inl scan)
  | (entry, number) :: rest, scan => do
    let pair ← .catching (classify entry number) fun e => do
      .modify (ignoreAll (rest.filterMap (·.2)))
      .raise e
    match scan.next pair with
    | .inl scan => scanBatch rest scan
    | .inr listing => do
      .modify (ignoreAll (rest.filterMap (·.2)))
      pure (.inr listing)

/-- One pass of the loop of `_classified`, from `start`. -/
def classifyBatch (root : Text) (entries : List RawEntry) :
    Nat × Scan → RequestsRoutine (Nat × Scan ⊕ Scan ⊕ Listing)
  | (start, scan) =>
    if start < entries.length then do
      let batch := (entries.drop start).take requestWindow
      let lookups ← sendLookups root batch
      match ← scanBatch (batch.zip lookups) scan with
      | .inl scan => pure (.inl (start + requestWindow, scan))
      | .inr listing => pure (.inr (.inr listing))
    else pure (.inr (.inl scan))

/-- `_classified`. -/
def classified (root : Text) (entries : List RawEntry) (scan : Scan) :
    RequestsRoutine (Scan ⊕ Listing) :=
  .iterate (classifyBatch root entries) (0, scan)

/-- A READDIR; nothing at the end of the directory. -/
def readPage (handle : Bytes) : RequestsRoutine (Option Bytes) :=
  .catching (do
    let payload ← call (.readDirectory handle) .name
    pure (some payload)) fun e => if e = .status sftpEof then pure none else .raise e

/-- One pass of the loop of `_entries`. -/
def scanPage (root : Text) (handle : Bytes) (scan : Scan) :
    RequestsRoutine (Scan ⊕ Listing) := do
  match ← readPage handle with
  | none => pure (.inr scan.last)
  | some payload => do
    let entries ← .ofExcept (Reader.parse Reader.names payload)
    classified root entries scan

/-- `_entries`, as `bounded_listing` drives it. -/
def scanEntries (root : Text) : RequestsRoutine Listing := do
  let handle ← openHandle (.openDirectory root)
  .ensuring (.iterate (scanPage root handle) {}) (closeQuietly handle)

end Requests

namespace SFTPConnector

variable (c : SFTPConnector)

/-- `_root_failures`. -/
def rootFailures : Failures where
  action := lit "list '" ++ c.root ++ lit "'"
  missing := some (rootUnavailable c.root)
  denied := some {
    code := .connectionRootUnavailable
    message := lit "The SFTP user may not list the SFTP root '" ++ c.root ++ lit "'" }

/-- `SFTPConnector.list_files`. -/
def listFiles (connected : Except Exc Unit) : RequestsRoutine Listing := do
  .ofExcept connected
  withFailures c.rootFailures (Requests.scanEntries c.root)

end SFTPConnector

end DataBridge
