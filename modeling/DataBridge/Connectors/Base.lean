import DataBridge.Models
import Mathlib.Data.List.Sort

/-!
# The filename policy and the listing shared by every connector

`validate_filename`, the names of staging files, the calls of a `ByteSink`, and
`bounded_listing`.
-/

namespace DataBridge

def chunkSize : Nat := 1048576

def maxListResults : Nat := 1000

def maxListScan : Nat := 10000

def maxFilenameBytes : Nat := 255

def reservedPrefix : Text := lit ".databridge-"

def isReservedName (filename : Text) : Bool := reservedPrefix.isPrefixOf filename.lower

/-- Every failure of `validate_filename`. -/
def invalidFilename (message : Text) : Exc := .ofCode .invalidFilename message

def validateFilename (filename : Text) : Except Exc Text :=
  if filename = [] ∨ filename = lit "." ∨ filename = lit ".." ∨ .ofChar '/' ∈ filename ∨
      .ofChar '\\' ∈ filename ∨ .nul ∈ filename then
    .error (invalidFilename (lit "Filename must name one file at the connection root"))
  else
    match filename.utf8Length with
    | none => .error (invalidFilename (lit "Filename must be valid Unicode text"))
    | some size =>
      if maxFilenameBytes < size then
        .error (invalidFilename (lit "Filename must be at most " ++ decimal maxFilenameBytes ++
          lit " bytes when encoded as UTF-8"))
      else if isReservedName filename then
        .error (invalidFilename (lit "Names starting with '" ++ reservedPrefix ++
          lit "' are reserved for DataBridge staging files"))
      else .ok filename

def sourceChanged (filename : Text) : Exc :=
  .ofCode .sourceChanged (lit "'" ++ filename ++
    lit "' became shorter while it was read; it changed during the operation")

def destinationExists (filename : Text) : Exc :=
  .ofCode .destinationExists (lit "'" ++ filename ++
    lit "' already exists; set \"overwrite\": true to replace it")

/-- `stat.S_ISREG`. -/
def isRegular (mode : Nat) : Bool := mode &&& 0o170000 == 0o100000

/-- `stat.S_IMODE`. -/
def permissionBits (mode : Nat) : Nat := mode &&& 0o7777

/-! ## Staging files -/

/-- A UUID, by its 32 hexadecimal digits. -/
structure Uuid where
  digits : List (Fin 16)
  length_digits : digits.length = 32
  deriving DecidableEq

def hexDigit (d : Fin 16) : CodePoint :=
  if d.val < 10 then ⟨0x30 + d.val, by omega⟩ else ⟨0x57 + d.val, by omega⟩

/-- `str(UUID)`: the digits in groups of 8, 4, 4, 4 and 12. -/
def Uuid.text (id : Uuid) : Text :=
  let hex := id.digits.map hexDigit
  hex.take 8 ++ lit "-" ++ (hex.drop 8).take 4 ++ lit "-" ++ (hex.drop 12).take 4 ++ lit "-" ++
    (hex.drop 16).take 4 ++ lit "-" ++ hex.drop 20

def stageName (stagingId : Uuid) : Text := reservedPrefix ++ stagingId.text ++ lit ".part"

def probeName (probeId : Uuid) : Text := reservedPrefix ++ lit "check-" ++ probeId.text

/-! ## Sinks -/

/-- A call of a `ByteSink`. -/
inductive SinkCall
  | write (data : Bytes)
  | finish
  deriving DecidableEq

/-- All bytes of the `write` calls, in order. -/
def SinkCall.written (calls : List SinkCall) : Bytes :=
  calls.flatMap fun call => match call with
    | .write data => data
    | .finish => []

theorem SinkCall.written_concat (calls : List SinkCall) (call : SinkCall) :
    SinkCall.written (calls ++ [call]) = SinkCall.written calls ++ SinkCall.written [call] :=
  List.flatMap_append

@[simp] theorem SinkCall.written_write (data : Bytes) : SinkCall.written [.write data] = data :=
  List.append_nil data

@[simp] theorem SinkCall.written_finish : SinkCall.written [.finish] = [] := rfl

/-! ## Bounded listing -/

/-- `Listing`. -/
structure Listing where
  files : List Text
  truncated : Bool
  deriving DecidableEq

/-- `sorted` of file names: by code points. -/
def sortedNames (files : List Text) : List Text := files.insertionSort (· ≤ ·)

/-- The locals of `bounded_listing` between two entries. -/
structure Scan where
  scanned : Nat := 0
  files : List Text := []
  deriving DecidableEq

/-- The next pair of `bounded_listing`: it goes on, or returns early. -/
def Scan.next (scan : Scan) (entry : Text × Bool) : Scan ⊕ Listing :=
  let scanned := scan.scanned + 1
  if maxListScan < scanned then .inr ⟨sortedNames scan.files, true⟩
  else if entry.2 = false then .inl { scan with scanned }
  else match validateFilename entry.1 with
  | .error _ => .inl { scan with scanned }
  | .ok _ =>
    if maxListResults ≤ scan.files.length then .inr ⟨sortedNames scan.files, true⟩
    else .inl ⟨scanned, scan.files ++ [entry.1]⟩

/-- The end of the entries. -/
def Scan.last (scan : Scan) : Listing := ⟨sortedNames scan.files, false⟩

/-- The loop of `bounded_listing`. -/
def Scan.run (scan : Scan) : List (Text × Bool) → Scan ⊕ Listing
  | [] => .inl scan
  | entry :: entries =>
    match scan.next entry with
    | .inl scan => scan.run entries
    | .inr listing => .inr listing

/-- `bounded_listing`. -/
def boundedListing (entries : List (Text × Bool)) : Listing :=
  (Scan.run {} entries).elim Scan.last id

end DataBridge
