import DataBridge.Effect.Ensures
import DataBridge.Sftp.ListingOrder
import DataBridge.Sftp.Sessions

/-!
# What the parts of an operation raise

Every request ends in a value, a status, a failure of the transport or a text
that has no UTF-8 form; all of these are `Translatable`. A block under
`_failures` turns them into typed errors, whatever the server answers. Only the
calls of an upload depend on its fields: `Upload.write_raises` and
`Upload.finish_raises` are about an open and a finished one.
-/

namespace DataBridge

open Effect Routine

/-- A typed error. -/
def Translated (e : Exc) : Prop := ∃ error, e = .dataBridge error

/-- What `_failures` turns into a typed error. -/
def Translatable (e : Exc) : Prop := RequestFault e ∨ e = .unicodeEncode ∨ Translated e

theorem translated_ofCode (code : ErrorCode) (message : Text) : Translated (.ofCode code message) :=
  ⟨_, rfl⟩

theorem translated_translate (f : Failures) {e : Exc} (h : Translatable e) :
    Translated (f.translate e) := by
  rcases h with (fault | ⟨code, rfl⟩) | rfl | ⟨error, rfl⟩
  · cases e with
    | osError _ | timeout | transport | sftpError => exact ⟨_, rfl⟩
    | _ => exact fault.elim
  · unfold Failures.translate
    dsimp only
    split
    · exact ⟨_, rfl⟩
    · split
      · exact ⟨_, rfl⟩
      · exact translated_ofCode _ _
  · exact ⟨_, rfl⟩
  · exact ⟨error, rfl⟩

section Kinds

variable {S : Type} {serve : S → Request → Reply → S → Prop}

/-! ## The request layer -/

/-- The answers of the request layer, with what it may raise while a request is
sent and while a reply is read. -/
def Wire.layer (serve : S → Request → Reply → S → Prop) (sending reading : Exc → Prop) :
    Sem Wire (Net S)
  | _, .asyncRequest request => Wire.sem serve sending (.asyncRequest request)
  | _, .readResponse => Wire.sem serve reading .readResponse

/-- Paramiko: only the packets it reads can be invalid. -/
abbrev Wire.paramiko (serve : S → Request → Reply → S → Prop) : Sem Wire (Net S) :=
  Wire.layer serve (fun e => Requests.lost e = true) TransportFault

theorem transportFault_of_lost {e : Exc} (gone : Requests.lost e = true) : TransportFault e := by
  cases e with
  | osError _ | timeout | transport => exact trivial
  | _ => cases gone

/-- Nothing is taken out of the log. -/
theorem Wire.log_prefix {sending reading : Exc → Prop} {α : Type} {p : Prog Wire α} {net : Net S}
    {c : Prog Wire α × Net S} (run : Prog.Reach (Wire.layer serve sending reading) (p, net) c) :
    net.log <+: c.2.log := by
  induction run with
  | refl => exact List.prefix_rfl
  | tail _ taken ih =>
    apply ih.trans
    cases taken with
    | loop => exact List.prefix_rfl
    | @call _ op _ _ _ _ answer =>
      cases op with
      | asyncRequest request =>
        rcases answer with ⟨reply, server, -, -, rfl⟩ | ⟨e, -, -, rfl | ⟨reply, server, -, rfl⟩⟩
        · exact List.prefix_append _ _
        · exact List.prefix_rfl
        · exact List.prefix_append _ _
      | readResponse =>
        rcases answer with ⟨packet, -, -, rfl⟩ | ⟨e, -, -, rfl⟩
        · exact List.prefix_rfl
        · exact List.prefix_rfl

/-! ## Requests -/

namespace Requests

/-- What sending raises: the transport is gone, or the text has no UTF-8 form. -/
theorem send_refused {request : Request} : Raises (Wire.paramiko serve)
    (fun e => lost e = true ∨ (e = .unicodeEncode ∧ ¬request.Encodable)) (send request) := by
  unfold send
  split
  · intro s net
    refine .invoke fun r net' answer e same => ?_
    subst same
    rcases answer with ⟨reply, server, -, impossible, -⟩ | ⟨e', gone, same, -⟩
    · cases impossible
    · cases same
      exact .inl gone
  · rename_i unencodable
    exact .raise (.inr ⟨rfl, unencodable⟩)

theorem send_raises {request : Request} :
    Raises (Wire.paramiko serve) Translatable (send request) := by
  refine send_refused.mono fun e refused => ?_
  rcases refused with gone | ⟨rfl, -⟩
  · exact .inl (.inl (transportFault_of_lost gone))
  · exact .inr (.inl rfl)

theorem await_refused {number : Nat} :
    Raises (Wire.paramiko serve) TransportFault (await number) := by
  refine .bind .fields fun s => ?_
  split
  · exact .pure
  · refine .bind ?_ fun packet => ?_
    · intro s net
      refine .invoke fun r net' answer e same => ?_
      subst same
      rcases answer with ⟨packet, -, impossible, -⟩ | ⟨e', fault, same, -⟩
      · cases impossible
      · cases same
        exact fault
    · refine .bind .modify fun _ => ?_
      exact .pure

theorem receive_refused {number : Nat} {expected : ReplyKind} :
    Raises (Wire.paramiko serve) RequestFault (receive number expected) := by
  refine .bind (.iterate (fun _ => await_refused.mono fun _ => .inl) ()) fun _ => ?_
  refine .bind .fields fun s => ?_
  refine .bind .modify fun _ => ?_
  exact .ofExcept fun e refused => .inr (accept_error refused)

/-- What a request raises. -/
theorem call_refused {request : Request} {expected : ReplyKind} : Raises (Wire.paramiko serve)
    (fun e => RequestFault e ∨ (e = .unicodeEncode ∧ ¬request.Encodable))
    (call request expected) := by
  refine .bind (send_refused.mono fun e refused => ?_) fun number => ?_
  · exact refused.imp_left fun gone => .inl (transportFault_of_lost gone)
  · exact receive_refused.mono fun _ => .inl

theorem receive_raises {number : Nat} {expected : ReplyKind} :
    Raises (Wire.paramiko serve) Translatable (receive number expected) :=
  receive_refused.mono fun _ => .inl

/-- Removing a path that can be sent never raises. -/
theorem removeQuietly_quiet {path : Text} (encodable : (Request.remove path).Encodable) :
    Raises (Wire.paramiko serve) (fun _ => False) (removeQuietly path) := by
  refine .catching (B := RequestFault) ?_ fun e fault => ?_
  · refine .bind (call_refused.mono fun e refused => ?_) fun _ => .pure
    rcases refused with fault | ⟨-, unencodable⟩
    · exact fault
    · exact absurd encodable unencodable
  · rcases fault with fault | ⟨code, rfl⟩
    · cases e with
      | osError _ | timeout | transport | sftpError => exact .pure
      | _ => exact fault.elim
    · exact .pure

end Requests

namespace Requests

end Requests

namespace SFTPConnector

variable (c : SFTPConnector)

end SFTPConnector

/-! ## A download -/

namespace Download

variable (d : Download)

end Download

/-! ## An upload -/

namespace Upload

/-- The fields that tell whether the file is open and finished. -/
structure SamePhase (s s' : UploadState) : Prop where
  handle : s'.handle = s.handle
  finished : s'.finished = s.finished

theorem SamePhase.refl (s : UploadState) : SamePhase s s := ⟨rfl, rfl⟩

theorem SamePhase.trans {s₁ s₂ s₃ : UploadState} (h : SamePhase s₁ s₂) (h' : SamePhase s₂ s₃) :
    SamePhase s₁ s₃ :=
  ⟨h'.handle.trans h.handle, h'.finished.trans h.finished⟩

/-- A call of `self._requests`. -/
theorem onRequests_ensures {α : Type} {x : RequestsRoutine α} {B : Exc → Prop}
    (h : Raises (Wire.paramiko serve) B x) {s : UploadState} {net : Net S} :
    (onRequests x).Ensures (Wire.paramiko serve)
      (Post (fun _ s' _ => SamePhase s s') fun e s' _ => B e ∧ SamePhase s s') s net := by
  refine .zoom fun r requests net' run => ?_
  cases r with
  | ok a => exact ⟨rfl, rfl⟩
  | error e => exact ⟨h _ _ _ _ _ run e rfl, rfl, rfl⟩

theorem acknowledge_ensures {s : UploadState} {net : Net S} (waiting : s.unacknowledged ≠ []) :
    acknowledge.Ensures (Wire.paramiko serve)
      (Post (fun _ s' _ => SamePhase s s') fun e _ _ => Translatable e) s net := by
  rw [acknowledge, Ensures.fields_bind]
  split
  · rename_i none
    exact absurd none waiting
  · rw [Ensures.modify_bind]
    refine .bind (onRequests_ensures Requests.receive_raises) (fun _ s' net' same => ?_)
      fun e s' net' raised => raised.1
    exact .pure ⟨same.handle, same.finished⟩

theorem makeRoom_ensures {s : UploadState} {net : Net S} :
    makeRoom.Ensures (Wire.paramiko serve)
      (Post (fun _ s' _ => SamePhase s s') fun e _ _ => Translatable e) s net := by
  rw [makeRoom, Ensures.fields_bind]
  split
  · rename_i full
    refine acknowledge_ensures fun none => ?_
    rw [none] at full
    exact absurd full (by decide)
  · exact .pure (.refl s)

/-- One pass of the loop of `write`. -/
theorem writeChunk_ensures {data : Bytes} {start : Nat} {s : UploadState} {net : Net S} :
    (writeChunk data start).Ensures (Wire.paramiko serve)
      (Post (fun _ s' _ => SamePhase s s') fun e _ _ =>
        Translatable e ∨ (e = .runtimeError ∧ start < data.length ∧ s.handle = none)) s net := by
  unfold writeChunk
  split
  · rename_i more
    refine .bind makeRoom_ensures (fun _ s₁ net room => ?_) fun e _ _ kind => .inl kind
    dsimp only
    refine .bind (P := Post (fun _ s' _ => s' = s₁) fun e _ _ => e = .runtimeError ∧ s₁.handle = none)
      ?_ (fun handle s₂ net same => ?_) fun e _ _ raised => .inr ⟨raised.1, more, ?_⟩
    · rw [openHandle, Ensures.fields_bind]
      split
      · rename_i closed
        exact .raise ⟨rfl, closed⟩
      · exact .pure rfl
    · obtain rfl : s₂ = s₁ := same
      rw [Ensures.fields_bind]
      refine .bind (onRequests_ensures Requests.send_raises) (fun number s₃ net sent => ?_)
        fun e _ _ raised => .inl raised.1
      rw [Ensures.modify_bind]
      have after := room.trans sent
      exact .pure ⟨after.handle, after.finished⟩
    · rw [← room.handle]
      exact raised.2
  · exact .pure (.refl s)

variable (u : Upload)

/-- `_Upload.write`: only a closed file and some bytes make it raise anything
but a typed error. -/
theorem write_ensures {data : Bytes} {s : UploadState} {net : Net S} :
    (u.write data).Ensures (Wire.paramiko serve)
      (Post (fun _ s' _ => SamePhase s s') fun e _ _ =>
        Translated e ∨ (e = .runtimeError ∧ data ≠ [] ∧ s.handle = none)) s net := by
  refine .catching (P := Post (fun _ s' _ => SamePhase s s') fun e _ _ =>
      Translatable e ∨ (e = .runtimeError ∧ data ≠ [] ∧ s.handle = none)) ?_
    (fun _ _ _ same => same) fun e _ _ raised => ?_
  · refine .iterate (I := fun _ s' _ => SamePhase s s') (fun start s₁ net same => ?_) (.refl s)
    refine writeChunk_ensures.mono fun r s₂ net after => ?_
    match r, after with
    | .ok (.inl _), after => exact same.trans after
    | .ok (.inr _), after => exact same.trans after
    | .error e, after =>
      refine after.imp_right fun closed => ⟨closed.1, ?_, ?_⟩
      · intro none
        rw [none] at closed
        exact absurd closed.2.1 (Nat.not_lt_zero _)
      · rw [← same.handle]
        exact closed.2.2
  · rcases raised with kind | ⟨rfl, closed⟩
    · exact .raise (.inl (translated_translate _ kind))
    · exact .raise (.inr ⟨rfl, closed⟩)

end Upload

namespace SFTPConnector

variable (c : SFTPConnector)

end SFTPConnector

end Kinds

end DataBridge
