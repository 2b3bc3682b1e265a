import DataBridge.Sftp.Connector
import DataBridge.Sftp.UploadOrder

/-!
# The log of a write session

Whatever a server does, the requests of a write session follow one grammar:
the destination is inspected, the staging file is created, written and verified,
the destination is renamed onto at most once, and the staging file is removed.
`SessionLog` states it together with what the outcome of the session tells about
the rename; `write_log` proves it for every server.
-/

namespace DataBridge

open Effect Routine

/-! ## What an error tells -/

def mayContain : Text := lit "the destination may already contain the new file"

/-- The error tells the caller that the file may be published. -/
def Tells (e : Exc) : Prop := ∃ error, e = .dataBridge error ∧ mayContain <:+ error.message

/-- The server answered with this status. -/
def RefusedWith (code : Nat) (reply : Reply) : Prop :=
  accept .status (stash reply) = .error (.status code)

/-- What the client learns of a request leaves no doubt that it may be applied:
it was acknowledged, or the answer was lost with the connection. -/
def Announced (number : Nat) (reply : Reply) (faults : List (Nat × Exc)) : Prop :=
  (∃ e, (number, e) ∈ faults ∧ Requests.lost e) ∨
    ((∀ e, (number, e) ∉ faults) ∧
      (Succeeded reply ∨ RefusedWith sftpNoConnection reply ∨ RefusedWith sftpConnectionLost reply))

theorem Announced.append {number : Nat} {reply : Reply} {faults more : List (Nat × Exc)}
    (later : ∀ p ∈ more, number < p.1) :
    Announced number reply (faults ++ more) ↔ Announced number reply faults := by
  have same : ∀ e, (number, e) ∈ faults ++ more ↔ (number, e) ∈ faults := by
    intro e
    rw [List.mem_append]
    refine or_iff_left fun member => ?_
    exact absurd (later _ member) (lt_irrefl _)
  unfold Announced
  simp only [same]

/-- A text whose ending is not that of the announcement. -/
theorem not_announcement {start ending : Text} (other : ¬ending <:+ mayContain)
    (longer : ¬mayContain <:+ ending) : ¬mayContain <:+ start ++ ending := by
  intro whole
  rcases List.suffix_or_suffix_of_suffix whole (List.suffix_append start ending) with inside | outside
  · exact longer inside
  · exact other outside

theorem tells_dataBridge {error : DataBridgeError} :
    Tells (.dataBridge error) ↔ mayContain <:+ error.message := by
  constructor
  · intro tells
    obtain ⟨_, same, ending⟩ := tells
    exact Exc.dataBridge.inj same ▸ ending
  · intro ending
    exact ⟨error, rfl, ending⟩

theorem not_tells_of_ending {code : ErrorCode} {start ending : Text}
    (other : ¬ending <:+ mayContain) (longer : ¬mayContain <:+ ending) :
    ¬Tells (.ofCode code (start ++ ending)) := by
  rw [tells_dataBridge]
  exact not_announcement other longer

/-- A quoted name at the end. -/
theorem not_tells_quote {code : ErrorCode} {start : Text} :
    ¬Tells (.ofCode code (start ++ lit "'")) :=
  not_tells_of_ending (by decide) (by decide)

theorem not_tells_parenthesis {code : ErrorCode} {start : Text} :
    ¬Tells (.ofCode code (start ++ lit ")")) :=
  not_tells_of_ending (by decide) (by decide)

theorem not_tells_destinationExists {filename : Text} : ¬Tells (destinationExists filename) :=
  not_tells_of_ending (by decide) (by decide)

/-- No error of an inspection tells that the file may be published. -/
theorem not_tells_inspect {filename : Text} {e : Exc}
    (fault : RequestFault e ∨ e = .unicodeEncode) :
    ¬Tells ((SFTPConnector.inspectFailures filename none).translate e) := by
  have action : (SFTPConnector.inspectFailures filename none).action =
      lit "inspect '" ++ filename ++ lit "'" := rfl
  rcases fault with (fault | ⟨code, rfl⟩) | rfl
  · cases e with
    | osError | transport =>
      change ¬Tells (.ofCode .sftpUnavailable (_ ++ (_ ++ _)))
      rw [← List.append_assoc]
      exact not_tells_quote
    | timeout =>
      change ¬Tells (.ofCode .sftpUnavailable (_ ++ (_ ++ _)))
      rw [← List.append_assoc]
      exact not_tells_quote
    | sftpError =>
      change ¬Tells (.ofCode .sftpOperationFailed (_ ++ (_ ++ _)))
      rw [← List.append_assoc]
      exact not_tells_quote
    | _ => exact fault.elim
  · have unnamed : (SFTPConnector.inspectFailures filename none).classified code = none := by
      unfold Failures.classified
      split
      · rfl
      · split
        · rfl
        · split <;> rfl
    rw [Failures.translate, unnamed]
    dsimp only
    split
    · change ¬Tells (.ofCode .sftpUnavailable (_ ++ (_ ++ _)))
      rw [← List.append_assoc]
      exact not_tells_quote
    · exact not_tells_parenthesis
  · change ¬Tells (.ofCode .invalidConnectionSettings (lit "The SFTP root must be valid UTF-8 text"))
    rw [tells_dataBridge]
    decide

/-- The errors of the rename that tell it: the answer was lost. -/
theorem tells_publish {c : SFTPConnector} {filename : Text} {e : Exc} (fault : RequestFault e) :
    Tells ((c.publishFailures filename).translate e) ↔
      Requests.lost e ∨ e = .status sftpNoConnection ∨ e = .status sftpConnectionLost := by
  have announced : Tells (.dataBridge (SFTPConnector.publishLost filename)) := by
    rw [tells_dataBridge]
    exact List.IsSuffix.trans (by decide) (List.suffix_append _ _)
  rcases fault with fault | ⟨code, rfl⟩
  · cases e with
    | osError | transport | timeout => exact iff_of_true announced (.inl rfl)
    | sftpError =>
      refine iff_of_false ?_ ?_
      · change ¬Tells (.ofCode .sftpOperationFailed (_ ++ (_ ++ _)))
        rw [← List.append_assoc]
        exact not_tells_quote
      · intro lost
        rcases lost with lost | lost | lost <;> cases lost
    | _ => exact fault.elim
  · by_cases lost : code = sftpNoConnection ∨ code = sftpConnectionLost
    · have unnamed : (c.publishFailures filename).classified code = none := by
        rcases lost with rfl | rfl <;> rfl
      refine iff_of_true ?_ ?_
      · rw [Failures.translate, unnamed]
        dsimp only
        rw [if_pos lost]
        exact announced
      · rcases lost with rfl | rfl
        · exact .inr (.inl rfl)
        · exact .inr (.inr rfl)
    · refine iff_of_false ?_ ?_
      · unfold Failures.translate Failures.classified
        dsimp only
        by_cases missing : code = sftpNoSuchFile
        · rw [if_pos missing]
          change ¬Tells (if _ then _ else _)
          rw [if_neg lost]
          exact not_tells_parenthesis
        rw [if_neg missing]
        by_cases denied : code = sftpPermissionDenied
        · rw [if_pos denied]
          exact not_tells_quote
        rw [if_neg denied]
        by_cases unsupported : code = sftpOpUnsupported
        · rw [if_pos unsupported]
          exact not_tells_of_ending (by decide) (by decide)
        rw [if_neg unsupported]
        change ¬Tells (if _ then _ else _)
        rw [if_neg lost]
        exact not_tells_parenthesis
      · intro told
        rcases told with told | told | told
        · cases told
        · exact lost (.inl (Exc.status.inj told))
        · exact lost (.inr (Exc.status.inj told))

/-! ## The requests of a session -/

/-- The requests that a session may send besides its rename. -/
inductive OfSession (stage destination : Text) : Request → Prop
  | upload {handle : Bytes} {request : Request} :
    OfUpload handle stage request → OfSession stage destination request
  | look : OfSession stage destination (.stat destination)
  | remove : OfSession stage destination (.remove stage)

/-- The requests that a session may send after its rename. -/
inductive OfAftermath (stage destination : Text) : Request → Prop
  | look : OfAftermath stage destination (.stat destination)
  | remove : OfAftermath stage destination (.remove stage)

theorem OfAftermath.ofSession {stage destination : Text} {request : Request}
    (h : OfAftermath stage destination request) : OfSession stage destination request := by
  cases h with
  | look => exact .look
  | remove => exact .remove

/-- A log that goes on from `base` with requests of one kind. -/
def After (base : Log) (kind : Request → Prop) (log : Log) : Prop :=
  ∃ more, log = base ++ more ∧ Only kind more

theorem After.refl {base : Log} {kind : Request → Prop} : After base kind base :=
  ⟨[], (List.append_nil base).symm, fun _ member => (List.not_mem_nil member).elim⟩

theorem After.allows {base : Log} {kind : Request → Prop} : Allows (After base kind) kind := by
  intro log request reply after allowed
  obtain ⟨more, rfl, only⟩ := after
  exact ⟨more ++ [(request, reply)], List.append_assoc .., Only.allows only allowed⟩

theorem After.mono {base : Log} {kind kind' : Request → Prop} {log : Log}
    (h : After base kind log) (wider : ∀ request, kind request → kind' request) :
    After base kind' log := by
  obtain ⟨more, same, only⟩ := h
  exact ⟨more, same, fun entry member => wider _ (only entry member)⟩

theorem After.trans {base middle log : Log} {kind : Request → Prop} (h : After base kind middle)
    (h' : After middle kind log) : After base kind log := by
  obtain ⟨first, rfl, only⟩ := h
  obtain ⟨second, rfl, only'⟩ := h'
  refine ⟨first ++ second, List.append_assoc .., fun entry member => ?_⟩
  rcases List.mem_append.mp member with member | member
  · exact only entry member
  · exact only' entry member

/-- The handle that a reply to OPEN gives. -/
def openedHandle (reply : Reply) : Except Exc Bytes :=
  accept .handle (stash reply) >>= Reader.parse Reader.string

section Rules

variable {S : Type} {serve : S → Request → Reply → S → Prop} {s : UploadState} {net : Net S}

/-- A session over a transport that may fail. -/
abbrev session (serve : S → Request → Reply → S → Prop) : Setting Wire (Net S) :=
  wire serve TransportFault fun _ => True

theorem passive_true {fault : Exc → Prop} : Passive (S := S) fault fun _ => True :=
  ⟨fun _ _ _ => trivial, fun _ _ _ _ => trivial⟩

/-- Nothing is on the way, and the transport has not failed. -/
structure Calm (s : Requests) (net : Net S) : Prop where
  idle : Outstanding [] s net
  heard : s.ignored = []
  sound : net.faults = []

theorem Asked.after {base : Log} {kind : Request → Prop} {request : Request} {net' : Net S}
    (h : Asked request net net') (before : After base kind net.log) (allowed : kind request) :
    After base kind net'.log := by
  cases h with
  | unsent log _ => exact log ▸ before
  | sent log _ => exact log ▸ After.allows before allowed

theorem Called.asked {fault : Exc → Prop} {request : Request} {expected : ReplyKind}
    {m : List (Nat × Reply)} {r : Except Exc Bytes} {requests : Requests} {net' : Net S}
    (h : Called serve fault request expected m net r requests net') : Asked request net net' := by
  cases h with
  | answered _ _ log faults _ => exact .sent log (.inl faults)
  | lost _ _ _ log faults _ _ => exact .sent log (.inr ⟨_, faults⟩)
  | unsent _ _ => exact .unsent rfl rfl

/-- A request when nothing is on the way: it is answered, or asked in vain. -/
theorem calmCall_wp {requests : Requests} {request : Request} {expected : ReplyKind}
    (calm : Calm requests net) :
    (Requests.call request expected).Wp (session serve)
      (fun r requests' net' =>
        (∃ reply, request.Encodable ∧ net'.log = net.log ++ [(request, reply)] ∧
          r = accept expected (stash reply) ∧ Calm requests' net') ∨
        ∃ e, r = .error e ∧ (TransportFault e ∨ e = .unicodeEncode) ∧ Asked request net net' ∧
          ∀ reply, net'.log = net.log ++ [(request, reply)] →
            request.Encodable ∧ TransportFault e ∧ net'.faults = [(net.log.length, e)])
      requests net := by
  refine (call_wp passive_true calm.idle trivial (.inr ⟨.timeout, trivial⟩)
    (fun _ _ _ => trivial) fun _ _ _ _ _ => trivial).mono ?_
  intro r requests' net' outcome
  obtain ⟨-, fewer, called⟩ := outcome
  have asked := called.asked
  cases called with
  | answered encodable _ log faults idle =>
    exact .inl ⟨_, encodable, log, rfl, idle, List.subset_nil.mp (calm.heard ▸ fewer),
      faults.trans calm.sound⟩
  | lost encodable failed _ log faults _ _ =>
    refine .inr ⟨_, rfl, .inl failed, asked, fun _ _ => ⟨encodable, failed, ?_⟩⟩
    rw [faults, calm.sound]
    rfl
  | unsent failed _ =>
    refine .inr ⟨_, rfl, failed.imp_right And.left, asked, fun reply same => ?_⟩
    exact absurd (congrArg List.length same) (by simp)

/-- A STAT before the rename. -/
theorem lookup_wp {path : Text} (calm : Calm s.requests net) :
    (SFTPConnector.lookup path).Wp (session serve)
      (Post (fun _ s' net' => Calm s'.requests net' ∧ s' = { s with requests := s'.requests } ∧
          ∃ reply, net'.log = net.log ++ [(.stat path, reply)])
        fun _ s' net' => s' = { s with requests := s'.requests } ∧ Asked (.stat path) net net')
      s net := by
  -- A status can only come from an answer.
  let Looked := fun (r : Except Exc (Option Attributes)) (s' : UploadState) (net' : Net S) =>
    s' = { s with requests := s'.requests } ∧ Asked (.stat path) net net' ∧
      ((Calm s'.requests net' ∧ ∃ reply, net'.log = net.log ++ [(.stat path, reply)]) ∨
        ∃ e, r = .error e ∧ ∀ code, e ≠ .status code)
  refine .catching (P := Looked) ?_ ?_ ?_
  · refine .bind (P := fun r s' net' => Looked (r.map some) s' net') (.zoom ?_) ?_ ?_
    · refine .bind (calmCall_wp calm) ?_ ?_
      · intro payload requests net' outcome
        refine .ofExcept (Setting.settled_alone.mpr (Setting.settled_alone.mpr ⟨rfl, ?_, .inl ?_⟩))
        · rcases outcome with ⟨reply, -, log, -, calm'⟩ | ⟨e, impossible, -⟩
          · exact .sent log (.inl (calm'.sound.trans calm.sound.symm))
          · cases impossible
        · rcases outcome with ⟨reply, -, log, -, calm'⟩ | ⟨e, impossible, -⟩
          · exact ⟨calm', reply, log⟩
          · cases impossible
      · intro e requests net' outcome
        refine Setting.settled_alone.mpr (Setting.settled_alone.mpr ⟨rfl, ?_⟩)
        rcases outcome with ⟨reply, -, log, -, calm'⟩ | ⟨e', same, kind, asked, -⟩
        · exact ⟨.sent log (.inl (calm'.sound.trans calm.sound.symm)), .inl ⟨calm', reply, log⟩⟩
        · cases same
          refine ⟨asked, .inr ⟨e, rfl, fun code status => ?_⟩⟩
          rw [status] at kind
          rcases kind with kind | kind
          · exact kind
          · cases kind
    · exact fun _ _ _ looked => .pure (Setting.settled_alone.mpr looked)
    · exact fun _ _ _ looked => Setting.settled_alone.mpr looked
  · intro attributes s' net' looked
    obtain ⟨same, -, ⟨calm', log⟩ | ⟨e, impossible, -⟩⟩ := looked
    · exact Setting.settled_alone.mpr ⟨calm', same, log⟩
    · cases impossible
  · intro e s' net' looked
    obtain ⟨same, asked, outcome⟩ := looked
    split
    · rename_i missing
      rcases outcome with ⟨calm', log⟩ | ⟨e', raised, other⟩
      · exact .pure (Setting.settled_alone.mpr ⟨calm', same, log⟩)
      · cases raised
        exact (other _ missing).elim
    · exact .raise (Setting.settled_alone.mpr ⟨same, asked⟩)

/-- The same fields apart from the request layer. -/
def SameUpload (s s' : UploadState) : Prop := s' = { s with requests := s'.requests }

theorem SameUpload.trans {s s' s'' : UploadState} (h : SameUpload s s') (h' : SameUpload s' s'') :
    SameUpload s s'' := by
  unfold SameUpload at h h' ⊢
  rw [h', h]

/-- The inspection before anything is created. -/
theorem replaceableMode_wp {destination filename : Text} {overwrite : Bool}
    (calm : Calm s.requests net) :
    (SFTPConnector.replaceableMode destination filename overwrite).Wp (session serve)
      (Post (fun _ s' net' => Calm s'.requests net' ∧ SameUpload s s' ∧
          After net.log (· = .stat destination) net'.log)
        fun _ _ net' => After net.log (· = .stat destination) net'.log) s net := by
  refine .bind (lookup_wp calm) ?_ ?_
  · intro found s' net' looked
    obtain ⟨calm', same, reply, log⟩ := looked
    have after : After net.log (· = .stat destination) net'.log := by
      rw [log]
      exact After.allows .refl rfl
    cases found with
    | none => exact .pure (Setting.settled_alone.mpr ⟨calm', same, after⟩)
    | some attributes =>
      dsimp only
      split
      · exact .raise (Setting.settled_alone.mpr after)
      · split
        · exact .pure (Setting.settled_alone.mpr ⟨calm', same, after⟩)
        · split
          · exact .pure (Setting.settled_alone.mpr ⟨calm', same, after⟩)
          · exact .raise (Setting.settled_alone.mpr after)
  · intro e s' net' asked
    exact Setting.settled_alone.mpr (asked.2.after .refl rfl)

theorem refuseExisting_wp {destination filename : Text} {denied : Option DataBridgeError}
    (calm : Calm s.requests net) :
    (SFTPConnector.refuseExisting destination filename denied).Wp (session serve)
      (Post (fun _ s' net' => Calm s'.requests net' ∧ SameUpload s s' ∧
          After net.log (· = .stat destination) net'.log)
        fun _ s' net' => SameUpload s s' ∧ After net.log (· = .stat destination) net'.log)
      s net := by
  refine withFailures_wp (.bind (lookup_wp calm) ?_ ?_)
  · intro found s' net' looked
    obtain ⟨calm', same, reply, log⟩ := looked
    have after : After net.log (· = .stat destination) net'.log := by
      rw [log]
      exact After.allows .refl rfl
    cases found with
    | none =>
      exact .pure (Setting.settled_alone.mpr (Setting.settled_alone.mpr ⟨calm', same, after⟩))
    | some attributes =>
      exact .raise (Setting.settled_alone.mpr (Setting.settled_alone.mpr ⟨same, after⟩))
  · intro e s' net' asked
    exact Setting.settled_alone.mpr (Setting.settled_alone.mpr
      ⟨asked.1, asked.2.after .refl rfl⟩)

/-- Creating the staging file. -/
theorem openStage_wp {c : SFTPConnector} {stage : Text} (calm : Calm s.requests net) :
    (c.openStage stage).Wp (session serve)
      (Post (fun handle s' net' => Calm s'.requests net' ∧ SameUpload s s' ∧
          (Request.openNew stage).Encodable ∧ ∃ reply, openedHandle reply = .ok handle ∧
            net'.log = net.log ++ [(.openNew stage, reply)])
        fun _ _ net' => After net.log (· = .openNew stage) net'.log) s net := by
  refine withFailures_wp (.zoom (.bind (calmCall_wp calm) ?_ ?_))
  · intro payload requests net' outcome
    refine .ofExcept (Setting.settled_alone.mpr (Setting.settled_alone.mpr
      (Setting.settled_alone.mpr ?_)))
    rcases outcome with ⟨reply, encodable, log, accepted, calm'⟩ | ⟨e, impossible, -⟩
    · have whole : openedHandle reply = Reader.parse Reader.string payload := by
        rw [openedHandle, ← accepted]
        rfl
      cases parsed : Reader.parse Reader.string payload with
      | ok handle => exact ⟨calm', rfl, encodable, reply, whole.trans parsed, log⟩
      | error e =>
        change After net.log _ net'.log
        rw [log]
        exact After.allows .refl rfl
    · cases impossible
  · intro e requests net' outcome
    refine Setting.settled_alone.mpr (Setting.settled_alone.mpr (Setting.settled_alone.mpr ?_))
    change After net.log _ net'.log
    rcases outcome with ⟨reply, -, log, -, -⟩ | ⟨e', -, -, asked, -⟩
    · rw [log]
      exact After.allows .refl rfl
    · exact asked.after .refl rfl

/-- The inspection after a refused rename, in whatever state that left. -/
theorem refuseAgain_wp {destination filename : Text} :
    (SFTPConnector.refuseExisting destination filename none).Wp (session serve)
      (Post (fun _ s' net' => SameUpload s s' ∧ Asked (.stat destination) net net')
        fun e s' net' => SameUpload s s' ∧ Asked (.stat destination) net net' ∧ ¬Tells e)
      s net := by
  have looks : (SFTPConnector.lookup destination).Wp (session serve)
      (Post (fun _ s' net' => SameUpload s s' ∧ Asked (.stat destination) net net')
        fun e s' net' => SameUpload s s' ∧ Asked (.stat destination) net net' ∧
          (RequestFault e ∨ e = .unicodeEncode)) s net := by
    refine .catching (P := Post (fun _ s' net' => SameUpload s s' ∧
        Asked (.stat destination) net net') fun e s' net' => SameUpload s s' ∧
          Asked (.stat destination) net net' ∧ (RequestFault e ∨ e = .unicodeEncode)) ?_ ?_ ?_
    · refine .bind (P := Post (fun _ s' net' => SameUpload s s' ∧
          Asked (.stat destination) net net') fun e s' net' => SameUpload s s' ∧
            Asked (.stat destination) net net' ∧ (RequestFault e ∨ e = .unicodeEncode))
        (.zoom (.bind ask_wp ?_ ?_)) ?_ ?_
      · intro payload requests net' outcome
        refine .ofExcept (Setting.settled_alone.mpr (Setting.settled_alone.mpr ?_))
        cases parsed : Reader.parse Reader.attributes payload with
        | ok attributes => exact ⟨rfl, outcome.1⟩
        | error e => exact ⟨rfl, outcome.1, .inl (.inr ⟨_, Reader.strict_attributes.parse parsed⟩)⟩
      · intro e requests net' outcome
        exact Setting.settled_alone.mpr (Setting.settled_alone.mpr
          ⟨rfl, outcome.1, (outcome.2 e rfl).imp_right And.left⟩)
      · exact fun _ _ _ asked => .pure (Setting.settled_alone.mpr asked)
      · exact fun _ _ _ asked => Setting.settled_alone.mpr asked
    · exact fun _ _ _ asked => Setting.settled_alone.mpr asked
    · intro e s' net' asked
      split
      · exact .pure (Setting.settled_alone.mpr ⟨asked.1, asked.2.1⟩)
      · exact .raise (Setting.settled_alone.mpr asked)
  refine withFailures_wp (.bind looks ?_ ?_)
  · intro found s' net' asked
    cases found with
    | none => exact .pure (Setting.settled_alone.mpr (Setting.settled_alone.mpr asked))
    | some attributes =>
      exact .raise (Setting.settled_alone.mpr (Setting.settled_alone.mpr
        ⟨asked.1, asked.2, not_tells_destinationExists⟩))
  · intro e s' net' asked
    exact Setting.settled_alone.mpr (Setting.settled_alone.mpr
      ⟨asked.1, asked.2.1, not_tells_inspect asked.2.2⟩)

/-! ### The rename -/

/-- What the outcome tells about the rename with this number and reply. -/
def Told (number : Nat) (reply : Reply) (faults : List (Nat × Exc)) : Except Exc Unit → Prop
  | .ok _ => Succeeded reply ∧ ∀ e, (number, e) ∉ faults
  | .error e => Tells e ↔ Announced number reply faults

/-- The rename of a session: it was not asked for, or it was and the outcome
tells what it may have done. -/
inductive Renaming (rename : Request) (stage destination : Text) (before : Log) (net : Net S) :
    Except Exc Unit → Prop
  | unsent {e : Exc} : After before (OfSession stage destination) net.log →
    Renaming rename stage destination before net (.error e)
  | sent {looks : Log} {reply : Reply} {r : Except Exc Unit} :
    Only (· = .stat destination) looks →
    After (before ++ looks ++ [(rename, reply)]) (OfAftermath stage destination) net.log →
    Told (before ++ looks).length reply net.faults r →
    Renaming rename stage destination before net r

/-- A refused answer of the rename tells nothing more than its code. -/
theorem announced_refused {reply : Reply} {number code : Nat}
    (refused : accept .status (stash reply) = .error (.status code)) :
    Announced number reply [] ↔
      Requests.lost (.status code) ∨ Exc.status code = .status sftpNoConnection ∨
        Exc.status code = .status sftpConnectionLost := by
  have same : ∀ other, RefusedWith other reply ↔ Exc.status code = .status other := by
    intro other
    unfold RefusedWith
    rw [refused]
    exact ⟨Except.error.inj, congrArg Except.error⟩
  have unsuccessful : ¬Succeeded reply := by
    intro succeeded
    obtain ⟨rest, accepted⟩ := succeeded
    cases refused.symm.trans accepted
  unfold Announced
  rw [same, same]
  simp [unsuccessful, Requests.lost]

/-- An error of the rename that tells is the one for a lost answer. -/
theorem eq_publishLost_of_tells {c : SFTPConnector} {filename : Text} {e : Exc}
    (fault : RequestFault e ∨ e = .unicodeEncode)
    (tells : Tells ((c.publishFailures filename).translate e)) :
    (c.publishFailures filename).translate e =
      .dataBridge (SFTPConnector.publishLost filename) := by
  rcases fault with fault | rfl
  · rcases (tells_publish fault).mp tells with lost | rfl | rfl
    · cases e with
      | osError | transport | timeout => rfl
      | _ => cases lost
    · rfl
    · rfl
  · change Tells (.ofCode .invalidConnectionSettings
      (lit "The SFTP root must be valid UTF-8 text")) at tells
    rw [tells_dataBridge] at tells
    exact absurd tells (by decide)

/-- A fault of the transport during the rename. -/
theorem announced_lost {reply : Reply} {number : Nat} {e : Exc} :
    Announced number reply [(number, e)] ↔ Requests.lost e := by
  unfold Announced
  constructor
  · intro announced
    rcases announced with ⟨e', member, lost⟩ | ⟨none, -⟩
    · cases List.mem_singleton.mp member
      exact lost
    · exact absurd List.mem_cons_self (none e)
  · intro lost
    exact .inl ⟨e, List.mem_cons_self, lost⟩

/-- One call of the rename, with its errors translated. -/
theorem rename_wp {c : SFTPConnector} {rename : Request} {filename : Text}
    (calm : Calm s.requests net) :
    (withFailures (c.publishFailures filename) do
        let _ ← Upload.onRequests (Requests.call rename)
        pure ()).Wp (session serve)
      (fun r s' net' => SameUpload s s' ∧
        ((∃ reply, net'.log = net.log ++ [(rename, reply)] ∧
            Told net.log.length reply net'.faults r) ∨
          ∃ e, r = .error e ∧ net'.log = net.log) ∧
        ∀ e, r = .error e → Tells e → e = .dataBridge (SFTPConnector.publishLost filename))
      s net := by
  refine withFailures_wp (.bind (P := fun r s' net' => SameUpload s s' ∧
      ((∃ reply, net'.log = net.log ++ [(rename, reply)] ∧ net'.faults = [] ∧
          r = accept .status (stash reply)) ∨
        ∃ e, r = .error e ∧ (TransportFault e ∨ e = .unicodeEncode) ∧
          Asked rename net net' ∧ ∀ reply, net'.log = net.log ++ [(rename, reply)] →
            rename.Encodable ∧ TransportFault e ∧ net'.faults = [(net.log.length, e)]))
    (.zoom ((calmCall_wp calm).mono ?_)) ?_ ?_)
  · intro r requests net' outcome
    refine Setting.settled_alone.mpr ⟨rfl, outcome.imp_left fun answered => ?_⟩
    obtain ⟨reply, -, log, accepted, calm'⟩ := answered
    exact ⟨reply, log, calm'.sound, accepted⟩
  · intro payload s' net' outcome
    obtain ⟨same, ⟨reply, log, faults, accepted⟩ | ⟨e, impossible, -⟩⟩ := outcome
    · refine .pure (Setting.settled_alone.mpr (Setting.settled_alone.mpr
        ⟨same, .inl ⟨reply, log, ⟨payload, accepted.symm⟩, ?_⟩, ?_⟩))
      · rw [faults]
        exact fun _ => List.not_mem_nil
      · intro e impossible
        cases impossible
    · cases impossible
  · intro e s' net' outcome
    refine Setting.settled_alone.mpr (Setting.settled_alone.mpr ?_)
    obtain ⟨same, ⟨reply, log, faults, refused⟩ | ⟨e', raised, kind, asked, lost⟩⟩ := outcome
    · obtain ⟨code, rfl⟩ := accept_error refused.symm
      have fault : RequestFault (.status code) := .inr ⟨code, rfl⟩
      refine ⟨same, .inl ⟨reply, log, ?_⟩, fun e typed tells => ?_⟩
      · change Tells _ ↔ _
        rw [tells_publish fault, faults, announced_refused refused.symm]
      · cases typed
        exact eq_publishLost_of_tells (.inl fault) tells
    · cases raised
      refine ⟨same, ?_, fun e typed tells => ?_⟩
      · cases asked with
        | unsent log _ => exact .inr ⟨_, rfl, log⟩
        | sent log _ =>
          obtain ⟨-, failed, faults⟩ := lost _ log
          refine .inl ⟨_, log, ?_⟩
          change Tells _ ↔ _
          rw [tells_publish (.inl failed), faults, announced_lost]
          refine or_iff_left fun status => ?_
          rcases status with rfl | rfl <;> exact failed
      · cases typed
        exact eq_publishLost_of_tells (kind.imp_left .inl) tells

/-- An error of the rename is raised again, unless it turns into one that does
not tell of a publication either. -/
theorem reinspect_wp {destination filename : Text} {overwrite : Bool} {e : Exc}
    (typed : Tells e → e = .dataBridge (SFTPConnector.publishLost filename)) :
    (SFTPConnector.reinspect destination filename overwrite e).Wp (session serve)
      (fun r s' net' => SameUpload s s' ∧
        (net' = net ∨ Asked (.stat destination) net net') ∧ ∃ e', r = .error e' ∧ (Tells e' ↔ Tells e))
      s net := by
  cases e with
  | dataBridge error =>
    rw [SFTPConnector.reinspect]
    split
    · rename_i refused
      have silent : ¬Tells (.dataBridge error) := by
        intro tells
        have lost := Exc.dataBridge.inj (typed tells)
        rw [lost] at refused
        cases refused.2
      refine .bind refuseAgain_wp ?_ ?_
      · intro _ s' net' asked
        exact .raise (Setting.settled_alone.mpr ⟨asked.1, .inr asked.2, _, rfl, Iff.rfl⟩)
      · intro e s' net' asked
        exact Setting.settled_alone.mpr
          ⟨asked.1, .inr asked.2.1, _, rfl, iff_of_false asked.2.2 silent⟩
    · exact .raise (Setting.settled_alone.mpr ⟨rfl, .inl rfl, _, rfl, Iff.rfl⟩)
  | _ => exact .raise (Setting.settled_alone.mpr ⟨rfl, .inl rfl, _, rfl, Iff.rfl⟩)

theorem Asked.faults {request : Request} {net' : Net S} (h : Asked request net net') :
    ∃ more, net'.faults = net.faults ++ more ∧ ∀ p ∈ more, net.log.length ≤ p.1 := by
  cases h with
  | unsent _ faults =>
    exact ⟨[], faults.trans (List.append_nil _).symm, fun _ none => (List.not_mem_nil none).elim⟩
  | sent _ faults =>
    rcases faults with faults | ⟨e, faults⟩
    · exact ⟨[], faults.trans (List.append_nil _).symm, fun _ none => (List.not_mem_nil none).elim⟩
    · refine ⟨_, faults, fun p member => ?_⟩
      rw [List.mem_singleton.mp member]

/-- A later request changes nothing about the rename. -/
theorem Told.asked {rename request : Request} {stage destination : Text} {before : Log}
    {reply : Reply} {net' : Net S} {e e' : Exc}
    (told : Told before.length reply net.faults (.error e))
    (after : After (before ++ [(rename, reply)]) (OfAftermath stage destination) net.log)
    (asked : Asked request net net') (same : Tells e' ↔ Tells e) :
    Told before.length reply net'.faults (.error e') := by
  obtain ⟨more, faults, later⟩ := asked.faults
  change Tells e' ↔ Announced _ _ _
  rw [same, faults, Announced.append]
  · exact told
  · intro p member
    obtain ⟨rest, log, -⟩ := after
    have := later p member
    rw [log, List.length_append, List.length_append, List.length_singleton] at this
    omega

theorem Renaming.asked {rename request : Request} {stage destination : Text} {before : Log}
    {net' : Net S} {e e' : Exc} (h : Renaming rename stage destination before net (.error e))
    (asked : Asked request net net') (allowed : OfAftermath stage destination request)
    (same : Tells e' ↔ Tells e) : Renaming rename stage destination before net' (.error e') := by
  cases h with
  | unsent after => exact .unsent (asked.after after allowed.ofSession)
  | sent only after told => exact .sent only (asked.after after allowed) (told.asked after asked same)

theorem publish_wp {c : SFTPConnector} {stage destination filename : Text} {overwrite : Bool}
    (calm : Calm s.requests net) :
    (c.publish stage destination filename overwrite).Wp (session serve)
      (fun r s' net' => SameUpload s s' ∧
        Renaming (SFTPConnector.publishRequest stage destination overwrite) stage destination
          net.log net' r) s net := by
  refine .bind (P := Post (fun _ s' net' => Calm s'.requests net' ∧ SameUpload s s' ∧
      After net.log (· = .stat destination) net'.log)
    fun _ s' net' => SameUpload s s' ∧ After net.log (· = .stat destination) net'.log) ?_ ?_ ?_
  · unfold SFTPConnector.checkAbsent
    split
    · exact .pure (Setting.settled_alone.mpr ⟨calm, rfl, .refl⟩)
    · exact refuseExisting_wp calm
  · intro _ s₁ net₁ looked
    obtain ⟨calm₁, same₁, looks, log₁, only⟩ := looked
    refine .catching (rename_wp calm₁) ?_ ?_
    · intro _ s₂ net₂ renamed
      obtain ⟨same₂, ⟨reply, log₂, told⟩ | ⟨e, impossible, -⟩, -⟩ := renamed
      · refine Setting.settled_alone.mpr ⟨same₁.trans same₂, .sent only ?_ (log₁ ▸ told)⟩
        rw [log₂, log₁]
        exact .refl
      · cases impossible
    · intro e s₂ net₂ renamed
      obtain ⟨same₂, outcome, typed⟩ := renamed
      have sofar : Renaming (SFTPConnector.publishRequest stage destination overwrite) stage
          destination net.log net₂ (.error e) := by
        rcases outcome with ⟨reply, log₂, told⟩ | ⟨_, -, log₂⟩
        · refine .sent only ?_ (log₁ ▸ told)
          rw [log₂, log₁]
          exact .refl
        · refine .unsent ?_
          rw [log₂, log₁]
          exact ⟨looks, rfl, fun entry member => only entry member ▸ .look⟩
      refine (reinspect_wp fun tells => typed e rfl tells).mono ?_
      intro r s₃ net₃ again
      obtain ⟨same₃, asked, e', rfl, same⟩ := again
      refine ⟨(same₁.trans same₂).trans same₃, ?_⟩
      rcases asked with rfl | asked
      · exact sofar.asked (.unsent rfl rfl) .look same
      · exact sofar.asked asked .look same
  · intro e s₁ net₁ looked
    refine Setting.settled_alone.mpr ⟨looked.1, .unsent ?_⟩
    exact looked.2.mono fun request look => look ▸ .look

/-! ### Cleaning up -/

/-- The staging file is removed; an error of that is not raised. -/
theorem discardStage_wp {stage : Text} :
    (SFTPConnector.discardStage stage).Wp (session serve)
      (fun r s' net' => SameUpload s s' ∧ Asked (.remove stage) net net' ∧
        ∀ e, r = .error e → e = .unicodeEncode ∧ ¬(Request.remove stage).Encodable) s net := by
  unfold SFTPConnector.discardStage Upload.onRequests Requests.removeQuietly
  refine .zoom (.catching (P := fun r _ net' => Asked (.remove stage) net net' ∧
    ∀ e, r = .error e → RequestFault e ∨ (e = .unicodeEncode ∧ ¬(Request.remove stage).Encodable))
    (.bind ask_wp ?_ ?_) ?_ ?_)
  · intro _ requests net' asked
    exact .pure (Setting.settled_alone.mpr ⟨asked.1, fun _ impossible => nomatch impossible⟩)
  · intro e requests net' asked
    refine Setting.settled_alone.mpr ⟨asked.1, fun e' same => ?_⟩
    cases same
    exact asked.2 e rfl
  · intro _ requests net' asked
    exact Setting.settled_alone.mpr (Setting.settled_alone.mpr
      ⟨rfl, asked.1, fun _ impossible => nomatch impossible⟩)
  · intro e requests net' asked
    have quiet : ∀ r : Except Exc Unit, r = .ok () → SameUpload s { s with requests } ∧
        Asked (.remove stage) net net' ∧
          ∀ e, r = .error e → e = .unicodeEncode ∧ ¬(Request.remove stage).Encodable := by
      rintro _ rfl
      exact ⟨rfl, asked.1, fun _ impossible => nomatch impossible⟩
    rcases asked.2 e rfl with (fault | ⟨code, rfl⟩) | ⟨rfl, unencodable⟩
    · cases e with
      | sftpError | osError | transport | timeout =>
        exact .pure (Setting.settled_alone.mpr (Setting.settled_alone.mpr (quiet _ rfl)))
      | _ => exact fault.elim
    · exact .pure (Setting.settled_alone.mpr (Setting.settled_alone.mpr (quiet _ rfl)))
    · refine .raise (Setting.settled_alone.mpr (Setting.settled_alone.mpr
        ⟨rfl, asked.1, fun e same => ?_⟩))
      cases same
      exact ⟨rfl, unencodable⟩

theorem closeQuietly_wp {handle : Bytes} {requests : Requests} :
    (Requests.closeQuietly handle).Wp (session serve)
      (fun _ _ net' => Asked (.close handle) net net') requests net := by
  refine .catching (P := fun _ _ net' => Asked (.close handle) net net') (.bind
    (P := fun _ _ net' => Asked (.close handle) net net')
    (send_wp (.inr ⟨.timeout, trivial⟩) ?_ ?_ ?_) ?_ ?_) ?_ ?_
  · exact fun reply server _ => ⟨trivial, .sent rfl (.inl rfl)⟩
  · rintro e net' - (rfl | ⟨reply, server, -, rfl⟩)
    · exact ⟨trivial, .unsent rfl rfl⟩
    · exact ⟨trivial, .sent rfl (.inr ⟨e, rfl⟩)⟩
  · exact fun _ => .unsent rfl rfl
  · exact fun _ _ _ asked => .modify (Setting.settled_alone.mpr asked)
  · exact fun _ _ _ asked => Setting.settled_alone.mpr asked
  · exact fun _ _ _ asked => Setting.settled_alone.mpr asked
  · intro e _ _ asked
    split
    · exact .pure (Setting.settled_alone.mpr asked)
    · exact .raise (Setting.settled_alone.mpr asked)

theorem release_wp :
    Upload.release.Wp (session serve)
      (fun r _ net' => (net' = net ∧ r = .ok ()) ∨ ∃ handle, s.handle = some handle ∧
        Asked (.close handle) net net') s net := by
  unfold Upload.release
  rw [Wp.modify_bind, Wp.fields_bind]
  cases opened : s.handle with
  | none =>
    exact .pure (Setting.settled_alone.mpr (.inl ⟨rfl, rfl⟩))
  | some handle =>
    dsimp only
    rw [Wp.modify_bind]
    refine .zoom (closeQuietly_wp.mono fun _ _ _ asked => ?_)
    exact Setting.settled_alone.mpr (.inr ⟨handle, rfl, asked⟩)

/-- Whatever was asked for, cleaning up adds only requests of the session. -/
theorem discardUpload_wp {stage destination : Text} {base : Log}
    (after : After base (OfSession stage destination) net.log) :
    (SFTPConnector.discardUpload stage).Wp (session serve)
      (fun _ _ net' => After base (OfSession stage destination) net'.log) s net := by
  refine .bind release_wp ?_ ?_
  · intro _ s' net' released
    refine discardStage_wp.mono fun r _ net'' discarded => discarded.2.1.after ?_ .remove
    rcases released with ⟨rfl, -⟩ | ⟨handle, -, asked⟩
    · exact after
    · exact asked.after after (.upload .close)
  · intro e s' net' released
    refine Setting.settled_alone.mpr ?_
    rcases released with ⟨-, impossible⟩ | ⟨handle, -, asked⟩
    · cases impossible
    · exact asked.after after (.upload .close)

/-- After the file is closed, cleaning up only removes the stage. -/
theorem discardClosed_wp {stage : Text} (closed : s.handle = none)
    (encodable : (Request.remove stage).Encodable) :
    (SFTPConnector.discardUpload stage).Wp (session serve)
      (fun r _ net' => r = .ok () ∧ Asked (.remove stage) net net') s net := by
  refine .bind release_wp ?_ ?_
  · intro _ s' net' released
    rcases released with ⟨rfl, -⟩ | ⟨handle, opened, -⟩
    · refine discardStage_wp.mono fun r _ net'' discarded => ?_
      obtain ⟨-, asked, raised⟩ := discarded
      refine ⟨?_, asked⟩
      cases r with
      | ok _ => rfl
      | error e => exact absurd encodable (raised e rfl).2
    · rw [closed] at opened
      cases opened
  · intro e s' net' released
    rcases released with ⟨-, impossible⟩ | ⟨handle, opened, -⟩
    · cases impossible
    · rw [closed] at opened
      cases opened

/-! ### The body -/

section Body

variable {lawful : Log → Prop} {u : Upload} {handle sent : Bytes}

/-- The body writes, or has finished the upload. -/
def InBody (lawful : Log → Prop) (handle : Bytes) (stage : Text) (sent : Bytes) (s : UploadState)
    (net : Net S) : Prop :=
  Sending lawful handle sent s net ∨ Finished lawful stage sent s net

/-- A write to a finished upload raises, unless it has nothing to write. -/
theorem write_finished_wp {data : Bytes} (h : Finished lawful u.stage sent s net) :
    (Upload.write u data).Wp (upload serve lawful)
      (Post (fun _ s' net' => Finished lawful u.stage (sent ++ data) s' net') fun _ _ _ => True)
      s net := by
  refine withFailures_wp (.iterate (I := fun _ start s' net' =>
    start = 0 ∧ Finished lawful u.stage sent s' net') ?_ (n := 0) ⟨rfl, h⟩)
  intro n start s net inv
  obtain ⟨rfl, finished⟩ := inv
  unfold Upload.writeChunk
  split
  · refine .bind (P := Post (fun _ s' _ => s'.handle = none) fun _ _ _ => True) ?_ ?_
      fun _ _ _ _ => Setting.settled_alone.mpr (Setting.settled_alone.mpr (Setting.settled_alone.mpr trivial))
    · unfold Upload.makeRoom
      rw [Wp.fields_bind, finished.settling.drained, if_neg (by decide)]
      exact .pure (Setting.settled_alone.mpr finished.settling.opened)
    · intro _ s' net' closed
      refine .bind (P := Post (fun _ _ _ => False) fun _ _ _ => True) ?_
        (fun _ _ _ impossible => impossible.elim)
        fun _ _ _ _ => Setting.settled_alone.mpr (Setting.settled_alone.mpr (Setting.settled_alone.mpr trivial))
      unfold Upload.openHandle
      rw [Wp.fields_bind, (show s'.handle = none from closed)]
      exact .raise (Setting.settled_alone.mpr trivial)
  · rename_i nothing
    have empty : data = [] := List.eq_nil_of_length_eq_zero (Nat.eq_zero_of_not_pos nothing)
    refine .pure (Setting.settled_alone.mpr (Setting.settled_alone.mpr (Setting.settled_alone.mpr ?_)))
    rw [empty, List.append_nil]
    exact finished

theorem perform_wp {call : SinkCall} (own : Allows lawful (OfUpload handle u.stage))
    (h : InBody lawful handle u.stage sent s net) :
    (u.perform call).Wp (upload serve lawful)
      (Post (fun _ s' net' =>
        InBody lawful handle u.stage (sent ++ SinkCall.written [call]) s' net')
        fun _ _ _ => True) s net := by
  cases call with
  | write data =>
    have same : SinkCall.written [.write data] = data := List.append_nil data
    rw [same]
    rcases h with sending | finished
    · exact (Upload.write_wp own sending).post (fun _ _ _ done => .inl done)
        fun _ _ _ _ => trivial
    · exact (write_finished_wp finished).post (fun _ _ _ done => .inr done)
        fun _ _ _ _ => trivial
  | finish =>
    have same : SinkCall.written [.finish] = [] := rfl
    rw [same, List.append_nil]
    rcases h with sending | finished
    · exact (Upload.finish_wp own sending).post (fun _ _ _ done => .inr done)
        fun _ _ _ _ => trivial
    · change (Upload.finish u).Wp _ _ _ _
      unfold Upload.finish
      rw [Wp.fields_bind, finished.finished, if_pos rfl]
      exact .pure (Setting.settled_alone.mpr (.inr finished))

theorem SinkCall.written_append (first last : List SinkCall) :
    SinkCall.written (first ++ last) = SinkCall.written first ++ SinkCall.written last :=
  List.flatMap_append

theorem runBody_wp {body : SinkBody} (own : Allows lawful (OfUpload handle u.stage))
    (h : Sending lawful handle [] s net) :
    (u.runBody body).Wp (upload serve lawful)
      (Post (fun _ s' net' =>
        InBody lawful handle u.stage (SinkCall.written body.calls) s' net')
        fun _ _ _ => True) s net := by
  refine .bind (P := Post (fun _ s' net' =>
      InBody lawful handle u.stage (SinkCall.written body.calls) s' net') fun _ _ _ => True)
    (.forEach (I := fun done s' net' =>
      InBody lawful handle u.stage (SinkCall.written done) s' net') ?_ ?_ (.inl h)) ?_
    fun _ _ _ _ => Setting.settled_alone.mpr trivial
  · intro done call rest _ s net inBody
    refine (perform_wp own inBody).post ?_ fun _ _ _ _ => Setting.settled_alone.mpr trivial
    intro _ s' net' next
    rw [SinkCall.written_append]
    exact next
  · exact fun _ _ done => Setting.settled_alone.mpr done
  · intro _ s' net' done
    split
    · exact .pure (Setting.settled_alone.mpr done)
    · exact .raise (Setting.settled_alone.mpr trivial)

theorem finishBody_wp (own : Allows lawful (OfUpload handle u.stage))
    (h : InBody lawful handle u.stage sent s net) :
    (Upload.finish u).Wp (upload serve lawful)
      (Post (fun _ s' net' => Finished lawful u.stage sent s' net') fun _ _ _ => True) s net := by
  rcases h with sending | finished
  · exact Upload.finish_wp own sending
  · unfold Upload.finish
    rw [Wp.fields_bind, finished.finished, if_pos rfl]
    exact .pure (Setting.settled_alone.mpr finished)

end Body

/-! ### The whole session -/

/-- What happens after the staging file was created with the log `base`. -/
inductive Filled (rename : Request) (stage destination : Text) (handle : Bytes) (base : Log)
    (sent : Bytes) (net : Net S) : Except Exc Unit → Prop
  /-- The rename was not asked for. -/
  | unrenamed {e : Exc} : After base (OfSession stage destination) net.log →
    Filled rename stage destination handle base sent net (.error e)
  /-- All bytes were stored, and then the rename was asked for. -/
  | renamed {written again : Log} {reply : Reply} {r : Except Exc Unit} :
    Only (OfUpload handle stage) written → Only (· = .stat destination) again →
    dataOf (writesOf written) = sent → Consecutive 0 (writesOf written) →
    (∀ entry ∈ written, entry.1.written.isSome → Succeeded entry.2) →
    After (base ++ written ++ again ++ [(rename, reply)]) (OfAftermath stage destination) net.log →
    Told (base ++ written ++ again).length reply net.faults r →
    Filled rename stage destination handle base sent net r

/-- What the log of a session says, together with its outcome. -/
inductive SessionLog (rename : Request) (stage destination : Text) (sent : Bytes) (net : Net S) :
    Except Exc Unit → Prop
  /-- The staging file was not created, as far as the client knows. -/
  | unopened {e : Exc} :
    Only (fun r => r = .stat destination ∨ r = .openNew stage ∨ r = .remove stage) net.log →
    SessionLog rename stage destination sent net (.error e)
  | opened {looks : Log} {reply : Reply} {handle : Bytes} {r : Except Exc Unit} :
    Only (· = .stat destination) looks → openedHandle reply = .ok handle →
    Filled rename stage destination handle (looks ++ [(.openNew stage, reply)]) sent net r →
    SessionLog rename stage destination sent net r

/-- A specification of the upload, as one of the session; when the upload raises,
its log is still the log of an upload. -/
theorem in_session {lawful : Log → Prop} {α : Type} {x : UploadRoutine α}
    {A : α → UploadState → Net S → Prop} {B : Exc → UploadState → Net S → Prop}
    (h : x.Wp (upload serve lawful) (Post A B) s net) (start : InOrder lawful net) :
    x.Wp (session serve) (Post A fun _ _ net' => lawful net'.log) s net := by
  have kept := Prog.Wp.keep h start (fun _ _ inOrder same => same ▸ inOrder)
    fun _ _ _ inOrder => inOrder
  refine Prog.Wp.mono (kept.promise fun _ _ _ => trivial) ?_
  rintro ⟨r, s'⟩ net' ⟨done, inOrder⟩
  cases r with
  | ok a => exact done
  | error e => exact inOrder.kinds

/-- The upload starts when the file is open. -/
theorem sending_opened {base : Log} {handle : Bytes} {kind : Request → Prop}
    (calm : Calm s.requests net) (same : SameUpload { handle := none } s) (log : net.log = base)
    (unwritten : writesOf base = []) (unclosed : ∀ entry ∈ base, ¬entry.1.isClose) :
    Sending (After base kind) handle [] { s with handle := some handle } net := by
  subst log
  have fields : s = { requests := s.requests, handle := none } := same
  have flying : net.flying = [] :=
    List.eq_nil_of_length_eq_zero (Nat.le_zero.mp (calm.idle.flying_le calm.heard))
  have written : ∀ entry ∈ net.log, ¬entry.1.written.isSome := by
    intro entry member write
    obtain ⟨w, found⟩ := Option.isSome_iff_exists.mp write
    have : w ∈ writesOf net.log := List.mem_filterMap.mpr ⟨entry, member, found⟩
    rw [unwritten] at this
    exact List.not_mem_nil this
  exact {
    inOrder := {
      window := by
        rw [flying]
        exact Nat.zero_le _
      kinds := .refl
      consecutive := by
        rw [unwritten]
        trivial
      closed := fun closed =>
        (unclosed closed.choose closed.choose_spec.1 closed.choose_spec.2).elim }
    sound := calm.sound
    opened := rfl
    unfinished := by rw [fields]
    size := by rw [fields]; rfl
    whole := by rw [unwritten]; rfl
    unclosed := unclosed
    room := by rw [fields]; exact Nat.zero_le _
    heard := calm.heard
    waiting := ⟨[], by rw [fields]; rfl, calm.idle⟩
    acknowledged := fun number entry found write =>
      (written entry (List.mem_of_getElem? found) write).elim }

theorem OfSession.of_upload {handle : Bytes} {stage destination : Text} {request : Request}
    (h : OfUpload handle stage request) : OfSession stage destination request :=
  .upload h

theorem fillStage_wp {c : SFTPConnector} {u : Upload} {destination filename : Text}
    {overwrite : Bool} {body : SinkBody} {handle : Bytes} {base : Log}
    (unwritten : writesOf base = [])
    (h : Sending (After base (OfUpload handle u.stage)) handle [] s net) :
    (c.fillStage u destination filename overwrite body).Wp (session serve)
      (fun r (s' : UploadState) net' =>
        Filled (SFTPConnector.publishRequest u.stage destination overwrite) u.stage destination
          handle base (SinkCall.written body.calls) net' r ∧
        (After base (OfSession u.stage destination) net'.log ∧ (∃ e, r = .error e) ∨
          s'.handle = none))
      s net := by
  have raised : ∀ e (s' : UploadState) (net' : Net S),
      After base (OfUpload handle u.stage) net'.log →
      (session serve).Settled (fun net' =>
        Filled (SFTPConnector.publishRequest u.stage destination overwrite) u.stage destination
          handle base (SinkCall.written body.calls) net' (.error e) ∧
        (After base (OfSession u.stage destination) net'.log ∧
          (∃ e', (Except.error e : Except Exc Unit) = .error e') ∨ s'.handle = none)) net' := by
    intro e s' net' after
    have wider : After base (OfSession u.stage destination) net'.log :=
      after.mono fun _ => OfSession.of_upload
    exact Setting.settled_alone.mpr ⟨.unrenamed wider, .inl ⟨wider, e, rfl⟩⟩
  refine .bind (in_session (runBody_wp After.allows h) h.inOrder) ?_
    fun e s' net' after => raised e s' net' after
  intro _ s₁ net₁ inBody
  have start : InOrder (After base (OfUpload handle u.stage)) net₁ := by
    rcases inBody with sending | finished
    · exact sending.inOrder
    · exact finished.settling.quiet.inOrder
  refine .bind (in_session (finishBody_wp After.allows inBody) start) ?_
    fun e s' net' after => raised e s' net' after
  intro _ s₂ net₂ finished
  have quiet := finished.settling.quiet
  obtain ⟨written, log, only⟩ := quiet.kinds
  have writes : writesOf net₂.log = writesOf written := by
    rw [log, writesOf_append, unwritten, List.nil_append]
  refine (publish_wp ⟨quiet.idle, quiet.heard, quiet.sound⟩).mono ?_
  intro r s₃ net₃ published
  obtain ⟨same, rename⟩ := published
  have closed : s₃.handle = none := by
    rw [(show s₃ = _ from same)]
    exact finished.settling.opened
  refine ⟨?_, .inr closed⟩
  cases rename with
  | unsent after =>
    exact .unrenamed (After.trans ⟨written, log, fun entry member => .upload (only entry member)⟩
      after)
  | @sent again reply _ looks after told =>
    rw [log] at after told
    exact .renamed only looks (writes ▸ quiet.whole) (writes ▸ quiet.consecutive)
      (fun entry member => quiet.succeeded entry (by
        rw [log]
        exact List.mem_append_right _ member)) after told

/-- Removing the stage adds one request and no doubt about the rename. -/
theorem Filled.asked {rename : Request} {stage destination : Text} {handle : Bytes} {base : Log}
    {sent : Bytes} {net' : Net S} {e : Exc}
    (h : Filled rename stage destination handle base sent net (.error e))
    (asked : Asked (.remove stage) net net') :
    Filled rename stage destination handle base sent net' (.error e) := by
  cases h with
  | unrenamed after => exact .unrenamed (asked.after after .remove)
  | renamed only looks whole consecutive succeeded after told =>
    exact .renamed only looks whole consecutive succeeded (asked.after after .remove)
      (told.asked after asked Iff.rfl)

/-- A session from the inspection of the destination on. -/
theorem stageAndPublish_wp {c : SFTPConnector} {destination stage filename : Text}
    {overwrite : Bool} {body : SinkBody} {server : S} :
    (c.stageAndPublish destination stage filename overwrite body).Wp (session serve)
      (fun r _ net' => SessionLog (SFTPConnector.publishRequest stage destination overwrite) stage
        destination (SinkCall.written body.calls) net' r)
      { handle := none } { server } := by
  have looked : ∀ {log : Log}, After [] (· = .stat destination) log →
      Only (· = .stat destination) log := by
    intro log after
    obtain ⟨more, rfl, only⟩ := after
    exact only
  refine .bind (P := Post (fun _ s' net' => Calm s'.requests net' ∧
      SameUpload { handle := none } s' ∧ Only (· = .stat destination) net'.log)
      fun _ _ net' => Only (· = .stat destination) net'.log) (withFailures_wp
    ((replaceableMode_wp ⟨.nil, rfl, rfl⟩).mono ?_)) ?_ ?_
  · intro r s' net' inspected
    refine Setting.settled_alone.mpr ?_
    cases r with
    | ok mode => exact ⟨inspected.1, inspected.2.1, looked inspected.2.2⟩
    | error e => exact looked inspected
  · intro mode s₁ net₁ inspected
    obtain ⟨calm₁, same₁, looks⟩ := inspected
    refine .bind (P := Post (fun handle s' net' => Calm s'.requests net' ∧ SameUpload s₁ s' ∧
        (Request.openNew stage).Encodable ∧ ∃ reply, openedHandle reply = .ok handle ∧
          net'.log = net₁.log ++ [(.openNew stage, reply)])
        fun _ _ net' => Only (fun r => r = .stat destination ∨ r = .openNew stage ∨
          r = .remove stage) net'.log) ?_ ?_ ?_
    · refine .catching (openStage_wp calm₁) (fun _ _ _ opened => Setting.settled_alone.mpr opened) ?_
      intro e s₂ net₂ after
      have only : After [] (fun r => r = .stat destination ∨ r = .openNew stage ∨
          r = .remove stage) net₂.log := by
        refine After.trans ⟨net₁.log, rfl, fun entry member => .inl (looks entry member)⟩ ?_
        exact after.mono fun _ same => .inr (.inl same)
      refine .bind (P := fun _ _ (net' : Net S) => Only (fun r => r = .stat destination ∨
          r = .openNew stage ∨ r = .remove stage) net'.log)
        (discardStage_wp.mono fun r _ net' discarded => ?_)
        (fun _ _ _ done => .raise (Setting.settled_alone.mpr done))
        fun _ _ _ done => Setting.settled_alone.mpr done
      obtain ⟨more, rfl, done⟩ := discarded.2.1.after only (.inr (.inr rfl))
      exact done
    · intro handle s₂ net₂ opened
      obtain ⟨calm₂, same₂, encodable, reply, accepted, log⟩ := opened
      rw [Wp.modify_bind]
      have kinds : ∀ entry ∈ net₂.log, entry.1 = .stat destination ∨ entry.1 = .openNew stage := by
        rw [log]
        intro entry member
        rcases List.mem_append.mp member with member | single
        · exact .inl (looks entry member)
        · rw [List.mem_singleton.mp single]
          exact .inr rfl
      have unwritten : writesOf net₂.log = [] := by
        refine List.filterMap_eq_nil_iff.mpr fun entry member => ?_
        rcases kinds entry member with kind | kind <;> rw [kind] <;> rfl
      have unclosed : ∀ entry ∈ net₂.log, ¬entry.1.isClose := by
        intro entry member
        rcases kinds entry member with kind | kind <;> rw [kind] <;> exact Bool.false_ne_true
      have sending : Sending (After net₂.log (OfUpload handle stage)) handle []
          { s₂ with handle := some handle } net₂ :=
        sending_opened calm₂ (same₁.trans same₂) rfl unwritten unclosed
      have session : ∀ {r : Except Exc Unit} {net' : Net S},
          Filled (SFTPConnector.publishRequest stage destination overwrite) stage destination handle
            net₂.log (SinkCall.written body.calls) net' r →
          SessionLog (SFTPConnector.publishRequest stage destination overwrite) stage destination
            (SinkCall.written body.calls) net' r := by
        intro r net' filled
        rw [log] at filled
        exact .opened looks accepted filled
      refine .catching (fillStage_wp (u := { root := c.root, stage, mode }) unwritten sending) ?_ ?_
      · exact fun _ _ _ filled => Setting.settled_alone.mpr (session filled.1)
      · intro e s₃ net₃ outcome
        obtain ⟨filled, ⟨after, -⟩ | closed⟩ := outcome
        · refine .bind (discardUpload_wp after) ?_ ?_
          · exact fun _ _ _ after => .raise (Setting.settled_alone.mpr (session (.unrenamed after)))
          · exact fun _ _ _ after => Setting.settled_alone.mpr (session (.unrenamed after))
        · refine .bind (discardClosed_wp closed encodable) ?_ ?_
          · exact fun _ _ _ discarded =>
              .raise (Setting.settled_alone.mpr (session (filled.asked discarded.2)))
          · intro e' _ _ discarded
            cases discarded.1
    · exact fun e _ _ only => Setting.settled_alone.mpr (.unopened only)
  · intro e _ _ only
    exact Setting.settled_alone.mpr (.unopened fun entry member => .inl (only entry member))

/-- `SFTPConnector.write`: whatever the server does, the log is that of a session. -/
theorem write_wp {c : SFTPConnector} {connected : Except Exc Unit} {filename : Text}
    {stagingId : Uuid} {overwrite : Bool} {body : SinkBody} {server : S} :
    (c.write connected filename stagingId overwrite body).Wp (session serve)
      (fun r _ net' => SessionLog (SFTPConnector.publishRequest
          (posixJoin c.root (stageName stagingId)) (posixJoin c.root filename) overwrite)
        (posixJoin c.root (stageName stagingId)) (posixJoin c.root filename)
        (SinkCall.written body.calls) net' r)
      { handle := none } { server } := by
  have nothing : ∀ {log : Log} {kind : Request → Prop}, log = [] → Only kind log := by
    rintro log kind rfl entry member
    exact (List.not_mem_nil member).elim
  refine .bind (P := fun r s net => s = { handle := none } ∧ net = { server } ∧
      ∀ destination, r = .ok destination → destination = posixJoin c.root filename)
    (.ofExcept (Setting.settled_alone.mpr ⟨rfl, rfl, ?_⟩)) ?_ ?_
  · intro destination resolved
    unfold SFTPConnector.path at resolved
    cases valid : validateFilename filename with
    | error e =>
      rw [valid] at resolved
      cases resolved
    | ok name =>
      rw [valid] at resolved
      exact (Except.ok.inj resolved).symm
  · rintro destination _ _ ⟨rfl, rfl, resolved⟩
    obtain rfl := resolved destination rfl
    refine .bind (P := fun _ s net => s = { handle := none } ∧ net = { server })
      (.ofExcept (Setting.settled_alone.mpr ⟨rfl, rfl⟩)) ?_ ?_
    · rintro _ _ _ ⟨rfl, rfl⟩
      exact stageAndPublish_wp
    · rintro e _ _ ⟨rfl, rfl⟩
      exact Setting.settled_alone.mpr (.unopened (nothing rfl))
  · rintro e _ _ ⟨rfl, rfl, -⟩
    exact Setting.settled_alone.mpr (.unopened (nothing rfl))

end Rules

end DataBridge
