import DataBridge.Connectors.Probe
import DataBridge.Sftp.Exchange

/-!
# The access check of the SFTP connector

`SFTPConnector.check_access` against a server that applies each request or not.
The probe may be created by an OPEN whose reply gives no handle or never arrives.
Then its removal is tried once and its failure only logged, so the error of the
check does not name the probe: `checkAccess_ensures` says that the check keeps its
promise exactly when the client learned of the OPEN, or a REMOVE was applied.
-/

namespace DataBridge

open Effect Routine Files

/-! ## The server -/

/-- The entries of a server by their paths, with the reply to the OPEN that created
a file and whether that file was removed since. -/
structure ProbeServer where
  dir : Directory Text
  created : Option Reply := none
  removed : Bool := false

/-- Each request is applied or not; a REMOVE that is not applied is not reported
as done, nor as without its file. -/
inductive ProbeServer.Serves (server : ProbeServer) : Request → Reply → ProbeServer → Prop
  | openDirectory {path : Text} {reply : Reply} : Serves server (.openDirectory path) reply server
  | close {handle : Bytes} {reply : Reply} : Serves server (.close handle) reply server
  | create {path : Text} {mode : Nat} {reply : Reply} : server.dir.entries path = none →
    Serves server (.openNew path) reply
      { dir := server.dir.create path mode, created := some reply }
  | unopened {path : Text} {reply : Reply} : Serves server (.openNew path) reply server
  | remove {path : Text} {reply : Reply} : server.dir.entries path ≠ none →
    Serves server (.remove path) reply
      { server with dir := server.dir.unlink path, removed := true }
  | unremoved {path : Text} {reply : Reply} :
    (server.dir.entries path ≠ none → ¬Succeeded reply ∧ ¬RefusedWith sftpNoSuchFile reply) →
    Serves server (.remove path) reply server

/-- The reply to the OPEN has a handle, and the transport did not fail before it
arrived. -/
def OpenAnswered (probe : Text) (net : Net ProbeServer) (reply : Reply) : Prop :=
  (∃ handle, openedHandle reply = .ok handle) ∧
    ∀ number e, (number, e) ∈ net.faults → net.log[number]? ≠ some (.openNew probe, reply)

/-- The client learned of the probe, if there was one, or it is gone. -/
def ProbeKnown (probe : Text) (net : Net ProbeServer) : Prop :=
  ∀ reply, net.server.created = some reply →
    OpenAnswered probe net reply ∨ net.server.removed = true

section Messages

variable {c : SFTPConnector} {e : Exc}

/-! ## The messages of the errors -/

theorem dot_not_mem_describe (code : Nat) : .ofChar '.' ∉ describe code := by
  have texts : ∀ text ∈ sftpDescriptions, .ofChar '.' ∉ lit text := by decide
  unfold describe
  split
  · rename_i text found
    exact texts text (List.mem_of_getElem? found)
  · intro member
    rcases List.mem_append.mp member with start | number
    · exact absurd start (by decide)
    · obtain ⟨digit, inNumber, same⟩ := List.mem_map.mp number
      rw [Nat.toString_eq_repr, Nat.toList_repr] at inNumber
      have isDigit := Nat.isDigit_of_mem_toDigits (by decide) (by decide) inNumber
      have dot : digit.toNat = 46 := congrArg Fin.val same
      have low := (Bool.and_eq_true_iff.mp isDigit).1
      have low : 48 ≤ digit.toNat := of_decide_eq_true low
      omega

/-- What a request raises, apart from a missing file, is reported with the action. -/
theorem mentions_removeFailures {name : Text} (fault : RequestFault e)
    (present : e ≠ .status sftpNoSuchFile) : Mentions name ((c.removeFailures name).translate e) := by
  have action : name <:+: (c.removeFailures name).action := by
    unfold SFTPConnector.removeFailures
    dsimp only
    rw [List.append_assoc, List.append_assoc]
    exact List.infix_append _ _ _
  have after : ∀ start : Text, name <:+: start ++ (c.removeFailures name).action := fun start =>
    action.trans List.infix_append_right
  rcases fault with fault | ⟨code, rfl⟩
  · cases e with
    | osError | transport | timeout | sftpError => exact ⟨_, rfl, after _⟩
    | _ => exact fault.elim
  · have unnamed : (c.removeFailures name).classified code = none := by
      unfold Failures.classified SFTPConnector.removeFailures
      rw [if_neg fun same => present (congrArg Exc.status same)]
      split
      · rfl
      · split <;> rfl
    rw [Failures.translate, unnamed]
    dsimp only
    split
    · exact ⟨_, rfl, after _⟩
    · refine ⟨_, rfl, ?_⟩
      rw [List.append_assoc, List.append_assoc]
      exact ((after _).trans List.infix_append_left).trans (by rw [List.append_assoc])

/-- The error of an OPEN has no name but that of the root. -/
theorem quotes_testFailures (fault : RequestFault e ∨ e = .unicodeEncode) :
    ∃ error, c.testFailures.translate e = .dataBridge error ∧
      (Quotes c.root error.message ∨ .ofChar '.' ∉ error.message) := by
  have action : Quotes c.root c.testFailures.action :=
    quotes_literals (lit "test write access to ") [] (by decide) (by decide)
      (by decide) (by decide)
  rcases fault with (fault | ⟨code, rfl⟩) | rfl
  · cases e with
    | osError | transport | timeout | sftpError =>
      exact ⟨_, rfl, .inl (action.prepend (by decide))⟩
    | _ => exact fault.elim
  · unfold Failures.translate Failures.classified
    dsimp only
    by_cases missing : code = sftpNoSuchFile
    · rw [if_pos missing]
      exact ⟨_, rfl, .inl (quotes_literals (lit "The SFTP root ")
        (lit " does not exist or is not a directory") (by decide) (by decide) (by decide)
        (by decide))⟩
    · have unnamed : (if code = sftpPermissionDenied then c.testFailures.denied
          else if code = sftpOpUnsupported then c.testFailures.unsupported else none) = none := by
        split
        · rfl
        · split <;> rfl
      rw [if_neg missing, unnamed]
      dsimp only
      split
      · exact ⟨_, rfl, .inl (action.prepend (by decide))⟩
      · refine ⟨_, rfl, .inl ?_⟩
        refine Quotes.append ?_ (by decide)
        refine Quotes.append ?_ (dot_not_mem_describe code)
        refine Quotes.append ?_ (by decide)
        exact action.prepend (by decide)
  · exact ⟨_, rfl, .inr (by decide)⟩

/-- The error of an OPEN does not name the probe. -/
theorem not_mentions_testFailures {probeId : Uuid} (unnamed : ¬probeName probeId <:+: c.root)
    (fault : RequestFault e ∨ e = .unicodeEncode) :
    ¬Mentions (probeName probeId) (c.testFailures.translate e) := by
  intro mentioned
  obtain ⟨error, same, part⟩ := mentioned
  obtain ⟨error', same', quotes | plain⟩ := quotes_testFailures (c := c) fault
  · cases same.symm.trans same'
    exact unnamed (quotes.within (quote_not_mem_probeName probeId) (dot_mem_probeName probeId) part)
  · cases same.symm.trans same'
    exact plain (part.subset (dot_mem_probeName probeId))

end Messages

/-! ## What a request leaves -/

section Requests

variable {S : Type} {serve : S → Request → Reply → S → Prop} {net net' : Net S} {request : Request}

/-- Every fault belongs to a request of the log. -/
def Net.Dated (net : Net S) : Prop := ∀ number e, (number, e) ∈ net.faults → number < net.log.length

theorem Once.dated (once : Once serve request net net') (dated : net.Dated) : net'.Dated := by
  intro number e fault
  rcases once with unasked | ⟨reply, answered, same | ⟨e', more⟩⟩
  · rw [unasked.faults] at fault
    rw [unasked.log]
    exact dated number e fault
  · rw [same] at fault
    rw [answered.log, List.length_append]
    exact Nat.lt_add_right _ (dated number e fault)
  · rw [more] at fault
    rw [answered.log, List.length_append, List.length_singleton]
    rcases List.mem_append.mp fault with old | new
    · exact Nat.lt_add_right _ (dated number e old)
    · cases List.mem_singleton.mp new
      exact Nat.lt_succ_self _

end Requests

section Probe

variable {probe : Text} {before : Directory Text} {server server' : ProbeServer}
  {net net' : Net ProbeServer} {s s' : Requests} {request : Request} {reply : Reply}
  {answered : Prop}

/-- A later request says nothing about the OPEN. -/
theorem OpenAnswered.once_iff (other : request ≠ .openNew probe) (dated : net.Dated)
    (once : Once ProbeServer.Serves request net net') :
    OpenAnswered probe net' reply ↔ OpenAnswered probe net reply := by
  refine and_congr_right fun _ => ?_
  have faults : ∀ number e, (number, e) ∈ net.faults → (number, e) ∈ net'.faults := by
    intro number e fault
    rcases once with unasked | ⟨_, -, same | ⟨e', more⟩⟩
    · rwa [unasked.faults]
    · rwa [same]
    · rw [more]
      exact List.mem_append_left _ fault
  have older : ∀ number, number < net.log.length → net'.log[number]? = net.log[number]? := by
    intro number bound
    rcases once with unasked | ⟨_, answered, -⟩
    · rw [unasked.log]
    · rw [answered.log, List.getElem?_append_left bound]
  constructor
  · intro untouched number e fault
    rw [← older number (dated number e fault)]
    exact untouched number e (faults number e fault)
  · intro untouched number e fault same
    rcases once with unasked | ⟨_, answered, same' | ⟨e', more⟩⟩
    · rw [unasked.faults] at fault
      rw [unasked.log] at same
      exact untouched number e fault same
    · rw [same'] at fault
      rw [older number (dated number e fault)] at same
      exact untouched number e fault same
    · rw [more] at fault
      rcases List.mem_append.mp fault with old | new
      · rw [older number (dated number e old)] at same
        exact untouched number e old same
      · cases List.mem_singleton.mp new
        rw [answered.log, List.getElem?_concat_length] at same
        cases same
        exact other rfl

/-- The entries beside the probe are those of `before`, and the probe is there when
it was created and not removed since. -/
structure ProbeOnly (probe : Text) (before : Directory Text) (server : ProbeServer) : Prop where
  others : ∀ path, path ≠ probe → server.dir.entries path = before.entries path
  probe : server.dir.entries probe = none ↔ server.created = none ∨ server.removed = true

theorem ProbeOnly.start (absent : before.entries probe = none) :
    ProbeOnly probe before { dir := before } :=
  ⟨fun _ _ => rfl, iff_of_true absent (.inl rfl)⟩

theorem ProbeOnly.entries_iff (only : ProbeOnly probe before server)
    (absent : before.entries probe = none) :
    server.dir.entries = before.entries ↔ server.dir.entries probe = none := by
  constructor
  · intro same
    rw [same, absent]
  · intro gone
    funext path
    by_cases same : path = probe
    · rw [same, gone, absent]
    · exact only.others path same

/-- One step of the server, applied or not. -/
theorem ProbeOnly.step (only : ProbeOnly probe before server)
    (own : ∀ path, request = .openNew path ∨ request = .remove path → path = probe)
    (step : server.Serves request reply server') : ProbeOnly probe before server' := by
  cases step with
  | openDirectory | close | unopened | unremoved => exact only
  | create absent =>
    obtain rfl := own _ (.inl rfl)
    constructor
    · intro path other
      exact (Directory.create_entries_of_ne other).trans (only.others path other)
    · simp
  | remove present =>
    obtain rfl := own _ (.inr rfl)
    constructor
    · intro path other
      exact (Directory.unlink_entries_of_ne other).trans (only.others path other)
    · simp

/-- Opening the root and releasing a handle change nothing. -/
theorem ProbeServer.Serves.same
    (other : (∃ path, request = .openDirectory path) ∨ ∃ handle, request = .close handle)
    (step : server.Serves request reply server') : server' = server := by
  cases step with
  | openDirectory | close | unopened | unremoved => rfl
  | create | remove =>
    rcases other with ⟨path, impossible⟩ | ⟨handle, impossible⟩
    · cases impossible
    · cases impossible

theorem ProbeServer.Serves.removed (step : server.Serves (.remove probe) reply server') :
    server'.created = server.created ∧
      (server.dir.entries probe = none → server'.dir.entries probe = none) := by
  cases step with
  | remove => exact ⟨rfl, fun _ => Directory.unlink_entries_self⟩
  | unremoved => exact ⟨rfl, id⟩

/-- A REMOVE that is reported as done leaves no probe. -/
theorem ProbeServer.Serves.absent_of_succeeded (step : server.Serves (.remove probe) reply server')
    (succeeded : Succeeded reply) : server'.dir.entries probe = none := by
  cases step with
  | remove => exact Directory.unlink_entries_self
  | unremoved honest =>
    by_contra present
    exact (honest present).1 succeeded

theorem ProbeServer.Serves.absent_of_missing (step : server.Serves (.remove probe) reply server')
    (missing : RefusedWith sftpNoSuchFile reply) : server'.dir.entries probe = none := by
  cases step with
  | remove => exact Directory.unlink_entries_self
  | unremoved honest =>
    by_contra present
    exact (honest present).2 missing

/-- After the OPEN: `answered` tells whether the client learned of a probe that was
created. -/
structure Probed (probe : Text) (before : Directory Text) (answered : Prop) (s : Requests)
    (net : Net ProbeServer) : Prop where
  heard : Heard s net
  dated : net.Dated
  only : ProbeOnly probe before net.server
  outcome : ∀ reply, net.server.created = some reply → (OpenAnswered probe net reply ↔ answered)

/-- Before the OPEN. -/
structure Unopened (probe : Text) (before : Directory Text) (s : Requests)
    (net : Net ProbeServer) : Prop where
  heard : Heard s net
  dated : net.Dated
  only : ProbeOnly probe before net.server
  created : net.server.created = none
  unlogged : ∀ reply, (.openNew probe, reply) ∉ net.log

theorem Unopened.start (absent : before.entries probe = none) :
    Unopened probe before {} ({ server := { dir := before } } : Net ProbeServer) where
  heard := ⟨fun _ none => (List.not_mem_nil none).elim, fun _ _ impossible => nomatch impossible⟩
  dated _ _ none := (List.not_mem_nil none).elim
  only := .start absent
  created := rfl
  unlogged _ none := (List.not_mem_nil none).elim

theorem Unopened.once (start : Unopened probe before s net) (heard : Heard s' net')
    (other : (∃ path, request = .openDirectory path) ∨ ∃ handle, request = .close handle)
    (once : Once ProbeServer.Serves request net net') : Unopened probe before s' net' := by
  have server : net'.server = net.server := by
    rcases once with unasked | ⟨reply, answered, -⟩
    · exact unasked.server
    · exact answered.served.same other
  refine ⟨heard, once.dated start.dated, server ▸ start.only, server ▸ start.created, ?_⟩
  intro reply member
  rcases once with unasked | ⟨reply', answered, -⟩
  · rw [unasked.log] at member
    exact start.unlogged reply member
  · rw [answered.log] at member
    rcases List.mem_append.mp member with old | new
    · exact start.unlogged reply old
    · cases List.mem_singleton.mp new
      rcases other with ⟨path, impossible⟩ | ⟨handle, impossible⟩
      · cases impossible
      · cases impossible

theorem Unopened.probed (start : Unopened probe before s net) : Probed probe before answered s net where
  heard := start.heard
  dated := start.dated
  only := start.only
  outcome reply created := by
    rw [start.created] at created
    cases created

/-- The OPEN tells the client of the probe when it gives a handle. -/
theorem Unopened.opened {sending reading : Exc → Prop} {r : Except Exc Bytes}
    (start : Unopened probe before s net) (heard : Heard s' net')
    (exchange : Exchange ProbeServer.Serves sending reading (.openNew probe) openedHandle net net' r) :
    Probed probe before (∃ handle, r = .ok handle) s' net' := by
  have own : ∀ path, Request.openNew probe = .openNew path ∨ Request.openNew probe = .remove path →
      path = probe := by
    intro path same
    rcases same with same | same
    · cases same
      rfl
    · cases same
  have created_of : ∀ {reply reply' : Reply} {server : ProbeServer},
      net.server.Serves (.openNew probe) reply server → server.created = some reply' →
      reply' = reply := by
    intro reply reply' server served created
    cases served with
    | create absent => exact (Option.some.inj created).symm
    | unopened =>
      rw [start.created] at created
      cases created
  have dated := exchange.once.dated start.dated
  cases exchange with
  | unsent refused unasked =>
    refine ⟨heard, dated, unasked.server ▸ start.only, ?_⟩
    intro reply created
    rw [unasked.server, start.created] at created
    cases created
  | @lost _ e answered faults failed =>
    refine ⟨heard, dated, start.only.step own answered.served, ?_⟩
    intro reply created
    obtain rfl := created_of answered.served created
    refine iff_of_false ?_ ?_
    · intro told
      refine told.2 net.log.length e ?_ ?_
      · rw [faults]
        exact List.mem_append_right _ List.mem_cons_self
      · rw [answered.log, List.getElem?_concat_length]
    · intro opened
      obtain ⟨handle, impossible⟩ := opened
      cases impossible
  | answered answered faults =>
    refine ⟨heard, dated, start.only.step own answered.served, ?_⟩
    intro reply created
    obtain rfl := created_of answered.served created
    refine and_iff_left ?_
    intro number e fault same
    rw [faults] at fault
    rw [answered.log, List.getElem?_append_left (start.dated number e fault)] at same
    exact start.unlogged _ (List.mem_of_getElem? same)

/-- Closing and removing the probe leave what the client learned. -/
theorem Probed.once (probed : Probed probe before answered s net) (heard : Heard s' net')
    (other : (∃ handle, request = .close handle) ∨ request = .remove probe)
    (once : Once ProbeServer.Serves request net net') :
    Probed probe before answered s' net' ∧
      (net.server.dir.entries probe = none → net'.server.dir.entries probe = none) := by
  have apart : request ≠ .openNew probe := by
    rcases other with ⟨handle, rfl⟩ | rfl
    · exact Request.noConfusion
    · exact Request.noConfusion
  have own : ∀ path, request = .openNew path ∨ request = .remove path → path = probe := by
    intro path same
    rcases other with ⟨handle, rfl⟩ | rfl
    · rcases same with same | same
      · cases same
      · cases same
    · rcases same with same | same
      · cases same
      · cases same
        rfl
  have server : ProbeOnly probe before net'.server ∧ net'.server.created = net.server.created ∧
      (net.server.dir.entries probe = none → net'.server.dir.entries probe = none) := by
    rcases once with unasked | ⟨reply, answered, -⟩
    · rw [unasked.server]
      exact ⟨probed.only, rfl, id⟩
    · refine ⟨probed.only.step own answered.served, ?_⟩
      rcases other with ⟨handle, rfl⟩ | rfl
      · rw [answered.served.same (.inr ⟨handle, rfl⟩)]
        exact ⟨rfl, id⟩
      · exact answered.served.removed
  refine ⟨⟨heard, once.dated probed.dated, server.1, ?_⟩, server.2.2⟩
  intro reply created
  rw [OpenAnswered.once_iff apart probed.dated once]
  exact probed.outcome reply (server.2.1 ▸ created)

/-- A client that learned of the probe knows of it. -/
theorem Probed.known (probed : Probed probe before True s net) : ProbeKnown probe net := by
  intro reply created
  exact .inl ((probed.outcome reply created).mpr trivial)

/-- A client that did not learn of the probe needs its removal. -/
theorem Probed.known_iff (probed : Probed probe before False s net) :
    ProbeKnown probe net ↔ net.server.dir.entries probe = none := by
  rw [probed.only.probe]
  constructor
  · intro known
    cases created : net.server.created with
    | none => exact .inl rfl
    | some reply => exact .inr ((known reply created).resolve_left (probed.outcome reply created).mp)
  · intro gone reply created
    rcases gone with none | removed
    · rw [none] at created
      cases created
    · exact .inr removed

/-- The promise is kept when the client learned of the probe. -/
theorem Probed.fine {name : Text} {r : Except Exc Bool} (probed : Probed probe before True s net)
    (absent : before.entries probe = none)
    (settled : net.server.dir.entries probe = none ∨ ∃ e, r = .error e ∧ Mentions name e) :
    Cleared name probe before net.server.dir r ↔ ProbeKnown probe net := by
  refine iff_of_true ?_ probed.known
  rcases settled with gone | ⟨e, rfl, mentioned⟩
  · cases r with
    | ok writable => exact (probed.only.entries_iff absent).mpr gone
    | error e => exact .inl gone
  · exact .inr mentioned

/-- An outcome that does not name the probe keeps the promise when no probe is left. -/
theorem Probed.fine_iff {name : Text} {r : Except Exc Bool}
    (probed : Probed probe before False s net) (absent : before.entries probe = none)
    (untold : ∀ e, r = .error e → ¬Mentions name e) :
    Cleared name probe before net.server.dir r ↔ ProbeKnown probe net := by
  rw [probed.known_iff]
  cases r with
  | ok writable => exact probed.only.entries_iff absent
  | error e => exact or_iff_left (untold e rfl)

theorem Probed.congr {other : Prop} (same : answered ↔ other)
    (probed : Probed probe before answered s net) : Probed probe before other s net :=
  propext same ▸ probed

/-! ## The steps of the check -/

/-- A handle is refused with a status. -/
theorem openedHandle_error {e : Exc} (refused : openedHandle reply = .error e) :
    ∃ code, e = .status code := by
  unfold openedHandle at refused
  cases accepted : accept .handle (stash reply) with
  | error e' =>
    rw [accepted] at refused
    cases refused
    exact accept_error accepted
  | ok payload =>
    rw [accepted] at refused
    exact ⟨_, Reader.strict_string.parse refused⟩

/-- What an exchange over paramiko raises. -/
theorem Exchange.refused {α : Type} {read : Reply → Except Exc α} {e : Exc}
    (statuses : ∀ reply e, read reply = .error e → ∃ code, e = .status code)
    (exchange : Exchange ProbeServer.Serves (fun e => Requests.lost e = true) TransportFault request
      read net net' (.error e)) : RequestFault e ∨ (e = .unicodeEncode ∧ ¬request.Encodable) := by
  generalize outcome : (Except.error e : Except Exc α) = r at exchange
  cases exchange with
  | unsent refused unasked =>
    cases outcome
    exact refused.imp_left fun gone => .inl (transportFault_of_lost gone)
  | lost answered faults failed =>
    cases outcome
    exact .inl (.inl (failed.elim transportFault_of_lost id))
  | @answered reply answered faults => exact .inl (.inr (statuses reply e outcome.symm))

namespace SFTPConnector

variable {c : SFTPConnector}

theorem checkRoot_ensures (start : Unopened probe before s net) :
    c.checkRoot.Ensures (Wire.paramiko ProbeServer.Serves)
      (fun _ s' net' => Unopened probe before s' net') s net := by
  refine withFailures_ensures (.bind (Requests.openHandle_exchange start.heard) ?_ ?_)
  · intro handle s' net' opened
    obtain ⟨heard, exchange⟩ := opened
    have start := start.once heard (.inl ⟨_, rfl⟩) exchange.once
    refine (Requests.closeQuietly_once heard).mono ?_
    intro r s'' net'' closed
    obtain ⟨-, heard, once⟩ := closed
    exact start.once heard (.inr ⟨handle, rfl⟩) once
  · intro e s' net' opened
    obtain ⟨heard, exchange⟩ := opened
    exact start.once heard (.inl ⟨_, rfl⟩) exchange.once

theorem openProbe_ensures (start : Unopened probe before s net) :
    (openProbe probe).Ensures (Wire.paramiko ProbeServer.Serves)
      (fun r s' net' => Probed probe before (∃ handle, r = .ok (some handle)) s' net' ∧
        ∀ e, r = .error e → RequestFault e ∨ e = .unicodeEncode) s net := by
  have opened : ∀ {r : Except Exc Bytes} {s' : Requests} {net' : Net ProbeServer}, Heard s' net' →
      Exchange ProbeServer.Serves (fun e => Requests.lost e = true) TransportFault (.openNew probe)
        openedHandle net net' r → Probed probe before (∃ handle, r = .ok handle) s' net' :=
    fun heard exchange => start.opened heard exchange
  refine .catching (P := fun r s' net' =>
      Probed probe before (∃ handle, r = .ok (some handle)) s' net' ∧
        ∀ e, r = .error e → RequestFault e ∨ e = .unicodeEncode)
    (.bind (Requests.openHandle_exchange start.heard) ?_ ?_) ?_ ?_
  · intro handle s' net' done
    refine .pure ⟨(opened done.1 done.2).congr ?_, fun e impossible => nomatch impossible⟩
    exact iff_of_true ⟨handle, rfl⟩ ⟨handle, rfl⟩
  · intro e s' net' done
    refine ⟨(opened done.1 done.2).congr ?_, ?_⟩
    · exact iff_of_false (fun h => nomatch h) (fun h => nomatch h)
    · intro e' same
      cases same
      exact (done.2.refused fun _ _ => openedHandle_error).imp_right And.left
  · intro opened s' net' done
    exact done
  · intro e s' net' done
    split
    · refine .pure ⟨done.1.congr ?_, fun e impossible => nomatch impossible⟩
      exact iff_of_false (fun h => nomatch h) (fun h => nomatch h)
    · exact .raise done

/-- Either the probe is gone or the error names it. -/
theorem removeProbe_ensures {name : Text} {handle : Bytes}
    (probed : Probed probe before answered s net)
    (encodable : (Request.remove probe).Encodable) :
    (c.removeProbe name probe (some handle)).Ensures (Wire.paramiko ProbeServer.Serves)
      (fun r s' net' => Probed probe before answered s' net' ∧
        Post (fun removed _ net' => removed = true ∧ net'.server.dir.entries probe = none)
          (fun e _ net' => Mentions name e ∨ net'.server.dir.entries probe = none) r s' net')
      s net := by
  refine .bind (Requests.closeQuietly_once probed.heard) ?_ ?_
  · intro _ s₁ net₁ closed
    obtain ⟨-, heard, once⟩ := closed
    have probed := (probed.once heard (.inl ⟨handle, rfl⟩) once).1
    refine .bind (P := fun r s' net' => Probed probe before answered s' net' ∧
        Post (fun _ _ net' => net'.server.dir.entries probe = none)
          (fun e _ net' => Mentions name e ∨ net'.server.dir.entries probe = none) r s' net')
      (withFailures_ensures (.bind (Requests.call_exchange heard) ?_ ?_)) ?_ ?_
    · intro payload s₂ net₂ called
      obtain ⟨heard, exchange⟩ := called
      refine .pure ⟨(probed.once heard (.inr rfl) exchange.once).1, ?_⟩
      change net₂.server.dir.entries probe = none
      generalize outcome : (Except.ok payload : Except Exc Bytes) = r at exchange
      cases exchange with
      | unsent | lost => cases outcome
      | answered answered faults => exact answered.served.absent_of_succeeded ⟨payload, outcome.symm⟩
    · intro e s₂ net₂ called
      obtain ⟨heard, exchange⟩ := called
      refine ⟨(probed.once heard (.inr rfl) exchange.once).1, ?_⟩
      change Mentions name ((c.removeFailures name).translate e) ∨ _
      have fault := (exchange.refused fun _ _ => accept_error).resolve_right fun refused =>
        refused.2 encodable
      by_cases missing : e = .status sftpNoSuchFile
      · right
        subst missing
        generalize outcome : (Except.error (.status sftpNoSuchFile) : Except Exc Bytes) = r at exchange
        cases exchange with
        | unsent refused =>
          cases outcome
          rcases refused with gone | ⟨impossible, -⟩
          · cases gone
          · cases impossible
        | lost answered faults failed =>
          cases outcome
          rcases failed with gone | fault
          · cases gone
          · exact fault.elim
        | answered answered faults => exact answered.served.absent_of_missing outcome.symm
      · exact .inl (mentions_removeFailures fault missing)
    · intro _ s₂ net₂ removed
      exact .pure ⟨removed.1, rfl, removed.2⟩
    · intro e s₂ net₂ failed
      exact failed
  · intro e s₁ net₁ impossible
    cases impossible.1

/-- A check that removed the probe, one that may not create it, and its errors. -/
theorem tryProbe_ensures {probeId : Uuid} (start : Unopened probe before s net)
    (unnamed : ¬probeName probeId <:+: c.root) (encodable : (Request.remove probe).Encodable) :
    (c.tryProbe (probeName probeId) probe).Ensures (Wire.paramiko ProbeServer.Serves)
      (Post (fun removed s' net' => Probed probe before (removed = true) s' net' ∧
          (removed = true → net'.server.dir.entries probe = none))
        fun e s' net' =>
          (Probed probe before True s' net' ∧
            (Mentions (probeName probeId) e ∨ net'.server.dir.entries probe = none)) ∨
          (Probed probe before False s' net' ∧ ¬Mentions (probeName probeId) e)) s net := by
  refine .bind (P := Post (fun opened s' net' => Probed probe before (opened.isSome = true) s' net')
      fun e s' net' => Probed probe before False s' net' ∧ ¬Mentions (probeName probeId) e)
    (withFailures_ensures ((openProbe_ensures start).mono ?_)) ?_ ?_
  · intro r s' net' done
    obtain ⟨probed, faults⟩ := done
    cases r with
    | ok opened =>
      refine probed.congr ?_
      rw [Option.isSome_iff_exists]
      exact exists_congr fun handle => ⟨Except.ok.inj, congrArg Except.ok⟩
    | error e =>
      refine ⟨probed.congr (iff_of_false (fun h => nomatch h) id), ?_⟩
      exact not_mentions_testFailures unnamed (faults e rfl)
  · intro opened s' net' probed
    cases opened with
    | none => exact .pure ⟨probed, fun impossible => nomatch impossible⟩
    | some handle =>
      refine (removeProbe_ensures (Probed.congr (iff_true_intro rfl) probed) encodable).mono ?_
      intro r s'' net'' done
      obtain ⟨probed, settled⟩ := done
      cases r with
      | ok removed =>
        obtain ⟨rfl, gone⟩ := settled
        exact ⟨probed.congr (iff_of_true trivial rfl), fun _ => gone⟩
      | error e => exact .inl ⟨probed, settled⟩
  · intro e s' net' failed
    exact .inr failed

/-- The check keeps its promise exactly when the client knows of the probe. -/
theorem checkAccess_ensures {t : Teardown} (gone : t.Lost) {probeId : Uuid}
    (absent : before.entries (posixJoin c.root (probeName probeId)) = none)
    (unnamed : ¬probeName probeId <:+: c.root) :
    (c.checkAccess t probeId).Ensures (Wire.paramiko ProbeServer.Serves) (fun r _ net' =>
      Cleared (probeName probeId) (posixJoin c.root (probeName probeId)) before net'.server.dir r ↔
        ProbeKnown (posixJoin c.root (probeName probeId)) net') {} { server := { dir := before } } := by
  have checked : c.checkRoot.Ensures (Wire.paramiko ProbeServer.Serves)
      (fun r s' net' => Unopened (posixJoin c.root (probeName probeId)) before s' net' ∧
        (r = .ok () → (Request.remove (posixJoin c.root (probeName probeId))).Encodable))
      {} { server := { dir := before } } := by
    intro r s' net' run
    refine ⟨checkRoot_ensures (.start absent) _ _ _ run, ?_⟩
    intro same
    subst same
    exact encodable_probe (c.checkRoot_sent run)
  refine inSession_ensures gone (.bind checked ?_ ?_)
  · intro _ s₁ net₁ done
    obtain ⟨start, encodable⟩ := done
    have encodable := encodable rfl
    refine .bind (P := Post
        (fun removed s' net' =>
          Probed (posixJoin c.root (probeName probeId)) before (removed = true) s' net' ∧
          (removed = true → net'.server.dir.entries (posixJoin c.root (probeName probeId)) = none))
        fun e _ net' =>
          Cleared (probeName probeId) (posixJoin c.root (probeName probeId)) before
            net'.server.dir (.error e) ↔ ProbeKnown (posixJoin c.root (probeName probeId)) net')
      (.catching (tryProbe_ensures start unnamed encodable) ?_ ?_) ?_ ?_
    · intro removed s₂ net₂ done
      exact done
    · intro e s₂ net₂ failed
      -- The cleanup may still remove the probe.
      rcases failed with ⟨probed, told⟩ | ⟨probed, untold⟩
      · refine .bind (Requests.removeQuietly_once encodable probed.heard) ?_ ?_
        · intro _ s₃ net₃ cleaned
          obtain ⟨-, heard, once⟩ := cleaned
          obtain ⟨probed, kept⟩ := probed.once heard (.inr rfl) once
          refine .raise (probed.fine absent (told.symm.imp kept ?_))
          intro mentioned
          exact ⟨e, rfl, mentioned⟩
        · intro e' s₃ net₃ impossible
          cases impossible.1
      · refine .bind (Requests.removeQuietly_once encodable probed.heard) ?_ ?_
        · intro _ s₃ net₃ cleaned
          obtain ⟨-, heard, once⟩ := cleaned
          refine .raise ((probed.once heard (.inr rfl) once).1.fine_iff absent ?_)
          intro e' same
          cases same
          exact untold
        · intro e' s₃ net₃ impossible
          cases impossible.1
    · intro removed s₂ net₂ done
      obtain ⟨probed, cleared⟩ := done
      cases removed with
      | true =>
        refine .pure (Probed.fine (probed.congr (iff_true_intro rfl)) absent (.inl (cleared rfl)))
      | false =>
        have probed := probed.congr (iff_false_intro Bool.false_ne_true)
        refine .bind (Requests.removeQuietly_once encodable probed.heard) ?_ ?_
        · intro _ s₃ net₃ cleaned
          obtain ⟨-, heard, once⟩ := cleaned
          refine .pure ((probed.once heard (.inr rfl) once).1.fine_iff absent ?_)
          intro e impossible
          cases impossible
        · intro e' s₃ net₃ impossible
          cases impossible.1
    · intro e s₂ net₂ failed
      exact failed
  · intro e s₁ net₁ done
    exact done.1.probed.fine absent (.inl (done.1.only.probe.mpr (.inl done.1.created)))

end SFTPConnector

end Probe

end DataBridge
