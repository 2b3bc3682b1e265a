import Mathlib.Data.List.Induction
import DataBridge.Effect.Routine
import DataBridge.Sftp.Reader
import Mathlib.Data.List.Nodup
import Mathlib.Data.List.Perm.Subperm
import Mathlib.Logic.Function.Basic

/-!
# The SFTP request layer

`_Requests` sends requests and receives their replies by number, over a `Net`:
a server, the replies that are still on their way, in no order, and the log of
all requests with the replies the server chose. How the server serves a request
(`serve`) and which exceptions the transport may raise (`fault`) are parameters.

`Outstanding m` says which replies the client can still ask for; `send_wp`,
`receive_wp` and `call_wp` say what the three requests do to it.
-/

namespace DataBridge

open Effect Routine

/-- The requests of the connector, with the flags of OPEN told apart. -/
inductive Request
  | stat (path : Text)
  | lstat (path : Text)
  | fstat (handle : Bytes)
  | setstat (path : Text) (mode : Nat)
  /-- READ. -/
  | openRead (path : Text)
  /-- WRITE | CREATE | EXCL. -/
  | openNew (path : Text)
  | close (handle : Bytes)
  | read (handle : Bytes) (offset length : Nat)
  | write (handle : Bytes) (offset : Nat) (data : Bytes)
  /-- `fsync@openssh.com`. -/
  | fsync (handle : Bytes)
  | remove (path : Text)
  | rename (old new : Text)
  /-- `posix-rename@openssh.com`. -/
  | posixRename (old new : Text)
  | openDirectory (path : Text)
  | readDirectory (handle : Bytes)
  deriving DecidableEq

/-- The paths a request carries. -/
def Request.paths : Request → List Text
  | .stat path | .lstat path | .setstat path _ | .openRead path | .openNew path | .remove path
  | .openDirectory path => [path]
  | .rename old new | .posixRename old new => [old, new]
  | _ => []

/-- Every path has a UTF-8 form, as paramiko sends it. -/
def Request.Encodable (request : Request) : Prop := ∀ path ∈ request.paths, path.utf8Length.isSome

instance (request : Request) : Decidable request.Encodable :=
  inferInstanceAs (Decidable (∀ path ∈ request.paths, path.utf8Length.isSome))
/-- Paramiko's private request layer. -/
inductive Wire : Type → Type
  /-- `_async_request`: the number of the request. -/
  | asyncRequest (request : Request) : Wire (Except Exc Nat)
  /-- `_read_response`: one reply with its number. -/
  | readResponse : Wire (Except Exc (Nat × Reply))

/-- The fields of `_Requests`; a reply larger than `MAX_REPLY` is kept as `none`. -/
structure Requests where
  replies : Nat → Option (Option Reply) := fun _ => none
  ignored : List Nat := []

/-- What is kept of a reply. -/
def stash (reply : Reply) : Option Reply :=
  if maxReply < reply.payload.length + 4 then none else some reply

/-- `_async_response`. -/
def Requests.asyncResponse (number : Nat) (reply : Reply) (s : Requests) : Requests :=
  if number ∈ s.ignored then { s with ignored := s.ignored.erase number }
  else { s with replies := Function.update s.replies number (some (stash reply)) }

theorem Requests.ignored_asyncResponse (number : Nat) (reply : Reply) (s : Requests) :
    (s.asyncResponse number reply).ignored ⊆ s.ignored := by
  unfold Requests.asyncResponse
  split
  · exact List.erase_subset
  · exact List.Subset.refl _

/-- `ignore`. -/
def Requests.ignore (number : Nat) (s : Requests) : Requests :=
  if (s.replies number).isSome then { s with replies := Function.update s.replies number none }
  else { s with ignored := s.ignored.insert number }

/-- What `receive` makes of a kept reply: the rest of its payload. -/
def accept (expected : ReplyKind) : Option Reply → Except Exc Bytes
  | none => .error (.status sftpBadMessage)
  | some reply =>
    if reply.kind = .status then do
      let (code, rest) ← Reader.uint32 reply.payload
      if code ≠ sftpOk then
        let _ ← Reader.string rest
        .error (.status code)
      else if expected ≠ .status then .error (.status sftpBadMessage)
      else .ok rest
    else if reply.kind ≠ expected then .error (.status sftpBadMessage)
    else .ok reply.payload

abbrev RequestsRoutine (α : Type) : Type 1 := Routine Wire Exc Requests α

namespace Requests

def send (request : Request) : RequestsRoutine Nat :=
  if request.Encodable then .invoke (.asyncRequest request) else .raise .unicodeEncode

/-- One pass of the wait in `receive`. -/
def await (number : Nat) : RequestsRoutine (Unit ⊕ Unit) := do
  let s ← .fields
  if (s.replies number).isSome then pure (.inr ())
  else do
    let (arrived, reply) ← .invoke .readResponse
    .modify (asyncResponse arrived reply)
    pure (.inl ())

def receive (number : Nat) (expected : ReplyKind := .status) : RequestsRoutine Bytes := do
  .iterate (fun _ => await number) ()
  let s ← .fields
  .modify fun s => { s with replies := Function.update s.replies number none }
  .ofExcept (accept expected ((s.replies number).getD none))

def call (request : Request) (expected : ReplyKind := .status) : RequestsRoutine Bytes := do
  let number ← send request
  receive number expected

/-- `attributes`: CMD_STAT in the source's uses. -/
def attributes (request : Request) : RequestsRoutine Attributes := do
  let payload ← call request .attrs
  .ofExcept (Reader.parse Reader.attributes payload)

/-- `open` and `open_directory`. -/
def openHandle (request : Request) : RequestsRoutine Bytes := do
  let payload ← call request .handle
  .ofExcept (Reader.parse Reader.string payload)

/-- The exceptions in `_LOST`. -/
def lost : Exc → Bool
  | .osError _ | .timeout | .transport => true
  | _ => false

def closeQuietly (handle : Bytes) : RequestsRoutine Unit :=
  .catching (do
    let number ← send (.close handle)
    .modify (ignore number)) fun e => if lost e then pure () else .raise e

/-- `remove_quietly`; its warnings are not modelled. -/
def removeQuietly (path : Text) : RequestsRoutine Unit :=
  .catching (do
    let _ ← call (.remove path)
    pure ()) fun e => match e with
      | .status _ | .sftpError => pure ()
      | e => if lost e then pure () else .raise e

end Requests

/-- A status reply of an SFTP server. -/
def IsStatus (code : Nat) (payload : Bytes) : Prop :=
  ∃ text tail, text.length < 2 ^ 32 ∧ payload.length + 4 ≤ maxReply ∧
    payload = bigEndian 4 code ++ (stringField text ++ tail)

/-- A reply within the size limit is kept as it is. -/
theorem stash_of_le {reply : Reply} (fits : reply.payload.length + 4 ≤ maxReply) :
    stash reply = some reply :=
  if_neg (Nat.not_lt.mpr fits)

theorem accept_failure {expected : ReplyKind} {code : Nat} {payload : Bytes}
    (status : IsStatus code payload) (small : code < 2 ^ 32) (failed : code ≠ sftpOk) :
    accept expected (stash ⟨.status, payload⟩) = .error (.status code) := by
  obtain ⟨text, tail, textFits, fits, rfl⟩ := status
  rw [stash_of_le fits]
  simp only [accept, if_true, Reader.uint32_append small, bind, Except.bind, if_pos failed,
    Reader.string_append textFits]

theorem accept_success {payload : Bytes} (status : IsStatus sftpOk payload) :
    ∃ rest, accept .status (stash ⟨.status, payload⟩) = .ok rest := by
  obtain ⟨text, tail, textFits, fits, rfl⟩ := status
  rw [stash_of_le fits]
  refine ⟨stringField text ++ tail, ?_⟩
  simp only [accept, if_true, Reader.uint32_append (show sftpOk < 2 ^ 32 by decide), bind,
    Except.bind, ne_eq, not_true_eq_false, if_false]

/-- A result of the expected type is handed over unread. -/
theorem accept_result {kind : ReplyKind} {payload : Bytes} (result : kind ≠ .status)
    (fits : payload.length + 4 ≤ maxReply) :
    accept kind (stash ⟨kind, payload⟩) = .ok payload := by
  rw [stash_of_le fits]
  simp only [accept, if_neg result, ne_eq, not_true_eq_false, if_false]

/-- What is refused is a status. -/
theorem accept_error {expected : ReplyKind} {reply : Option Reply} {e : Exc}
    (refused : accept expected reply = .error e) : ∃ code, e = .status code := by
  cases reply with
  | none => exact ⟨_, (Except.error.inj refused).symm⟩
  | some reply =>
    unfold accept at refused
    dsimp only at refused
    split at refused
    · cases number : Reader.uint32 reply.payload with
      | error e' =>
        rw [number] at refused
        cases refused
        exact ⟨_, Reader.strict_uint32 _ _ number⟩
      | ok p =>
        rw [number] at refused
        change (if p.1 ≠ sftpOk then Reader.string p.2 >>= fun _ => .error (.status p.1)
          else if expected ≠ .status then .error (.status sftpBadMessage) else .ok p.2) = _
          at refused
        split at refused
        · cases text : Reader.string p.2 with
          | error e' =>
            rw [text] at refused
            cases refused
            exact ⟨_, Reader.strict_string _ _ text⟩
          | ok q =>
            rw [text] at refused
            cases refused
            exact ⟨_, rfl⟩
        · split at refused
          · cases refused
            exact ⟨_, rfl⟩
          · cases refused
    · split at refused
      · cases refused
        exact ⟨_, rfl⟩
      · cases refused

/-! ## The network -/

/-- A server and its connection; the number of a request is its place in `log`.
`faults` tells what the transport raised, and after which request. -/
structure Net (S : Type) where
  server : S
  flying : List (Nat × Reply) := []
  log : List (Request × Reply) := []
  faults : List (Nat × Exc) := []

namespace Net

variable {S : Type}

/-- The server was asked and its reply is on the way. -/
def post (request : Request) (reply : Reply) (server : S) (net : Net S) : Net S :=
  { net with
    server
    flying := net.flying ++ [(net.log.length, reply)]
    log := net.log ++ [(request, reply)] }

/-- The server was asked, and sending failed nevertheless. -/
def lose (request : Request) (reply : Reply) (server : S) (e : Exc) (net : Net S) : Net S :=
  { net with
    server
    log := net.log ++ [(request, reply)]
    faults := net.faults ++ [(net.log.length, e)] }

/-- A reply arrives. -/
def deliver (packet : Nat × Reply) (net : Net S) : Net S :=
  { net with flying := net.flying.erase packet }

/-- The wait for a reply fails. -/
def fail (e : Exc) (net : Net S) : Net S :=
  { net with faults := net.faults ++ [(net.log.length - 1, e)] }

end Net

variable {S : Type}

/-- The answers of the request layer. -/
def Wire.sem (serve : S → Request → Reply → S → Prop) (fault : Exc → Prop) : Sem Wire (Net S)
  | _, .asyncRequest request, net, r, net' =>
    (∃ reply server, serve net.server request reply server ∧ r = .ok net.log.length ∧
      net' = net.post request reply server) ∨
    ∃ e, fault e ∧ r = .error e ∧ (net' = net ∨
      ∃ reply server, serve net.server request reply server ∧
        net' = net.lose request reply server e)
  | _, .readResponse, net, r, net' =>
    (∃ packet ∈ net.flying, r = .ok packet ∧ net' = net.deliver packet) ∨
    ∃ e, fault e ∧ r = .error e ∧ net' = net.fail e

/-- A server that may do more has all runs of one that may do less. -/
theorem Wire.sem_mono {serve serve' : S → Request → Reply → S → Prop} {fault : Exc → Prop}
    (more : ∀ s request reply s', serve s request reply s' → serve' s request reply s') ⦃β : Type⦄
    {op : Wire β} {net net' : Net S} {r : β} (answer : Wire.sem serve fault op net r net') :
    Wire.sem serve' fault op net r net' := by
  cases op with
  | asyncRequest request =>
    rcases answer with ⟨reply, server, served, rest⟩ | ⟨e, failed, same, rest⟩
    · exact .inl ⟨reply, server, more _ _ _ _ served, rest⟩
    · refine .inr ⟨e, failed, same, rest.imp_right ?_⟩
      intro seen
      obtain ⟨reply, server, served, lost⟩ := seen
      exact ⟨reply, server, more _ _ _ _ served, lost⟩
  | readResponse => exact answer

/-- A session that runs alone; `K` holds after each of its steps. -/
abbrev wire (serve : S → Request → Reply → S → Prop) (fault : Exc → Prop) (K : Net S → Prop) :
    Setting Wire (Net S) :=
  Setting.alone (Wire.sem serve fault) fun _ net => K net

/-! ## Which replies can still be asked for -/

/-- The client may receive the replies of `m`, by number: each is on its way or
kept, and nothing else is, apart from replies the client ignores. -/
structure Outstanding (m : List (Nat × Reply)) (s : Requests) (net : Net S) : Prop where
  distinct : (m.map Prod.fst).Nodup
  logged : ∀ p ∈ m, ∃ request, net.log[p.1]? = some (request, p.2)
  once : (net.flying.map Prod.fst).Nodup
  flying : ∀ p ∈ net.flying, p ∈ m ∨ p.1 ∈ s.ignored
  found : ∀ p ∈ m, p ∈ net.flying ∨ s.replies p.1 = some (stash p.2)
  apart : ∀ p ∈ net.flying, s.replies p.1 = none
  kept : ∀ n, (s.replies n).isSome → n ∈ m.map Prod.fst
  ignored : ∀ n ∈ s.ignored, n < net.log.length ∧ n ∉ m.map Prod.fst

namespace Outstanding

variable {m : List (Nat × Reply)} {s : Requests} {net : Net S} {p : Nat × Reply}

/-- A session that has not asked for anything yet. -/
theorem nil {server : S} {log : List (Request × Reply)} {faults : List (Nat × Exc)} :
    Outstanding [] {} (⟨server, [], log, faults⟩ : Net S) where
  distinct := List.nodup_nil
  logged := fun _ member => (List.not_mem_nil member).elim
  once := List.nodup_nil
  flying := fun _ member => (List.not_mem_nil member).elim
  found := fun _ member => (List.not_mem_nil member).elim
  apart := fun _ _ => rfl
  kept := fun _ impossible => absurd impossible Bool.false_ne_true
  ignored := fun _ member => (List.not_mem_nil member).elim

theorem eq_of_number {q : Nat × Reply} (out : Outstanding m s net) (first : p ∈ m) (second : q ∈ m)
    (same : p.1 = q.1) : p = q :=
  List.inj_on_of_nodup_map out.distinct first second same

theorem number_lt (out : Outstanding m s net) (member : p ∈ m) : p.1 < net.log.length := by
  obtain ⟨request, entry⟩ := out.logged p member
  exact (List.getElem?_eq_some_iff.mp entry).1

/-- An arriving reply is kept, or dropped when it is ignored. -/
theorem deliver (out : Outstanding m s net) (arrived : p ∈ net.flying) :
    Outstanding m (s.asyncResponse p.1 p.2) (net.deliver p) := by
  have others : ∀ q ∈ net.flying.erase p, q ∈ net.flying ∧ q.1 ≠ p.1 := by
    intro q member
    have flying := List.mem_of_mem_erase member
    refine ⟨flying, fun same => ?_⟩
    have := List.inj_on_of_nodup_map out.once flying arrived same
    subst this
    exact (List.Nodup.of_map _ out.once).not_mem_erase member
  have once : ((net.flying.erase p).map Prod.fst).Nodup :=
    out.once.sublist ((List.erase_sublist).map _)
  have found : ∀ q ∈ m, q ∈ net.flying → q = p ∨ q ∈ net.flying.erase p := by
    intro q _ flying
    by_cases same : q = p
    · exact .inl same
    · exact .inr ((List.mem_erase_of_ne same).mpr flying)
  unfold Requests.asyncResponse
  split
  · rename_i dropped
    have foreign : p ∉ m := fun member =>
      (out.ignored _ dropped).2 (List.mem_map_of_mem member)
    exact {
      distinct := out.distinct
      logged := out.logged
      once := once
      flying := fun q member => (out.flying q (others q member).1).imp_right fun ignored =>
        (List.mem_erase_of_ne (others q member).2).mpr ignored
      found := fun q member => (out.found q member).imp_left fun flying =>
        (found q member flying).resolve_left fun same => foreign (same ▸ member)
      apart := fun q member => out.apart q (others q member).1
      kept := out.kept
      ignored := fun n member => out.ignored n (List.mem_of_mem_erase member) }
  · rename_i wanted
    have member : p ∈ m := (out.flying p arrived).resolve_right wanted
    exact {
      distinct := out.distinct
      logged := out.logged
      once := once
      flying := fun q member => out.flying q (others q member).1
      found := by
        intro q inM
        by_cases same : q.1 = p.1
        · right
          rw [out.eq_of_number inM member same]
          exact Function.update_self ..
        · refine (out.found q inM).imp (fun flying => ?_) fun kept => ?_
          · exact (found q inM flying).resolve_left fun eq => same (congrArg Prod.fst eq)
          · exact (Function.update_of_ne same ..).trans kept
      apart := fun q inFlying =>
        (Function.update_of_ne (others q inFlying).2 ..).trans (out.apart q (others q inFlying).1)
      kept := by
        intro n isKept
        by_cases same : n = p.1
        · exact same ▸ List.mem_map_of_mem member
        · exact out.kept n (by simpa [Function.update_of_ne same] using isKept)
      ignored := out.ignored }

/-- A kept reply is the one the server sent. -/
theorem reply_eq (out : Outstanding m s net) (member : p ∈ m) (kept : (s.replies p.1).isSome) :
    s.replies p.1 = some (stash p.2) := by
  rcases out.found p member with flying | stashed
  · rw [out.apart p flying] at kept
    cases kept
  · exact stashed

/-- The order of the replies does not matter. -/
theorem perm {m' : List (Nat × Reply)} (out : Outstanding m s net) (same : m.Perm m') :
    Outstanding m' s net where
  distinct := (same.map _).nodup_iff.mp out.distinct
  logged := fun p member => out.logged p (same.mem_iff.mpr member)
  once := out.once
  flying := fun p member => (out.flying p member).imp_left same.mem_iff.mp
  found := fun p member => out.found p (same.mem_iff.mpr member)
  apart := out.apart
  kept := fun n isKept => (same.map _).mem_iff.mp (out.kept n isKept)
  ignored := fun n member =>
    ⟨(out.ignored n member).1, fun inKeys => (out.ignored n member).2 ((same.map _).mem_iff.mpr inKeys)⟩

/-- Without ignored replies, no more are on the way than can be asked for. -/
theorem flying_le (out : Outstanding m s net) (none : s.ignored = []) :
    net.flying.length ≤ m.length := by
  have subset : net.flying ⊆ m := by
    intro p flying
    refine (out.flying p flying).resolve_right fun ignored => ?_
    rw [none] at ignored
    exact List.not_mem_nil ignored
  exact (List.subperm_of_subset (List.Nodup.of_map _ out.once) subset).length_le

/-- The client takes a kept reply. -/
theorem consume (out : Outstanding m s net) (member : p ∈ m) (kept : (s.replies p.1).isSome) :
    Outstanding (m.erase p) { s with replies := Function.update s.replies p.1 none } net := by
  have nodup : m.Nodup := .of_map _ out.distinct
  have rest : ∀ q, q ∈ m.erase p ↔ q ∈ m ∧ q.1 ≠ p.1 := by
    intro q
    rw [nodup.mem_erase_iff]
    constructor
    · rintro ⟨differs, inM⟩
      exact ⟨inM, fun same => differs (out.eq_of_number inM member same)⟩
    · rintro ⟨inM, differs⟩
      exact ⟨fun same => differs (congrArg Prod.fst same), inM⟩
  have flyingOther : ∀ q ∈ net.flying, q.1 ≠ p.1 := by
    intro q flying same
    rw [← same, out.apart q flying] at kept
    cases kept
  have keys : ∀ n, n ∈ (m.erase p).map Prod.fst → n ∈ m.map Prod.fst := fun n inKeys =>
    (List.erase_sublist.map _).subset inKeys
  exact {
    distinct := out.distinct.sublist (List.erase_sublist.map _)
    logged := fun q inM => out.logged q ((rest q).mp inM).1
    once := out.once
    flying := fun q flying => (out.flying q flying).imp_left fun inM =>
      (rest q).mpr ⟨inM, flyingOther q flying⟩
    found := fun q inM => (out.found q ((rest q).mp inM).1).imp_right fun stashed =>
      (Function.update_of_ne ((rest q).mp inM).2 ..).trans stashed
    apart := fun q flying =>
      (Function.update_of_ne (flyingOther q flying) ..).trans (out.apart q flying)
    kept := by
      intro n isKept
      by_cases same : n = p.1
      · subst same
        simp at isKept
      · have before : (s.replies n).isSome := by
          simpa [Function.update_of_ne same] using isKept
        obtain ⟨q, inM, rfl⟩ := List.mem_map.mp (out.kept n before)
        exact List.mem_map_of_mem ((rest q).mpr ⟨inM, same⟩)
    ignored := fun n inIgnored =>
      ⟨(out.ignored n inIgnored).1, fun inKeys => (out.ignored n inIgnored).2 (keys n inKeys)⟩ }

/-- The client stops waiting for a reply. -/
theorem ignore (out : Outstanding m s net) (member : p ∈ m) :
    Outstanding (m.erase p) (s.ignore p.1) net := by
  unfold Requests.ignore
  split
  · rename_i kept
    exact out.consume member kept
  · rename_i unkept
    have nodup : m.Nodup := .of_map _ out.distinct
    have rest : ∀ q, q ∈ m.erase p ↔ q ≠ p ∧ q ∈ m := fun q => nodup.mem_erase_iff
    have keys : ∀ n, n ∈ (m.erase p).map Prod.fst → n ∈ m.map Prod.fst ∧ n ≠ p.1 := by
      intro n inKeys
      obtain ⟨q, inM, rfl⟩ := List.mem_map.mp inKeys
      refine ⟨List.mem_map_of_mem ((rest q).mp inM).2, fun same => ?_⟩
      exact ((rest q).mp inM).1 (out.eq_of_number ((rest q).mp inM).2 member same)
    exact {
      distinct := out.distinct.sublist (List.erase_sublist.map _)
      logged := fun q inM => out.logged q ((rest q).mp inM).2
      once := out.once
      flying := by
        intro q flying
        by_cases same : q = p
        · exact .inr (same ▸ List.mem_insert_self)
        · exact (out.flying q flying).imp (fun inM => (rest q).mpr ⟨same, inM⟩)
            List.mem_insert_of_mem
      found := fun q inM => out.found q ((rest q).mp inM).2
      apart := out.apart
      kept := by
        intro n isKept
        obtain ⟨q, inM, rfl⟩ := List.mem_map.mp (out.kept n isKept)
        refine List.mem_map_of_mem ((rest q).mpr ⟨fun same => ?_, inM⟩)
        exact unkept (same ▸ isKept)
      ignored := by
        intro n inIgnored
        rcases List.mem_insert_iff.mp inIgnored with rfl | before
        · exact ⟨out.number_lt member, fun inKeys => (keys _ inKeys).2 rfl⟩
        · exact ⟨(out.ignored n before).1, fun inKeys => (out.ignored n before).2 (keys n inKeys).1⟩ }

theorem logged_append {request : Request} {reply : Reply} (out : Outstanding m s net) :
    ∀ p ∈ m, ∃ r, (net.log ++ [(request, reply)])[p.1]? = some (r, p.2) := by
  intro p member
  obtain ⟨r, entry⟩ := out.logged p member
  exact ⟨r, by rw [List.getElem?_append_left (out.number_lt member), entry]⟩

/-- A request is sent and its reply is on the way. -/
theorem post {request : Request} {reply : Reply} {server : S} (out : Outstanding m s net) :
    Outstanding (m ++ [(net.log.length, reply)]) s (net.post request reply server) := by
  have flyingLt : ∀ q ∈ net.flying, q.1 < net.log.length := by
    intro q flying
    rcases out.flying q flying with inM | ignored
    · exact out.number_lt inM
    · exact (out.ignored _ ignored).1
  have newKey : net.log.length ∉ m.map Prod.fst := by
    intro inKeys
    obtain ⟨q, inM, same⟩ := List.mem_map.mp inKeys
    exact absurd (out.number_lt inM) (by omega)
  exact {
    distinct := by
      rw [List.map_append, List.nodup_append]
      refine ⟨out.distinct, by simp, ?_⟩
      rintro n inKeys k single rfl
      rw [List.map_singleton, List.mem_singleton] at single
      subst single
      exact newKey inKeys
    logged := by
      intro q inM
      rcases List.mem_append.mp inM with inM | single
      · exact out.logged_append q inM
      · rw [List.mem_singleton.mp single]
        exact ⟨request, by simp [Net.post]⟩
    once := by
      change ((net.flying ++ [_]).map Prod.fst).Nodup
      rw [List.map_append, List.nodup_append]
      refine ⟨out.once, by simp, ?_⟩
      rintro n inKeys k single rfl
      rw [List.map_singleton, List.mem_singleton] at single
      obtain ⟨q, flying, same⟩ := List.mem_map.mp inKeys
      have := flyingLt q flying
      omega
    flying := by
      intro q flying
      rcases List.mem_append.mp flying with flying | single
      · exact (out.flying q flying).imp_left (List.mem_append_left _)
      · exact .inl (List.mem_append_right _ single)
    found := by
      intro q inM
      rcases List.mem_append.mp inM with inM | single
      · exact (out.found q inM).imp_left (List.mem_append_left _)
      · exact .inl (List.mem_append_right _ single)
    apart := by
      intro q flying
      rcases List.mem_append.mp flying with flying | single
      · exact out.apart q flying
      · rw [List.mem_singleton.mp single]
        cases isKept : s.replies net.log.length with
        | none => rfl
        | some _ => exact absurd (out.kept _ (by rw [isKept]; rfl)) newKey
    kept := fun n isKept => by
      rw [List.map_append]
      exact List.mem_append_left _ (out.kept n isKept)
    ignored := by
      intro n inIgnored
      have older := (out.ignored n inIgnored).1
      refine ⟨by simp [Net.post]; omega, fun inKeys => ?_⟩
      rw [List.map_append, List.mem_append] at inKeys
      rcases inKeys with inKeys | single
      · exact (out.ignored n inIgnored).2 inKeys
      · rw [List.map_singleton, List.mem_singleton] at single
        omega }

/-- A request is sent and its reply is lost. -/
theorem lose {request : Request} {reply : Reply} {server : S} {e : Exc}
    (out : Outstanding m s net) : Outstanding m s (net.lose request reply server e) where
  distinct := out.distinct
  logged := out.logged_append
  once := out.once
  flying := out.flying
  found := out.found
  apart := out.apart
  kept := out.kept
  ignored := fun n inIgnored => by
    have older := (out.ignored n inIgnored).1
    exact ⟨by simp [Net.lose]; omega, (out.ignored n inIgnored).2⟩

/-- The wait for a reply fails. -/
theorem fail {e : Exc} (out : Outstanding m s net) : Outstanding m s (net.fail e) where
  distinct := out.distinct
  logged := out.logged
  once := out.once
  flying := out.flying
  found := out.found
  apart := out.apart
  kept := out.kept
  ignored := out.ignored
end Outstanding

/-! ## What the three requests do -/

section Rules

variable {serve : S → Request → Reply → S → Prop} {fault : Exc → Prop} {K : Net S → Prop}
  {m : List (Nat × Reply)} {s : Requests} {net : Net S}

/-- Waiting for replies keeps `K`. -/
structure Passive (fault : Exc → Prop) (K : Net S → Prop) : Prop where
  deliver : ∀ net p, K net → K (net.deliver p)
  fail : ∀ net e, fault e → K net → K (net.fail e)

/-- A request is sent with the next number, or the transport fails. -/
theorem send_wp {request : Request} {Q : Except Exc Nat → Requests → Net S → Prop}
    (answers : (∃ reply server, serve net.server request reply server) ∨ ∃ e, fault e)
    (ok : ∀ reply server, serve net.server request reply server →
      K (net.post request reply server) ∧
        Q (.ok net.log.length) s (net.post request reply server))
    (error : ∀ e net', fault e → (net' = net ∨ ∃ reply server,
      serve net.server request reply server ∧ net' = net.lose request reply server e) →
      K net' ∧ Q (.error e) s net')
    (unsent : ¬request.Encodable → Q (.error .unicodeEncode) s net) :
    (Requests.send request).Wp (wire serve fault K) Q s net := by
  unfold Requests.send
  split
  · refine .invoke fun _ same => ?_
    subst same
    constructor
    · rcases answers with ⟨reply, server, served⟩ | ⟨e, failed⟩
      · exact ⟨_, _, .inl ⟨reply, server, served, rfl, rfl⟩⟩
      · exact ⟨_, _, .inr ⟨e, failed, rfl, .inl rfl⟩⟩
    · rintro r net' (⟨reply, server, served, rfl, rfl⟩ | ⟨e, failed, rfl, after⟩)
      · exact ⟨(ok reply server served).1, Setting.settled_alone.mpr (ok reply server served).2⟩
      · exact ⟨(error e net' failed after).1,
          Setting.settled_alone.mpr (error e net' failed after).2⟩
  · rename_i unencodable
    exact .raise (Setting.settled_alone.mpr (unsent unencodable))

/-- What waiting for a reply leaves alone; `more` are the faults it met. -/
structure Waiting (s s' : Requests) (net net' : Net S) (more : List (Nat × Exc)) : Prop where
  server : net'.server = net.server
  log : net'.log = net.log
  faults : net'.faults = net.faults ++ more
  ignored : s'.ignored ⊆ s.ignored

/-- The wait ends with the reply kept, or the transport fails. -/
theorem await_loop_wp (passive : Passive fault K) {p : Nat × Reply} (out : Outstanding m s net)
    (member : p ∈ m) (start : K net) :
    (Routine.iterate (fun _ => Requests.await p.1) ()).Wp (wire serve fault K)
      (Post (fun _ s' net' => Outstanding m s' net' ∧ (s'.replies p.1).isSome ∧ K net' ∧
          Waiting s s' net net' [])
        fun e s' net' => fault e ∧ Outstanding m s' net' ∧ K net' ∧
          Waiting s s' net net' [(net.log.length - 1, e)]) s net := by
  -- The variant is the number of replies on the way.
  refine .iterate (I := fun n _ s' net' => Outstanding m s' net' ∧ K net' ∧
    Waiting s s' net net' [] ∧ net'.flying.length = n) ?_
    ⟨out, start, ⟨rfl, rfl, (List.append_nil _).symm, List.Subset.refl _⟩, rfl⟩
  rintro n _ s net' ⟨out, inv, waiting, rfl⟩
  rw [Requests.await, Wp.fields_bind]
  split
  · rename_i kept
    exact .pure (Setting.settled_alone.mpr (Setting.settled_alone.mpr
      ⟨out, kept, inv, waiting⟩))
  · rename_i unkept
    have flying : p ∈ net'.flying := (out.found p member).resolve_right fun stashed =>
      unkept (by rw [stashed]; rfl)
    refine .bind (P := Post (fun q s' net'' => s' = s ∧ q ∈ net'.flying ∧ net'' = net'.deliver q)
        fun e s' net'' => fault e ∧ s' = s ∧ net'' = net'.fail e) (.invoke ?_) ?_ ?_
    · intro _ now
      subst now
      refine ⟨⟨_, _, .inl ⟨p, flying, rfl, rfl⟩⟩, ?_⟩
      rintro r net'' (⟨q, arrived, rfl, rfl⟩ | ⟨e, failed, rfl, rfl⟩)
      · exact ⟨passive.deliver _ q inv, Setting.settled_alone.mpr ⟨rfl, arrived, rfl⟩⟩
      · exact ⟨passive.fail _ e failed inv, Setting.settled_alone.mpr ⟨failed, rfl, rfl⟩⟩
    · rintro q _ _ ⟨rfl, arrived, rfl⟩
      rw [Wp.modify_bind]
      refine .pure (Setting.settled_alone.mpr (Setting.settled_alone.mpr
        ⟨_, ?_, out.deliver arrived, passive.deliver _ q inv,
          ⟨waiting.server, waiting.log, waiting.faults, ?_⟩, rfl⟩))
      · rw [Net.deliver, List.length_erase_of_mem arrived]
        have := List.length_pos_of_mem arrived
        omega
      · exact List.Subset.trans (Requests.ignored_asyncResponse ..) waiting.ignored
    · rintro e _ _ ⟨failed, rfl, rfl⟩
      refine Setting.settled_alone.mpr (Setting.settled_alone.mpr
        ⟨failed, out.fail, passive.fail _ e failed inv,
          ⟨waiting.server, waiting.log, ?_, waiting.ignored⟩⟩)
      rw [Net.fail, waiting.log, waiting.faults, List.append_nil]

/-- `receive` takes one reply: what it returns or raises is what `accept` makes
of it, unless the transport fails. -/
theorem receive_wp (passive : Passive fault K) {p : Nat × Reply} {expected : ReplyKind}
    (out : Outstanding m s net) (member : p ∈ m) (start : K net) :
    (Requests.receive p.1 expected).Wp (wire serve fault K)
      (fun r s' net' => K net' ∧
        ((r = accept expected (stash p.2) ∧ Outstanding (m.erase p) s' net' ∧
            Waiting s s' net net' []) ∨
          ∃ e, r = .error e ∧ fault e ∧ Outstanding m s' net' ∧
            Waiting s s' net net' [(net.log.length - 1, e)])) s net := by
  refine .bind (await_loop_wp passive out member start) ?_ ?_
  · rintro _ s' net' ⟨out, kept, inv, waiting⟩
    rw [Wp.fields_bind, Wp.modify_bind]
    refine .ofExcept (Setting.settled_alone.mpr ⟨inv, .inl ⟨?_, out.consume member kept,
      ⟨waiting.server, waiting.log, waiting.faults, waiting.ignored⟩⟩⟩)
    rw [out.reply_eq member kept, Option.getD_some]
  · rintro e s' net' ⟨failed, out, inv, waiting⟩
    exact Setting.settled_alone.mpr ⟨inv, .inr ⟨e, rfl, failed, out, waiting⟩⟩

/-- What one call does: its request was answered, its reply was lost, or the
server never saw it. -/
inductive Called (serve : S → Request → Reply → S → Prop) (fault : Exc → Prop) (request : Request)
    (expected : ReplyKind) (m : List (Nat × Reply)) (net : Net S) :
    Except Exc Bytes → Requests → Net S → Prop
  | answered {reply : Reply} {s : Requests} {net' : Net S} :
    request.Encodable → serve net.server request reply net'.server →
    net'.log = net.log ++ [(request, reply)] →
    net'.faults = net.faults → Outstanding m s net' →
    Called serve fault request expected m net (accept expected (stash reply)) s net'
  | lost {e : Exc} {m' : List (Nat × Reply)} {reply : Reply} {s : Requests} {net' : Net S} :
    request.Encodable → fault e → serve net.server request reply net'.server →
    net'.log = net.log ++ [(request, reply)] → net'.faults = net.faults ++ [(net.log.length, e)] →
    m ⊆ m' → Outstanding m' s net' →
    Called serve fault request expected m net (.error e) s net'
  | unsent {e : Exc} {s : Requests} : fault e ∨ (e = .unicodeEncode ∧ ¬request.Encodable) →
    Outstanding m s net → Called serve fault request expected m net (.error e) s net

/-- A request and its reply. The server served the request once, unless the
transport failed before it could. -/
theorem call_wp (passive : Passive fault K) {request : Request} {expected : ReplyKind}
    (out : Outstanding m s net) (start : K net)
    (answers : (∃ reply server, serve net.server request reply server) ∨ ∃ e, fault e)
    (posts : ∀ reply server, serve net.server request reply server →
      K (net.post request reply server))
    (loses : ∀ reply server e, serve net.server request reply server → fault e →
      K (net.lose request reply server e)) :
    (Requests.call request expected).Wp (wire serve fault K)
      (fun r s' net' => K net' ∧ s'.ignored ⊆ s.ignored ∧
        Called serve fault request expected m net r s' net') s net := by
  by_cases encodable : request.Encodable
  case neg =>
    refine .bind (P := fun r s' net' => r = .error .unicodeEncode ∧ s' = s ∧ net' = net) ?_ ?_ ?_
    · rw [Requests.send, if_neg encodable]
      exact .raise (Setting.settled_alone.mpr ⟨rfl, rfl, rfl⟩)
    · rintro _ _ _ ⟨impossible, -⟩
      cases impossible
    · rintro e s' net' ⟨same, rfl, rfl⟩
      cases same
      exact Setting.settled_alone.mpr ⟨start, List.Subset.refl _,
        .unsent (.inr ⟨rfl, encodable⟩) out⟩
  refine .bind (P := fun r s' net' => K net' ∧ s' = s ∧
      ((∃ reply server, serve net.server request reply server ∧ r = .ok net.log.length ∧
          net' = net.post request reply server) ∨
        ∃ e, r = .error e ∧ Called serve fault request expected m net (.error e) s net'))
    (send_wp answers ?_ ?_ ?_) ?_ ?_
  · intro reply server served
    exact ⟨posts reply server served, posts reply server served, rfl,
      .inl ⟨reply, server, served, rfl, rfl⟩⟩
  · rintro e net' failed (rfl | ⟨reply, server, served, rfl⟩)
    · exact ⟨start, start, rfl, .inr ⟨e, rfl, .unsent (.inl failed) out⟩⟩
    · exact ⟨loses reply server e served failed, loses reply server e served failed, rfl,
        .inr ⟨e, rfl, .lost encodable failed served rfl rfl (List.Subset.refl m) out.lose⟩⟩
  · exact fun unencodable => absurd encodable unencodable
  · rintro number s' net' ⟨inv, rfl, ⟨reply, server, served, sent, rfl⟩ | ⟨e, impossible, _⟩⟩
    · obtain rfl : number = net.log.length := Except.ok.inj sent
      have member : (net.log.length, reply) ∈ m ++ [(net.log.length, reply)] :=
        List.mem_append_right _ List.mem_cons_self
      refine (receive_wp passive out.post member inv).mono ?_
      rintro r s' net' ⟨inv, ⟨rfl, rest, waiting⟩ | ⟨e, rfl, failed, rest, waiting⟩⟩
      · have others : (m ++ [(net.log.length, reply)]).erase (net.log.length, reply) = m := by
          rw [List.erase_append_right _ fun inM => absurd (out.number_lt inM) (lt_irrefl _)]
          simp
        exact ⟨inv, waiting.ignored, .answered encodable (waiting.server ▸ served) waiting.log
          (waiting.faults.trans (List.append_nil _)) (others ▸ rest)⟩
      · refine ⟨inv, waiting.ignored, .lost encodable failed (waiting.server ▸ served)
          waiting.log ?_ (List.subset_append_left _ _) rest⟩
        rw [waiting.faults, Net.post, List.length_append, List.length_singleton,
          Nat.add_sub_cancel]
    · cases impossible
  · rintro e s' net' ⟨inv, rfl, ⟨_, _, _, impossible, _⟩ | ⟨e', same, called⟩⟩
    · cases impossible
    · cases same
      exact Setting.settled_alone.mpr ⟨inv, List.Subset.refl _, called⟩

end Rules

/-! ## The history of a server -/

/-- What the transport itself may raise. -/
def TransportFault : Exc → Prop
  | .osError _ | .timeout | .transport | .sftpError => True
  | _ => False

/-- `server` is what serving the requests of `log` in order, with these replies,
makes of `first`. -/
inductive Served (serve : S → Request → Reply → S → Prop) (first : S) :
    List (Request × Reply) → S → Prop
  | nil : Served serve first [] first
  | snoc {log : List (Request × Reply)} {server server' : S} {request : Request} {reply : Reply} :
    Served serve first log server → serve server request reply server' →
    Served serve first (log ++ [(request, reply)]) server'

/-- Whatever a program does, the log is the history of the server. -/
theorem Served.reach {serve : S → Request → Reply → S → Prop} {fault : Exc → Prop} {first : S}
    {α : Type} {p : Prog Wire α} {net : Net S} {c : Prog Wire α × Net S}
    (start : Served serve first net.log net.server)
    (run : Prog.Reach (Wire.sem serve fault) (p, net) c) :
    Served serve first c.2.log c.2.server := by
  induction run with
  | refl => exact start
  | tail _ taken ih =>
    cases taken with
    | loop => exact ih
    | @call _ op _ _ _ _ answer =>
      cases op with
      | asyncRequest request =>
        rcases answer with ⟨reply, server, served, -, rfl⟩ | ⟨e, -, -, rfl | ⟨reply, server, served, rfl⟩⟩
        · exact ih.snoc served
        · exact ih
        · exact ih.snoc served
      | readResponse =>
        rcases answer with ⟨packet, -, -, rfl⟩ | ⟨e, -, -, rfl⟩
        · exact ih
        · exact ih

section History

variable {serve : S → Request → Reply → S → Prop} {first server : S}
  {log : List (Request × Reply)}

theorem Served.last {request : Request} {reply : Reply}
    (served : Served serve first (log ++ [(request, reply)]) server) :
    ∃ before, Served serve first log before ∧ serve before request reply server := by
  generalize whole : log ++ [(request, reply)] = all at served
  cases served with
  | nil => exact absurd whole (List.append_ne_nil_of_right_ne_nil _ (List.cons_ne_nil _ _))
  | snoc before step =>
    obtain ⟨rfl, same⟩ := List.append_inj' whole rfl
    cases same
    exact ⟨_, before, step⟩

theorem Served.split {later : List (Request × Reply)}
    (served : Served serve first (log ++ later) server) :
    ∃ middle, Served serve first log middle ∧ Served serve middle later server := by
  induction later using List.reverseRecOn generalizing server with
  | nil => exact ⟨server, by rwa [List.append_nil] at served, .nil⟩
  | append_singleton later entry ih =>
    rw [← List.append_assoc] at served
    obtain ⟨before, served, step⟩ := served.last
    obtain ⟨middle, left, right⟩ := ih served
    exact ⟨middle, left, .snoc right step⟩

theorem Served.eq_of_nil (served : Served serve first [] server) : server = first := by
  generalize whole : ([] : List (Request × Reply)) = log at served
  cases served with
  | nil => rfl
  | snoc => exact absurd whole.symm (List.append_ne_nil_of_right_ne_nil _ (List.cons_ne_nil _ _))

/-- The first request of a log. -/
theorem Served.head {request : Request} {reply : Reply} {later : List (Request × Reply)}
    (served : Served serve first ((request, reply) :: later) server) :
    ∃ middle, serve first request reply middle ∧ Served serve middle later server := by
  rw [← List.singleton_append] at served
  obtain ⟨middle, one, rest⟩ := served.split
  obtain ⟨before, none, step⟩ := Served.last (show Served serve first ([] ++ [(request, reply)]) middle from one)
  rw [none.eq_of_nil] at step
  exact ⟨middle, step, rest⟩

end History

/-! ## Requests whose outcome does not matter -/

/-- What asking for one thing does to the log and the faults. -/
inductive Asked (request : Request) (net net' : Net S) : Prop
  | unsent : net'.log = net.log → net'.faults = net.faults → Asked request net net'
  | sent {reply : Reply} : net'.log = net.log ++ [(request, reply)] →
    net'.faults = net.faults ∨ (∃ e, net'.faults = net.faults ++ [(net.log.length, e)]) →
    Asked request net net'

/-- What a request may raise, when its text can be sent. -/
def RequestFault (e : Exc) : Prop := TransportFault e ∨ ∃ code, e = .status code

section Asking

variable {serve : S → Request → Reply → S → Prop} {s : Requests} {net : Net S}

/-- What a wait in any state leaves. -/
structure Idled (net net' : Net S) (more : List (Nat × Exc)) : Prop where
  log : net'.log = net.log
  faults : net'.faults = net.faults ++ more

theorem await_any_wp {number : Nat} :
    (Routine.iterate (fun _ => Requests.await number) ()).Wp
      (wire serve TransportFault fun _ => True)
      (Post (fun _ _ net' => Idled net net' [])
        fun e _ net' => TransportFault e ∧ Idled net net' [(net.log.length - 1, e)]) s net := by
  -- Each pass takes one of the replies on the way.
  refine .iterate (I := fun n _ _ net' => Idled net net' [] ∧ net'.flying.length = n) ?_
    ⟨⟨rfl, (List.append_nil _).symm⟩, rfl⟩
  rintro n _ s net' ⟨idled, rfl⟩
  rw [Requests.await, Wp.fields_bind]
  split
  · exact .pure (Setting.settled_alone.mpr (Setting.settled_alone.mpr idled))
  · refine .bind (P := Post (fun q _ net'' => q ∈ net'.flying ∧ net'' = net'.deliver q)
        fun e _ net'' => TransportFault e ∧ net'' = net'.fail e) (.invoke ?_) ?_ ?_
    · intro _ now
      subst now
      refine ⟨⟨_, _, .inr ⟨.timeout, trivial, rfl, rfl⟩⟩, ?_⟩
      rintro r net'' (⟨q, arrived, rfl, rfl⟩ | ⟨e, failed, rfl, rfl⟩)
      · exact ⟨trivial, Setting.settled_alone.mpr ⟨arrived, rfl⟩⟩
      · exact ⟨trivial, Setting.settled_alone.mpr ⟨failed, rfl⟩⟩
    · rintro q s _ ⟨arrived, rfl⟩
      rw [Wp.modify_bind]
      refine .pure (Setting.settled_alone.mpr (Setting.settled_alone.mpr
        ⟨_, ?_, ⟨idled.log, idled.faults⟩, rfl⟩))
      rw [Net.deliver, List.length_erase_of_mem arrived]
      have := List.length_pos_of_mem arrived
      omega
    · rintro e s _ ⟨failed, rfl⟩
      refine Setting.settled_alone.mpr (Setting.settled_alone.mpr ⟨failed, idled.log, ?_⟩)
      rw [Net.fail, idled.log, idled.faults, List.append_nil]

/-- A call in any state asks for one thing at most. -/
theorem ask_wp {request : Request} {expected : ReplyKind} :
    (Requests.call request expected).Wp (wire serve TransportFault fun _ => True)
      (fun r _ net' => Asked request net net' ∧
        ∀ e, r = .error e → RequestFault e ∨ (e = .unicodeEncode ∧ ¬request.Encodable)) s net := by
  refine .bind (P := Post (fun number _ net' => ∃ reply server,
      net' = net.post request reply server)
      fun e _ net' => Asked request net net' ∧
        (RequestFault e ∨ (e = .unicodeEncode ∧ ¬request.Encodable)))
    (send_wp (.inr ⟨.timeout, trivial⟩) ?_ ?_ ?_) ?_ ?_
  · exact fun reply server _ => ⟨trivial, reply, server, rfl⟩
  · rintro e net' failed (rfl | ⟨reply, server, -, rfl⟩)
    · exact ⟨trivial, .unsent rfl rfl, .inl (.inl failed)⟩
    · exact ⟨trivial, .sent rfl (.inr ⟨e, rfl⟩), .inl (.inl failed)⟩
  · exact fun unencodable => ⟨.unsent rfl rfl, .inr ⟨rfl, unencodable⟩⟩
  · rintro number s _ ⟨reply, server, rfl⟩
    refine .bind await_any_wp ?_ ?_
    · intro _ s' net' idled
      rw [Wp.fields_bind, Wp.modify_bind]
      refine .ofExcept (Setting.settled_alone.mpr ⟨.sent idled.log (.inl ?_), ?_⟩)
      · rw [idled.faults, List.append_nil]
        rfl
      · intro e refused
        exact .inl (.inr (accept_error refused))
    · rintro e s' net' ⟨failed, idled⟩
      refine Setting.settled_alone.mpr ⟨.sent idled.log (.inr ⟨e, ?_⟩), ?_⟩
      · rw [idled.faults, Net.post, List.length_append, List.length_singleton,
          Nat.add_sub_cancel]
      · intro e' same
        cases same
        exact .inl (.inl failed)
  · rintro e s' net' ⟨asked, kind⟩
    refine Setting.settled_alone.mpr ⟨asked, fun e' same => ?_⟩
    cases same
    exact kind

end Asking

/-! ## A server that answers at once -/

/-- A status reply without a text. -/
def statusReply (code : Nat) : Reply := ⟨.status, bigEndian 4 code ++ (stringField [] ++ [])⟩

def attributesReply (a : Attributes) : Reply := ⟨.attrs, attributesField a⟩

/-- What a server with one answer to every request may do. -/
def Answers (f : S → Request → Reply × S) (server : S) (request : Request) (reply : Reply)
    (server' : S) : Prop :=
  f server request = (reply, server')

/-- Every request reaches the server, and replies arrive in order. -/
def Wire.answer (f : S → Request → Reply × S) :
    ∀ ⦃β : Type⦄, Wire β → Unit → Net S → β × Unit × Net S
  | _, .asyncRequest request, _, net =>
    (.ok net.log.length, (), net.post request (f net.server request).1 (f net.server request).2)
  | _, .readResponse, _, net =>
    match net.flying with
    | [] => (.error .timeout, (), net.fail .timeout)
    | packet :: _ => (.ok packet, (), net.deliver packet)

theorem Wire.answer_sem (f : S → Request → Reply × S) ⦃β : Type⦄ (op : Wire β) (o : Unit)
    (net : Net S) :
    Wire.sem (Answers f) TransportFault op net (Wire.answer f op o net).1
      (Wire.answer f op o net).2.2 := by
  cases op with
  | asyncRequest request => exact .inl ⟨_, _, rfl, rfl, rfl⟩
  | readResponse =>
    obtain ⟨server, flying, log⟩ := net
    cases flying with
    | nil => exact .inr ⟨.timeout, trivial, rfl, rfl⟩
    | cons packet rest => exact .inl ⟨packet, List.mem_cons_self, rfl, rfl⟩

end DataBridge
