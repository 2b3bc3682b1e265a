import DataBridge.Sftp.Upload

/-!
# The upload sends the data in order and verifies it

`Sending` is the invariant while the data is written, `Quiet` the one after
every write was acknowledged. `InOrder` is kept by every single step: the writes
follow each other, the window bounds those without an answer, and a CLOSE comes
after the success of every write. `transmit_wp` follows a whole upload.
-/

namespace DataBridge

open Effect Routine

/-! ## What the log of an upload says -/

/-- The requests of an upload. -/
inductive OfUpload (handle : Bytes) (stage : Text) : Request → Prop
  | write {offset : Nat} {data : Bytes} : OfUpload handle stage (.write handle offset data)
  | fsync : OfUpload handle stage (.fsync handle)
  | close : OfUpload handle stage (.close handle)
  | stat : OfUpload handle stage (.stat stage)
  | setstat {mode : Nat} : OfUpload handle stage (.setstat stage mode)

/-- The requests of a server with its replies. -/
abbrev Log := List (Request × Reply)

/-- Every request is of this kind. -/
def Only (kind : Request → Prop) (log : Log) : Prop := ∀ entry ∈ log, kind entry.1

/-- A log may go on with any request of this kind. -/
def Allows (lawful : Log → Prop) (kind : Request → Prop) : Prop :=
  ∀ {log request reply}, lawful log → kind request → lawful (log ++ [(request, reply)])

theorem Only.allows {kind : Request → Prop} : Allows (Only kind) kind := by
  intro log request reply only allowed entry member
  rcases List.mem_append.mp member with member | single
  · exact only entry member
  · rw [List.mem_singleton.mp single]
    exact allowed

/-- The offset and data of a WRITE. -/
def Request.written : Request → Option (Nat × Bytes)
  | .write _ offset data => some (offset, data)
  | _ => none

def Request.isClose : Request → Bool
  | .close _ => true
  | _ => false

/-- The WRITE requests of a log, in order. -/
def writesOf (log : Log) : List (Nat × Bytes) :=
  log.filterMap fun entry => entry.1.written

/-- The ranges are not empty, not larger than a request may be, and each starts
where the one before it ends. -/
def Consecutive : Nat → List (Nat × Bytes) → Prop
  | _, [] => True
  | start, (offset, data) :: rest =>
    offset = start ∧ data ≠ [] ∧ data.length ≤ requestSize ∧
      Consecutive (start + data.length) rest

theorem writesOf_append (log later : Log) :
    writesOf (log ++ later) = writesOf log ++ writesOf later :=
  List.filterMap_append

theorem writesOf_other {log : Log} {request : Request} {reply : Reply}
    (other : request.written = none) : writesOf (log ++ [(request, reply)]) = writesOf log := by
  rw [writesOf_append]
  simp [writesOf, other]

/-- The data of a list of writes, put together. -/
def dataOf (writes : List (Nat × Bytes)) : Bytes := writes.flatMap (·.2)

/-- The server answered with a success status. -/
def Succeeded (reply : Reply) : Prop := ∃ rest, accept .status (stash reply) = .ok rest

/-- The attributes that a reply reports. -/
def reported (reply : Reply) : Except Exc Attributes :=
  accept .attrs (stash reply) >>= Reader.parse Reader.attributes

theorem Consecutive.concat {start : Nat} {writes : List (Nat × Bytes)} {data : Bytes}
    (h : Consecutive start writes) (nonempty : data ≠ []) (small : data.length ≤ requestSize) :
    Consecutive start (writes ++ [(start + (dataOf writes).length, data)]) := by
  induction writes generalizing start with
  | nil => exact ⟨rfl, nonempty, small, trivial⟩
  | cons first rest ih =>
    obtain ⟨offset, nonempty', small', rest'⟩ := h
    refine ⟨offset, nonempty', small', ?_⟩
    have := ih rest'
    rwa [Nat.add_assoc, ← List.length_append, show first.2 ++ dataOf rest =
      dataOf (first :: rest) from rfl] at this

section Invariants

variable {S : Type} {lawful : Log → Prop} {sent : Bytes} {requests : Requests} {net : Net S}

/-- What holds of the network at any time during an upload. -/
structure InOrder (lawful : Log → Prop) (net : Net S) : Prop where
  window : net.flying.length ≤ requestWindow
  kinds : lawful net.log
  consecutive : Consecutive 0 (writesOf net.log)
  closed : (∃ entry ∈ net.log, entry.1.isClose) →
    ∀ number entry, net.log[number]? = some entry → entry.1.written.isSome →
      Succeeded entry.2 ∧ ∀ p ∈ net.flying, p.1 ≠ number

/-- The writes go on: `sent` is all data sent so far. -/
structure Sending (lawful : Log → Prop) (handle sent : Bytes) (s : UploadState)
    (net : Net S) : Prop where
  inOrder : InOrder lawful net
  sound : net.faults = []
  opened : s.handle = some handle
  unfinished : s.finished = false
  size : s.size = sent.length
  whole : dataOf (writesOf net.log) = sent
  unclosed : ∀ entry ∈ net.log, ¬entry.1.isClose
  room : s.unacknowledged.length ≤ requestWindow
  heard : s.requests.ignored = []
  waiting : ∃ m, m.map Prod.fst = s.unacknowledged ∧ Outstanding m s.requests net
  acknowledged : ∀ number entry, net.log[number]? = some entry → entry.1.written.isSome →
    number ∈ s.unacknowledged ∨ Succeeded entry.2

/-- Every write succeeded and nothing is on the way. -/
structure Quiet (lawful : Log → Prop) (sent : Bytes) (requests : Requests)
    (net : Net S) : Prop where
  kinds : lawful net.log
  sound : net.faults = []
  consecutive : Consecutive 0 (writesOf net.log)
  whole : dataOf (writesOf net.log) = sent
  heard : requests.ignored = []
  idle : Outstanding [] requests net
  succeeded : ∀ entry ∈ net.log, entry.1.written.isSome → Succeeded entry.2

theorem Quiet.flying (h : Quiet lawful sent requests net) : net.flying = [] :=
  List.eq_nil_of_length_eq_zero (Nat.le_zero.mp (h.idle.flying_le h.heard))

theorem Quiet.inOrder (h : Quiet lawful sent requests net) : InOrder lawful net where
  window := by rw [h.flying]; exact Nat.zero_le _
  kinds := h.kinds
  consecutive := h.consecutive
  closed := by
    intro _ number entry found write
    refine ⟨h.succeeded entry (List.mem_of_getElem? found) write, fun p flying => ?_⟩
    rw [h.flying] at flying
    exact (List.not_mem_nil flying).elim

theorem inOrder_passive {fault : Exc → Prop} :
    Passive fault (InOrder (S := S) lawful) where
  deliver _ _ h := {
    window := le_trans List.length_erase_le h.window
    kinds := h.kinds
    consecutive := h.consecutive
    closed := fun closed number entry found write =>
      ⟨(h.closed closed number entry found write).1, fun q flying =>
        (h.closed closed number entry found write).2 q (List.mem_of_mem_erase flying)⟩ }
  fail _ _ _ h := ⟨h.window, h.kinds, h.consecutive, h.closed⟩

end Invariants

section Rules

variable {S : Type} {serve : S → Request → Reply → S → Prop} {lawful : Log → Prop} {u : Upload}
  {handle sent : Bytes} {s : UploadState} {net : Net S}

/-- An upload over a transport that may fail. -/
abbrev upload (serve : S → Request → Reply → S → Prop) (lawful : Log → Prop) :
    Setting Wire (Net S) :=
  wire serve TransportFault (InOrder lawful)

/-- The oldest write is acknowledged with success, or the call raises. -/
theorem Upload.acknowledge_wp (h : Sending lawful handle sent s net) {number : Nat} {rest : List Nat}
    (first : s.unacknowledged = number :: rest) :
    Upload.acknowledge.Wp (upload serve lawful)
      (Post (fun _ s' net' => Sending lawful handle sent s' net' ∧ s'.unacknowledged = rest)
        fun _ _ _ => True) s net := by
  obtain ⟨m, numbers, out⟩ := h.waiting
  rw [first] at numbers
  obtain ⟨p, m, rfl, rfl, tail⟩ := List.map_eq_cons_iff.mp numbers
  obtain ⟨request, logged⟩ := out.logged p List.mem_cons_self
  rw [Upload.acknowledge, Wp.fields_bind, first]
  simp only [Wp.modify_bind]
  refine .bind (P := Post (fun _ s' net' => Sending lawful handle sent s' net' ∧
      s'.unacknowledged = rest) fun _ _ _ => True)
    (.zoom ((receive_wp inOrder_passive out List.mem_cons_self h.inOrder).mono ?_))
    (fun _ _ _ done => .pure (Setting.settled_alone.mpr done))
    fun _ _ _ _ => Setting.settled_alone.mpr trivial
  rintro r requests net' ⟨inv, ⟨accepted, out, waited⟩ | ⟨e, rfl, -⟩⟩
  · have log := waited.log
    refine Setting.settled_alone.mpr ?_
    cases r with
    | error e => trivial
    | ok payload =>
      rw [List.erase_cons_head] at out
      refine ⟨?_, rfl⟩
      exact {
        inOrder := inv
        sound := waited.faults.trans (by rw [h.sound, List.append_nil])
        opened := h.opened
        unfinished := h.unfinished
        size := h.size
        whole := log ▸ h.whole
        unclosed := log ▸ h.unclosed
        room := by
          have room := h.room
          rw [first, List.length_cons] at room
          exact le_trans (Nat.le_succ _) room
        heard := List.subset_nil.mp (h.heard ▸ waited.ignored)
        waiting := ⟨m, tail, out⟩
        acknowledged := by
          intro number entry found write
          rw [log] at found
          rcases h.acknowledged number entry found write with waiting | succeeded
          · rw [first] at waiting
            rcases List.mem_cons.mp waiting with rfl | waiting
            · rw [logged] at found
              exact .inr (Option.some.inj found ▸ ⟨payload, accepted.symm⟩)
            · exact .inl waiting
          · exact .inr succeeded }
  · exact Setting.settled_alone.mpr trivial

theorem Upload.makeRoom_wp (h : Sending lawful handle sent s net) :
    Upload.makeRoom.Wp (upload serve lawful)
      (Post (fun _ s' net' => Sending lawful handle sent s' net' ∧
          s'.unacknowledged.length < requestWindow)
        fun _ _ _ => True) s net := by
  rw [Upload.makeRoom, Wp.fields_bind]
  split
  · rename_i full
    cases first : s.unacknowledged with
    | nil =>
      rw [first] at full
      exact absurd full (by decide)
    | cons number rest =>
      refine (Upload.acknowledge_wp h first).post ?_ fun _ _ _ _ => trivial
      rintro _ s' net' ⟨sending, rfl⟩
      have room := h.room
      rw [first, List.length_cons] at room
      exact ⟨sending, room⟩
  · rename_i roomy
    exact .pure (Setting.settled_alone.mpr ⟨h, Nat.lt_of_not_le roomy⟩)

/-! ### A log with one more WRITE -/

theorem Sending.consecutive_write {data : Bytes} {reply : Reply}
    (h : Sending lawful handle sent s net) (nonempty : data ≠ [])
    (small : data.length ≤ requestSize) :
    Consecutive 0 (writesOf (net.log ++ [(.write handle s.size data, reply)])) := by
  have extended := h.inOrder.consecutive.concat nonempty small
  rw [Nat.zero_add, h.whole, ← h.size] at extended
  rw [writesOf, List.filterMap_append]
  exact extended

theorem Sending.unclosed_write {data : Bytes} {reply : Reply}
    (h : Sending lawful handle sent s net) :
    ¬∃ entry ∈ net.log ++ [(.write handle s.size data, reply)], entry.1.isClose := by
  rintro ⟨entry, member, closed⟩
  rcases List.mem_append.mp member with member | single
  · exact h.unclosed entry member closed
  · rw [List.mem_singleton.mp single] at closed
    cases closed

/-- A WRITE at the end of what was sent. -/
theorem Sending.post {data : Bytes} {reply : Reply} {server : S}
    (h : Sending lawful handle sent s net) (own : Allows lawful (OfUpload handle u.stage))
    (room : s.unacknowledged.length < requestWindow)
    (nonempty : data ≠ []) (small : data.length ≤ requestSize) :
    Sending lawful handle (sent ++ data)
      { s with
        unacknowledged := s.unacknowledged ++ [net.log.length]
        size := s.size + data.length }
      (net.post (.write handle s.size data) reply server) := by
  obtain ⟨m, numbers, out⟩ := h.waiting
  have log : (net.post (.write handle s.size data) reply server).log =
      net.log ++ [(.write handle s.size data, reply)] := rfl
  have writes : writesOf (net.post (.write handle s.size data) reply server).log =
      writesOf net.log ++ [(s.size, data)] := by
    rw [log, writesOf, List.filterMap_append]
    rfl
  have length : (s.unacknowledged ++ [net.log.length]).length ≤ requestWindow := by
    rw [List.length_append, List.length_singleton]
    exact room
  exact {
    inOrder := {
      window := by
        refine le_trans (out.post.flying_le h.heard) ?_
        have count : m.length = s.unacknowledged.length := by rw [← numbers, List.length_map]
        rw [List.length_append, count, List.length_singleton]
        exact room
      kinds := own h.inOrder.kinds .write
      consecutive := h.consecutive_write nonempty small
      closed := fun closed => (h.unclosed_write closed).elim }
    sound := h.sound
    opened := h.opened
    unfinished := h.unfinished
    size := by
      rw [List.length_append]
      exact congrArg (· + data.length) h.size
    whole := by
      rw [writes, ← h.whole, dataOf, List.flatMap_append]
      simp [dataOf]
    unclosed := fun entry member closed => h.unclosed_write ⟨entry, member, closed⟩
    room := length
    heard := h.heard
    waiting := ⟨_, by rw [List.map_append, numbers]; rfl, out.post⟩
    acknowledged := by
      rw [log]
      intro number entry found write
      rcases Nat.lt_or_ge number net.log.length with older | newer
      · rw [List.getElem?_append_left older] at found
        exact (h.acknowledged number entry found write).imp_left (List.mem_append_left _)
      · have last : number = net.log.length := by
          have := (List.getElem?_eq_some_iff.mp found).1
          rw [List.length_append, List.length_singleton] at this
          omega
        exact .inl (last ▸ List.mem_append_right _ List.mem_cons_self) }

/-- A WRITE whose sending fails. -/
theorem Sending.inOrder_lose {data : Bytes} {reply : Reply} {server : S} {e : Exc}
    (h : Sending lawful handle sent s net) (own : Allows lawful (OfUpload handle u.stage))
    (nonempty : data ≠ [])
    (small : data.length ≤ requestSize) :
    InOrder lawful (net.lose (.write handle s.size data) reply server e) := by
  exact {
    window := h.inOrder.window
    kinds := own h.inOrder.kinds .write
    consecutive := h.consecutive_write nonempty small
    closed := fun closed => (h.unclosed_write closed).elim }

/-! ### The calls -/

theorem Upload.openHandle_wp {L : Setting Wire (Net S)} {K : Net S → Prop}
    (opened : s.handle = some handle) (settled : L.Settled K net) :
    Upload.openHandle.Wp L (Post (fun h s' net' => handle = h ∧ s' = s ∧ K net')
      fun _ _ _ => False) s net := by
  rw [Upload.openHandle, Wp.fields_bind, opened]
  exact .pure fun net' later => ⟨rfl, rfl, settled net' later⟩

/-- One pass of `write` sends the next chunk of the data. -/
theorem Upload.writeChunk_wp {data : Bytes} {start : Nat}
    (own : Allows lawful (OfUpload handle u.stage))
    (h : Sending lawful handle (sent ++ data.take start) s net) :
    (Upload.writeChunk data start).Wp (upload serve lawful)
      (Post (fun r s' net' => r.elim
          (fun next => data.length - next < data.length - start ∧
            Sending lawful handle (sent ++ data.take next) s' net')
          fun _ => Sending lawful handle (sent ++ data) s' net')
        fun _ _ _ => True) s net := by
  rw [Upload.writeChunk]
  split
  · rename_i more
    refine .bind (Upload.makeRoom_wp h) ?_ fun _ _ _ _ => Setting.settled_alone.mpr trivial
    rintro _ s net ⟨sending, room⟩
    refine .bind (P := Post (fun h s' net' => handle = h ∧ s' = s ∧ net' = net) fun _ _ _ => False)
      (Upload.openHandle_wp (K := (· = net)) sending.opened (Setting.settled_alone.mpr rfl)) ?_
      fun _ _ _ impossible => impossible.elim
    rintro _ s net ⟨rfl, rfl, rfl⟩
    rw [Wp.fields_bind]
    let chunk := (data.drop start).take requestSize
    have small : chunk.length ≤ requestSize := List.length_take_le ..
    have nonempty : chunk ≠ [] := by
      refine List.ne_nil_of_length_pos ?_
      rw [List.length_take, List.length_drop]
      exact lt_min (by decide) (by omega)
    have sentNext : sent ++ data.take start ++ chunk = sent ++ data.take (start + requestSize) := by
      rw [List.append_assoc, List.take_add]
    refine .bind (P := Post (fun number s' net' => s' = s ∧ number = net.log.length ∧
        ∃ reply server, net' = net.post (.write handle s.size chunk) reply server)
        fun _ _ _ => True) (.zoom (send_wp (.inr ⟨.timeout, trivial⟩) ?_ ?_ ?_)) ?_
      fun _ _ _ _ => Setting.settled_alone.mpr trivial
    · intro reply server _
      exact ⟨(sending.post own room nonempty small).inOrder,
        Setting.settled_alone.mpr ⟨rfl, rfl, reply, server, rfl⟩⟩
    · rintro e net' failed (rfl | ⟨reply, server, served, rfl⟩)
      · exact ⟨sending.inOrder, Setting.settled_alone.mpr trivial⟩
      · exact ⟨sending.inOrder_lose own nonempty small, Setting.settled_alone.mpr trivial⟩
    · exact fun _ => Setting.settled_alone.mpr trivial
    · rintro number s _ ⟨rfl, rfl, reply, server, rfl⟩
      rw [Wp.modify_bind]
      refine .pure (Setting.settled_alone.mpr ⟨?_, sentNext ▸ sending.post own room nonempty small⟩)
      have : 0 < requestSize := by decide
      omega
  · rename_i done
    refine .pure (Setting.settled_alone.mpr ?_)
    rwa [List.take_of_length_le (Nat.le_of_not_lt done)] at h

theorem Upload.write_wp {data : Bytes} (own : Allows lawful (OfUpload handle u.stage))
    (h : Sending lawful handle sent s net) :
    (Upload.write u data).Wp (upload serve lawful)
      (Post (fun _ s' net' => Sending lawful handle (sent ++ data) s' net') fun _ _ _ => True)
      s net := by
  refine withFailures_wp (.iterate (I := fun n start s' net' =>
    Sending lawful handle (sent ++ data.take start) s' net' ∧ data.length - start = n) ?_
    ⟨by rwa [List.take_zero, List.append_nil], rfl⟩)
  rintro n start s' net' ⟨sending, rfl⟩
  refine (Upload.writeChunk_wp own sending).post ?_ fun _ _ _ _ =>
    Setting.settled_alone.mpr (Setting.settled_alone.mpr trivial)
  rintro (next | _) s' net' h
  · exact Setting.settled_alone.mpr ⟨_, h.1, h.2, rfl⟩
  · exact Setting.settled_alone.mpr (Setting.settled_alone.mpr h)

/-- Fields and network when only requests other than writes remain. -/
structure Settling (lawful : Log → Prop) (sent : Bytes) (handle : Option Bytes) (s : UploadState)
    (net : Net S) : Prop where
  quiet : Quiet lawful sent s.requests net
  size : s.size = sent.length
  drained : s.unacknowledged = []
  opened : s.handle = handle

/-- After all acknowledgements, every write succeeded and nothing is on the way. -/
theorem Upload.acknowledgeAll_wp (h : Sending lawful handle sent s net) :
    Upload.acknowledgeAll.Wp (upload serve lawful)
      (Post (fun _ s' net' => Settling lawful sent (some handle) s' net') fun _ _ _ => True)
      s net := by
  refine .iterate (I := fun n _ s' net' => Sending lawful handle sent s' net' ∧
    s'.unacknowledged.length = n) ?_ ⟨h, rfl⟩
  rintro n _ s net ⟨sending, rfl⟩
  rw [Wp.fields_bind]
  split
  · rename_i none
    obtain ⟨m, numbers, out⟩ := sending.waiting
    rw [none, List.map_eq_nil_iff] at numbers
    subst numbers
    refine .pure (Setting.settled_alone.mpr (Setting.settled_alone.mpr
      ⟨?_, sending.size, none, sending.opened⟩))
    exact {
      kinds := sending.inOrder.kinds
      sound := sending.sound
      consecutive := sending.inOrder.consecutive
      whole := sending.whole
      heard := sending.heard
      idle := out
      succeeded := by
        intro entry member write
        obtain ⟨number, found⟩ := List.mem_iff_getElem?.mp member
        refine (sending.acknowledged number entry found write).resolve_left fun waiting => ?_
        rw [none] at waiting
        exact List.not_mem_nil waiting }
  · rename_i some
    obtain ⟨number, rest, first⟩ := List.exists_cons_of_ne_nil some
    refine .bind (Upload.acknowledge_wp sending first) ?_
      fun _ _ _ _ => Setting.settled_alone.mpr (Setting.settled_alone.mpr trivial)
    rintro _ s' net' ⟨sending, rfl⟩
    refine .pure (Setting.settled_alone.mpr (Setting.settled_alone.mpr ⟨_, ?_, sending, rfl⟩))
    rw [first]
    exact Nat.lt_succ_self _

/-- A request after the writes that is not itself a write. -/
theorem Quiet.snoc {requests requests' : Requests} {net' : Net S} {request : Request}
    {reply : Reply} (h : Quiet lawful sent requests net)
    (log : net'.log = net.log ++ [(request, reply)]) (sound : net'.faults = [])
    (allowed : ∀ reply, lawful (net.log ++ [(request, reply)])) (other : request.written = none)
    (heard : requests'.ignored ⊆ requests.ignored)
    (idle : Outstanding [] requests' net') : Quiet lawful sent requests' net' := by
  have writes : writesOf net'.log = writesOf net.log := by rw [log, writesOf_other other]
  exact {
    sound := sound
    kinds := log ▸ allowed reply
    consecutive := writes ▸ h.consecutive
    whole := writes ▸ h.whole
    heard := List.subset_nil.mp (h.heard ▸ heard)
    idle := idle
    succeeded := by
      rw [log]
      intro entry member write
      rcases List.mem_append.mp member with member | single
      · exact h.succeeded entry member write
      · rw [List.mem_singleton.mp single, other] at write
        cases write }

/-- One more request on the way, which is not a write, keeps the order. -/
theorem Quiet.inOrder_snoc {requests : Requests} {net' : Net S} {request : Request} {reply : Reply}
    (h : Quiet lawful sent requests net)
    (log : net'.log = net.log ++ [(request, reply)]) (allowed : ∀ reply, lawful (net.log ++ [(request, reply)]))
    (other : request.written = none) (flying : net'.flying.length ≤ 1)
    (last : ∀ p ∈ net'.flying, p.1 = net.log.length) : InOrder lawful net' where
  window := le_trans flying (by decide)
  kinds := log ▸ allowed reply
  consecutive := by
    rw [log, writesOf_other other]
    exact h.consecutive
  closed := by
    rw [log]
    intro _ number entry found write
    rcases Nat.lt_or_ge number net.log.length with older | newer
    · rw [List.getElem?_append_left older] at found
      refine ⟨h.succeeded entry (List.mem_of_getElem? found) write, fun p inFlying => ?_⟩
      rw [last p inFlying]
      omega
    · rw [List.getElem?_append_right newer] at found
      have single := List.mem_singleton.mp (List.mem_of_getElem? found)
      rw [single, other] at write
      cases write

theorem quietCall_wp {requests : Requests} {request : Request} {expected : ReplyKind}
    (h : Quiet lawful sent requests net) (allowed : ∀ reply, lawful (net.log ++ [(request, reply)]))
    (other : request.written = none) :
    (Requests.call request expected).Wp (upload serve lawful)
      (fun r requests' net' =>
        (∃ reply, net'.log = net.log ++ [(request, reply)] ∧ r = accept expected (stash reply) ∧
          Quiet lawful sent requests' net') ∨
        ∃ e, r = .error e ∧ ∀ code, e ≠ .status code) requests net := by
  have posts : ∀ reply server, InOrder lawful (net.post request reply server) := by
    intro reply server
    have flying : (net.post request reply server).flying = [(net.log.length, reply)] := by
      rw [Net.post, h.flying]
      rfl
    refine h.inOrder_snoc rfl allowed other (by rw [flying]; exact le_refl 1) ?_
    rw [flying]
    exact fun p single => congrArg Prod.fst (List.mem_singleton.mp single)
  have loses : ∀ reply server e, InOrder lawful (net.lose request reply server e) := by
    intro reply server e
    have flying : (net.lose request reply server e).flying = [] := h.flying
    refine h.inOrder_snoc rfl allowed other (by rw [flying]; exact Nat.zero_le 1) ?_
    rw [flying]
    exact fun p none => (List.not_mem_nil none).elim
  refine (call_wp inOrder_passive h.idle h.inOrder (.inr ⟨.timeout, trivial⟩)
    (fun reply server _ => posts reply server) fun reply server e _ _ => loses reply server e).mono ?_
  rintro r requests' net' ⟨-, fewer, called⟩
  cases called with
  | answered _ served log faults idle =>
    have sound := faults.trans h.sound
    exact .inl ⟨_, log, rfl, h.snoc log sound allowed other fewer idle⟩
  | lost _ failed =>
    refine .inr ⟨_, rfl, fun code same => ?_⟩
    rw [same] at failed
    exact failed
  | unsent failed =>
    refine .inr ⟨_, rfl, fun code same => ?_⟩
    rw [same] at failed
    rcases failed with failed | ⟨impossible, -⟩
    · exact failed
    · cases impossible

theorem Upload.sync_wp (own : Allows lawful (OfUpload handle u.stage))
    (h : Settling lawful sent (some handle) s net) :
    Upload.sync.Wp (upload serve lawful)
      (Post (fun _ s' net' => Settling lawful sent (some handle) s' net') fun _ _ _ => True)
      s net := by
  refine .bind (Upload.openHandle_wp (K := (· = net)) h.opened (Setting.settled_alone.mpr rfl)) ?_
    fun _ _ _ impossible => impossible.elim
  rintro _ s net ⟨rfl, rfl, rfl⟩
  -- A failure that is not a status is not the one that `sync` swallows.
  let Synced := fun (r : Except Exc Unit) (s' : UploadState) (net' : Net S) =>
    Settling lawful sent (some handle) s' net' ∨ ∃ e, r = .error e ∧ ∀ code, e ≠ .status code
  refine .catching (P := Synced) ?_ ?_ ?_
  · refine .bind (P := fun r s' net' => Synced (r.map fun _ => ()) s' net')
      (.zoom ((quietCall_wp h.quiet (fun _ => own h.quiet.kinds .fsync) rfl).mono ?_)) ?_ ?_
    · rintro r requests net' (⟨reply, -, rfl, quiet⟩ | ⟨e, rfl, failed⟩)
      · exact Setting.settled_alone.mpr (.inl ⟨quiet, h.size, h.drained, h.opened⟩)
      · exact Setting.settled_alone.mpr (.inr ⟨e, rfl, failed⟩)
    · exact fun _ _ _ synced => .pure (Setting.settled_alone.mpr synced)
    · exact fun _ _ _ synced => Setting.settled_alone.mpr synced
  · rintro _ s' net' (settling | ⟨e, impossible, -⟩)
    · exact Setting.settled_alone.mpr settling
    · cases impossible
  · rintro e s' net' outcome
    split
    · rename_i unsupported
      rcases outcome with settling | ⟨_, same, failed⟩
      · exact .pure (Setting.settled_alone.mpr settling)
      · cases same
        exact (failed _ unsupported).elim
    · exact .raise (Setting.settled_alone.mpr trivial)

/-- A quiet request whose result the caller needs. -/
theorem Upload.call_wp {opened : Option Bytes} {request : Request} {expected : ReplyKind}
    (h : Settling lawful sent opened s net) (allowed : ∀ reply, lawful (net.log ++ [(request, reply)]))
    (other : request.written = none) :
    (Upload.onRequests (Requests.call request expected)).Wp (upload serve lawful)
      (Post (fun payload s' net' => Settling lawful sent opened s' net' ∧
          ∃ reply, net'.log = net.log ++ [(request, reply)] ∧
            accept expected (stash reply) = .ok payload)
        fun _ _ _ => True) s net := by
  refine .zoom ((quietCall_wp h.quiet allowed other).mono ?_)
  rintro r requests net' (⟨reply, log, rfl, quiet⟩ | ⟨e, rfl, -⟩)
  · refine Setting.settled_alone.mpr ?_
    cases accepted : accept expected (stash reply) with
    | ok payload => exact ⟨⟨quiet, h.size, h.drained, h.opened⟩, reply, log, accepted⟩
    | error e => trivial
  · exact Setting.settled_alone.mpr trivial

/-- The reply to a STAT of the stage, after every write, reports `size`. -/
def ReportedSize (stage : Text) (size : Option Nat) (log : Log) : Prop :=
  ∃ before reply after attributes, log = before ++ (.stat stage, reply) :: after ∧
    writesOf after = [] ∧ reported reply = .ok attributes ∧ attributes.size = size

theorem Upload.settle_wp (own : Allows lawful (OfUpload handle u.stage))
    (h : Sending lawful handle sent s net) :
    (Upload.settle u).Wp (upload serve lawful)
      (Post (fun size s' net' => Settling lawful sent none s' net' ∧
          ReportedSize u.stage size net'.log) fun _ _ _ => True) s net := by
  refine .bind (Upload.acknowledgeAll_wp h) ?_ fun _ _ _ _ => Setting.settled_alone.mpr trivial
  intro _ s net settling
  refine .bind (Upload.sync_wp own settling) ?_ fun _ _ _ _ => Setting.settled_alone.mpr trivial
  intro _ s net settling
  refine .bind (Upload.openHandle_wp (K := (· = net)) settling.opened
    (Setting.settled_alone.mpr rfl)) ?_ fun _ _ _ impossible => impossible.elim
  rintro _ s net ⟨rfl, rfl, rfl⟩
  rw [Wp.modify_bind]
  have settling : Settling lawful sent none { s with handle := none } net :=
    ⟨settling.quiet, settling.size, settling.drained, rfl⟩
  refine .bind (Upload.call_wp settling (fun _ => own settling.quiet.kinds .close) rfl) ?_
    fun _ _ _ _ => Setting.settled_alone.mpr trivial
  rintro _ s net ⟨settling, -⟩
  refine .bind (P := Post (fun attributes s' net' => Settling lawful sent none s' net' ∧
      ∃ reply, net'.log = net.log ++ [(.stat u.stage, reply)] ∧ reported reply = .ok attributes)
      fun _ _ _ => True) (.zoom ?_) ?_ fun _ _ _ _ => Setting.settled_alone.mpr trivial
  · refine .bind (quietCall_wp settling.quiet (fun _ => own settling.quiet.kinds .stat) rfl) ?_ ?_
    · rintro payload requests net' (⟨reply, log, accepted, quiet⟩ | ⟨e, impossible, -⟩)
      · refine .ofExcept (Setting.settled_alone.mpr (Setting.settled_alone.mpr ?_))
        have whole : reported reply = Reader.parse Reader.attributes payload := by
          rw [reported, ← accepted]
          rfl
        cases parsed : Reader.parse Reader.attributes payload with
        | ok attributes =>
          exact ⟨⟨quiet, settling.size, settling.drained, settling.opened⟩, reply, log,
            whole.trans parsed⟩
        | error e => trivial
      · cases impossible
    · exact fun _ _ _ _ => Setting.settled_alone.mpr (Setting.settled_alone.mpr trivial)
  · rintro attributes s' net' ⟨settling, reply, log, parsed⟩
    exact .pure (Setting.settled_alone.mpr
      ⟨settling, net.log, reply, [], attributes, log, rfl, parsed, rfl⟩)

/-- The log of a finished upload. -/
structure Transmitted (lawful : Log → Prop) (stage : Text) (sent : Bytes)
    (log : Log) : Prop where
  whole : dataOf (writesOf log) = sent
  consecutive : Consecutive 0 (writesOf log)
  succeeded : ∀ entry ∈ log, entry.1.written.isSome → Succeeded entry.2
  kinds : lawful log
  verified : ReportedSize stage (some sent.length) log

theorem ReportedSize.snoc {stage : Text} {size : Option Nat} {log : Log}
    {request : Request} {reply : Reply} (h : ReportedSize stage size log)
    (other : request.written = none) : ReportedSize stage size (log ++ [(request, reply)]) := by
  obtain ⟨before, reply', after, attributes, rfl, none, parsed, same⟩ := h
  refine ⟨before, reply', after ++ [(request, reply)], attributes, by simp, ?_, parsed, same⟩
  rwa [writesOf_other other]

/-- What a finished upload leaves. -/
structure Finished (lawful : Log → Prop) (stage : Text) (sent : Bytes) (s : UploadState)
    (net : Net S) : Prop where
  settling : Settling lawful sent none s net
  finished : s.finished = true
  verified : ReportedSize stage (some sent.length) net.log

theorem Finished.transmitted (h : Finished lawful u.stage sent s net) :
    Transmitted lawful u.stage sent net.log :=
  let quiet := h.settling.quiet
  ⟨quiet.whole, quiet.consecutive, quiet.succeeded, quiet.kinds, h.verified⟩

theorem Upload.copyMode_wp (own : Allows lawful (OfUpload handle u.stage))
    (settling : Settling lawful sent none s net)
    (verified : ReportedSize u.stage (some sent.length) net.log) :
    (Upload.copyMode u).Wp (upload serve lawful)
      (Post (fun _ s' net' => Settling lawful sent none s' net' ∧
          ReportedSize u.stage (some sent.length) net'.log) fun _ _ _ => True) s net := by
  unfold Upload.copyMode
  split
  · exact .pure (Setting.settled_alone.mpr ⟨settling, verified⟩)
  · refine withFailures_wp (.bind (Upload.call_wp settling
      (fun _ => own settling.quiet.kinds .setstat) rfl) ?_
      fun _ _ _ _ => Setting.settled_alone.mpr (Setting.settled_alone.mpr trivial))
    rintro _ s' net' ⟨settling, reply, log, -⟩
    exact .pure (Setting.settled_alone.mpr (Setting.settled_alone.mpr
      ⟨settling, log ▸ verified.snoc rfl⟩))

theorem Upload.finish_wp (own : Allows lawful (OfUpload handle u.stage))
    (h : Sending lawful handle sent s net) :
    (Upload.finish u).Wp (upload serve lawful)
      (Post (fun _ s' net' => Finished lawful u.stage sent s' net') fun _ _ _ => True) s net := by
  rw [Upload.finish, Wp.fields_bind, if_neg (by rw [h.unfinished]; exact Bool.false_ne_true)]
  refine .bind (P := Post (fun size s' net' => Settling lawful sent none s' net' ∧
      ReportedSize u.stage size net'.log) fun _ _ _ => True)
    (withFailures_wp ((Upload.settle_wp own h).mono ?_)) ?_
    fun _ _ _ _ => Setting.settled_alone.mpr trivial
  · intro r s' net' done
    cases r with
    | ok _ => exact Setting.settled_alone.mpr done
    | error _ => exact Setting.settled_alone.mpr trivial
  rintro size s net ⟨settling, verified⟩
  rw [Wp.fields_bind]
  cases size with
  | none => exact .raise (Setting.settled_alone.mpr trivial)
  | some size =>
    dsimp only
    split
    · exact .raise (Setting.settled_alone.mpr trivial)
    · rename_i same
      rw [of_not_not same, settling.size] at verified
      refine .bind (Upload.copyMode_wp own settling verified) ?_
        fun _ _ _ _ => Setting.settled_alone.mpr trivial
      rintro _ s' net' ⟨settling, verified⟩
      exact .modify (Setting.settled_alone.mpr
        ⟨⟨settling.quiet, settling.size, settling.drained, settling.opened⟩, rfl, verified⟩)

theorem Upload.transmit_wp {datas : List Bytes}
    (own : Allows lawful (OfUpload handle u.stage))
    (h : Sending lawful handle [] s net) :
    (Upload.transmit u datas).Wp (upload serve lawful)
      (Post (fun _ _ net' => Transmitted lawful u.stage datas.flatten net'.log)
        fun _ _ _ => True) s net := by
  refine .bind (P := Post (fun _ s' net' => Sending lawful handle datas.flatten s' net')
      fun _ _ _ => True) (.forEach (I := fun done s' net' =>
        Sending lawful handle done.flatten s' net') ?_
      (fun _ _ h => Setting.settled_alone.mpr h) h)
    (fun _ _ _ h => (Upload.finish_wp own h).post (fun _ _ _ done => done.transmitted)
      fun _ _ _ _ => trivial) fun _ _ _ _ => Setting.settled_alone.mpr trivial
  rintro done data rest - s net sending
  refine (Upload.write_wp own sending).post ?_ fun _ _ _ _ => Setting.settled_alone.mpr trivial
  intro _ s' net' sending
  rwa [List.flatten_append, List.flatten_singleton]

end Rules

/-! ## A server that stores what it acknowledges -/

/-- `file` with `data` at `offset`; a gap before it reads as zeros. -/
def splice (file : Bytes) (offset : Nat) (data : Bytes) : Bytes :=
  (file ++ List.replicate (offset - file.length) 0).take offset ++ data ++
    file.drop (offset + data.length)

/-- The stage of a server state is `file`: a WRITE that is acknowledged stores
its data, no other request of an upload touches it, and STAT tells its size. -/
structure Stores {S : Type} (serve : S → Request → Reply → S → Prop) (file : S → Bytes)
    (handle : Bytes) (stage : Text) : Prop where
  write : ∀ s offset data reply s', serve s (.write handle offset data) reply s' →
    Succeeded reply → file s' = splice (file s) offset data
  keep : ∀ s request reply s', serve s request reply s' → OfUpload handle stage request →
    request.written = none → file s' = file s
  size : ∀ s reply s' attributes size, serve s (.stat stage) reply s' →
    reported reply = .ok attributes → attributes.size = some size → size = (file s).length

theorem Consecutive.append {start : Nat} {first last : List (Nat × Bytes)}
    (h : Consecutive start (first ++ last)) :
    Consecutive start first ∧ Consecutive (start + (dataOf first).length) last := by
  induction first generalizing start with
  | nil => exact ⟨trivial, h⟩
  | cons w first ih =>
    obtain ⟨offset, nonempty, small, rest⟩ := h
    obtain ⟨left, right⟩ := ih rest
    refine ⟨⟨offset, nonempty, small, left⟩, ?_⟩
    rwa [Nat.add_assoc, ← List.length_append] at right

section Storing

variable {S : Type} {serve : S → Request → Reply → S → Prop} {file : S → Bytes}
  {handle : Bytes} {stage : Text} {first server : S} {log : Log}

theorem splice_end {contents sent data : Bytes} (starts : sent <+: contents) :
    sent ++ data <+: splice contents sent.length data := by
  obtain ⟨rest, rfl⟩ := starts
  refine ⟨(sent ++ rest).drop (sent.length + data.length), ?_⟩
  rw [splice, List.append_assoc sent rest, List.take_left, List.append_assoc]

/-- After acknowledged writes in order, the stage begins with their data. -/
theorem Served.stored (stores : Stores serve file handle stage)
    (served : Served serve first log server) (kinds : ∀ entry ∈ log, OfUpload handle stage entry.1)
    (succeeded : ∀ entry ∈ log, entry.1.written.isSome → Succeeded entry.2)
    (consecutive : Consecutive 0 (writesOf log)) :
    dataOf (writesOf log) <+: file server := by
  induction served with
  | nil => exact List.nil_prefix
  | @snoc log server server' request reply _ step ih =>
    have kind := kinds (request, reply) (List.mem_append_right _ List.mem_cons_self)
    have success := succeeded (request, reply) (List.mem_append_right _ List.mem_cons_self)
    rw [writesOf_append] at consecutive
    have before := ih (fun entry member => kinds entry (List.mem_append_left _ member))
      (fun entry member => succeeded entry (List.mem_append_left _ member)) consecutive.append.1
    by_cases other : request.written = none
    · rw [writesOf_other other, stores.keep _ _ _ _ step kind other]
      exact before
    · cases kind with
      | @write offset data =>
        obtain ⟨rfl, -⟩ := consecutive.append.2
        rw [stores.write _ _ _ _ _ step (success rfl), Nat.zero_add, writesOf_append, dataOf,
          List.flatMap_append]
        change dataOf (writesOf log) ++ (data ++ []) <+: _
        rw [List.append_nil]
        exact splice_end before
      | fsync => exact absurd rfl other
      | close => exact absurd rfl other
      | stat => exact absurd rfl other
      | setstat => exact absurd rfl other

/-- Requests other than writes leave the stage alone. -/
theorem Served.kept (stores : Stores serve file handle stage)
    (served : Served serve first log server) (kinds : ∀ entry ∈ log, OfUpload handle stage entry.1)
    (none : writesOf log = []) : file server = file first := by
  induction served with
  | nil => rfl
  | @snoc log server server' request reply _ step ih =>
    rw [writesOf_append, List.append_eq_nil_iff] at none
    have other : request.written = .none := by
      cases written : request.written with
      | none => rfl
      | some w => simp [writesOf, written] at none
    rw [stores.keep _ _ _ _ step
      (kinds (request, reply) (List.mem_append_right _ List.mem_cons_self)) other]
    exact ih (fun entry member => kinds entry (List.mem_append_left _ member)) none.1

/-- The size that was reported after the last write is the one of the stage. -/
theorem ReportedSize.checked {size : Nat} (reported : ReportedSize stage (some size) log)
    (stores : Stores serve file handle stage) (served : Served serve first log server)
    (kinds : Only (OfUpload handle stage) log) : ∃ before later middle, log = before ++ later ∧
      writesOf later = [] ∧ Served serve first before middle ∧ file server = file middle ∧
      size = (file middle).length := by
  obtain ⟨before, reply, after, attributes, rfl, none, parsed, same⟩ := reported
  rw [List.append_cons] at served
  obtain ⟨checked, untilStat, rest⟩ := served.split
  obtain ⟨middle, written, stat⟩ := untilStat.last
  have kept : file server = file middle := by
    rw [rest.kept stores (fun entry member => kinds entry
        (List.mem_append_right _ (List.mem_cons_of_mem _ member))) none,
      stores.keep _ _ _ _ stat .stat rfl]
  refine ⟨before, (.stat stage, reply) :: after, middle, rfl, ?_, written, kept,
    stores.size _ _ _ _ _ stat parsed same⟩
  rw [← List.singleton_append, writesOf_append, none]
  rfl

/-- When the upload is verified, the stage is exactly what was sent. -/
theorem Transmitted.stored {sent : Bytes} (h : Transmitted (Only (OfUpload handle stage)) stage sent log)
    (stores : Stores serve file handle stage) (served : Served serve first log server) :
    file server = sent := by
  obtain ⟨before, later, middle, rfl, none, written, kept, length⟩ :=
    h.verified.checked stores served h.kinds
  have writes : writesOf (before ++ later) = writesOf before := by
    rw [writesOf_append, none]
    exact List.append_nil _
  have starts : sent <+: file middle := by
    have consecutive := h.consecutive
    rw [writes] at consecutive
    have stored := written.stored stores
      (fun entry member => h.kinds entry (List.mem_append_left _ member))
      (fun entry member => h.succeeded entry (List.mem_append_left _ member)) consecutive
    rwa [← writes, h.whole] at stored
  exact kept.trans (starts.eq_of_length length).symm

end Storing

/-- An upload that is about to send its first write. -/
theorem sending_start {S : Type} {handle : Bytes} {stage : Text} {server : S} :
    Sending (Only (OfUpload handle stage)) handle [] { handle := some handle } ({ server } : Net S) where
  inOrder := {
    window := Nat.zero_le _
    kinds := fun _ member => (List.not_mem_nil member).elim
    consecutive := trivial
    closed := fun ⟨_, member, _⟩ => (List.not_mem_nil member).elim }
  sound := rfl
  opened := rfl
  unfinished := rfl
  size := rfl
  whole := rfl
  unclosed := fun _ member => (List.not_mem_nil member).elim
  room := Nat.zero_le _
  heard := rfl
  waiting := ⟨[], rfl, .nil⟩
  acknowledged := fun _ _ found => nomatch found

/-- An upload sends its data as consecutive ranges, has at most a window of them
unanswered, closes the file after the success of each, and when `finish` returns
the server has reported the size of all data. On a server that stores what it
acknowledges, the stage is then the data. -/
theorem Upload.transmits {S : Type} (serve : S → Request → Reply → S → Prop) (u : Upload)
    (handle : Bytes) (datas : List Bytes) (server : S) :
    (∀ c, Prog.Reach (Wire.sem serve TransportFault)
        (u.transmit datas { handle := some handle }, { server }) c →
      InOrder (Only (OfUpload handle u.stage)) c.2) ∧
    ∀ s net, Prog.Reach (Wire.sem serve TransportFault)
        (u.transmit datas { handle := some handle }, { server }) (.ret (.ok (), s), net) →
      Transmitted (Only (OfUpload handle u.stage)) u.stage datas.flatten net.log ∧
        ∀ file, Stores serve file handle u.stage → file net.server = datas.flatten := by
  have runs : (Upload.transmit u datas).Wp (upload serve (Only (OfUpload handle u.stage)))
      (Post (fun _ _ net' => Transmitted (Only (OfUpload handle u.stage)) u.stage datas.flatten net'.log) fun _ _ _ => True)
      { handle := some handle } { server } := Upload.transmit_wp Only.allows sending_start
  refine ⟨fun c run => ?_, fun s net run => ?_⟩
  · exact runs.invariant (I := InOrder (Only (OfUpload handle u.stage))) sending_start.inOrder
      (fun _ _ _ kept => kept) run
  · have transmitted : Transmitted (Only (OfUpload handle u.stage)) u.stage datas.flatten net.log := runs.result run
    exact ⟨transmitted, fun file stores => transmitted.stored stores (Served.reach .nil run)⟩

/-- A server whose only file is the stage; a size that has no field is not reported. -/
def stageServer (file : Bytes) : Request → Reply × Bytes
  | .write _ offset data => (statusReply sftpOk, splice file offset data)
  | .stat _ => (attributesReply ⟨if file.length < 2 ^ 64 then some file.length else none, none⟩, file)
  | _ => (statusReply sftpOk, file)

theorem stageServer_stores {handle : Bytes} {stage : Text} :
    Stores (Answers stageServer) id handle stage where
  write := by
    intro s offset data reply s' served _
    exact (congrArg Prod.snd served).symm
  keep := by
    intro s request reply s' served kind other
    cases kind with
    | write => cases other
    | fsync | close | stat | setstat => exact (congrArg Prod.snd served).symm
  size := by
    intro file reply s' attributes size served read same
    obtain rfl : attributesReply ⟨if file.length < 2 ^ 64 then some file.length else none, none⟩ =
      reply := congrArg Prod.fst served
    rw [reported, attributesReply, accept_result (by decide) (attributesField_le _)] at read
    have parsed := Reader.parse_attributesField
      (a := ⟨if file.length < 2 ^ 64 then some file.length else none, none⟩)
      (by
        intro n isSize
        split at isSize
        · rename_i fits
          exact Option.mem_some.mp isSize ▸ fits
        · cases isSize)
      fun _ none => nomatch none
    obtain rfl := Except.ok.inj (parsed.symm.trans read)
    dsimp only at same
    split at same
    · exact (Option.some.inj same).symm
    · cases same

/-- An upload of three bytes in two calls. -/
theorem Upload.transmits_three : ∃ s net,
    Prog.Reach (Wire.sem (Answers stageServer) TransportFault)
      (Upload.transmit ⟨lit "/", lit "/s", none⟩ [[7, 8], [9]] { handle := some [1] },
        { server := [] }) (.ret (.ok (), s), net) ∧
      Transmitted (Only (OfUpload [1] (lit "/s"))) (lit "/s") [7, 8, 9] net.log ∧ net.server = [7, 8, 9] := by
  let u : Upload := ⟨lit "/", lit "/s", none⟩
  have finished : (Prog.eval (Wire.answer stageServer) 60
      (u.transmit [[7, 8], [9]] { handle := some [1] }) () { server := [] }).map
        (·.1.1) = some (.ok ()) := by decide +kernel
  obtain ⟨⟨⟨r, s⟩, net⟩, run, ok⟩ := Option.map_eq_some_iff.mp finished
  obtain rfl : r = .ok () := ok
  have run := Prog.eval_reach (Wire.answer_sem stageServer) run
  obtain ⟨transmitted, stored⟩ := (Upload.transmits (Answers stageServer) u [1] [[7, 8], [9]] []).2
    s net run
  exact ⟨s, net, run, transmitted, stored id stageServer_stores⟩

end DataBridge
