import DataBridge.Effect.Calls
import DataBridge.Sftp.Exchange

/-!
# An upload whose caller goes on after an exception

`Upload.transmit_wp` follows an upload that ends with the first exception. Here
`write` and `finish` are called in any order, also after one of them raised.
`Orderly` holds in every such run, `Counted` as long as every byte given to
`write` was sent in a counted WRITE, and `Awaited` as long as the status of no
refused WRITE was taken.
-/

namespace DataBridge

open Effect Routine

/-! ## Replies are the log's -/

section Requests

variable {S : Type} {serve : S → Request → Reply → S → Prop} {fault : Exc → Prop}
  {s : Requests} {net : Net S} {request : Request} {reply : Reply} {server : S}

/-- A request gets the next number, or the log has one entry more at most. -/
theorem send_ensures :
    (Requests.send request).Ensures (Wire.sem serve fault)
      (Post (fun number s' net' => s' = s ∧ number = net.log.length ∧
          ∃ reply server, net' = net.post request reply server)
        fun e s' net' => s' = s ∧ (fault e ∨ ¬request.Encodable) ∧
          (net' = net ∨ ∃ reply server, net' = net.lose request reply server e)) s net := by
  rw [← Wire.layer_same]
  refine Requests.send_exchange.mono ?_
  intro r s' net' sent
  cases r with
  | ok number =>
    obtain ⟨rfl, rfl, reply, server, -, rfl⟩ := sent
    exact ⟨rfl, rfl, reply, server, rfl⟩
  | error e =>
    obtain ⟨rfl, ⟨refused, rfl⟩ | ⟨failed, reply, server, -, rfl⟩⟩ := sent
    · exact ⟨rfl, refused.imp_right And.right, .inl rfl⟩
    · exact ⟨rfl, .inl failed, .inr ⟨reply, server, rfl⟩⟩

/-- `receive` answers with the reply of the log, or the transport fails. -/
theorem receive_ensures {number : Nat} {expected : ReplyKind} (heard : Heard s net) :
    (Requests.receive number expected).Ensures (Wire.sem serve fault)
      (fun r s' net' => Heard s' net' ∧ net'.log = net.log ∧
        ((∃ entry, net.log[number]? = some entry ∧ r = accept expected (stash entry.2)) ∨
          ∃ e, r = .error e ∧ fault e)) s net := by
  rw [← Wire.layer_same]
  refine (Requests.receive_exchange heard).mono ?_
  intro r s' net' received
  obtain ⟨heard, log, -, answer⟩ := received
  refine ⟨heard, log, ?_⟩
  rcases answer with ⟨-, entry, found, accepted⟩ | ⟨e, rfl, failed, -⟩
  · exact .inl ⟨entry, found, accepted⟩
  · exact .inr ⟨e, rfl, failed⟩

/-- What one request adds to the log, when it did not succeed. -/
def AtMostOne (request : Request) (log log' : Log) : Prop :=
  log' = log ∨ ∃ reply, log' = log ++ [(request, reply)]

/-- A result is the reply of the log. -/
theorem Exchange.post {sending reading : Exc → Prop} {α : Type} {read : Reply → Except Exc α}
    {net' : Net S} {r : Except Exc α}
    (exchange : Exchange serve sending reading request read net net' r) {s' : Requests}
    (heard : Heard s' net') :
    Post (fun a s' net' => Heard s' net' ∧ ∃ reply, net'.log = net.log ++ [(request, reply)] ∧
        read reply = .ok a)
      (fun _ s' net' => Heard s' net' ∧ AtMostOne request net.log net'.log) r s' net' := by
  cases exchange with
  | unsent refused unasked => exact ⟨heard, .inl unasked.log⟩
  | lost answered faults failed => exact ⟨heard, .inr ⟨_, answered.log⟩⟩
  | @answered reply answered faults =>
    cases result : read reply with
    | ok a => exact ⟨heard, reply, answered.log, result⟩
    | error e => exact ⟨heard, .inr ⟨reply, answered.log⟩⟩

/-- A call adds its request to the log at most once; a result is its reply. -/
theorem request_ensures {expected : ReplyKind} (heard : Heard s net) :
    (Requests.call request expected).Ensures (Wire.sem serve fault)
      (Post (fun payload s' net' => Heard s' net' ∧ ∃ reply,
          net'.log = net.log ++ [(request, reply)] ∧ accept expected (stash reply) = .ok payload)
        fun _ s' net' => Heard s' net' ∧ AtMostOne request net.log net'.log) s net := by
  rw [← Wire.layer_same]
  refine (Requests.call_exchange heard).mono ?_
  intro r s' net' called
  obtain ⟨heard, exchange⟩ := called
  exact exchange.post heard

theorem attributes_ensures (heard : Heard s net) :
    (Requests.attributes request).Ensures (Wire.sem serve fault)
      (Post (fun attributes s' net' => Heard s' net' ∧ ∃ reply,
          net'.log = net.log ++ [(request, reply)] ∧ reported reply = .ok attributes)
        fun _ s' net' => Heard s' net' ∧ AtMostOne request net.log net'.log) s net := by
  rw [← Wire.layer_same]
  refine (Requests.attributes_exchange heard).mono ?_
  intro r s' net' asked
  obtain ⟨heard, exchange⟩ := asked
  exact exchange.post heard

end Requests

/-! ## The fields of the upload -/

section Upload

variable {S : Type} {serve : S → Request → Reply → S → Prop} {fault : Exc → Prop} {u : Upload}
  {handle sent : Bytes} {s s' : UploadState} {net net' : Net S}

/-- What holds of an upload after any calls, also after failed ones. -/
structure Orderly (u : Upload) (handle : Bytes) (s : UploadState) (net : Net S) : Prop where
  heard : Heard s.requests net
  kinds : Only (OfUpload handle u.stage) net.log
  opened : ∀ h, s.handle = some h → h = handle
  queued : ∀ n ∈ s.unacknowledged, ∃ entry, net.log[n]? = some entry ∧ entry.1.written.isSome
  distinct : s.unacknowledged.Nodup
  finished : s.finished = true → s.handle = none ∧ s.unacknowledged = [] ∧
    ReportedSize u.stage (some s.size) net.log

/-- Every byte of `sent` was sent, in order, and counted. -/
structure Counted (sent : Bytes) (s : UploadState) (net : Net S) : Prop where
  whole : dataOf (writesOf net.log) = sent
  consecutive : Consecutive 0 (writesOf net.log)
  size : s.size = sent.length

/-- The status of every WRITE that did not succeed is still to be taken. -/
def Awaited (s : UploadState) (net : Net S) : Prop :=
  ∀ number entry, net.log[number]? = some entry → entry.1.written.isSome →
    number ∈ s.unacknowledged ∨ Succeeded entry.2

/-- What `finish` keeps: `later` of the log are not writes. -/
structure Going (u : Upload) (handle : Bytes) (size : Nat) (log : Log) (s : UploadState)
    (net : Net S) : Prop where
  orderly : Orderly u handle s net
  size : s.size = size
  later : ∃ later, net.log = log ++ later ∧ writesOf later = []

/-- What `finish` keeps once the status of every write was taken with success. -/
structure Collected (u : Upload) (handle : Bytes) (size : Nat) (log : Log) (awaited : Prop)
    (s : UploadState) (net : Net S) : Prop extends Going u handle size log s net where
  collected : s.unacknowledged = []
  succeeded : awaited → ∀ entry ∈ net.log, entry.1.written.isSome → Succeeded entry.2

theorem Orderly.start {server : S} :
    Orderly u handle { handle := some handle } ({ server } : Net S) where
  heard := ⟨fun _ none => (List.not_mem_nil none).elim, fun _ _ impossible => nomatch impossible⟩
  kinds _ none := (List.not_mem_nil none).elim
  opened _ same := (Option.some.inj same).symm
  queued _ none := (List.not_mem_nil none).elim
  distinct := List.nodup_nil
  finished impossible := nomatch impossible

/-- Other replies were kept, and the log may have one entry more. -/
theorem Orderly.exchange {requests : Requests} (orderly : Orderly u handle s net)
    (heard : Heard requests net') {later : Log} (log : net'.log = net.log ++ later)
    (kinds : Only (OfUpload handle u.stage) later) (other : writesOf later = []) :
    Orderly u handle { s with requests } net' where
  heard := heard
  kinds := by
    rw [log]
    intro entry member
    exact (List.mem_append.mp member).elim (orderly.kinds entry) (kinds entry)
  opened := orderly.opened
  queued := by
    intro n member
    obtain ⟨entry, found, written⟩ := orderly.queued n member
    refine ⟨entry, ?_, written⟩
    rw [log, List.getElem?_append_left (List.getElem?_eq_some_iff.mp found).1]
    exact found
  distinct := orderly.distinct
  finished := by
    intro finished
    obtain ⟨closed, none, before, reply, after, attributes, split, kept, parsed, same⟩ :=
      orderly.finished finished
    refine ⟨closed, none, before, reply, after ++ later, attributes, ?_, ?_, parsed, same⟩
    · rw [log, split, List.append_assoc, List.cons_append]
    · rw [writesOf_append, kept, other, List.append_nil]

/-! ### Taking the status of a write -/

/-- Only the replies, the queue and what arrived differ. -/
structure Took (s : UploadState) (net : Net S) (s' : UploadState) (net' : Net S) : Prop where
  log : net'.log = net.log
  size : s'.size = s.size
  handle : s'.handle = s.handle

/-- The oldest write succeeded, or, when the transport did not fail, was refused
and is waited for no more. -/
theorem Orderly.acknowledge (orderly : Orderly u handle s net) :
    Upload.acknowledge.Ensures (Wire.sem serve fault)
      (Post (fun _ s' net' => Orderly u handle s' net' ∧ Took s net s' net' ∧
          (Awaited s net → Awaited s' net'))
        fun _ s' net' => Orderly u handle s' net' ∧ Took s net s' net' ∧
          ((∀ e, ¬fault e) → s.unacknowledged ≠ [] → ¬Awaited s' net')) s net := by
  rw [Upload.acknowledge, Ensures.fields_bind]
  cases queue : s.unacknowledged with
  | nil => exact .raise ⟨orderly, ⟨rfl, rfl, rfl⟩, fun _ some => absurd rfl some⟩
  | cons number rest =>
    simp only [Ensures.modify_bind]
    obtain ⟨entry, logged, written⟩ := orderly.queued number (by rw [queue]; exact List.mem_cons_self)
    have distinct := orderly.distinct
    rw [queue, List.nodup_cons] at distinct
    -- What holds after the reply, whatever it is.
    have popped : ∀ (requests : Requests) (net' : Net S), Heard requests net' → net'.log = net.log →
        Orderly u handle { s with requests, unacknowledged := rest } net' := by
      intro requests net' heard log
      exact {
        heard := heard
        kinds := log ▸ orderly.kinds
        opened := orderly.opened
        queued := fun n member => log ▸ orderly.queued n (by rw [queue]; exact List.mem_cons_of_mem _ member)
        distinct := distinct.2
        finished := by
          intro finished
          have none := (orderly.finished finished).2.1
          rw [queue] at none
          cases none }
    refine .bind (P := fun r s' net' => ∃ requests, s' = { s with requests, unacknowledged := rest } ∧
        Heard requests net' ∧ net'.log = net.log ∧
        (r = accept .status (stash entry.2) ∨ ∃ e, r = .error e ∧ fault e)) (.zoom ?_) ?_ ?_
    · refine (receive_ensures orderly.heard).mono ?_
      intro r requests net' received
      obtain ⟨heard, log, ⟨found, logged', rfl⟩ | failed⟩ := received
      · rw [logged] at logged'
        cases logged'
        exact ⟨requests, rfl, heard, log, .inl rfl⟩
      · exact ⟨requests, rfl, heard, log, .inr failed⟩
    · intro payload s' net' received
      obtain ⟨requests, rfl, heard, log, accepted | ⟨e, impossible, -⟩⟩ := received
      · refine .pure ⟨popped _ _ heard log, ⟨log, rfl, rfl⟩, ?_⟩
        intro awaited n entry' found write
        rw [log] at found
        rcases awaited n entry' found write with waiting | succeeded
        · rw [queue] at waiting
          rcases List.mem_cons.mp waiting with rfl | waiting
          · rw [logged] at found
            cases found
            exact .inr ⟨payload, accepted.symm⟩
          · exact .inl waiting
        · exact .inr succeeded
      · cases impossible
    · intro e s' net' received
      obtain ⟨requests, rfl, heard, log, cause⟩ := received
      refine ⟨popped _ _ heard log, ⟨log, rfl, rfl⟩, ?_⟩
      intro reliable _ awaited
      have refused : accept .status (stash entry.2) = .error e := by
        rcases cause with accepted | ⟨e', -, failed⟩
        · exact accepted.symm
        · exact absurd failed (reliable e')
      rcases awaited number entry (log ▸ logged) written with waiting | ⟨payload, accepted⟩
      · exact distinct.1 waiting
      · rw [refused] at accepted
        cases accepted

theorem Orderly.makeRoom (orderly : Orderly u handle s net) :
    Upload.makeRoom.Ensures (Wire.sem serve fault)
      (Post (fun _ s' net' => Orderly u handle s' net' ∧ Took s net s' net' ∧
          (Awaited s net → Awaited s' net'))
        fun _ s' net' => Orderly u handle s' net' ∧ Took s net s' net' ∧
          ((∀ e, ¬fault e) → ¬Awaited s' net')) s net := by
  rw [Upload.makeRoom, Ensures.fields_bind]
  split
  · rename_i full
    have some : s.unacknowledged ≠ [] := by
      intro none
      rw [none] at full
      exact absurd full (by decide)
    refine orderly.acknowledge.mono ?_
    intro r s' net' done
    cases r with
    | ok _ => exact done
    | error e => exact ⟨done.1, done.2.1, fun reliable => done.2.2 reliable some⟩
  · exact .pure ⟨orderly, ⟨rfl, rfl, rfl⟩, id⟩

/-! ### Sending a write -/

/-- The log has a WRITE more, which is not counted. -/
theorem Orderly.posted {offset : Nat} {data : Bytes} {reply : Reply}
    (orderly : Orderly u handle s net) (opened : s.handle = some handle)
    (heard : Heard s.requests net')
    (log : net'.log = net.log ++ [(.write handle offset data, reply)]) :
    Orderly u handle s net' where
  heard := heard
  kinds := by
    rw [log]
    exact Only.allows orderly.kinds .write
  opened := orderly.opened
  queued := by
    intro n member
    obtain ⟨entry, found, written⟩ := orderly.queued n member
    refine ⟨entry, ?_, written⟩
    rw [log, List.getElem?_append_left (List.getElem?_eq_some_iff.mp found).1]
    exact found
  distinct := orderly.distinct
  finished := by
    intro finished
    have closed := (orderly.finished finished).1
    rw [opened] at closed
    cases closed

/-- The last WRITE of the log is counted. -/
theorem Orderly.count {number size : Nat} {entry : Request × Reply}
    (orderly : Orderly u handle s net) (opened : s.handle = some handle)
    (logged : net.log[number]? = some entry) (written : entry.1.written.isSome)
    (fresh : number ∉ s.unacknowledged) :
    Orderly u handle { s with unacknowledged := s.unacknowledged ++ [number], size } net where
  heard := orderly.heard
  kinds := orderly.kinds
  opened := orderly.opened
  queued := by
    intro n member
    rcases List.mem_append.mp member with before | last
    · exact orderly.queued n before
    · rw [List.mem_singleton.mp last]
      exact ⟨entry, logged, written⟩
  distinct := by
    refine List.nodup_append.mpr ⟨orderly.distinct, List.nodup_singleton _, ?_⟩
    intro n member m last same
    rw [List.mem_singleton.mp last] at same
    exact fresh (same ▸ member)
  finished := by
    intro finished
    have closed := (orderly.finished finished).1
    rw [opened] at closed
    cases closed

theorem Orderly.fresh (orderly : Orderly u handle s net) :
    net.log.length ∉ s.unacknowledged := by
  intro member
  obtain ⟨entry, found, -⟩ := orderly.queued _ member
  have := (List.getElem?_eq_some_iff.mp found).1
  omega

theorem Awaited.write {data : Bytes} {offset size : Nat} {reply : Reply} {server : S}
    (awaited : Awaited s net) :
    Awaited { s with unacknowledged := s.unacknowledged ++ [net.log.length], size }
      (net.post (.write handle offset data) reply server) := by
  intro number entry found write
  rcases Nat.lt_or_ge number net.log.length with older | newer
  · rw [Net.post, List.getElem?_append_left older] at found
    exact (awaited number entry found write).imp_left (List.mem_append_left _)
  · have last : number = net.log.length := by
      have := (List.getElem?_eq_some_iff.mp found).1
      rw [Net.post, List.length_append, List.length_singleton] at this
      omega
    exact .inl (last ▸ List.mem_append_right _ List.mem_cons_self)

theorem Counted.write {data : Bytes} {reply : Reply} {server : S} {unacknowledged : List Nat}
    (accounted : Counted sent s net) (nonempty : data ≠ []) (small : data.length ≤ requestSize) :
    Counted (sent ++ data) { s with unacknowledged, size := s.size + data.length }
      (net.post (.write handle s.size data) reply server) := by
  have writes : writesOf (net.post (.write handle s.size data) reply server).log =
      writesOf net.log ++ [(s.size, data)] := by
    rw [Net.post, writesOf_append]
    rfl
  constructor
  · rw [writes, ← accounted.whole, dataOf, List.flatMap_append]
    simp [dataOf]
  · have extended := accounted.consecutive.concat nonempty small
    rw [Nat.zero_add, accounted.whole, ← accounted.size] at extended
    rw [writes]
    exact extended
  · rw [List.length_append]
    exact congrArg (· + data.length) accounted.size

theorem Counted.took (accounted : Counted sent s net) (took : Took s net s' net') :
    Counted sent s' net' := by
  refine ⟨?_, ?_, took.size.trans accounted.size⟩
  · rw [took.log]
    exact accounted.whole
  · rw [took.log]
    exact accounted.consecutive

/-- What `write` has done when the bytes of `data` are sent. -/
structure Wrote (u : Upload) (handle data : Bytes) (s : UploadState) (net : Net S)
    (s' : UploadState) (net' : Net S) : Prop where
  orderly : Orderly u handle s' net'
  handle : s'.handle = s.handle
  size : s'.size = s.size + data.length
  awaited : Awaited s net → Awaited s' net'
  accounted : ∀ sent, Counted sent s net → Counted (sent ++ data) s' net'

theorem Wrote.refl (orderly : Orderly u handle s net) : Wrote u handle [] s net s net where
  orderly := orderly
  handle := rfl
  size := rfl
  awaited := id
  accounted sent accounted := by rwa [List.append_nil]

theorem Wrote.trans {s₁ : UploadState} {net₁ : Net S} {data more : Bytes}
    (first : Wrote u handle data s net s₁ net₁) (second : Wrote u handle more s₁ net₁ s' net') :
    Wrote u handle (data ++ more) s net s' net' where
  orderly := second.orderly
  handle := second.handle.trans first.handle
  size := by
    have := first.size
    have := second.size
    rw [List.length_append]
    omega
  awaited awaited := second.awaited (first.awaited awaited)
  accounted sent accounted := by
    rw [← List.append_assoc]
    exact second.accounted _ (first.accounted _ accounted)

/-- What `write` has done when it raises: not all of `data` is counted. -/
structure Broke (u : Upload) (handle : Bytes) (fault : Exc → Prop) (s : UploadState)
    (s' : UploadState) (net' : Net S) : Prop where
  orderly : Orderly u handle s' net'
  size : s'.size = s.size
  awaited : (∀ e, ¬fault e) → s.handle ≠ none → ¬Awaited s' net'

theorem Upload.openHandle_reads {sem : Sem Wire (Net S)} :
    Upload.openHandle.Ensures sem (Post (fun h s' net' => s.handle = some h ∧ s' = s ∧ net' = net)
      fun _ s' net' => s.handle = none ∧ s' = s ∧ net' = net) s net := by
  rw [Upload.openHandle, Ensures.fields_bind]
  split
  · rename_i closed
    exact .raise ⟨closed, rfl, rfl⟩
  · rename_i opened
    exact .pure ⟨opened, rfl, rfl⟩

/-- One pass of `write` sends one chunk and counts it, or raises. -/
theorem Orderly.writeChunk {data : Bytes} {start : Nat}
    (orderly : Orderly u handle s net) :
    (Upload.writeChunk data start).Ensures (Wire.sem serve fault)
      (Post (fun r s' net' => r.elim
          (fun next => next = start + requestSize ∧
            Wrote u handle ((data.drop start).take requestSize) s net s' net')
          fun _ => data.length ≤ start ∧ s' = s ∧ net' = net)
        fun _ s' net' => start < data.length ∧ Broke u handle fault s s' net') s net := by
  rw [Upload.writeChunk]
  split
  · rename_i more
    let chunk := (data.drop start).take requestSize
    have small : chunk.length ≤ requestSize := List.length_take_le ..
    have nonempty : chunk ≠ [] := by
      refine List.ne_nil_of_length_pos ?_
      rw [List.length_take, List.length_drop]
      exact lt_min (by decide) (by omega)
    refine .bind orderly.makeRoom ?_ ?_
    · intro _ s₁ net₁ made
      obtain ⟨orderly, took, awaited⟩ := made
      refine .bind Upload.openHandle_reads ?_ ?_
      · intro h s₂ net₂ found
        obtain ⟨opened, rfl, rfl⟩ := found
        obtain rfl := orderly.opened h opened
        rw [Ensures.fields_bind]
        refine .bind (P := Post (fun number s' net' => s' = s₂ ∧ number = net₂.log.length ∧
            ∃ reply server, net' = net₂.post (.write h s₂.size chunk) reply server)
            fun e s' net' => Orderly u h s' net' ∧ s'.size = s₂.size ∧ fault e)
          (.zoom (send_ensures.mono ?_)) ?_ ?_
        · intro r requests net' sent
          cases r with
          | ok number =>
            obtain ⟨rfl, rfl, reply, server, rfl⟩ := sent
            exact ⟨rfl, rfl, reply, server, rfl⟩
          | error e =>
            obtain ⟨rfl, cause, after⟩ := sent
            have failed : fault e := cause.resolve_right fun unencodable =>
              unencodable fun path none => (List.not_mem_nil none).elim
            rcases after with rfl | ⟨reply, server, rfl⟩
            · exact ⟨orderly, rfl, failed⟩
            · exact ⟨orderly.posted opened orderly.heard.lose rfl, rfl, failed⟩
        · intro number s' net' sent
          obtain ⟨rfl, rfl, reply, server, rfl⟩ := sent
          rw [Ensures.modify_bind]
          have sent : Orderly u h s' (net₂.post (.write h s'.size chunk) reply server) :=
            orderly.posted opened orderly.heard.post rfl
          have logged : (net₂.post (.write h s'.size chunk) reply server).log[net₂.log.length]? =
              some (.write h s'.size chunk, reply) := List.getElem?_concat_length
          refine .pure ⟨rfl, ?_⟩
          exact {
            orderly := sent.count opened logged rfl orderly.fresh
            handle := took.handle
            size := congrArg (· + chunk.length) took.size
            awaited := fun before => (awaited before).write
            accounted := fun sent before => (before.took took).write nonempty small }
        · intro e s' net' failed
          obtain ⟨orderly, size, failed⟩ := failed
          exact ⟨more, orderly, size.trans took.size, fun reliable => absurd failed (reliable e)⟩
      · intro e s₂ net₂ closed
        obtain ⟨closed, rfl, rfl⟩ := closed
        exact ⟨more, orderly, took.size, fun _ opened => absurd (took.handle ▸ closed) opened⟩
    · intro e s' net' failed
      obtain ⟨orderly, took, awaited⟩ := failed
      exact ⟨more, orderly, took.size, fun reliable _ => awaited reliable⟩
  · rename_i done
    exact .pure ⟨Nat.le_of_not_lt done, rfl, rfl⟩

/-- What is known of a failed block does not depend on its exception. -/
theorem withFailures_post {E : Type → Type} {W σ α : Type} {sem : Sem E W} {f : Failures}
    {body : Routine E Exc σ α} {A : α → σ → W → Prop} {B : σ → W → Prop} {s : σ} {w : W}
    (h : body.Ensures sem (Post A fun _ => B) s w) :
    (withFailures f body).Ensures sem (Post A fun _ => B) s w := by
  refine withFailures_ensures (h.mono ?_)
  intro r s' w' done
  cases r with
  | ok a => exact done
  | error e => exact done

/-- `write` sends all its data, or raises and has counted less. -/
theorem Orderly.write {data : Bytes} (orderly : Orderly u handle s net) :
    (Upload.write u data).Ensures (Wire.sem serve fault)
      (Post (fun _ s' net' => Wrote u handle data s net s' net')
        fun _ s' net' => Orderly u handle s' net' ∧ data ≠ [] ∧ s'.size < s.size + data.length ∧
          ((∀ e, ¬fault e) → s.handle ≠ none → ¬Awaited s' net')) s net := by
  refine withFailures_post (.iterate (I := fun start s' net' =>
    Wrote u handle (data.take start) s net s' net') ?_ ?_)
  · intro start s₁ net₁ wrote
    refine wrote.orderly.writeChunk.mono ?_
    intro r s₂ net₂ done
    match r, done with
    | .ok (.inl next), done =>
      obtain ⟨rfl, chunk⟩ := done
      have both := wrote.trans chunk
      rwa [← List.take_add] at both
    | .ok (.inr _), done =>
      obtain ⟨last, rfl, rfl⟩ := done
      rwa [List.take_of_length_le last] at wrote
    | .error e, done =>
      obtain ⟨more, broke⟩ := done
      refine ⟨broke.orderly, ?_, ?_, fun reliable opened => ?_⟩
      · exact List.ne_nil_of_length_pos (Nat.zero_lt_of_lt more)
      · have counted := wrote.size
        rw [List.length_take] at counted
        rw [broke.size, counted]
        omega
      · exact broke.awaited reliable (wrote.handle ▸ opened)
  · rw [List.take_zero]
    exact .refl orderly

/-! ### Finishing -/

section Finishing

variable {size : Nat} {log : Log} {awaited : Prop}

/-- Without more writes, what was counted stays so. -/
theorem Going.counted (going : Going u handle s.size net.log s' net') (counted : Counted sent s net) :
    Counted sent s' net' := by
  obtain ⟨later, logged, none⟩ := going.later
  have writes : writesOf net'.log = writesOf net.log := by
    rw [logged, writesOf_append, none, List.append_nil]
  exact ⟨writes ▸ counted.whole, writes ▸ counted.consecutive, going.size.trans counted.size⟩

/-- One request more that is not a write. -/
theorem Collected.exchange {requests : Requests} {request : Request}
    (collected : Collected u handle size log awaited s net) (heard : Heard requests net')
    (asked : AtMostOne request net.log net'.log) (kind : OfUpload handle u.stage request)
    (other : request.written = none) :
    Collected u handle size log awaited { s with requests } net' := by
  obtain ⟨later, logged, kinds, none⟩ : ∃ later, net'.log = net.log ++ later ∧
      Only (OfUpload handle u.stage) later ∧ writesOf later = [] := by
    rcases asked with same | ⟨reply, one⟩
    · exact ⟨[], by rw [same, List.append_nil], fun _ none => (List.not_mem_nil none).elim, rfl⟩
    · refine ⟨_, one, ?_, by simp [writesOf, other]⟩
      intro entry member
      rw [List.mem_singleton.mp member]
      exact kind
  exact {
    orderly := collected.orderly.exchange heard logged kinds none
    size := collected.size
    later := by
      obtain ⟨before, same, others⟩ := collected.later
      refine ⟨before ++ later, ?_, ?_⟩
      · rw [logged, same, List.append_assoc]
      · rw [writesOf_append, others, none, List.append_nil]
    collected := collected.collected
    succeeded := by
      intro holds entry member write
      rw [logged] at member
      rcases List.mem_append.mp member with before | last
      · exact collected.succeeded holds entry before write
      · have counted : (entry.1.written).get write ∈ writesOf later :=
          List.mem_filterMap.mpr ⟨entry, last, (Option.some_get write).symm⟩
        rw [none] at counted
        exact (List.not_mem_nil counted).elim }

/-- A request of `finish` keeps what was collected. -/
theorem Collected.call {request : Request} {expected : ReplyKind}
    (collected : Collected u handle size log awaited s net)
    (kind : OfUpload handle u.stage request) (other : request.written = none) :
    (Upload.onRequests (Requests.call request expected)).Ensures (Wire.sem serve fault)
      (Post (fun _ s' net' => Collected u handle size log awaited s' net' ∧ s'.handle = s.handle ∧
          ∃ reply, net'.log = net.log ++ [(request, reply)])
        fun _ s' net' => Collected u handle size log awaited s' net') s net := by
  refine .zoom ((request_ensures collected.orderly.heard).mono ?_)
  intro r requests net' called
  cases r with
  | ok payload =>
    obtain ⟨heard, reply, logged, -⟩ := called
    exact ⟨collected.exchange heard (.inr ⟨reply, logged⟩) kind other, rfl, reply, logged⟩
  | error e => exact collected.exchange called.1 called.2 kind other

/-- When every status was taken, the writes succeeded if none was forgotten before. -/
theorem Orderly.acknowledgeAll (orderly : Orderly u handle s net) :
    Upload.acknowledgeAll.Ensures (Wire.sem serve fault)
      (Post (fun _ s' net' => Collected u handle s.size net.log (Awaited s net) s' net')
        fun _ s' net' => Going u handle s.size net.log s' net') s net := by
  have going : ∀ {s' : UploadState} {net' : Net S}, Orderly u handle s' net' → Took s net s' net' →
      Going u handle s.size net.log s' net' := by
    intro s' net' orderly took
    exact ⟨orderly, took.size, [], by rw [took.log, List.append_nil], rfl⟩
  refine .iterate (I := fun _ s' net' => Orderly u handle s' net' ∧ Took s net s' net' ∧
    (Awaited s net → Awaited s' net')) ?_ ⟨orderly, ⟨rfl, rfl, rfl⟩, id⟩
  intro _ s₁ net₁ inv
  obtain ⟨orderly, took, kept⟩ := inv
  rw [Ensures.fields_bind]
  by_cases none : s₁.unacknowledged = []
  · rw [if_pos none]
    refine .pure { toGoing := going orderly took, collected := none, succeeded := ?_ }
    intro awaited entry member write
    obtain ⟨number, found⟩ := List.mem_iff_getElem?.mp member
    refine (kept awaited number entry found write).resolve_left fun waiting => ?_
    rw [none] at waiting
    exact List.not_mem_nil waiting
  · rw [if_neg none]
    refine .bind orderly.acknowledge ?_ ?_
    · intro _ s₂ net₂ done
      obtain ⟨orderly, more, kept'⟩ := done
      refine .pure ⟨orderly, ⟨?_, ?_, ?_⟩, fun awaited => kept' (kept awaited)⟩
      · exact more.log.trans took.log
      · exact more.size.trans took.size
      · exact more.handle.trans took.handle
    · intro e s₂ net₂ failed
      obtain ⟨orderly, more, -⟩ := failed
      exact going orderly ⟨more.log.trans took.log, more.size.trans took.size,
        more.handle.trans took.handle⟩

theorem Collected.sync (collected : Collected u handle size log awaited s net) :
    Upload.sync.Ensures (Wire.sem serve fault)
      (fun _ s' net' => Collected u handle size log awaited s' net') s net := by
  refine .bind Upload.openHandle_reads ?_ ?_
  · intro h s' net' found
    obtain ⟨opened, rfl, rfl⟩ := found
    obtain rfl := collected.orderly.opened h opened
    refine .catching (P := fun _ s' net' => Collected u h size log awaited s' net') ?_ ?_ ?_
    · refine .bind (collected.call .fsync rfl) ?_ ?_
      · intro _ s' net' done
        exact .pure done.1
      · intro _ s' net' failed
        exact failed
    · intro _ _ _ done
      exact done
    · intro e s' net' failed
      split
      · exact .pure failed
      · exact .raise failed
  · intro e s' net' closed
    obtain ⟨-, rfl, rfl⟩ := closed
    exact collected

/-- The size that `settle` returns was reported after the last write. -/
theorem Orderly.settle (orderly : Orderly u handle s net) :
    (Upload.settle u).Ensures (Wire.sem serve fault)
      (Post (fun stored s' net' => Collected u handle s.size net.log (Awaited s net) s' net' ∧
          s'.handle = none ∧ ReportedSize u.stage stored net'.log)
        fun _ s' net' => Going u handle s.size net.log s' net') s net := by
  refine .bind orderly.acknowledgeAll ?_ fun _ _ _ going => going
  intro _ s₁ net₁ collected
  refine .bind collected.sync ?_ fun _ _ _ collected => collected.toGoing
  intro _ s₂ net₂ collected
  refine .bind Upload.openHandle_reads ?_ ?_
  · intro h s₃ net₃ found
    obtain ⟨opened, rfl, rfl⟩ := found
    obtain rfl := collected.orderly.opened h opened
    rw [Ensures.modify_bind]
    have closed : Collected u h s.size net.log (Awaited s net) { s₃ with handle := none } net₃ := {
      orderly := {
        heard := collected.orderly.heard
        kinds := collected.orderly.kinds
        opened := fun _ impossible => nomatch impossible
        queued := collected.orderly.queued
        distinct := collected.orderly.distinct
        finished := fun finished => ⟨rfl, (collected.orderly.finished finished).2⟩ }
      size := collected.size
      later := collected.later
      collected := collected.collected
      succeeded := collected.succeeded }
    refine .bind (closed.call .close rfl) ?_ fun _ _ _ failed => failed.toGoing
    intro _ s₄ net₄ done
    obtain ⟨closed, none, -⟩ := done
    refine .bind (P := Post (fun (attributes : Attributes) s' net' =>
        Collected u h s.size net.log (Awaited s net) s' net' ∧ s'.handle = .none ∧
          ReportedSize u.stage attributes.size net'.log)
        fun _ s' net' => Going u h s.size net.log s' net') (.zoom ?_) ?_ fun _ _ _ going => going
    · refine (attributes_ensures closed.orderly.heard).mono ?_
      intro r requests net' answered
      cases r with
      | ok attributes =>
        obtain ⟨heard, reply, logged, parsed⟩ := answered
        exact ⟨closed.exchange heard (.inr ⟨reply, logged⟩) .stat rfl, none, net₄.log, reply, [],
          attributes, logged, rfl, parsed, rfl⟩
      | error e => exact (closed.exchange answered.1 answered.2 .stat rfl).toGoing
    · intro attributes s' net' done
      exact .pure done
  · intro e s₃ net₃ closed
    obtain ⟨-, rfl, rfl⟩ := closed
    exact collected.toGoing

/-- What is known once the size that the server reports was compared. -/
structure Verified (u : Upload) (handle : Bytes) (count : Nat) (log : Log) (awaited : Prop)
    (s : UploadState) (net : Net S) : Prop extends Collected u handle count log awaited s net where
  closed : s.handle = none
  reported : ReportedSize u.stage (some count) net.log

theorem Verified.copyMode (verified : Verified u handle size log awaited s net) :
    (Upload.copyMode u).Ensures (Wire.sem serve fault)
      (Post (fun _ s' net' => Verified u handle size log awaited s' net')
        fun _ s' net' => Going u handle size log s' net') s net := by
  unfold Upload.copyMode
  split
  · exact .pure verified
  · refine withFailures_post (.bind (verified.toCollected.call .setstat rfl) ?_
      fun _ _ _ failed => failed.toGoing)
    intro _ s' net' done
    obtain ⟨collected, same, reply, logged⟩ := done
    refine .pure { toCollected := collected, closed := same.trans verified.closed, reported := ?_ }
    rw [logged]
    exact verified.reported.snoc rfl

/-- When `finish` returns, the server has reported the number of counted bytes,
and every write succeeded if none was forgotten before. -/
theorem Orderly.finish (orderly : Orderly u handle s net) :
    (Upload.finish u).Ensures (Wire.sem serve fault)
      (Post (fun _ s' net' => Verified u handle s.size net.log (Awaited s net) s' net')
        fun _ s' net' => Going u handle s.size net.log s' net') s net := by
  rw [Upload.finish, Ensures.fields_bind]
  by_cases finished : s.finished = true
  · rw [if_pos finished]
    obtain ⟨closed, none, reported⟩ := orderly.finished finished
    refine .pure {
      orderly := orderly
      size := rfl
      later := ⟨[], (List.append_nil _).symm, rfl⟩
      collected := none
      succeeded := ?_
      closed := closed
      reported := reported }
    intro awaited entry member write
    obtain ⟨number, found⟩ := List.mem_iff_getElem?.mp member
    refine (awaited number entry found write).resolve_left fun waiting => ?_
    rw [none] at waiting
    exact List.not_mem_nil waiting
  · rw [if_neg finished]
    refine .bind (withFailures_post orderly.settle) ?_ fun _ _ _ going => going
    intro stored s₁ net₁ settled
    obtain ⟨collected, closed, reported⟩ := settled
    rw [Ensures.fields_bind]
    cases stored with
    | none => exact .raise collected.toGoing
    | some stored =>
      by_cases same : stored = s₁.size
      · subst same
        simp only [ne_eq, not_true_eq_false, if_false]
        have verified : Verified u handle s.size net.log (Awaited s net) s₁ net₁ :=
          { toCollected := collected, closed := closed, reported := collected.size ▸ reported }
        refine .bind verified.copyMode ?_ fun _ _ _ going => going
        intro _ s₂ net₂ verified
        refine .modify {
          orderly := {
            heard := verified.orderly.heard
            kinds := verified.orderly.kinds
            opened := verified.orderly.opened
            queued := verified.orderly.queued
            distinct := verified.orderly.distinct
            finished := fun _ => ⟨verified.closed, verified.collected, ?_⟩ }
          size := verified.size
          later := verified.later
          collected := verified.collected
          succeeded := verified.succeeded
          closed := verified.closed
          reported := verified.reported }
        exact verified.size.symm ▸ verified.reported
      · simp only [ne_eq, same, not_false_eq_true, if_true]
        exact .raise collected.toGoing

end Finishing

end Upload

/-! ## Callers that go on after an exception -/

/-- A call of the upload, with the network before and after it. -/
abbrev Upload.Made (S : Type) := Routine.Made SinkCall Exc UploadState (Net S)

/-- A call that lost nothing: a write of bytes found the handle open, and the
transport did not fail while it ran; and no status of a refused WRITE was taken. -/
structure Upload.Clean {S : Type} (serve : S → Request → Reply → S → Prop) (u : Upload)
    (m : Upload.Made S) : Prop where
  undisturbed : ∀ data, m.call = .write data → data = [] ∨ m.before.handle ≠ none ∧
    Runs (Wire.sem serve fun _ => False) (u.write data) m.before m.world m.outcome m.after m.left
  awaited : Awaited m.after m.left

/-- A write that raised. -/
def Upload.Broken {S : Type} (m : Upload.Made S) : Prop :=
  ∃ data e, m.call = .write data ∧ m.outcome = .error e

/-- The bytes of all writes are counted while every call is clean, and fewer
than those once a write raised. -/
structure Upload.Tally {S : Type} (serve : S → Request → Reply → S → Prop) (u : Upload)
    (handle : Bytes) (made : List (Upload.Made S)) (s : UploadState) (net : Net S) : Prop where
  orderly : Orderly u handle s net
  whole : (∀ m ∈ made, Upload.Clean serve u m) →
    Counted (SinkCall.written (callsOf made)) s net ∧ Awaited s net
  size_le : s.size ≤ (SinkCall.written (callsOf made)).length
  short : (∃ m ∈ made, Upload.Broken m) →
    s.size < (SinkCall.written (callsOf made)).length

namespace Upload.Tally

variable {S : Type} {serve : S → Request → Reply → S → Prop} {fault : Exc → Prop} {u : Upload}
  {handle : Bytes} {made : List (Upload.Made S)} {s s' : UploadState} {net net' : Net S}
  {outcome : Except Exc Unit}

/-- A call of `write`, also one that raises. -/
theorem write {data : Bytes} (tally : Upload.Tally serve u handle made s net)
    (run : Runs (Wire.sem serve fault) (u.write data) s net outcome s' net') :
    Upload.Tally serve u handle (made ++ [⟨s, net, .write data, outcome, s', net'⟩]) s' net' := by
  have le := tally.size_le
  have wrote := tally.orderly.write _ _ _ run
  cases outcome with
  | ok _ =>
    have size : s'.size = s.size + data.length := wrote.size
    refine ⟨wrote.orderly, fun clean => ?_, ?_, fun broken => ?_⟩
    · obtain ⟨counted, awaited⟩ := tally.whole fun m member => clean m (List.mem_append_left _ member)
      rw [callsOf_concat, SinkCall.written_concat, SinkCall.written_write]
      exact ⟨wrote.accounted _ counted, wrote.awaited awaited⟩
    · rw [callsOf_concat, SinkCall.written_concat, SinkCall.written_write, List.length_append]
      omega
    · obtain ⟨m, member, broken⟩ := broken
      rcases List.mem_append.mp member with member | last
      · have short := tally.short ⟨m, member, broken⟩
        rw [callsOf_concat, SinkCall.written_concat, SinkCall.written_write, List.length_append]
        omega
      · rw [List.mem_singleton.mp last] at broken
        obtain ⟨_, e, -, impossible⟩ := broken
        cases impossible
  | error e =>
    obtain ⟨orderly, some, less, -⟩ := wrote
    have short : s'.size < (SinkCall.written (callsOf made ++ [.write data])).length := by
      rw [SinkCall.written_concat, SinkCall.written_write, List.length_append]
      omega
    rw [← callsOf_concat made ⟨s, net, .write data, .error e, s', net'⟩] at short
    refine ⟨orderly, fun clean => ?_, short.le, fun _ => short⟩
    -- Without a failing transport, the write raised because it took a refusal.
    have last := clean _ (List.mem_append_right _ List.mem_cons_self)
    rcases last.undisturbed data rfl with none | ⟨opened, ran⟩
    · exact absurd none some
    · have refused := tally.orderly.write _ _ _ ran
      exact absurd last.awaited (refused.2.2.2 (fun _ => id) opened)

/-- A call of `finish`, also one that raises. -/
theorem finish (tally : Upload.Tally serve u handle made s net)
    (run : Runs (Wire.sem serve fault) u.finish s net outcome s' net') :
    Upload.Tally serve u handle (made ++ [⟨s, net, .finish, outcome, s', net'⟩]) s' net' := by
  have going : Going u handle s.size net.log s' net' := by
    have finished := tally.orderly.finish _ _ _ run
    cases outcome with
    | ok _ => exact finished.toGoing
    | error e => exact finished
  have written : SinkCall.written (callsOf (made ++ [⟨s, net, .finish, outcome, s', net'⟩])) =
      SinkCall.written (callsOf made) := by
    rw [callsOf_concat, SinkCall.written_concat, SinkCall.written_finish, List.append_nil]
  refine ⟨going.orderly, fun clean => ?_, ?_, fun broken => ?_⟩
  · have counted := (tally.whole fun m member => clean m (List.mem_append_left _ member)).1
    rw [written]
    exact ⟨going.counted counted, (clean _ (List.mem_append_right _ List.mem_cons_self)).awaited⟩
  · rw [written, going.size]
    exact tally.size_le
  · obtain ⟨m, member, broken⟩ := broken
    rcases List.mem_append.mp member with member | last
    · rw [written, going.size]
      exact tally.short ⟨m, member, broken⟩
    · rw [List.mem_singleton.mp last] at broken
      obtain ⟨data, e, impossible, -⟩ := broken
      cases impossible

/-- The tally of every run. -/
theorem of_calls {server : S} (calls : Calls (Wire.sem serve fault) u.perform
    { handle := some handle } { server } made s net) : Upload.Tally serve u handle made s net := by
  refine calls.keep (I := fun made s net => Upload.Tally serve u handle made s net) ?_ ?_
  · refine ⟨.start, fun _ => ⟨⟨rfl, trivial, rfl⟩, fun _ _ found => nomatch found⟩, le_refl _, ?_⟩
    intro some
    obtain ⟨m, none, -⟩ := some
    exact (List.not_mem_nil none).elim
  · intro made s net call outcome s' net' tally run
    cases call with
    | write data => exact tally.write run
    | finish => exact tally.finish run

end Upload.Tally

/-- The log of a run is the history of the server. -/
theorem Served.of_calls {S : Type} {serve : S → Request → Reply → S → Prop} {fault : Exc → Prop}
    {u : Upload} {made : List (Upload.Made S)} {s s' : UploadState} {net : Net S} {server : S}
    (calls : Calls (Wire.sem serve fault) u.perform s { server } made s' net) :
    Served serve server net.log net.server := by
  refine calls.keep (I := fun _ _ net => Served serve server net.log net.server) .nil ?_
  intro made s net call outcome s' net' served run
  exact Served.reach served run

section Finished

variable {S : Type} {serve : S → Request → Reply → S → Prop} {fault : Exc → Prop} {u : Upload}
  {file : S → Bytes} {handle : Bytes} {made : List (Upload.Made S)} {s s' : UploadState}
  {net net' : Net S} {server : S}

/-- When every call was clean and `finish` returns, the stage has all bytes. -/
theorem Upload.Tally.stored (tally : Upload.Tally serve u handle made s net)
    (clean : ∀ m ∈ made, Upload.Clean serve u m) (stores : Stores serve file handle u.stage)
    (finished : Runs (Wire.sem serve fault) u.finish s net (.ok ()) s' net')
    (served : Served serve server net'.log net'.server) :
    file net'.server = SinkCall.written (callsOf made) := by
  obtain ⟨counted, awaited⟩ := tally.whole clean
  have verified : Verified u handle s.size net.log (Awaited s net) s' net' :=
    tally.orderly.finish _ _ _ finished
  have counted := verified.counted counted
  have transmitted : Transmitted (Only (OfUpload handle u.stage)) u.stage
      (SinkCall.written (callsOf made)) net'.log := {
    whole := counted.whole
    consecutive := counted.consecutive
    succeeded := verified.succeeded awaited
    kinds := verified.orderly.kinds
    verified := by
      rw [← counted.size, verified.size]
      exact verified.reported }
  exact transmitted.stored stores served

/-- When a write raised before and `finish` returns, the stage lacks bytes. -/
theorem Upload.Tally.lacking (tally : Upload.Tally serve u handle made s net)
    (broken : ∃ m ∈ made, Upload.Broken m) (stores : Stores serve file handle u.stage)
    (finished : Runs (Wire.sem serve fault) u.finish s net (.ok ()) s' net')
    (served : Served serve server net'.log net'.server) :
    (file net'.server).length < (SinkCall.written (callsOf made)).length := by
  have verified : Verified u handle s.size net.log (Awaited s net) s' net' :=
    tally.orderly.finish _ _ _ finished
  obtain ⟨_, _, middle, -, -, -, kept, length⟩ :=
    verified.reported.checked stores served verified.orderly.kinds
  rw [kept, ← length]
  exact tally.short broken

end Finished

end DataBridge
