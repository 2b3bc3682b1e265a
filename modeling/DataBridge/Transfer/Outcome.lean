import DataBridge.Transfer.World

/-!
# The outcome of a transfer

`Transfer.run_wp` follows `_Transfer.run` through every combination of refused ledger
calls and raising connector steps. Its postcondition is the claimed trichotomy;
its guarantee, kept by every single step, is that what the run has published is
recorded as publishing or completed, and that no other record changes.
-/

namespace DataBridge

open Effect Routine

namespace TransferWorld

/-- What this run published is recorded as publishing or completed. -/
def Recorded (id : Text) (w : TransferWorld) : Prop :=
  ∀ bytes, w.published = some bytes →
    ∃ r, w.db.transfer id = some r ∧ (r.status = .publishing ∨ r.status = .completed) ∧
      r.error = none
/-- What one step of the run `id` promises. -/
structure Kept (id : Text) (w w' : TransferWorld) : Prop where
  recorded : w'.Recorded id
  frame : ∀ other, other ≠ id → w'.db.transfer other = w.db.transfer other

/-- Nothing is published, and the record is in one of `states`. -/
structure Unpublished (id : Text) (states : List TransferStatus) (w : TransferWorld) : Prop where
  unpublished : w.published = none
  stored : ∃ r, w.db.transfer id = some r ∧ r.status ∈ states ∧ r.error = none
  started : .start ∉ w.refused
  notFailed : .fail ∉ w.refused

/-- All of `content` is staged or published, and the record says so. -/
structure Publishing (id : Text) (content : Bytes) (w : TransferWorld) : Prop where
  staged : w.staged = content
  stored : ∃ r, w.db.transfer id = some r ∧ r.status = .publishing ∧
    r.bytesCopied = content.length ∧ r.error = none
  started : .start ∉ w.refused
  notFailed : .fail ∉ w.refused

theorem Recorded.of_none {id : Text} {w : TransferWorld} (none : w.published = .none) :
    w.Recorded id := by
  intro bytes some
  rw [none] at some
  cases some

theorem Publishing.recorded {id : Text} {content : Bytes} {w : TransferWorld}
    (h : w.Publishing id content) : w.Recorded id := by
  obtain ⟨r, stored, status, -, noError⟩ := h.stored
  exact fun _ _ => ⟨r, stored, .inl status, noError⟩

theorem Unpublished.recorded {id : Text} {states : List TransferStatus} {w : TransferWorld}
    (h : w.Unpublished id states) : w.Recorded id :=
  .of_none h.unpublished

theorem Unpublished.error_eq_none {id : Text} {states : List TransferStatus} {w : TransferWorld}
    {r : TransferRecord} (h : w.Unpublished id states) (stored : w.db.transfer id = some r) :
    r.error = none := by
  obtain ⟨r', stored', -, noError⟩ := h.stored
  rw [Option.some.inj (stored.symm.trans stored'), noError]

theorem Unpublished.refuse {id : Text} {states : List TransferStatus} {w : TransferWorld}
    {call : LedgerCall} (h : w.Unpublished id states) (start : call ≠ .start)
    (fail : call ≠ .fail) : Unpublished id states { w with refused := call :: w.refused } where
  unpublished := h.unpublished
  stored := h.stored
  started := List.not_mem_cons_of_ne_of_not_mem start.symm h.started
  notFailed := List.not_mem_cons_of_ne_of_not_mem fail.symm h.notFailed

theorem Unpublished.weaken {id : Text} {states states' : List TransferStatus} {w : TransferWorld}
    (h : w.Unpublished id states) (more : states ⊆ states') : w.Unpublished id states' where
  unpublished := h.unpublished
  stored := h.stored.imp fun _ stored => ⟨stored.1, more stored.2.1, stored.2.2⟩
  started := h.started
  notFailed := h.notFailed

end TransferWorld

open TransferWorld

/-- Fields and world while the copy is going on. -/
structure Copying {T : Type} (id : Text) (content : Bytes) (s : TransferState T)
    (w : TransferWorld) : Prop where
  running : w.Unpublished id [.running]
  unmarked : s.published = false
  counted : s.copied = w.staged.length
  split : w.staged ++ w.remaining = content

/-- Fields and world when a step before publication has raised. -/
structure Aborted {T : Type} (id : Text) (s : TransferState T) (w : TransferWorld) : Prop where
  unfinished : w.Unpublished id [.running, .publishing]
  unmarked : s.published = false

/-- Fields and world when only the publication remains. -/
structure Marked {T : Type} (id : Text) (content : Bytes) (s : TransferState T)
    (w : TransferWorld) : Prop where
  unpublished : w.published = none
  publishing : w.Publishing id content
  unmarked : s.published = false

/-- Fields and world when the destination has published. -/
structure Published {T : Type} (id : Text) (content : Bytes) (s : TransferState T)
    (w : TransferWorld) : Prop where
  published : w.published = some content
  publishing : w.Publishing id content
  marked : s.published = true

theorem Marked.aborted {T : Type} {id : Text} {content : Bytes} {s : TransferState T}
    {w : TransferWorld} (h : Marked id content s w) : Aborted id s w where
  unfinished := {
    unpublished := h.unpublished
    stored := h.publishing.stored.imp fun _ stored =>
      ⟨stored.1, by simp [stored.2.1], stored.2.2.2⟩
    started := h.publishing.started
    notFailed := h.publishing.notFailed }
  unmarked := h.unmarked

namespace Copying

variable {T : Type} {id : Text} {content : Bytes} {s : TransferState T} {w : TransferWorld}

theorem aborted (h : Copying id content s w) : Aborted id s w where
  unfinished := h.running.weaken (by simp)
  unmarked := h.unmarked

theorem setPhase (h : Copying id content s w) (phase : FailurePhase) :
    Copying id content { s with phase } w :=
  ⟨h.running, h.unmarked, h.counted, h.split⟩

theorem refuse {call : LedgerCall} (h : Copying id content s w) (start : call ≠ .start)
    (fail : call ≠ .fail) : Copying id content s { w with refused := call :: w.refused } :=
  ⟨h.running.refuse start fail, h.unmarked, h.counted, h.split⟩

end Copying

section Rules

variable {T : Type} {refusal : Exc → Prop} {id : Text} {content : Bytes} {s : TransferState T}
  {w : TransferWorld}

/-- The run `id`, alone with its surroundings. -/
abbrev transferSetting (T : Type) (refusal : Exc → Prop) (id : Text) :
    Setting (TransferEffect T) TransferWorld :=
  Setting.alone (transferSem T refusal) (Kept id)

/-- A connector call without an effect. -/
theorem Transfer.plain_wp {op : TransferEffect T (Except Exc Unit)}
    {Q : Except Exc Unit → TransferState T → TransferWorld → Prop}
    (plain : ∀ r w', transferSem T refusal op w r w' ↔ w.Plain r w') (recorded : w.Recorded id)
    (all : ∀ r, Q r s w) : (invoke op).Wp (transferSetting T refusal id) Q s w := by
  refine .invoke fun w₁ same => ?_
  subst same
  refine ⟨⟨.ok (), w, (plain _ _).mpr rfl⟩, fun r w' answer => ?_⟩
  obtain rfl : w' = w := (plain _ _).mp answer
  exact ⟨⟨recorded, fun _ _ => rfl⟩, Setting.settled_alone.mpr (all r)⟩

/-- A ledger call that returns nothing. -/
theorem Transfer.ledger_wp (refusable : ∃ e, refusal e) {op : TransferEffect T (Except Exc Unit)}
    {call : LedgerCall} {effect : Instant → Database → Except Exc Database}
    {Q : Except Exc Unit → TransferState T → TransferWorld → Prop}
    (ledger : ∀ r w', transferSem T refusal op w r w' ↔ w.Ledger refusal call effect r w')
    (recorded : w.Recorded id)
    (ok : ∀ now db', effect now w.db = .ok db' →
      Kept id w { w with db := db' } ∧ Q (.ok ()) s { w with db := db' })
    (error : ∀ e, refusal e → Q (.error e) s { w with refused := call :: w.refused }) :
    (invoke op).Wp (transferSetting T refusal id) Q s w := by
  refine .invoke fun w₁ same => ?_
  subst same
  constructor
  · obtain ⟨e, refused⟩ := refusable
    exact ⟨.error e, _, (ledger _ _).mpr ⟨refused, rfl⟩⟩
  · intro r w' answer
    replace answer := (ledger _ _).mp answer
    cases r with
    | ok _ =>
      obtain ⟨now, db', step, rfl⟩ := answer
      exact ⟨(ok now db' step).1, Setting.settled_alone.mpr (ok now db' step).2⟩
    | error e =>
      obtain ⟨refused, rfl⟩ := answer
      exact ⟨⟨recorded, fun _ _ => rfl⟩, Setting.settled_alone.mpr (error e refused)⟩

theorem Transfer.connector_wp (refusable : ∃ e, refusal e) {name : Text} (h : Copying id content s w) :
    (Transfer.connector name).Wp (transferSetting T refusal id)
      (Post (fun _ => Copying id content) fun _ => Aborted id) s w := by
  refine .bind (P := Post (fun _ => Copying id content) fun _ => Aborted id) (.invoke ?_) ?_
    fun _ _ _ h => Setting.settled_alone.mpr h
  · intro w₁ same
    subst same
    obtain ⟨e, refused⟩ := refusable
    refine ⟨⟨.error e, _, .inr ⟨e, rfl, refused, rfl⟩⟩, ?_⟩
    rintro r w' (⟨rfl, c, rfl⟩ | ⟨e, rfl, -, rfl⟩)
    · exact ⟨⟨h.running.recorded, fun _ _ => rfl⟩, Setting.settled_alone.mpr h⟩
    · have refused : Copying id content s { w with refused := .get :: w.refused } :=
        h.refuse (by decide) (by decide)
      exact ⟨⟨refused.running.recorded, fun _ _ => rfl⟩, Setting.settled_alone.mpr refused.aborted⟩
  · intro c s w h
    refine Transfer.plain_wp (fun _ _ => Iff.rfl) h.running.recorded fun r => ?_
    cases r with
    | ok _ => exact h
    | error _ => exact h.aborted

/-- Recording the progress keeps the record running. -/
theorem Copying.progress {bytes : Int} {now : Instant} {db' : Database}
    (h : Copying id content s w)
    (step : w.db.transition id [.running] (progressChange bytes now) = .ok db') :
    Kept id w { w with db := db' } ∧ Copying id content s { w with db := db' } := by
  obtain ⟨⟨r, before, status, stored⟩, frame⟩ := Database.transition_transfer step
  have noError := h.running.error_eq_none before
  have running : Unpublished id [.running] { w with db := db' } :=
    ⟨h.running.unpublished, ⟨_, stored, status, noError⟩, h.running.started, h.running.notFailed⟩
  exact ⟨⟨running.recorded, frame⟩, ⟨running, h.unmarked, h.counted, h.split⟩⟩

/-- A typed error that cites the transfer. -/
def Cites (id : Text) (e : Exc) : Prop :=
  ∃ error : DataBridgeError, e = .dataBridge error ∧ error.transferId = some id

/-- The error of a run that published and could not complete its record. -/
def SaysPublished (id : Text) (request : TransferRequest) (e : Exc) : Prop :=
  ∃ message, e = .dataBridge {
    code := .transferRecordFailed
    message := unrecordedMessage request message
    transferId := some id }

/-- The untyped exception of a refused ledger call. -/
def Untyped (refusal : Exc → Prop) (e : Exc) : Prop :=
  refusal e ∧ ∀ error, e ≠ .dataBridge error

/-- The run returned a completed record of a published file. -/
def Returned (id : Text) (content : Bytes) (outcome : Except Exc TransferRecord)
    (w : TransferWorld) : Prop :=
  ∃ record, outcome = .ok record ∧ record.status = .completed ∧
    record.bytesCopied = content.length ∧ w.published = some content ∧
    w.db.transfer id = some record

/-- The run raised before publication. The record is failed, unless that was
refused. -/
def FailedUnpublished (raised : Exc → Prop) (id : Text) (outcome : Except Exc TransferRecord)
    (w : TransferWorld) : Prop :=
  ∃ e, outcome = .error e ∧ raised e ∧ w.published = none ∧
    ∃ r, w.db.transfer id = some r ∧
      if .fail ∈ w.refused then r.status = .running ∨ r.status = .publishing
      else r.status = .failed

/-- The run raised after publication, because completing the record was refused. -/
def PublishedUnrecorded (raised : Exc → Prop) (id : Text) (content : Bytes)
    (outcome : Except Exc TransferRecord) (w : TransferWorld) : Prop :=
  ∃ e, outcome = .error e ∧ raised e ∧ w.published = some content ∧
    ∃ r, w.db.transfer id = some r ∧ r.status = .publishing ∧ r.bytesCopied = content.length

theorem Transfer.fail_wp (refusable : ∃ e, refusal e) {request : TransferRequest} {e : Exc}
    (h : Aborted id s w) :
    (Transfer.fail id request e).Wp (transferSetting T refusal id)
      (Post (fun _ _ _ => False) fun e _ w => .start ∉ w.refused ∧
        FailedUnpublished (fun e => Cites id e ∨ Untyped refusal e) id (.error e) w) s w := by
  -- The state in which `_fail` leaves the record.
  let Left := fun (w : TransferWorld) => .start ∉ w.refused ∧ w.published = none ∧
    ∃ r, w.db.transfer id = some r ∧
      if .fail ∈ w.refused then r.status = .running ∨ r.status = .publishing
      else r.status = .failed
  rw [Transfer.fail, Wp.fields_bind]
  refine .bind (P := Post (fun _ _ => Left)
      fun e _ w => Left w ∧ Untyped refusal e) ?_ ?_ ?_
  · refine .catching (P := Post (fun _ _ => Left) fun e _ w => Left w ∧ refusal e)
      (Transfer.ledger_wp refusable (fun _ _ => Iff.rfl) h.unfinished.recorded ?_ ?_)
      (fun _ _ _ h => Setting.settled_alone.mpr h) ?_
    · intro now db' step
      obtain ⟨⟨r, -, -, stored⟩, frame⟩ := Database.transition_transfer step
      refine ⟨⟨.of_none h.unfinished.unpublished, frame⟩, h.unfinished.started,
        h.unfinished.unpublished, _, stored, ?_⟩
      rw [if_neg h.unfinished.notFailed]
      rfl
    · intro e refused
      obtain ⟨r, stored, status⟩ := h.unfinished.stored
      refine ⟨⟨List.not_mem_cons_of_ne_of_not_mem (by decide) h.unfinished.started,
        h.unfinished.unpublished, r, stored, ?_⟩, refused⟩
      rw [if_pos List.mem_cons_self]
      simpa using status.1
    · rintro e s w ⟨left, refused⟩
      split
      · exact .pure (Setting.settled_alone.mpr left)
      · rename_i untyped
        exact .raise (Setting.settled_alone.mpr ⟨left, refused, untyped⟩)
  · rintro _ s w ⟨started, unpublished, left⟩
    exact .raise (Setting.settled_alone.mpr
      ⟨started, _, rfl, .inl ⟨_, rfl, rfl⟩, unpublished, left⟩)
  · rintro e s w ⟨⟨started, unpublished, left⟩, untyped⟩
    exact Setting.settled_alone.mpr ⟨started, _, rfl, .inr untyped, unpublished, left⟩

theorem Transfer.finish_wp (refusable : ∃ e, refusal e) {request : TransferRequest}
    (h : Published id content s w) :
    (Transfer.finish id request).Wp (transferSetting T refusal id)
      (fun outcome _ w => .start ∉ w.refused ∧ (Returned id content outcome w ∨
        PublishedUnrecorded (fun e => SaysPublished id request e ∨ Untyped refusal e) id content
          outcome w)) s w := by
  refine .catching (P := Post
      (fun record _ w => .start ∉ w.refused ∧ Returned id content (.ok record) w)
      fun e _ w => .start ∉ w.refused ∧ refusal e ∧ w.published = some content ∧
        Publishing id content w) (.invoke ?_)
    (fun _ _ _ h => Setting.settled_alone.mpr ⟨h.1, .inl h.2⟩) ?_
  · intro w₁ same
    subst same
    obtain ⟨r, stored, status, bytes, noError⟩ := h.publishing.stored
    constructor
    · obtain ⟨e, refused⟩ := refusable
      exact ⟨.error e, _, .inr ⟨e, rfl, refused, rfl⟩⟩
    · rintro outcome w' (⟨record, rfl, ⟨now, db', step, rfl⟩, found⟩ | ⟨e, rfl, refused, rfl⟩)
      · obtain ⟨⟨r', stored', -, completed⟩, frame⟩ := Database.transition_transfer step
        obtain rfl : r = r' := Option.some.inj (stored.symm.trans stored')
        obtain rfl : _ = record := Option.some.inj (completed.symm.trans found)
        exact ⟨⟨fun _ _ => ⟨_, completed, .inr rfl, noError⟩, frame⟩, Setting.settled_alone.mpr
          ⟨h.publishing.started, _, rfl, rfl, bytes, h.published, completed⟩⟩
      · have publishing : Publishing id content { w with refused := .finish :: w.refused } :=
          ⟨h.publishing.staged, h.publishing.stored,
            List.not_mem_cons_of_ne_of_not_mem (by decide) h.publishing.started,
            List.not_mem_cons_of_ne_of_not_mem (by decide) h.publishing.notFailed⟩
        exact ⟨⟨publishing.recorded, fun _ _ => rfl⟩, Setting.settled_alone.mpr
          ⟨publishing.started, refused, h.published, publishing⟩⟩
  · rintro e s w ⟨started, refused, published, publishing⟩
    obtain ⟨r, stored, status, bytes, -⟩ := publishing.stored
    have left : ∃ r, w.db.transfer id = some r ∧ r.status = .publishing ∧
        r.bytesCopied = content.length := ⟨r, stored, status, bytes⟩
    split
    · exact .raise (Setting.settled_alone.mpr
        ⟨started, .inr ⟨_, rfl, .inl ⟨_, rfl⟩, published, left⟩⟩)
    · rename_i untyped
      exact .raise (Setting.settled_alone.mpr
        ⟨started, .inr ⟨_, rfl, .inr ⟨refused, untyped⟩, published, left⟩⟩)

variable [OfNat T 1] [Sub T] [LT T] [DecidableLT T]

theorem Transfer.checkpoint_wp (refusable : ∃ e, refusal e) (h : Copying id content s w) :
    (Transfer.checkpoint id).Wp (transferSetting T refusal id)
      (Post (fun _ s' w' => Copying id content s' w' ∧ w'.remaining = w.remaining)
        fun _ => Aborted id) s w := by
  refine .bind (P := Post (fun _ s' w' => s' = s ∧ w' = w) fun _ _ _ => False) (.ask ?_) ?_
    fun _ _ _ impossible => impossible.elim
  · intro w₁ same
    subst same
    refine ⟨⟨s.checkpoint, w, rfl⟩, ?_⟩
    rintro now w' rfl
    exact ⟨⟨h.running.recorded, fun _ _ => rfl⟩, Setting.settled_alone.mpr ⟨rfl, rfl⟩⟩
  · rintro now s w ⟨rfl, rfl⟩
    rw [Wp.fields_bind]
    split
    · exact .pure (Setting.settled_alone.mpr ⟨h, rfl⟩)
    · rw [Wp.modify_bind]
      have h' : Copying id content { s with checkpoint := now } w :=
        ⟨h.running, h.unmarked, h.counted, h.split⟩
      refine .catching (P := Post
          (fun _ s' w' => Copying id content s' w' ∧ w'.remaining = w.remaining)
          fun _ s' w' => Copying id content s' w' ∧ w'.remaining = w.remaining)
        (Transfer.ledger_wp refusable (fun _ _ => Iff.rfl) h.running.recorded ?_ fun e _ => ?_)
        (fun _ _ _ h => Setting.settled_alone.mpr h) fun e s w h => ?_
      · intro now db' step
        exact ⟨(h'.progress step).1, (h'.progress step).2, rfl⟩
      · exact ⟨h'.refuse (by decide) (by decide), rfl⟩
      · split
        · exact .pure (Setting.settled_alone.mpr h)
        · exact .raise (Setting.settled_alone.mpr h.1.aborted)

/-- One pass of the copy ends it, or moves a non-empty chunk. -/
theorem Transfer.copyChunk_wp (refusable : ∃ e, refusal e) (h : Copying id content s w) :
    (Transfer.copyChunk id).Wp (transferSetting T refusal id)
      (Post (fun r s' w' => Copying id content s' w' ∧
          r.elim (fun _ => w'.remaining.length < w.remaining.length) fun _ => w'.remaining = [])
        fun _ => Aborted id) s w := by
  rw [Transfer.copyChunk, Transfer.setPhase, Wp.modify_bind]
  refine .bind (P := Post (fun chunk s' w' => s' = { s with phase := .sourceRead } ∧
      w.remaining = chunk ++ w'.remaining ∧ (chunk = [] → w'.remaining = []) ∧
      w' = { w with remaining := w'.remaining }) fun _ => Aborted id) (.invoke ?_) ?_
    fun _ _ _ h => Setting.settled_alone.mpr h
  · intro w₁ same
    subst same
    refine ⟨⟨.error .timeout, w, .inr ⟨_, rfl, rfl⟩⟩, ?_⟩
    rintro r w' (⟨chunk, rest, rfl, split, last, rfl⟩ | ⟨e, rfl, rfl⟩)
    · exact ⟨⟨.of_none h.running.unpublished, fun _ _ => rfl⟩,
        Setting.settled_alone.mpr ⟨rfl, split, last, rfl⟩⟩
    · exact ⟨⟨h.running.recorded, fun _ _ => rfl⟩,
        Setting.settled_alone.mpr (h.setPhase _).aborted⟩
  · rintro chunk _ w₁ ⟨rfl, split, last, same⟩
    have split₁ : w.staged ++ (chunk ++ w₁.remaining) = content := split ▸ h.split
    have running₁ : w₁.Unpublished id [.running] := by
      rw [same]
      exact ⟨h.running.unpublished, h.running.stored, h.running.started, h.running.notFailed⟩
    have staged₁ : w₁.staged = w.staged := by rw [same]
    split
    · rename_i empty
      subst empty
      refine .pure (Setting.settled_alone.mpr ⟨⟨running₁, h.unmarked, ?_, ?_⟩, last rfl⟩)
      · exact staged₁ ▸ h.counted
      · exact staged₁ ▸ split₁
    · rename_i nonempty
      rw [Transfer.setPhase, Wp.modify_bind]
      -- The sink takes the whole chunk or raises.
      refine .bind (P := Post (fun _ s' w₂ => s' = { s with phase := .destinationWrite } ∧
          w₂ = { w₁ with staged := w.staged ++ chunk }) fun _ => Aborted id) (.invoke ?_) ?_
        fun _ _ _ h => Setting.settled_alone.mpr h
      · intro _ same
        subst same
        refine ⟨⟨.error .timeout, w₁, .inr ⟨_, w₁.staged, rfl, rfl⟩⟩, ?_⟩
        rintro r w₂ (⟨rfl, rfl⟩ | ⟨e, staged, rfl, rfl⟩)
        · exact ⟨⟨.of_none running₁.unpublished, fun _ _ => rfl⟩,
            Setting.settled_alone.mpr ⟨rfl, by rw [staged₁]⟩⟩
        · have unpublished : Unpublished id [.running] { w₁ with staged } :=
            ⟨running₁.unpublished, running₁.stored, running₁.started, running₁.notFailed⟩
          exact ⟨⟨unpublished.recorded, fun _ _ => rfl⟩,
            Setting.settled_alone.mpr ⟨unpublished.weaken (by simp), h.unmarked⟩⟩
      · rintro _ _ w₂ ⟨rfl, rfl⟩
        rw [Wp.modify_bind]
        have shorter : w₁.remaining.length < w.remaining.length := by
          rw [split, List.length_append]
          have := List.length_pos_of_ne_nil nonempty
          omega
        have copied : Copying id content
            { s with phase := .destinationWrite, copied := s.copied + chunk.length }
            { w₁ with staged := w.staged ++ chunk } := by
          refine ⟨⟨running₁.unpublished, running₁.stored, running₁.started, running₁.notFailed⟩,
            h.unmarked, ?_, ?_⟩
          · rw [List.length_append, h.counted]
          · rw [← split₁, List.append_assoc]
        refine .bind (Transfer.checkpoint_wp refusable copied) ?_ fun _ _ _ h => Setting.settled_alone.mpr h
        rintro _ s₃ w₃ ⟨copying, same⟩
        refine .pure (Setting.settled_alone.mpr ⟨copying, ?_⟩)
        simp only [Sum.elim_inl, same]
        exact shorter

theorem Transfer.copy_wp (refusable : ∃ e, refusal e) (h : Copying id content s w) :
    (Transfer.copy id).Wp (transferSetting T refusal id)
      (Post (fun _ s' w' => Copying id content s' w' ∧ w'.remaining = []) fun _ => Aborted id)
      s w := by
  refine .iterate (I := fun n _ s w => Copying id content s w ∧ w.remaining.length = n) ?_ ⟨h, rfl⟩
  rintro n _ s w ⟨copying, rfl⟩
  refine (Transfer.copyChunk_wp refusable copying).post ?_ fun _ _ _ h => Setting.settled_alone.mpr h
  rintro (_ | _) s' w' ⟨copying, progress⟩
  · exact Setting.settled_alone.mpr ⟨_, progress, copying, rfl⟩
  · exact Setting.settled_alone.mpr ⟨copying, progress⟩

/-- The body of the destination's context ends with every byte staged and the
record publishing, or aborts. -/
theorem Transfer.fill_wp (refusable : ∃ e, refusal e) (h : Copying id content s w) :
    (Transfer.fill id).Wp (transferSetting T refusal id)
      (Post (fun _ s' w' => Marked id content s' w') fun _ => Aborted id) s w := by
  refine .bind (Transfer.copy_wp refusable h) ?_ fun _ _ _ h => Setting.settled_alone.mpr h
  rintro _ s₁ w₁ ⟨copied, drained⟩
  rw [Transfer.setPhase, Wp.modify_bind]
  refine .bind (P := Post (fun _ s' w' => s' = { s₁ with phase := .destinationWrite } ∧ w' = w₁)
      fun _ => Aborted id) (Transfer.plain_wp (fun _ _ => Iff.rfl) copied.running.recorded fun r => ?_) ?_
    fun _ _ _ h => Setting.settled_alone.mpr h
  · cases r with
    | ok _ => exact ⟨rfl, rfl⟩
    | error _ => exact (copied.setPhase _).aborted
  · rintro _ _ w₁ ⟨rfl, rfl⟩
    rw [Transfer.setPhase, Wp.modify_bind, Wp.fields_bind]
    have staged : w₁.staged = content := by rw [← copied.split, drained, List.append_nil]
    refine Transfer.ledger_wp refusable (fun _ _ => Iff.rfl) copied.running.recorded ?_ fun e _ => ?_
    · intro now db' step
      obtain ⟨⟨r, before, -, stored⟩, frame⟩ := Database.transition_transfer step
      have noError := copied.running.error_eq_none before
      have publishing : Publishing id content { w₁ with db := db' } :=
        ⟨staged, ⟨_, stored, rfl, by rw [← staged, ← copied.counted]; rfl, noError⟩,
          copied.running.started, copied.running.notFailed⟩
      exact ⟨⟨publishing.recorded, frame⟩, copied.running.unpublished, publishing, copied.unmarked⟩
    · exact ((copied.setPhase _).refuse (by decide) (by decide)).aborted

theorem Transfer.copyAndPublish_wp (refusable : ∃ e, refusal e) {request : TransferRequest}
    (h : Copying id content s w) :
    (Transfer.copyAndPublish id request).Wp (transferSetting T refusal id)
      (Post (fun _ => Published id content) fun _ => Aborted id) s w := by
  rw [Transfer.copyAndPublish, Transfer.setPhase, Wp.modify_bind]
  refine .bind (P := Post (fun _ s' w' => w'.published = some content ∧ Publishing id content w')
      fun _ => Aborted id)
    (.within (Transfer.plain_wp (fun _ _ => Iff.rfl) h.running.recorded fun r => ?_)
      (fun _ _ (copying : Copying id content _ _) => Transfer.fill_wp refusable copying) ?_ ?_) ?_
    fun _ _ _ h => Setting.settled_alone.mpr h
  · cases r with
    | ok _ => exact h.setPhase _
    | error _ => exact Setting.settled_alone.mpr (h.setPhase _).aborted
  · intro _ s₁ w₁ marked
    refine .invoke fun _ same => ?_
    subst same
    refine ⟨⟨.error .timeout, w₁, .inr ⟨_, rfl, rfl⟩⟩, ?_⟩
    rintro r w₂ (⟨rfl, rfl⟩ | ⟨e, rfl, rfl⟩)
    · have publishing : Publishing id content { w₁ with published := some w₁.staged } :=
        ⟨marked.publishing.staged, marked.publishing.stored, marked.publishing.started,
          marked.publishing.notFailed⟩
      exact ⟨⟨publishing.recorded, fun _ _ => rfl⟩,
        Setting.settled_alone.mpr (Setting.settled_alone.mpr
          ⟨congrArg some marked.publishing.staged, publishing⟩)⟩
    · exact ⟨⟨marked.publishing.recorded, fun _ _ => rfl⟩,
        Setting.settled_alone.mpr (Setting.settled_alone.mpr marked.aborted)⟩
  · intro e s₁ w₁ aborted
    refine Transfer.plain_wp (fun _ _ => Iff.rfl) aborted.unfinished.recorded fun r => ?_
    cases r with
    | ok _ => exact Setting.settled_alone.mpr aborted
    | error _ => exact Setting.settled_alone.mpr aborted
  · rintro _ s₁ w₁ ⟨published, publishing⟩
    exact .modify (Setting.settled_alone.mpr ⟨published, publishing, rfl⟩)

/-- The `try` body of `run` publishes, aborts, or publishes and then fails to
release the source. -/
theorem Transfer.attempt_wp (refusable : ∃ e, refusal e) {request : TransferRequest}
    (h : Copying id content s w) :
    (Transfer.attempt id request).Wp (transferSetting T refusal id)
      (Post (fun _ => Published id content)
        fun _ s' w' => Aborted id s' w' ∨ Published id content s' w') s w := by
  refine .bind (Transfer.connector_wp refusable h) ?_ fun _ _ _ h => Setting.settled_alone.mpr (.inl h)
  intro _ s w h
  rw [Transfer.setPhase, Wp.modify_bind]
  refine .bind (Transfer.connector_wp refusable (h.setPhase _)) ?_
    fun _ _ _ h => Setting.settled_alone.mpr (.inl h)
  intro _ s w h
  rw [Transfer.setPhase, Wp.modify_bind]
  refine .within (Transfer.plain_wp (fun _ _ => Iff.rfl) h.running.recorded fun r => ?_)
    (fun _ _ (copying : Copying id content _ _) => Transfer.copyAndPublish_wp refusable copying) ?_ ?_
  · cases r with
    | ok _ => exact h.setPhase _
    | error _ => exact Setting.settled_alone.mpr (.inl (h.setPhase _).aborted)
  · intro _ s₁ w₁ published
    refine Transfer.plain_wp (fun _ _ => Iff.rfl) published.publishing.recorded fun r => ?_
    cases r with
    | ok _ => exact Setting.settled_alone.mpr published
    | error _ => exact Setting.settled_alone.mpr (.inr published)
  · intro e s₁ w₁ aborted
    refine Transfer.plain_wp (fun _ _ => Iff.rfl) aborted.unfinished.recorded fun r => ?_
    cases r with
    | ok _ => exact Setting.settled_alone.mpr (.inl aborted)
    | error _ => exact Setting.settled_alone.mpr (.inl aborted)

/-- Every run of a transfer, over every way the calls can be answered. -/
theorem Transfer.run_wp (refusable : ∃ e, refusal e) {request : TransferRequest} {db : Database}
    {checkpoint : T} :
    (Transfer.run id request).Wp (transferSetting T refusal id)
      (fun outcome _ w => .start ∉ w.refused → Returned id content outcome w ∨
        FailedUnpublished (fun e => Cites id e ∨ Untyped refusal e) id outcome w ∨
        PublishedUnrecorded (fun e => SaysPublished id request e ∨ Untyped refusal e) id content
          outcome w)
      { checkpoint } (.initial db content) := by
  refine .bind (P := Post (fun _ s w => Copying id content s w)
      fun _ _ (w : TransferWorld) => LedgerCall.start ∈ w.refused) ?_ ?_
    fun e s w refused => Setting.settled_alone.mpr fun started => (started refused).elim
  · refine .catching (P := Post (fun _ s w => Copying id content s w)
        fun _ _ (w : TransferWorld) => LedgerCall.start ∈ w.refused)
      (Transfer.ledger_wp refusable (fun _ _ => Iff.rfl) (.of_none rfl) ?_ fun e _ => List.mem_cons_self)
      (fun _ _ _ h => Setting.settled_alone.mpr h) fun e s w h => ?_
    · intro now db' step
      obtain ⟨stored, frame⟩ := Database.start_transfer step
      exact ⟨⟨.of_none rfl, frame⟩, ⟨⟨rfl, ⟨_, stored, List.mem_cons_self, rfl⟩,
        List.not_mem_nil, List.not_mem_nil⟩, rfl, rfl, rfl⟩⟩
    · split <;> exact .raise (Setting.settled_alone.mpr h)
  · intro _ s w copying
    refine .bind (P := Post (fun _ s' w' => s' = s ∧ w' = w) fun _ _ _ => False) (.ask ?_) ?_
      fun _ _ _ impossible => impossible.elim
    · intro w₁ same
      subst same
      refine ⟨⟨s.checkpoint, w, rfl⟩, ?_⟩
      rintro now w' rfl
      exact ⟨⟨copying.running.recorded, fun _ _ => rfl⟩, Setting.settled_alone.mpr ⟨rfl, rfl⟩⟩
    · rintro now s w ⟨rfl, rfl⟩
      rw [Wp.modify_bind]
      refine .bind (P := Post (fun _ => Published id content)
          fun e _ w => .start ∉ w.refused ∧
            FailedUnpublished (fun e => Cites id e ∨ Untyped refusal e) id (.error e) w) ?_ ?_ ?_
      · have copying : Copying id content { s with checkpoint := now } w :=
          ⟨copying.running, copying.unmarked, copying.counted, copying.split⟩
        refine .catching (Transfer.attempt_wp refusable copying) (fun _ _ _ h => Setting.settled_alone.mpr h) ?_
        rintro e s w (aborted | published)
        · rw [Wp.fields_bind, aborted.unmarked]
          exact (Transfer.fail_wp refusable aborted).post (fun _ _ _ h => h.elim) fun _ _ _ h => h
        · rw [Wp.fields_bind, published.marked]
          exact .pure (Setting.settled_alone.mpr published)
      · intro _ s w published
        exact (Transfer.finish_wp refusable published).mono fun _ _ _ h _ => h.2.imp_right .inr
      · exact fun e s w h => Setting.settled_alone.mpr fun _ => .inr (.inl h.2)

end Rules

/-- A ledger call is refused with a `DataBridgeError`. -/
def TypedRefusal (e : Exc) : Prop := ∃ error, e = .dataBridge error

theorem not_untyped {e : Exc} : ¬Untyped TypedRefusal e := by
  rintro ⟨⟨error, typed⟩, untyped⟩
  exact untyped error typed

def ExactlyOne (a b c : Prop) : Prop := (a ∧ ¬b ∧ ¬c) ∨ (¬a ∧ b ∧ ¬c) ∨ (¬a ∧ ¬b ∧ c)

/-- Every run of a transfer ends, and once its record was started it ends in
exactly one of three ways. -/
theorem Transfer.run_outcome {T : Type} [OfNat T 0] [OfNat T 1] [Sub T] [LT T] [DecidableLT T]
    (id : Text) (request : TransferRequest) (content : Bytes) (db : Database) :
    Prog.Ends (transferSem T TypedRefusal) (Transfer.run id request { checkpoint := 0 })
      (.initial db content) fun r w => .start ∉ w.refused →
        ExactlyOne (Returned id content r.1 w) (FailedUnpublished (Cites id) id r.1 w)
          (PublishedUnrecorded (SaysPublished id request) id content r.1 w) := by
  have refusable : ∃ e, TypedRefusal e := ⟨.ofCode .internalError [], _, rfl⟩
  refine (Prog.Wp.mono (Transfer.run_wp refusable) ?_).ends
  rintro ⟨outcome, s⟩ w h started
  rcases h started with returned | ⟨e, rfl, raised, unpublished, left⟩ |
    ⟨e, rfl, raised, published, left⟩
  · refine .inl ⟨returned, ?_, ?_⟩
    all_goals
      obtain ⟨record, rfl, -⟩ := returned
      rintro ⟨e, impossible, -⟩
      cases impossible
  · have typed := raised.resolve_right not_untyped
    refine .inr (.inl ⟨?_, ⟨e, rfl, typed, unpublished, left⟩, ?_⟩)
    · rintro ⟨record, impossible, -⟩
      cases impossible
    · rintro ⟨-, -, -, published, -⟩
      rw [unpublished] at published
      cases published
  · have typed := raised.resolve_right not_untyped
    refine .inr (.inr ⟨?_, ?_, ⟨e, rfl, typed, published, left⟩⟩)
    · rintro ⟨record, impossible, -⟩
      cases impossible
    · rintro ⟨-, -, -, unpublished, -⟩
      rw [published] at unpublished
      cases unpublished

end DataBridge
