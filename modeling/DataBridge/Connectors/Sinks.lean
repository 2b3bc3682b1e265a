import DataBridge.Local.FileSink
import DataBridge.Sftp.UploadCalls

/-!
# What a finished sink has stored

A `ByteSink` whose `finish` returns should hold every byte that was given to
`write`. Both sinks do so while their calls are clean. After a write that raised,
they compare the size of the stage with a counter from which the lost bytes are
missing, so `finish` returns all the same.
-/

namespace DataBridge

open Effect Routine

/-- When `finish` returns, the stage of the local connector holds the bytes of
all calls exactly when each was clean. The one of the SFTP connector does so
when each call was clean, and does not when one of them raised in `write`. -/
theorem finished_sinks (sink : FileSink) (u : Upload) :
    (∀ (descriptor mode : Nat) made s w s' w',
      Calls FileCall.sem sink.perform { descriptor := some descriptor } { mode } made s w →
      Runs FileCall.sem sink.finish s w (.ok ()) s' w' →
      (w'.content = SinkCall.written (callsOf made) ↔ ∀ m ∈ made, FileSink.Clean m)) ∧
    ∀ (S : Type) (serve : S → Request → Reply → S → Prop) (file : S → Bytes) (handle : Bytes)
      (server : S), Stores serve file handle u.stage → ∀ made s net s' net',
      Calls (Wire.sem serve TransportFault) u.perform { handle := some handle } { server } made s
        net →
      Runs (Wire.sem serve TransportFault) u.finish s net (.ok ()) s' net' →
      ((∀ m ∈ made, Upload.Clean serve u m) →
        file net'.server = SinkCall.written (callsOf made)) ∧
      ((∃ m ∈ made, Upload.Broken m) → file net'.server ≠ SinkCall.written (callsOf made)) := by
  constructor
  · intro descriptor mode made s w s' w' calls finished
    have content : w'.content = w.content := FileSink.finish_keeps s w rfl _ _ _ finished
    rw [content]
    exact (FileSink.Tally.of_calls calls).stored_iff
  · intro S serve file handle server stores made s net s' net' calls finished
    have tally := Upload.Tally.of_calls calls
    have served : Served serve server net'.log net'.server :=
      Served.reach (Served.of_calls calls) finished
    constructor
    · intro clean
      exact tally.stored clean stores finished served
    · intro broken same
      have lacking := tally.lacking broken stores finished served
      rw [same] at lacking
      exact lt_irrefl _ lacking

/-! ## A disk and servers that answer in one way -/

/-- A disk that stores two bytes at a time; when `full`, it refuses the first write. -/
def FileCall.answer (full : Bool) : ∀ ⦃β : Type⦄, FileCall β → OpenFile → Option (β × OpenFile)
  | _, .write _ data, w =>
    if full ∧ w.refused = [] then
      some (.error (.osError .ENOSPC), { w with refused := w.refused ++ [.osError .ENOSPC] })
    else some (.ok (min 2 data.length), { w with content := w.content ++ data.take (min 2 data.length) })
  | _, .fsync _, w => some (.ok (), w)
  | _, .fileSize _, w => some (.ok w.content.length, w)
  | _, .fchmod _ mode, w => some (.ok (), { w with mode })
  | _, .close _, w => some (.ok (), w)

theorem FileCall.answer_sem (full : Bool) ⦃β : Type⦄ (op : FileCall β) (w : OpenFile) (b : β)
    (w' : OpenFile) (answered : FileCall.answer full op w = some (b, w')) :
    FileCall.sem op w b w' := by
  cases op with
  | write descriptor data =>
    rw [FileCall.answer] at answered
    split at answered
    · cases answered
      exact .inr ⟨.osError .ENOSPC, rfl, rfl, rfl⟩
    · cases answered
      exact .inl ⟨min 2 data.length, Nat.min_le_right _ _, rfl, rfl⟩
  | fsync descriptor | fileSize descriptor | close descriptor =>
    cases answered
    exact ⟨.inl rfl, rfl⟩
  | fchmod descriptor mode =>
    cases answered
    exact .inl ⟨rfl, rfl⟩

/-- Every request reaches the server, and replies arrive in order. -/
def Wire.reliable {S : Type} (f : S → Request → Reply × S) :
    ∀ ⦃β : Type⦄, Wire β → Net S → Option (β × Net S)
  | _, .asyncRequest request, net =>
    some (.ok net.log.length, net.post request (f net.server request).1 (f net.server request).2)
  | _, .readResponse, net =>
    match net.flying with
    | [] => none
    | packet :: _ => some (.ok packet, net.deliver packet)

theorem Wire.reliable_sem {S : Type} {fault : Exc → Prop} (f : S → Request → Reply × S) ⦃β : Type⦄
    (op : Wire β) (net : Net S) (b : β) (net' : Net S)
    (answered : Wire.reliable f op net = some (b, net')) :
    Wire.sem (Answers f) fault op net b net' := by
  cases op with
  | asyncRequest request =>
    cases answered
    exact .inl ⟨_, _, rfl, rfl, rfl⟩
  | readResponse =>
    rw [Wire.reliable] at answered
    split at answered
    · cases answered
    · rename_i packet rest flying
      cases answered
      exact .inl ⟨packet, by rw [flying]; exact List.mem_cons_self, rfl, rfl⟩

/-- A write that found the handle open, of an upload whose writes all succeeded. -/
def Upload.Smooth {S : Type} (m : Upload.Made S) : Bool :=
  m.before.handle.isSome && m.left.log.all fun entry => (accept .status (stash entry.2)).isOk

theorem Upload.Smooth.clean {S : Type} {serve : S → Request → Reply → S → Prop} {u : Upload}
    {m : Upload.Made S} (smooth : Upload.Smooth m = true)
    (run : Runs (Wire.sem serve fun _ => False) (u.perform m.call) m.before m.world m.outcome
      m.after m.left) : Upload.Clean serve u m := by
  obtain ⟨opened, succeeded⟩ := Bool.and_eq_true_iff.mp smooth
  constructor
  · intro data same
    rw [same] at run
    exact .inr ⟨Option.isSome_iff_ne_none.mp opened, run⟩
  · intro number entry found write
    have accepted := List.all_eq_true.mp succeeded entry (List.mem_of_getElem? found)
    right
    cases answer : accept .status (stash entry.2) with
    | ok rest => exact ⟨rest, answer⟩
    | error e =>
      rw [answer] at accepted
      cases accepted

/-- Two writes of each sink with nothing lost. -/
theorem finished_sinks_clean :
    (∃ made s w s' w', Calls FileCall.sem (FileSink.perform ⟨none⟩) { descriptor := some 3 }
        { mode := 0o600 } made s w ∧
      Runs FileCall.sem (FileSink.finish ⟨none⟩) s w (.ok ()) s' w' ∧
      callsOf made = [.write [1, 2, 3], .write [4]] ∧ w'.content = [1, 2, 3, 4] ∧
      ∀ m ∈ made, FileSink.Clean m) ∧
    ∃ made s net s' net', Calls (Wire.sem (Answers stageServer) TransportFault)
        (Upload.perform ⟨lit "/", lit "/s", none⟩) { handle := some [1] } { server := [] } made s
        net ∧
      Runs (Wire.sem (Answers stageServer) TransportFault)
        (Upload.finish ⟨lit "/", lit "/s", none⟩) s net (.ok ()) s' net' ∧
      callsOf made = [.write [7, 8], .write [9]] ∧ net'.server = [7, 8, 9] := by
  constructor
  · have played : (playLast (FileCall.answer false) 20 (FileSink.perform ⟨none⟩)
        [.write [1, 2, 3], .write [4]] (FileSink.finish ⟨none⟩) { descriptor := some 3 }
        { mode := 0o600 }).map (fun r => (callsOf r.1, r.2.2.2.2.content)) =
        some ([.write [1, 2, 3], .write [4]], [1, 2, 3, 4]) := by decide +kernel
    obtain ⟨⟨made, s, w, s', w'⟩, played, facts⟩ := Option.map_eq_some_iff.mp played
    obtain ⟨calls, content⟩ := Prod.mk.inj facts
    obtain ⟨run, finished⟩ := Calls.of_playLast (FileCall.answer_sem false) played
    refine ⟨made, s, w, s', w', run, finished, calls, content, ?_⟩
    have whole : w'.content = SinkCall.written (callsOf made) := by
      rw [content, calls]
      rfl
    exact ((finished_sinks ⟨none⟩ ⟨lit "/", lit "/s", none⟩).1 3 0o600 made s w s' w' run
      finished).mp whole
  · have played : (playLast (Wire.reliable stageServer) 60 (Upload.perform ⟨lit "/", lit "/s", none⟩)
        [.write [7, 8], .write [9]] (Upload.finish ⟨lit "/", lit "/s", none⟩)
        { handle := some [1] } { server := [] }).map (fun r => (callsOf r.1, r.1.all Upload.Smooth)) =
        some ([.write [7, 8], .write [9]], true) := by decide +kernel
    obtain ⟨⟨made, s, net, s', net'⟩, played, facts⟩ := Option.map_eq_some_iff.mp played
    obtain ⟨calls, smooth⟩ := Prod.mk.inj facts
    have quiet : Calls (Wire.sem (Answers stageServer) fun _ => False) _ _ _ made s net :=
      (Calls.of_playLast (Wire.reliable_sem stageServer) played).1
    obtain ⟨run, finished⟩ := Calls.of_playLast (Wire.reliable_sem stageServer) played
    refine ⟨made, s, net, s', net', run, finished, calls, ?_⟩
    have stored := ((finished_sinks ⟨none⟩ ⟨lit "/", lit "/s", none⟩).2 Bytes (Answers stageServer) id [1] []
      stageServer_stores made s net s' net' run finished).1 fun m member =>
        Upload.Smooth.clean (List.all_eq_true.mp smooth m member) (quiet.runs m member)
    rw [calls] at stored
    exact stored

/-- A server that refuses the first WRITE. -/
def refusingServer (s : Bytes × Bool) (request : Request) : Reply × (Bytes × Bool) :=
  if request.written.isSome ∧ s.2 = false then (statusReply 4, (s.1, true))
  else ((stageServer s.1 request).1, ((stageServer s.1 request).2, s.2))

theorem refusingServer_stores {handle : Bytes} {stage : Text} :
    Stores (Answers refusingServer) Prod.fst handle stage := by
  have stores : Stores (Answers stageServer) id handle stage := stageServer_stores
  -- Apart from the refusal, it does what `stageServer` does.
  have other : ∀ {s : Bytes × Bool} {request reply s'}, Answers refusingServer s request reply s' →
      Answers stageServer s.1 request reply s'.1 ∨
        s'.1 = s.1 ∧ reply = statusReply 4 ∧ request.written.isSome := by
    intro s request reply s' served
    unfold Answers refusingServer at served
    split at served
    · rename_i refused
      cases served
      exact .inr ⟨rfl, rfl, refused.1⟩
    · cases served
      exact .inl rfl
  constructor
  · intro s offset data reply s' served succeeded
    rcases other served with same | ⟨-, rfl, -⟩
    · exact stores.write _ _ _ _ _ same succeeded
    · obtain ⟨rest, accepted⟩ := succeeded
      have status : IsStatus 4 (statusReply 4).payload :=
        ⟨[], [], by decide, by decide, by rw [List.append_nil]; rfl⟩
      have refused : accept .status (stash (statusReply 4)) = .error (.status 4) :=
        accept_failure status (by decide) (by decide)
      cases refused.symm.trans accepted
  · intro s request reply s' served kind unwritten
    rcases other served with same | ⟨same, -, -⟩
    · exact stores.keep _ _ _ _ same kind unwritten
    · exact same
  · intro s reply s' attributes size served parsed same
    rcases other served with answered | ⟨-, -, impossible⟩
    · exact stores.size _ _ _ _ _ answered parsed same
    · cases impossible

/-- A sink that goes on after a lost byte: the disk refuses the first write, and
the server the first WRITE; `finish` returns, and the byte is not stored. -/
theorem finished_sinks_forget :
    (∃ made s w s' w', Calls FileCall.sem (FileSink.perform ⟨none⟩) { descriptor := some 3 }
        { mode := 0o600 } made s w ∧
      Runs FileCall.sem (FileSink.finish ⟨none⟩) s w (.ok ()) s' w' ∧
      callsOf made = [.write [1]] ∧ w'.content = []) ∧
    ∃ made s net s' net', Stores (Answers refusingServer) Prod.fst [1] (lit "/s") ∧
      Calls (Wire.sem (Answers refusingServer) TransportFault)
        (Upload.perform ⟨lit "/", lit "/s", none⟩) { handle := some [1] } { server := ([], false) }
        made s net ∧
      Runs (Wire.sem (Answers refusingServer) TransportFault)
        (Upload.finish ⟨lit "/", lit "/s", none⟩) s net (.ok ()) s' net' ∧
      callsOf made = [.write [7], .finish, .write [8]] ∧ net'.server.1 = [0, 8] := by
  constructor
  · have played : (playLast (FileCall.answer true) 20 (FileSink.perform ⟨none⟩)
        [.write [1]] (FileSink.finish ⟨none⟩) { descriptor := some 3 }
        { mode := 0o600 }).map (fun r => (callsOf r.1, r.2.2.2.2.content)) =
        some ([.write [1]], []) := by decide +kernel
    obtain ⟨⟨made, s, w, s', w'⟩, played, facts⟩ := Option.map_eq_some_iff.mp played
    obtain ⟨calls, content⟩ := Prod.mk.inj facts
    obtain ⟨run, finished⟩ := Calls.of_playLast (FileCall.answer_sem true) played
    exact ⟨made, s, w, s', w', run, finished, calls, content⟩
  · have played : (playLast (Wire.reliable refusingServer) 60
        (Upload.perform ⟨lit "/", lit "/s", none⟩) [.write [7], .finish, .write [8]]
        (Upload.finish ⟨lit "/", lit "/s", none⟩) { handle := some [1] }
        { server := ([], false) }).map (fun r => (callsOf r.1, r.2.2.2.2.server.1)) =
        some ([.write [7], .finish, .write [8]], [0, 8]) := by decide +kernel
    obtain ⟨⟨made, s, net, s', net'⟩, played, facts⟩ := Option.map_eq_some_iff.mp played
    obtain ⟨calls, stored⟩ := Prod.mk.inj facts
    obtain ⟨run, finished⟩ := Calls.of_playLast (Wire.reliable_sem refusingServer) played
    exact ⟨made, s, net, s', net', refusingServer_stores, run, finished, calls, stored⟩

end DataBridge
