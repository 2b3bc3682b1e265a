import DataBridge.Effect.Calls
import DataBridge.Local.AccessCheck
import DataBridge.Sftp.AccessCheck

/-!
# What the access checks leave at their roots

The local check keeps its promise whatever calls fail. The one of the SFTP
connector does not when the OPEN was applied, its reply gave no handle or was lost,
and no REMOVE was applied.
-/

namespace DataBridge

open Effect Routine Files

/-- The probe has a new name. The local check then always keeps its promise; the one
of the SFTP connector does exactly when the client knows of the probe. -/
theorem accessChecks_cleared (probeId : Uuid) :
    (∀ (c : LocalConnector) (w w' : LocalRoot) r,
      w.dir.entries (posixJoin w.path (probeName probeId)) = none →
      Runs RootCall.sem (c.checkAccess probeId) () w r () w' →
      Cleared (probeName probeId) (posixJoin w.path (probeName probeId)) w.dir w'.dir r) ∧
    ∀ (c : SFTPConnector) (t : Teardown) (before : Directory Text) r s (net : Net ProbeServer),
      t.Lost →
      before.entries (posixJoin c.root (probeName probeId)) = none →
      ¬probeName probeId <:+: c.root →
      Runs (Wire.paramiko ProbeServer.Serves) (c.checkAccess t probeId) {}
        { server := { dir := before } } r s net →
      (Cleared (probeName probeId) (posixJoin c.root (probeName probeId)) before net.server.dir r ↔
        ProbeKnown (posixJoin c.root (probeName probeId)) net) := by
  constructor
  · intro c w w' r absent run
    exact LocalConnector.checkAccess_ensures absent _ _ _ run
  · intro c t before r s net gone absent unnamed run
    exact SFTPConnector.checkAccess_ensures gone absent unnamed _ _ _ run

/-! ## Servers that answer in one way -/

/-- Every request that `f` answers reaches the server, and replies arrive in order. -/
def Wire.served {S : Type} (f : S → Request → Option (Reply × S)) :
    ∀ ⦃β : Type⦄, Wire β → Net S → Option (β × Net S)
  | _, .asyncRequest request, net =>
    (f net.server request).map fun answer =>
      (.ok net.log.length, net.post request answer.1 answer.2)
  | _, .readResponse, net =>
    match net.flying with
    | [] => none
    | packet :: _ => some (.ok packet, net.deliver packet)

theorem Wire.served_layer {S : Type} {serve : S → Request → Reply → S → Prop}
    {sending reading : Exc → Prop} {f : S → Request → Option (Reply × S)}
    (lawful : ∀ s request reply s', f s request = some (reply, s') → serve s request reply s')
    ⦃β : Type⦄ (op : Wire β) (net : Net S) (b : β) (net' : Net S)
    (answered : Wire.served f op net = some (b, net')) :
    Wire.layer serve sending reading op net b net' := by
  cases op with
  | asyncRequest request =>
    obtain ⟨⟨reply, server⟩, found, same⟩ := Option.map_eq_some_iff.mp answered
    cases same
    exact .inl ⟨reply, server, lawful _ _ _ _ found, rfl, rfl⟩
  | readResponse =>
    rw [Wire.served] at answered
    split at answered
    · cases answered
    · rename_i packet rest flying
      cases answered
      exact .inl ⟨packet, by rw [flying]; exact List.mem_cons_self, rfl, rfl⟩

/-- An empty root. Each OPEN is applied and answered with `opened`; a REMOVE is
applied or refused. -/
def ProbeServer.answer (opened : Reply) (removes : Bool) (server : ProbeServer) :
    Request → Option (Reply × ProbeServer)
  | .openDirectory _ => some (⟨.handle, stringField [1]⟩, server)
  | .close _ => some (statusReply sftpOk, server)
  | .openNew path =>
    if server.dir.entries path = none then
      some (opened, { dir := server.dir.create path 0o644, created := some opened })
    else none
  | .remove path =>
    if removes then
      if server.dir.entries path ≠ none then
        some (statusReply sftpOk, { server with dir := server.dir.unlink path, removed := true })
      else none
    else some (statusReply 4, server)
  | _ => none

theorem ProbeServer.answer_serves {opened : Reply} {removes : Bool} (server : ProbeServer)
    (request : Request) (reply : Reply) (server' : ProbeServer)
    (answered : ProbeServer.answer opened removes server request = some (reply, server')) :
    server.Serves request reply server' := by
  have refused : accept .status (stash (statusReply 4)) = .error (.status 4) := by
    have status : IsStatus 4 (statusReply 4).payload :=
      ⟨[], [], by decide, by decide, by rw [List.append_nil]; rfl⟩
    exact accept_failure status (by decide) (by decide)
  unfold ProbeServer.answer at answered
  split at answered
  · cases answered
    exact .openDirectory
  · cases answered
    exact .close
  · split at answered
    · rename_i absent
      cases answered
      exact .create absent
    · cases answered
  · split at answered
    · split at answered
      · rename_i present
        cases answered
        exact .remove present
      · cases answered
    · cases answered
      refine .unremoved fun _ => ⟨?_, ?_⟩
      · intro succeeded
        obtain ⟨rest, accepted⟩ := succeeded
        cases refused.symm.trans accepted
      · intro missing
        cases refused.symm.trans missing
  · cases answered

/-- A root whose calls all succeed. -/
def RootCall.answer : ∀ ⦃β : Type⦄, RootCall β → LocalRoot → Option (β × LocalRoot)
  | _, .resolve _, w => some (.ok w.path, w)
  | _, .isDirectory _, w => some (.ok true, w)
  | _, .scan _, w => some (.ok [], w)
  | _, .openNew path mode, w =>
    if w.dir.entries path = none then some (.ok 3, { w with dir := w.dir.create path mode }) else none
  | _, .close _, w => some (.ok (), w)
  | _, .unlink path, w =>
    if w.dir.entries path ≠ none then some (.ok (), { w with dir := w.dir.unlink path }) else none

theorem RootCall.answer_sem ⦃β : Type⦄ (op : RootCall β) (w : LocalRoot) (b : β) (w' : LocalRoot)
    (answered : RootCall.answer op w = some (b, w')) : RootCall.sem op w b w' := by
  cases op with
  | resolve path =>
    cases answered
    exact ⟨.inl rfl, rfl⟩
  | isDirectory path | scan path =>
    cases answered
    exact ⟨.inl ⟨_, rfl⟩, rfl⟩
  | close descriptor =>
    cases answered
    exact ⟨.inl rfl, rfl⟩
  | openNew path mode =>
    rw [RootCall.answer] at answered
    split at answered
    · rename_i absent
      cases answered
      exact .inl ⟨3, absent, rfl, rfl⟩
    · cases answered
  | unlink path =>
    rw [RootCall.answer] at answered
    split at answered
    · rename_i present
      cases answered
      exact .inl ⟨present, rfl, rfl⟩
    · cases answered

/-- Both checks of an empty root find it writable and leave it empty. -/
theorem accessChecks_cleared_empty :
    (∃ w', Runs RootCall.sem (LocalConnector.checkAccess ⟨lit "/r"⟩ ⟨List.replicate 32 0, rfl⟩) ()
        ⟨lit "/r", Directory.empty⟩ (.ok true) () w' ∧ w'.dir.entries = fun _ => none) ∧
    ∃ s net, Runs (Wire.paramiko ProbeServer.Serves)
        (SFTPConnector.checkAccess ⟨lit "/r"⟩ {} ⟨List.replicate 32 0, rfl⟩) {}
        { server := { dir := Directory.empty } } (.ok true) s net ∧
      net.server.dir.entries = fun _ => none := by
  constructor
  · have followed : (Prog.follow RootCall.answer 40
        (LocalConnector.checkAccess ⟨lit "/r"⟩ ⟨List.replicate 32 0, rfl⟩ ())
        ⟨lit "/r", Directory.empty⟩).map (·.1.1) = some (.ok true) := by decide +kernel
    obtain ⟨⟨⟨r, s⟩, w'⟩, run, same⟩ := Option.map_eq_some_iff.mp followed
    obtain rfl : r = _ := same
    have ran : Runs RootCall.sem _ () _ _ () w' := Prog.follow_reach RootCall.answer_sem run
    exact ⟨w', ran, (accessChecks_cleared ⟨List.replicate 32 0, rfl⟩).1 ⟨lit "/r"⟩ _ w' _ rfl ran⟩
  · have followed : (Prog.follow (Wire.served (ProbeServer.answer ⟨.handle, stringField [2]⟩ true)) 60
        (SFTPConnector.checkAccess ⟨lit "/r"⟩ {} ⟨List.replicate 32 0, rfl⟩ {})
        { server := { dir := Directory.empty } }).map (fun r => (r.1.1, r.2.server.removed)) =
        some (.ok true, true) := by decide +kernel
    obtain ⟨⟨⟨r, s⟩, net⟩, run, facts⟩ := Option.map_eq_some_iff.mp followed
    obtain ⟨rfl, removed⟩ := Prod.mk.inj facts
    have ran : Runs (Wire.paramiko ProbeServer.Serves) _ {} _ _ s net :=
      Prog.follow_reach (Wire.served_layer ProbeServer.answer_serves) run
    have kept := ((accessChecks_cleared ⟨List.replicate 32 0, rfl⟩).2 ⟨lit "/r"⟩ {} Directory.empty _ s net
      Teardown.lost_quiet rfl (by decide) ran).mpr fun _ _ => .inr removed
    exact ⟨s, net, ran, kept⟩

/-- The OPEN is applied and its reply has no fields, and the REMOVE is refused: the
probe is left, and the error does not name it. -/
theorem accessChecks_forget : ∃ e s net,
    Runs (Wire.paramiko ProbeServer.Serves)
      (SFTPConnector.checkAccess ⟨lit "/r"⟩ {} ⟨List.replicate 32 0, rfl⟩) {}
      { server := { dir := Directory.empty } } (.error e) s net ∧
    ¬Cleared (probeName ⟨List.replicate 32 0, rfl⟩)
      (posixJoin (lit "/r") (probeName ⟨List.replicate 32 0, rfl⟩)) Directory.empty net.server.dir
      (.error e : Except Exc Bool) := by
  have followed : (Prog.follow (Wire.served (ProbeServer.answer ⟨.status, []⟩ false)) 60
      (SFTPConnector.checkAccess ⟨lit "/r"⟩ {} ⟨List.replicate 32 0, rfl⟩ {})
      { server := { dir := Directory.empty } }).map (fun r => (r.1.1, (r.2.server.dir.entries
        (posixJoin (lit "/r") (probeName ⟨List.replicate 32 0, rfl⟩))).isSome)) =
      some (.error (.ofCode .sftpOperationFailed
        (lit "The SFTP server refused to test write access to '/r' (Bad message)")), true) := by
    decide +kernel
  obtain ⟨⟨⟨r, s⟩, net⟩, run, facts⟩ := Option.map_eq_some_iff.mp followed
  obtain ⟨rfl, left⟩ := Prod.mk.inj facts
  refine ⟨_, s, net, Prog.follow_reach (Wire.served_layer ProbeServer.answer_serves) run, ?_⟩
  intro cleared
  rcases cleared with gone | mentioned
  · rw [gone] at left
    cases left
  · exact absurd (mentions_ofCode.mp mentioned) (by decide)

end DataBridge
