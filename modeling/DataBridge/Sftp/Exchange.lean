import DataBridge.Sftp.Contract

/-!
# One request after another

What a request leaves, whatever was asked before it: it was not sent, its answer
was lost, or the outcome is read from the reply the server chose (`Exchange`).
`Heard` says that replies are not mixed up. The cleanup that follows an error asks
at most one thing more (`Once`).
-/

namespace DataBridge

open Effect Routine

section Requests

variable {S : Type} {serve : S → Request → Reply → S → Prop} {sending reading : Exc → Prop}
  {s : Requests} {net net' : Net S} {request : Request} {reply : Reply} {server : S}

/-- The layer whose sending and reading fail alike. -/
theorem Wire.layer_same {fault : Exc → Prop} : Wire.layer serve fault fault = Wire.sem serve fault := by
  funext β op
  cases op with
  | asyncRequest request => rfl
  | readResponse => rfl

/-! ## Replies are the log's -/

/-- Every reply on its way, and every reply kept, is the one in the log. -/
structure Heard (s : Requests) (net : Net S) : Prop where
  flying : ∀ p ∈ net.flying, ∃ entry, net.log[p.1]? = some entry ∧ p.2 = entry.2
  kept : ∀ n kept, s.replies n = some kept → ∃ entry, net.log[n]? = some entry ∧ kept = stash entry.2

namespace Heard

/-- A longer log has the entries of the shorter one. -/
theorem grow {net' : Net S} (heard : Heard s net) (log : net.log <+: net'.log)
    (flying : ∀ p ∈ net'.flying, p ∈ net.flying ∨
      ∃ entry, net'.log[p.1]? = some entry ∧ p.2 = entry.2) : Heard s net' := by
  have lifted : ∀ {n : Nat} {entry}, net.log[n]? = some entry → net'.log[n]? = some entry := by
    intro n entry found
    obtain ⟨later, same⟩ := log
    rw [← same, List.getElem?_append_left (List.getElem?_eq_some_iff.mp found).1]
    exact found
  constructor
  · intro p member
    rcases flying p member with before | now
    · obtain ⟨entry, found, same⟩ := heard.flying p before
      exact ⟨entry, lifted found, same⟩
    · exact now
  · intro n kept replied
    obtain ⟨entry, found, same⟩ := heard.kept n kept replied
    exact ⟨entry, lifted found, same⟩

theorem post (heard : Heard s net) : Heard s (net.post request reply server) := by
  refine heard.grow (List.prefix_append _ _) ?_
  intro p member
  rcases List.mem_append.mp member with before | last
  · exact .inl before
  · rw [List.mem_singleton.mp last]
    exact .inr ⟨(request, reply), by simp [Net.post], rfl⟩

theorem lose {e : Exc} (heard : Heard s net) : Heard s (net.lose request reply server e) :=
  heard.grow (List.prefix_append _ _) fun _ member => .inl member

theorem fail {e : Exc} (heard : Heard s net) : Heard s (net.fail e) :=
  ⟨heard.flying, heard.kept⟩

/-- An arriving reply is kept under its number, or dropped. -/
theorem deliver {p : Nat × Reply} (heard : Heard s net) (arrived : p ∈ net.flying) :
    Heard (s.asyncResponse p.1 p.2) (net.deliver p) := by
  have flying : ∀ q ∈ (net.deliver p).flying, q ∈ net.flying := fun q member =>
    List.mem_of_mem_erase member
  unfold Requests.asyncResponse
  split
  · exact ⟨fun q member => heard.flying q (flying q member), heard.kept⟩
  · refine ⟨fun q member => heard.flying q (flying q member), ?_⟩
    intro n kept replied
    by_cases same : n = p.1
    · subst same
      rw [show kept = stash p.2 by simpa using replied.symm]
      obtain ⟨entry, found, reply⟩ := heard.flying p arrived
      exact ⟨entry, found, congrArg stash reply⟩
    · exact heard.kept n kept (by simpa [Function.update_of_ne same] using replied)

theorem forget {number : Nat} (heard : Heard s net) :
    Heard { s with replies := Function.update s.replies number none } net := by
  refine ⟨heard.flying, ?_⟩
  intro n kept replied
  by_cases same : n = number
  · subst same
    simp at replied
  · exact heard.kept n kept (by simpa [Function.update_of_ne same] using replied)

end Heard

/-! ## The outcome of a request -/

/-- Nothing was asked. -/
structure Unasked (net net' : Net S) : Prop where
  log : net'.log = net.log
  server : net'.server = net.server
  faults : net'.faults = net.faults

/-- The server was asked once. -/
structure Answered (serve : S → Request → Reply → S → Prop) (request : Request) (reply : Reply)
    (net net' : Net S) : Prop where
  log : net'.log = net.log ++ [(request, reply)]
  served : serve net.server request reply net'.server

/-- What a request leaves, and its outcome when `read` reads the reply. -/
inductive Exchange (serve : S → Request → Reply → S → Prop) (sending reading : Exc → Prop)
    (request : Request) {α : Type} (read : Reply → Except Exc α) (net net' : Net S) :
    Except Exc α → Prop
  | unsent {e : Exc} : sending e ∨ e = .unicodeEncode ∧ ¬request.Encodable → Unasked net net' →
    Exchange serve sending reading request read net net' (.error e)
  | lost {reply : Reply} {e : Exc} : Answered serve request reply net net' →
    net'.faults = net.faults ++ [(net.log.length, e)] → sending e ∨ reading e →
    Exchange serve sending reading request read net net' (.error e)
  | answered {reply : Reply} : Answered serve request reply net net' → net'.faults = net.faults →
    Exchange serve sending reading request read net net' (read reply)

/-- The server was asked at most once. -/
def Once (serve : S → Request → Reply → S → Prop) (request : Request) (net net' : Net S) : Prop :=
  Unasked net net' ∨ ∃ reply, Answered serve request reply net net' ∧
    (net'.faults = net.faults ∨ ∃ e, net'.faults = net.faults ++ [(net.log.length, e)])

theorem Exchange.once {α : Type} {read : Reply → Except Exc α} {r : Except Exc α}
    (exchange : Exchange serve sending reading request read net net' r) :
    Once serve request net net' := by
  cases exchange with
  | unsent refused unasked => exact .inl unasked
  | lost answered faults failed => exact .inr ⟨_, answered, .inr ⟨_, faults⟩⟩
  | answered answered faults => exact .inr ⟨_, answered, .inl faults⟩

/-- The reply is read further. -/
theorem Exchange.parse {α β : Type} {read : Reply → Except Exc α} {f : α → Except Exc β}
    {r : Except Exc α} (exchange : Exchange serve sending reading request read net net' r) :
    Exchange serve sending reading request (fun reply => read reply >>= f) net net' (r >>= f) := by
  cases exchange with
  | unsent refused unasked => exact .unsent refused unasked
  | lost answered faults failed => exact .lost answered faults failed
  | answered answered faults => exact .answered answered faults

namespace Requests

theorem send_exchange : (send request).Ensures (Wire.layer serve sending reading)
    (Post (fun number s' net' => s' = s ∧ number = net.log.length ∧
        ∃ reply server, serve net.server request reply server ∧ net' = net.post request reply server)
      fun e s' net' => s' = s ∧
        ((sending e ∨ e = .unicodeEncode ∧ ¬request.Encodable) ∧ net' = net ∨
          sending e ∧ ∃ reply server, serve net.server request reply server ∧
            net' = net.lose request reply server e)) s net := by
  unfold send
  split
  · refine .invoke ?_
    intro r net' answer
    rcases answer with ⟨reply, server, served, rfl, rfl⟩ |
      ⟨e, failed, rfl, rfl | ⟨reply, server, served, rfl⟩⟩
    · exact ⟨rfl, rfl, reply, server, served, rfl⟩
    · exact ⟨rfl, .inl ⟨.inl failed, rfl⟩⟩
    · exact ⟨rfl, .inr ⟨failed, reply, server, served, rfl⟩⟩
  · rename_i unencodable
    exact .raise ⟨rfl, .inl ⟨.inr ⟨rfl, unencodable⟩, rfl⟩⟩

/-- `receive` answers with the reply of the log, or the transport fails. -/
theorem receive_exchange {number : Nat} {expected : ReplyKind} (heard : Heard s net) :
    (receive number expected).Ensures (Wire.layer serve sending reading)
      (fun r s' net' => Heard s' net' ∧ net'.log = net.log ∧ net'.server = net.server ∧
        (net'.faults = net.faults ∧
            (∃ entry, net.log[number]? = some entry ∧ r = accept expected (stash entry.2)) ∨
          ∃ e, r = .error e ∧ reading e ∧
            net'.faults = net.faults ++ [(net.log.length - 1, e)])) s net := by
  refine .bind (P := Post (fun _ s' net' => Heard s' net' ∧ Unasked net net' ∧
      (s'.replies number).isSome)
      fun e s' net' => Heard s' net' ∧ net'.log = net.log ∧ net'.server = net.server ∧ reading e ∧
        net'.faults = net.faults ++ [(net.log.length - 1, e)]) ?_ ?_ ?_
  · refine .iterate (I := fun _ s' net' => Heard s' net' ∧ Unasked net net') ?_
      ⟨heard, rfl, rfl, rfl⟩
    intro _ s' net' inv
    obtain ⟨heard, unasked⟩ := inv
    rw [await, Ensures.fields_bind]
    split
    · rename_i kept
      exact .pure ⟨heard, unasked, kept⟩
    · refine .bind (P := Post (fun p s'' net'' => s'' = s' ∧ p ∈ net'.flying ∧
          net'' = net'.deliver p)
          fun e s'' net'' => s'' = s' ∧ reading e ∧ net'' = net'.fail e) (.invoke ?_) ?_ ?_
      · intro r net'' answer
        rcases answer with ⟨packet, arrived, rfl, rfl⟩ | ⟨e, failed, rfl, rfl⟩
        · exact ⟨rfl, arrived, rfl⟩
        · exact ⟨rfl, failed, rfl⟩
      · intro p s'' net'' received
        obtain ⟨rfl, arrived, rfl⟩ := received
        rw [Ensures.modify_bind]
        exact .pure ⟨heard.deliver arrived, unasked.log, unasked.server, unasked.faults⟩
      · intro e s'' net'' failed
        obtain ⟨rfl, failed, rfl⟩ := failed
        refine ⟨heard.fail, unasked.log, unasked.server, failed, ?_⟩
        rw [Net.fail, unasked.log, unasked.faults]
  · intro _ s' net' done
    obtain ⟨heard, unasked, kept⟩ := done
    rw [Ensures.fields_bind, Ensures.modify_bind]
    refine .ofExcept ⟨heard.forget, unasked.log, unasked.server, .inl ⟨unasked.faults, ?_⟩⟩
    obtain ⟨reply, replied⟩ := Option.isSome_iff_exists.mp kept
    obtain ⟨entry, found, rfl⟩ := heard.kept number reply replied
    exact ⟨entry, unasked.log ▸ found, by rw [replied, Option.getD_some]⟩
  · intro e s' net' failed
    obtain ⟨heard, log, server, failed, faults⟩ := failed
    exact ⟨heard, log, server, .inr ⟨e, rfl, failed, faults⟩⟩

theorem call_exchange {expected : ReplyKind} (heard : Heard s net) :
    (call request expected).Ensures (Wire.layer serve sending reading)
      (fun r s' net' => Heard s' net' ∧ Exchange serve sending reading request
        (fun reply => accept expected (stash reply)) net net' r) s net := by
  refine .bind send_exchange ?_ ?_
  · intro number s' net' sent
    obtain ⟨rfl, rfl, reply, server, served, rfl⟩ := sent
    refine (receive_exchange heard.post).mono ?_
    intro r s'' net'' received
    obtain ⟨heard, log, same, answer⟩ := received
    have answered : Answered serve request reply net net'' := ⟨log, by rw [same]; exact served⟩
    refine ⟨heard, ?_⟩
    rcases answer with ⟨faults, entry, found, rfl⟩ | ⟨e, rfl, failed, faults⟩
    · rw [Net.post, List.getElem?_concat_length] at found
      cases found
      exact .answered answered faults
    · refine .lost answered ?_ (.inr failed)
      rw [faults, Net.post, List.length_append, List.length_singleton, Nat.add_sub_cancel]
  · intro e s' net' failed
    obtain ⟨rfl, ⟨refused, rfl⟩ | ⟨failed, reply, server, served, rfl⟩⟩ := failed
    · exact ⟨heard, .unsent refused ⟨rfl, rfl, rfl⟩⟩
    · exact ⟨heard.lose, .lost ⟨rfl, served⟩ rfl (.inl failed)⟩

/-- A request whose reply is parsed. -/
theorem parse_exchange {α : Type} {expected : ReplyKind} {reader : Reader α} (heard : Heard s net) :
    (do
      let payload ← call request expected
      .ofExcept (Reader.parse reader payload) : RequestsRoutine α).Ensures
      (Wire.layer serve sending reading)
      (fun r s' net' => Heard s' net' ∧ Exchange serve sending reading request
        (fun reply => accept expected (stash reply) >>= Reader.parse reader) net net' r) s net := by
  refine .bind (call_exchange heard) ?_ ?_
  · intro payload s' net' called
    obtain ⟨heard, exchange⟩ := called
    exact .ofExcept ⟨heard, exchange.parse⟩
  · intro e s' net' called
    obtain ⟨heard, exchange⟩ := called
    exact ⟨heard, exchange.parse⟩

theorem attributes_exchange (heard : Heard s net) :
    (attributes request).Ensures (Wire.layer serve sending reading)
      (fun r s' net' => Heard s' net' ∧
        Exchange serve sending reading request reported net net' r) s net :=
  parse_exchange heard

theorem openHandle_exchange (heard : Heard s net) :
    (openHandle request).Ensures (Wire.layer serve sending reading)
      (fun r s' net' => Heard s' net' ∧
        Exchange serve sending reading request openedHandle net net' r) s net :=
  parse_exchange heard

/-- Over paramiko, releasing a handle never raises. -/
theorem closeQuietly_once {handle : Bytes} (heard : Heard s net) :
    (closeQuietly handle).Ensures (Wire.paramiko serve)
      (fun r s' net' => r = .ok () ∧ Heard s' net' ∧ Once serve (.close handle) net net') s net := by
  refine .catching (P := Post (fun _ s' net' => Heard s' net' ∧ Once serve (.close handle) net net')
    fun e s' net' => Requests.lost e = true ∧ Heard s' net' ∧ Once serve (.close handle) net net')
    (.bind send_exchange ?_ ?_) ?_ ?_
  · intro number s' net' sent
    obtain ⟨rfl, rfl, reply, server, served, rfl⟩ := sent
    refine .modify ⟨?_, .inr ⟨reply, ⟨rfl, served⟩, .inl rfl⟩⟩
    unfold ignore
    split
    · exact heard.post.forget
    · exact ⟨heard.post.flying, heard.post.kept⟩
  · intro e s' net' failed
    obtain ⟨rfl, ⟨gone | ⟨-, unencodable⟩, rfl⟩ | ⟨gone, reply, server, served, rfl⟩⟩ := failed
    · exact ⟨gone, heard, .inl ⟨rfl, rfl, rfl⟩⟩
    · exact absurd (fun path member => absurd member List.not_mem_nil) unencodable
    · exact ⟨gone, heard.lose, .inr ⟨reply, ⟨rfl, served⟩, .inr ⟨e, rfl⟩⟩⟩
  · intro _ s' net' done
    exact ⟨rfl, done⟩
  · intro e s' net' failed
    obtain ⟨gone, done⟩ := failed
    rw [if_pos gone]
    exact .pure ⟨rfl, done⟩

/-- Removing a path that can be sent never raises. -/
theorem removeQuietly_once {path : Text} (encodable : (Request.remove path).Encodable)
    (heard : Heard s net) :
    (removeQuietly path).Ensures (Wire.paramiko serve)
      (fun r s' net' => r = .ok () ∧ Heard s' net' ∧ Once serve (.remove path) net net') s net := by
  intro r s' net' run
  refine ⟨(removeQuietly_quiet encodable).quiet run |>.elim fun _ same => same, ?_⟩
  have kept : (removeQuietly path).Ensures (Wire.paramiko serve)
      (fun _ s' net' => Heard s' net' ∧ Once serve (.remove path) net net') s net := by
    refine .catching (P := fun _ s' net' => Heard s' net' ∧ Once serve (.remove path) net net')
      (.bind (call_exchange heard) ?_ ?_) ?_ ?_
    · intro _ s' net' called
      exact .pure ⟨called.1, called.2.once⟩
    · intro e s' net' called
      exact ⟨called.1, called.2.once⟩
    · intro _ s' net' done
      exact done
    · intro e s' net' done
      cases e with
      | status | sftpError => exact .pure done
      | _ =>
        dsimp only
        split
        · exact .pure done
        · exact .raise done
  exact kept _ _ _ run

end Requests

/-- A block under `_failures`: its exceptions are translated. -/
theorem withFailures_ensures {E : Type → Type} {W σ α : Type} {sem : Sem E W} {f : Failures}
    {body : Routine E Exc σ α} {Q : Except Exc α → σ → W → Prop} {s : σ} {w : W}
    (h : body.Ensures sem (fun r s w => Q (r.mapError f.translate) s w) s w) :
    (withFailures f body).Ensures sem Q s w :=
  .catching h (fun _ _ _ h => h) fun _ _ _ h => .raise h

/-- The end of a session changes nothing. -/
theorem inSession_ensures {σ α : Type} {sem : Sem Wire (Net S)} {t : Teardown} (gone : t.Lost)
    {x : Routine Wire Exc σ α} {Q : Except Exc α → σ → Net S → Prop} {s : σ}
    (h : x.Ensures sem Q s net) : (inSession t x).Ensures sem Q s net := by
  have suppressed : ∀ (r : Except Exc Unit), (∀ e, r = .error e → Requests.lost e = true) →
      ∀ (s : σ) (net : Net S), (suppressLost (.ofExcept r) : Routine Wire Exc σ Unit).Ensures sem
        (fun r s' net' => r = .ok () ∧ s' = s ∧ net' = net) s net := by
    intro r gone s net
    refine .catching (P := fun r' s' net' => r' = r ∧ s' = s ∧ net' = net)
      (.ofExcept ⟨rfl, rfl, rfl⟩) ?_ ?_
    · intro _ s' net' same
      exact ⟨rfl, same.2⟩
    · intro e s' net' same
      rw [if_pos (gone e same.1.symm)]
      exact .pure ⟨rfl, same.2⟩
  refine .ensuring h ?_
  intro r s₁ net₁ done
  refine .ensuring (suppressed _ gone.sftp s₁ net₁) ?_
  intro r' s₂ net₂ closed
  obtain ⟨rfl, rfl, rfl⟩ := closed
  refine (suppressed _ gone.client _ _).mono ?_
  intro r' s₃ net₃ closed
  obtain ⟨rfl, rfl, rfl⟩ := closed
  exact done

end Requests

end DataBridge
