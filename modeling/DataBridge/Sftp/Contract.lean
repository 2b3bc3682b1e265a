import DataBridge.Sftp.Escapes

/-!
# The contract of the SFTP operations

Whatever leaves `list_files`, `check_access`, `read` or `write` is a typed error
or an exception of the caller's body, and it is the exception of the main path:
`Follows` says that a run of an operation is a run of its main path, with the
same outcome, and cleanup after it. The cleanup is quiet: releasing a handle
suppresses what sending can raise, and a stage or probe is removed only after its
root was sent once, so its path has a UTF-8 form.
-/

namespace DataBridge

open Effect Routine

/-- `sftp.close()` and `client.close()` raise what a lost transport raises. -/
structure Teardown.Lost (t : Teardown) : Prop where
  sftp : ∀ e, t.sftp = .error e → Requests.lost e = true
  client : ∀ e, t.client = .error e → Requests.lost e = true

section Cleanup

variable {S σ τ α β : Type} {serve : S → Request → Reply → S → Prop}
  {x main : Routine Wire Exc σ α} {s : σ} {net : Net S}

/-- A run of `x` is a run of `main` with the same outcome, and cleanup after it. -/
def Follows (serve : S → Request → Reply → S → Prop) (main x : Routine Wire Exc σ α) (s : σ)
    (net : Net S) : Prop :=
  ∀ r s' net', Runs (Wire.paramiko serve) x s net r s' net' →
    ∃ s₁ net₁, Runs (Wire.paramiko serve) main s net r s₁ net₁ ∧ net₁.log <+: net'.log

/-- The same, and only an exception is followed by cleanup. -/
def Unwinds (serve : S → Request → Reply → S → Prop) (main x : Routine Wire Exc σ α) (s : σ)
    (net : Net S) : Prop :=
  ∀ r s' net', Runs (Wire.paramiko serve) x s net r s' net' →
    ∃ s₁ net₁, Runs (Wire.paramiko serve) main s net r s₁ net₁ ∧ net₁.log <+: net'.log ∧
      ∀ a, r = .ok a → s₁ = s' ∧ net₁ = net'

theorem Unwinds.refl : Unwinds serve x x s net := by
  intro r s' net' run
  exact ⟨s', net', run, List.prefix_rfl, fun _ _ => ⟨rfl, rfl⟩⟩

theorem Unwinds.follows (h : Unwinds serve main x s net) : Follows serve main x s net := by
  intro r s' net' run
  obtain ⟨s₁, net₁, same, before, -⟩ := h r s' net' run
  exact ⟨s₁, net₁, same, before⟩

theorem Follows.trans {y : Routine Wire Exc σ α} (first : Follows serve main y s net)
    (second : Follows serve y x s net) : Follows serve main x s net := by
  intro r s' net' run
  obtain ⟨s₁, net₁, middle, before⟩ := second r s' net' run
  obtain ⟨s₂, net₂, inner, earlier⟩ := first r s₁ net₁ middle
  exact ⟨s₂, net₂, inner, earlier.trans before⟩

theorem Follows.bind {f g : α → Routine Wire Exc σ β} (first : Unwinds serve main x s net)
    (next : ∀ a s₁ net₁, Runs (Wire.paramiko serve) x s net (.ok a) s₁ net₁ →
      Follows serve (g a) (f a) s₁ net₁) : Follows serve (main >>= g) (x >>= f) s net := by
  intro r s' net' run
  rcases run.of_bind with ⟨e, rfl, raised⟩ | ⟨a, s₁, net₁, done, rest⟩
  · obtain ⟨s₁, net₁, same, before, -⟩ := first _ _ _ raised
    exact ⟨s₁, net₁, same.bind_error, before⟩
  · obtain ⟨s₂, net₂, same, -, equal⟩ := first _ _ _ done
    obtain ⟨rfl, rfl⟩ := equal a rfl
    obtain ⟨s₃, net₃, last, before⟩ := next a s₂ net₂ done _ _ _ rest
    exact ⟨s₃, net₃, same.bind last, before⟩

theorem Unwinds.bind {f g : α → Routine Wire Exc σ β} (first : Unwinds serve main x s net)
    (next : ∀ a s₁ net₁, Runs (Wire.paramiko serve) x s net (.ok a) s₁ net₁ →
      Unwinds serve (g a) (f a) s₁ net₁) : Unwinds serve (main >>= g) (x >>= f) s net := by
  intro r s' net' run
  rcases run.of_bind with ⟨e, rfl, raised⟩ | ⟨a, s₁, net₁, done, rest⟩
  · obtain ⟨s₁, net₁, same, before, -⟩ := first _ _ _ raised
    exact ⟨s₁, net₁, same.bind_error, before, fun _ impossible => by cases impossible⟩
  · obtain ⟨s₂, net₂, same, -, equal⟩ := first _ _ _ done
    obtain ⟨rfl, rfl⟩ := equal a rfl
    obtain ⟨s₃, net₃, last, before, ends⟩ := next a s₂ net₂ done _ _ _ rest
    exact ⟨s₃, net₃, same.bind last, before, ends⟩

/-- `except: cleanup; raise`. -/
theorem Unwinds.catching {cleanup : Routine Wire Exc σ Unit}
    (quiet : Raises (Wire.paramiko serve) (fun _ => False) cleanup) :
    Unwinds serve x (x.catching fun e => do
      cleanup
      .raise e) s net := by
  intro r s' net' run
  cases r with
  | ok a =>
    rcases run.of_catching with ⟨a, same, done⟩ | ⟨e, s₁, net₁, -, handled⟩
    · cases same
      exact ⟨s', net', done, List.prefix_rfl, fun _ _ => ⟨rfl, rfl⟩⟩
    · rcases handled.of_bind with ⟨e', impossible, -⟩ | ⟨_, s₂, net₂, -, raised⟩
      · cases impossible
      · cases raised.of_raise.1
  | error e =>
    obtain ⟨s₁, net₁, raised, cleaned⟩ := run.of_catching_quiet
      fun e s₁ net₁ _ r s₂ net₂ cleaned => by
        obtain ⟨_, rfl⟩ := quiet.quiet cleaned
        rfl
    exact ⟨s₁, net₁, raised, Wire.log_prefix cleaned, fun _ impossible => by cases impossible⟩

/-- `finally: last`. -/
theorem Follows.ensuring {last : Routine Wire Exc σ Unit}
    (quiet : Raises (Wire.paramiko serve) (fun _ => False) last) :
    Follows serve x (x.ensuring last) s net := by
  intro r s' net' run
  obtain ⟨s₁, net₁, done, cleaned⟩ := run.of_ensuring_quiet
    fun r s₁ net₁ _ r' s₂ net₂ cleaned => by
      obtain ⟨_, rfl⟩ := quiet.quiet cleaned
      rfl
  exact ⟨s₁, net₁, done, Wire.log_prefix cleaned⟩

theorem Follows.withFailures {f : Failures} (inner : Follows serve main x s net) :
    Follows serve (withFailures f main) (withFailures f x) s net := by
  intro r s' net' run
  rcases run.of_catching with ⟨a, rfl, done⟩ | ⟨e, s₁, net₁, raised, handled⟩
  · obtain ⟨s₁, net₁, same, before⟩ := inner _ _ _ done
    exact ⟨s₁, net₁, same.catching_ok, before⟩
  · obtain ⟨rfl, rfl, rfl⟩ := handled.of_raise
    obtain ⟨s₂, net₂, same, before⟩ := inner _ _ _ raised
    exact ⟨s₂, net₂, same.catching_error .raised, before⟩

theorem Unwinds.withFailures {f : Failures} (inner : Unwinds serve main x s net) :
    Unwinds serve (withFailures f main) (withFailures f x) s net := by
  intro r s' net' run
  rcases run.of_catching with ⟨a, rfl, done⟩ | ⟨e, s₁, net₁, raised, handled⟩
  · obtain ⟨s₁, net₁, same, before, ends⟩ := inner _ _ _ done
    exact ⟨s₁, net₁, same.catching_ok, before, fun a' equal => ends a rfl⟩
  · obtain ⟨rfl, rfl, rfl⟩ := handled.of_raise
    obtain ⟨s₂, net₂, same, before, -⟩ := inner _ _ _ raised
    exact ⟨s₂, net₂, same.catching_error .raised, before, fun _ impossible => by cases impossible⟩

theorem Unwinds.zoom {get : τ → σ} {set : σ → τ → τ} {t : τ}
    (inner : Unwinds serve main x (get t) net) :
    Unwinds serve (Routine.zoom get set main) (Routine.zoom get set x) t net := by
  intro r t' net' run
  obtain ⟨s', ran, rfl⟩ := run.of_zoom
  obtain ⟨s₁, net₁, same, before, ends⟩ := inner _ _ _ ran
  refine ⟨set s₁ t, net₁, same.zoom, before, fun a equal => ?_⟩
  obtain ⟨rfl, rfl⟩ := ends a equal
  exact ⟨rfl, rfl⟩

/-- The end of a session. -/
theorem closeSession_quiet {t : Teardown} (lost : t.Lost) :
    Raises (Wire.paramiko serve) (fun _ => False) (closeSession t : Routine Wire Exc σ Unit) := by
  have suppressed : ∀ r : Except Exc Unit, (∀ e, r = .error e → Requests.lost e = true) →
      Raises (Wire.paramiko serve) (fun _ => False)
        (suppressLost (.ofExcept r) : Routine Wire Exc σ Unit) := by
    intro r gone
    refine .catching (.ofExcept gone) fun e gone => ?_
    rw [if_pos gone]
    exact .pure
  exact .ensuring (suppressed _ lost.sftp) (suppressed _ lost.client)

theorem Follows.inSession {t : Teardown} (lost : t.Lost) (inner : Follows serve main x s net) :
    Follows serve main (inSession t x) s net :=
  inner.trans (.ensuring (closeSession_quiet lost))

end Cleanup

section Operations

variable {S : Type} {serve : S → Request → Reply → S → Prop} {net : Net S} {t : Teardown}

/-! ## Paths that can be sent -/

/-- A request that cannot be sent raises. -/
theorem Requests.call_sent {request : Request} {expected : ReplyKind} {s : Requests} :
    (Requests.call request expected).Ensures (Wire.paramiko serve)
      (fun r _ _ => request.Encodable ∨ r = .error .unicodeEncode) s net := by
  by_cases encodable : request.Encodable
  · intro r s' net' run
    exact .inl encodable
  · refine .bind (P := fun r _ _ => r = .error .unicodeEncode) ?_ (fun a s net impossible => ?_)
      fun e s net same => ?_
    · rw [Requests.send, if_neg encodable]
      exact .raise rfl
    · cases impossible
    · cases same
      exact .inr rfl

theorem Requests.bind_sent {request : Request} {α β : Type} {x : RequestsRoutine α}
    {f : α → RequestsRoutine β} {s : Requests}
    (h : x.Ensures (Wire.paramiko serve)
      (fun r _ _ => request.Encodable ∨ r = .error .unicodeEncode) s net) :
    (x >>= f).Ensures (Wire.paramiko serve)
      (fun r _ _ => request.Encodable ∨ r = .error .unicodeEncode) s net := by
  refine .bind h (fun a s₁ net₁ sent => ?_) fun e s₁ net₁ sent => ?_
  · rcases sent with encodable | impossible
    · intro r s' net' run
      exact .inl encodable
    · cases impossible
  · refine sent.imp_right fun same => ?_
    cases same
    rfl

theorem Text.Plain.sublist {text part : Text} (plain : text.Plain) (sublist : part.Sublist text) :
    part.Plain :=
  fun point member => plain point (sublist.subset member)

theorem plain_lit (s : String) : (lit s).Plain := by
  intro point member
  obtain ⟨c, -, rfl⟩ := List.mem_map.mp member
  have valid := c.valid
  simp only [UInt32.isValidChar, Nat.isValidChar] at valid
  rw [Bool.eq_false_iff]
  intro surrogate
  obtain ⟨low, high⟩ := Bool.and_eq_true_iff.mp surrogate
  have low : 0xD800 ≤ c.val.toNat := of_decide_eq_true low
  have high : c.val.toNat ≤ 0xDFFF := of_decide_eq_true high
  omega

theorem plain_uuid (id : Uuid) : id.text.Plain := by
  have digit : ∀ d, (hexDigit d).isSurrogate = false := by decide
  have hex : Text.Plain (id.digits.map hexDigit) := by
    intro point member
    obtain ⟨d, -, rfl⟩ := List.mem_map.mp member
    exact digit d
  have dash : (lit "-").Plain := plain_lit _
  have taken : ∀ m n, Text.Plain (((id.digits.map hexDigit).drop m).take n) := fun m n =>
    hex.sublist ((List.take_sublist _ _).trans (List.drop_sublist _ _))
  unfold Uuid.text
  exact ((((((((hex.sublist (List.take_sublist _ _)).append dash).append (taken 8 4)).append
    dash).append (taken 12 4)).append dash).append (taken 16 4)).append dash).append
    (hex.sublist (List.drop_sublist _ _))

theorem plain_probeName (id : Uuid) : (probeName id).Plain :=
  ((plain_lit _).append (plain_lit _)).append (plain_uuid id)

theorem encodable_probe {root : Text} {id : Uuid}
    (encodable : (Request.openDirectory root).Encodable) :
    (Request.remove (posixJoin root (probeName id))).Encodable := by
  have rootPlain : root.Plain := plain_of_isSome (encodable root List.mem_cons_self)
  intro path member
  rw [List.mem_singleton.mp member]
  exact (plain_posixJoin rootPlain (plain_probeName id)).isSome_utf8Length

namespace SFTPConnector

variable (c : SFTPConnector)

/-- The root was sent before the probe is removed. -/
theorem checkRoot_sent {s s' : Requests} {net' : Net S}
    (run : Runs (Wire.paramiko serve) c.checkRoot s net (.ok ()) s' net') :
    (Request.openDirectory c.root).Encodable := by
  rcases run.of_catching with ⟨_, -, opened⟩ | ⟨e, s₁, net₁, -, raised⟩
  · rcases (Requests.bind_sent (Requests.bind_sent Requests.call_sent)) _ _ _ opened
      with encodable | impossible
    · exact encodable
    · cases impossible
  · cases raised.of_raise.1

end SFTPConnector

end Operations

theorem Teardown.lost_quiet : ({} : Teardown).Lost where
  sftp := fun _ impossible => by cases impossible
  client := fun _ impossible => by cases impossible

end DataBridge
