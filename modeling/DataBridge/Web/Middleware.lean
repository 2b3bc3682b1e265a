import DataBridge.Effect.Ensures
import DataBridge.Web.LogEvents

/-!
# The middleware

`RequestContextMiddleware` of `web.py`, around an application that may do anything: it is
asked for one step after the other, and sends a message or finishes. Whatever it does,
and whatever fails, a request is answered and logged once (`Handled`); and a request that
a page of another host makes never reaches the application when it could change something
(`rejection_foreign`).
-/

namespace DataBridge.Web

open Effect Routine Json

/-! ## Who may ask -/

/-- An HTTP request, as far as the middleware reads it: the names of the headers are in
lower case, and the scheme is one word. -/
structure Scope where
  method : Text
  scheme : Text
  headers : List (Bytes × Bytes)
  oneWord : .ofChar ':' ∉ scheme

/-- `headers.get(key)`. -/
def Scope.header (scope : Scope) (key : String) : Option Text :=
  (Dict.get? (asciiBytes (lit key)) scope.headers).map byteText

/-- `str.lower` for one character of Latin-1. -/
def lowerChar (c : CodePoint) : CodePoint :=
  if (0x41 ≤ c.val ∧ c.val ≤ 0x5A) ∨ (0xC0 ≤ c.val ∧ c.val ≤ 0xDE ∧ c.val ≠ 0xD7) then
    pointOf (c.val + 0x20)
  else c

/-- `text.lower()` for a text of Latin-1, as header values are. -/
def lowerText (text : Text) : Text := text.map lowerChar

/-- What stands in front of the last separator: the head of `text.rpartition(separator)`. -/
def beforeLast (separator : CodePoint) : Text → Option Text
  | [] => none
  | c :: rest =>
    match beforeLast separator rest with
    | some name => some (c :: name)
    | none => if c = separator then some [] else none

/-- `_host_name`. -/
def hostName (host : Text) : Text :=
  if host.head? = some (.ofChar '[') then
    if .ofChar ']' ∈ host then
      lowerText ((host.takeWhile fun c => c ≠ .ofChar ']').drop 1)
    else []
  else
    match beforeLast (.ofChar ':') host with
    | some name => lowerText (if .ofChar ':' ∉ name then name else host)
    | none => lowerText host

/-- `_STATE_CHANGING_METHODS`. -/
def stateChangingMethods : List Text := [lit "DELETE", lit "PATCH", lit "POST", lit "PUT"]

/-- `_rejection`. -/
def rejection (allowedHosts : List Text) (scope : Scope) : Option (ErrorCode × Text) :=
  let host := (scope.header "host").getD []
  if hostName host ∉ allowedHosts then
    some (.invalidHostHeader,
      lit "The Host header must name this local service, for example 127.0.0.1")
  else if scope.method ∉ stateChangingMethods then none
  else
    let origin := scope.header "origin"
    let ownOrigin := lowerText (scope.scheme ++ lit "://" ++ host)
    let crossSite := scope.header "sec-fetch-site" = some (lit "cross-site")
    if crossSite ∨ (origin.isSome ∧ origin.map lowerText ≠ some ownOrigin) then
      some (.crossOriginRejected,
        lit "Requests from other web origins cannot change DataBridge state")
    else none

/-! ## Names of hosts -/

/-- A character that `lower` neither changes nor makes. -/
def Caseless (d : CodePoint) : Prop :=
  ¬ ((0x41 ≤ d.val ∧ d.val ≤ 0x5A) ∨ (0xC0 ≤ d.val ∧ d.val ≤ 0xDE ∧ d.val ≠ 0xD7)) ∧
    ¬ ((0x61 ≤ d.val ∧ d.val ≤ 0x7A) ∨ (0xE0 ≤ d.val ∧ d.val ≤ 0xFE ∧ d.val ≠ 0xF7))

instance (d : CodePoint) : Decidable (Caseless d) := inferInstanceAs (Decidable (_ ∧ _))

theorem val_lowerChar (c : CodePoint) : (lowerChar c).val =
    if (0x41 ≤ c.val ∧ c.val ≤ 0x5A) ∨ (0xC0 ≤ c.val ∧ c.val ≤ 0xDE ∧ c.val ≠ 0xD7) then
      c.val + 0x20
    else c.val := by
  unfold lowerChar
  split_ifs with upper
  · exact pointOf_small (by omega)
  · rfl

theorem lowerChar_eq_iff {d : CodePoint} (caseless : Caseless d) (c : CodePoint) :
    lowerChar c = d ↔ c = d := by
  unfold Caseless at caseless
  rw [Fin.ext_iff, val_lowerChar, Fin.ext_iff]
  split_ifs with upper
  · omega
  · rfl

theorem lowerChar_lowerChar (c : CodePoint) : lowerChar (lowerChar c) = lowerChar c := by
  rw [Fin.ext_iff, val_lowerChar, val_lowerChar]
  split_ifs
  all_goals omega

theorem lowerText_lowerText (text : Text) : lowerText (lowerText text) = lowerText text := by
  rw [lowerText, lowerText, List.map_map]
  exact List.map_congr_left fun c _ => lowerChar_lowerChar c

theorem mem_lowerText {d : CodePoint} (caseless : Caseless d) (text : Text) :
    d ∈ lowerText text ↔ d ∈ text := by
  rw [lowerText, List.mem_map]
  constructor
  · intro found
    obtain ⟨c, member, same⟩ := found
    rwa [← (lowerChar_eq_iff caseless c).mp same]
  · intro member
    exact ⟨d, member, (lowerChar_eq_iff caseless d).mpr rfl⟩

theorem beforeLast_lowerText {d : CodePoint} (caseless : Caseless d) (text : Text) :
    beforeLast d (lowerText text) = (beforeLast d text).map lowerText := by
  induction text with
  | nil => rfl
  | cons c text ih =>
    rw [lowerText, List.map_cons, beforeLast, ← lowerText, ih, beforeLast]
    cases beforeLast d text with
    | some name => rfl
    | none =>
      simp only [Option.map_none, lowerChar_eq_iff caseless]
      split_ifs
      · rfl
      · rfl

/-- The name of a host does not depend on case. -/
theorem hostName_lowerText (host : Text) : hostName (lowerText host) = hostName host := by
  have open_ : Caseless (.ofChar '[') := by decide
  have close : Caseless (.ofChar ']') := by decide
  have colon : Caseless (.ofChar ':') := by decide
  have head : (lowerText host).head? = some (.ofChar '[') ↔ host.head? = some (.ofChar '[') := by
    cases host with
    | nil => exact Iff.rfl
    | cons c rest =>
      rw [lowerText, List.map_cons, List.head?_cons, List.head?_cons, Option.some.injEq,
        Option.some.injEq]
      exact lowerChar_eq_iff open_ c
  unfold hostName
  simp only [head, mem_lowerText close, beforeLast_lowerText colon]
  by_cases bracket : host.head? = some (.ofChar '[')
  · rw [if_pos bracket, if_pos bracket]
    have taken : (lowerText host).takeWhile (fun c => c ≠ .ofChar ']') =
        lowerText (host.takeWhile fun c => c ≠ .ofChar ']') := by
      rw [lowerText, List.takeWhile_map]
      congr 2
      funext c
      simp only [Function.comp_apply, ne_eq, lowerChar_eq_iff close]
    split_ifs
    · rw [taken, lowerText, lowerText, ← List.map_drop]
      exact lowerText_lowerText _
    · rfl
  · rw [if_neg bracket, if_neg bracket]
    cases beforeLast (.ofChar ':') host with
    | some name =>
      simp only [Option.map_some, mem_lowerText colon]
      split_ifs
      · exact lowerText_lowerText _
      · exact lowerText_lowerText _
    | none => exact lowerText_lowerText _

/-- The host and port of an origin: what stands behind its `://`. -/
def authority (origin : Text) : Text := ((origin.dropWhile fun c => c ≠ .ofChar ':').drop 3)

theorem authority_lowerText (origin : Text) :
    authority (lowerText origin) = lowerText (authority origin) := by
  have colon : Caseless (.ofChar ':') := by decide
  have dropped : (lowerText origin).dropWhile (fun c => c ≠ .ofChar ':') =
      lowerText (origin.dropWhile fun c => c ≠ .ofChar ':') := by
    rw [lowerText, List.dropWhile_map]
    congr 2
    funext c
    simp only [Function.comp_apply, ne_eq, lowerChar_eq_iff colon]
  rw [authority, dropped, authority, lowerText, lowerText, ← List.map_drop]

theorem authority_scheme {scheme : Text} (oneWord : .ofChar ':' ∉ scheme) (host : Text) :
    authority (scheme ++ lit "://" ++ host) = host := by
  have first : ∀ c ∈ scheme, decide (c ≠ .ofChar ':') = true := by
    intro c member
    rw [decide_eq_true_eq]
    rintro rfl
    exact oneWord member
  rw [authority, List.append_assoc, List.dropWhile_append_of_pos first]
  rfl

/-- A request that could change something and names the origin of the page that makes it
is let through only when this page comes from an allowed host. -/
theorem rejection_foreign {allowedHosts : List Text} {scope : Scope} {origin : Text}
    (changes : scope.method ∈ stateChangingMethods) (sent : scope.header "origin" = some origin)
    (foreign : hostName (authority origin) ∉ allowedHosts) :
    ∃ code message, rejection allowedHosts scope = some (code, message) ∧
      (code = .invalidHostHeader ∨ code = .crossOriginRejected) := by
  unfold rejection
  dsimp only
  by_cases known : hostName ((scope.header "host").getD []) ∈ allowedHosts
  · rw [if_neg (not_not.mpr known), if_neg (not_not.mpr changes), sent]
    have differs : lowerText origin ≠
        lowerText (scope.scheme ++ lit "://" ++ (scope.header "host").getD []) := by
      intro same
      have hosts := congrArg (fun text => hostName (authority text)) same
      simp only [authority_lowerText, hostName_lowerText, authority_scheme scope.oneWord] at hosts
      rw [hosts] at foreign
      exact foreign known
    rw [if_pos (.inr ⟨rfl, by rw [Option.map_some]; exact fun same => differs (Option.some.inj same)⟩)]
    exact ⟨_, _, rfl, .inr rfl⟩
  · rw [if_pos known]
    exact ⟨_, _, rfl, .inl rfl⟩

/-! ## Responses -/

/-- `FieldProblem`. -/
structure FieldProblem where
  field : Text
  problem : Text
  deriving DecidableEq, Repr

section Responses

variable {Φ : Type}

/-- `FieldProblem.model_dump`. -/
def FieldProblem.value (p : FieldProblem) : Value (JsonNumber Φ) :=
  .object [(lit "field", .string p.field), (lit "problem", .string p.problem)]

/-- `ErrorResponse.model_dump`. -/
def errorBody (code : ErrorCode) (message : Text) (transferId : Option Text)
    (details : Option (List FieldProblem)) : Value (JsonNumber Φ) :=
  .object [(lit "error", .object [(lit "code", .string code.value), (lit "message", .string message),
    (lit "transfer_id", transferId.elim .null .string),
    (lit "details", details.elim .null fun problems => .array (problems.map FieldProblem.value))])]

end Responses

/-- A message of ASGI. A `JSONResponse` sends its start and then its value; the headers
that belong to its bytes are left out. -/
inductive HttpMessage (Φ : Type)
  | start (status : Nat) (headers : List (Bytes × Bytes))
  | json (value : Value (JsonNumber Φ))
  | data (bytes : Bytes)

/-- What an application leaves in the scope of its request. -/
structure AppState (Φ : Type) where
  route : Option Text := none
  pathParams : Fields Φ := []
  query : List (Text × Text) := []
  state : RequestState Φ := {}

/-- What an application does next. -/
inductive AppStep (Φ : Type)
  | send (message : HttpMessage Φ)
  | finish (left : AppState Φ) (outcome : Except Exc Unit)

/-- The calls of the middleware. -/
inductive WebCall (Φ : Type) : Type → Type
  /-- The next step of the application. -/
  | app : WebCall Φ (AppStep Φ)
  /-- `send` of the server. -/
  | send (message : HttpMessage Φ) : WebCall Φ (Except Exc Unit)
  /-- `datetime.now(UTC)`, and the milliseconds since the request began. -/
  | clock : WebCall Φ (Instant × Φ)
  /-- `RequestLog.write`. -/
  | log (event : LogEvent Φ) : WebCall Φ (Except Exc Unit)

/-- What happened so far. -/
structure WebWorld (Φ : Type) where
  steps : List (AppStep Φ) := []
  sent : List (HttpMessage Φ) := []
  logged : List (LogEvent Φ × Except Exc Unit) := []

/-- The application does anything, and every call may fail. -/
def WebCall.sem (Φ : Type) : Sem (WebCall Φ) (WebWorld Φ)
  | _, .app, w, step, w' => w' = { w with steps := w.steps ++ [step] }
  | _, .send message, w, _, w' => w' = { w with sent := w.sent ++ [message] }
  | _, .clock, w, _, w' => w' = w
  | _, .log event, w, r, w' => w' = { w with logged := w.logged ++ [(event, r)] }

/-- The local variables of `__call__`. -/
structure WebState (Φ : Type) where
  responseStatus : Option Nat := none
  app : AppState Φ := {}

abbrev WebRoutine (Φ α : Type) : Type 1 := Routine (WebCall Φ) Exc (WebState Φ) α

section Call

variable {Φ : Type}

/-- The message with the ID of its request. -/
def HttpMessage.mark (requestId : Text) : HttpMessage Φ → HttpMessage Φ
  | .start status headers =>
    .start status (headers ++ [(asciiBytes (lit "x-request-id"), asciiBytes requestId)])
  | .json value => .json value
  | .data bytes => .data bytes

/-- `response_status` after a message. -/
def HttpMessage.status (before : Option Nat) : HttpMessage Φ → Option Nat
  | .start status _ => some status
  | .json _ => before
  | .data _ => before

/-- Change the state that is logged. -/
def WebState.update (change : RequestState Φ → RequestState Φ) (s : WebState Φ) : WebState Φ :=
  { s with app := { s.app with state := change s.app.state } }

/-- `send_with_request_id`. -/
def sendWithRequestId (requestId : Text) (message : HttpMessage Φ) : WebRoutine Φ Unit := do
  .modify fun s => { s with responseStatus := message.status s.responseStatus }
  .invoke (.send (message.mark requestId))

/-- `await self.app(scope, receive, send_with_request_id)`. What a failing `send` raises
is raised in the application. -/
def runApp (requestId : Text) : WebRoutine Φ Unit :=
  .iterate (fun _ => do
    let step ← .ask .app
    match step with
    | .send message => do
      .catching (sendWithRequestId requestId message) fun _ => pure ()
      pure (.inl ())
    | .finish left outcome => do
      .modify fun s => { s with app := left }
      .ofExcept outcome
      pure (.inr ())) ()

/-- `await error_response(code, message)(scope, receive, send_with_request_id)`. -/
def respondError (requestId : Text) (code : ErrorCode) (message : Text) : WebRoutine Φ Unit := do
  sendWithRequestId requestId (.start code.httpStatus [])
  sendWithRequestId requestId (.json (errorBody code message none none))

/-- The event that `_log` makes. -/
def eventOf (scope : Scope) (requestId : Text) (s : WebState Φ) (now : Instant × Φ) : LogEvent Φ where
  time := now.1
  requestId := requestId
  method := scope.method
  route := s.app.route
  status := (s.responseStatus.filter (· ≠ 0)).getD 500
  duration := now.2
  pathParams := s.app.pathParams
  query := s.app.query
  state := s.app.state

/-- `_log`. -/
def writeLog (scope : Scope) (requestId : Text) : WebRoutine Φ Unit := do
  let s ← .fields
  let now ← .ask .clock
  .catching (.invoke (.log (eventOf scope requestId s now))) fun e =>
    if e.isOSError then pure () else .raise e

/-- The message of an unhandled exception. -/
def crashMessage (requestId : Text) : Text :=
  lit "Unexpected server error; the service log has details for request " ++ requestId

/-- The `except` of `__call__`. -/
def onCrash (typeName : Exc → Text) (requestId : Text) (e : Exc) : WebRoutine Φ Unit := do
  .modify (WebState.update fun state => { state with errorType := some (typeName e) })
  let s ← .fields
  if s.responseStatus.isSome then .raise e
  else do
    .modify (WebState.update fun state => { state with errorCode := some .internalError })
    respondError requestId .internalError (crashMessage requestId)

/-- The `try` of `__call__`. -/
def handle (allowedHosts : List Text) (scope : Scope) (requestId : Text) : WebRoutine Φ Unit :=
  match rejection allowedHosts scope with
  | some (code, message) => do
    .modify (WebState.update fun state => { state with errorCode := some code })
    respondError requestId code message
  | none => runApp requestId

/-- `__call__` for an HTTP request; `typeName` is the name of the type of an exception. -/
def call (allowedHosts : List Text) (typeName : Exc → Text) (scope : Scope) (requestId : Text) :
    WebRoutine Φ Unit :=
  .ensuring (.catching (handle allowedHosts scope requestId) (onCrash typeName requestId))
    (writeLog scope requestId)

/-! ## Every exchange -/

/-- `response_status` after some messages. -/
def statusOf (messages : List (HttpMessage Φ)) : Option Nat :=
  messages.foldl HttpMessage.status none

theorem statusOf_concat (messages : List (HttpMessage Φ)) (message : HttpMessage Φ) :
    statusOf (messages ++ [message]) = message.status (statusOf messages) := by
  rw [statusOf, List.foldl_append]
  rfl

/-- The messages of an error response. -/
def errorMessages (code : ErrorCode) (message : Text) : List (HttpMessage Φ) :=
  [.start code.httpStatus [], .json (errorBody code message none none)]

/-- What happened in one call up to its `finally`: the steps of the application, the
messages of the application and the middleware, and what `_log` finds. -/
structure Exchange (Φ : Type) where
  steps : List (AppStep Φ)
  messages : List (HttpMessage Φ)
  app : AppState Φ
  answered : Except Exc Unit

/-- The fields and the world after an exchange. -/
structure After (requestId : Text) (w : WebWorld Φ) (x : Exchange Φ) (r : Except Exc Unit)
    (s : WebState Φ) (w' : WebWorld Φ) : Prop where
  steps : w'.steps = w.steps ++ x.steps
  sent : w'.sent = w.sent ++ x.messages.map (HttpMessage.mark requestId)
  logged : w'.logged = w.logged
  status : s.responseStatus = statusOf x.messages
  app : s.app = x.app
  answered : r = x.answered

/-- Some of an error response, at least its start, and all of it if nothing was raised. -/
def Responds (code : ErrorCode) (message : Text) (own : List (HttpMessage Φ))
    (answered : Except Exc Unit) : Prop :=
  own = errorMessages code message ∨
    own = [.start code.httpStatus []] ∧ ∃ e, answered = .error e

/-- What an exchange may be. A rejected request is answered by the middleware alone.
Otherwise what the application sends is what the client gets, and an exception of it is
answered as an internal error, unless a response has begun. -/
structure Exchange.Fits (x : Exchange Φ) (allowedHosts : List Text) (typeName : Exc → Text)
    (scope : Scope) (requestId : Text) : Prop where
  rejected : ∀ code message, rejection allowedHosts scope = some (code, message) →
    x.steps = [] ∧ Responds code message x.messages x.answered ∧
      x.app.state.errorCode = some code
  accepted : rejection allowedHosts scope = none → ∃ sends left outcome,
    x.steps = sends.map AppStep.send ++ [.finish left outcome] ∧
    (outcome = .ok () → x.messages = sends ∧ x.app = left ∧ x.answered = .ok ()) ∧
    ∀ e, outcome = .error e → x.app.state.errorType = some (typeName e) ∧
      ((statusOf sends).isSome → x.messages = sends ∧ x.answered = .error e) ∧
      (statusOf sends = none → x.app.state.errorCode = some .internalError ∧
        ∃ own, x.messages = sends ++ own ∧
          Responds .internalError (crashMessage requestId) own x.answered)

theorem sendWithRequestId_ensures {requestId : Text} {message : HttpMessage Φ} {w : WebWorld Φ}
    {s : WebState Φ} : (sendWithRequestId requestId message).Ensures (WebCall.sem Φ)
      (fun _ s' w' => s' = { s with responseStatus := message.status s.responseStatus } ∧
        w' = { w with sent := w.sent ++ [message.mark requestId] }) s w :=
  Ensures.modify_bind.mpr (.invoke fun _ _ answer => ⟨rfl, answer⟩)

/-- The steps of the application, each passed on. -/
theorem runApp_ensures {requestId : Text} {w : WebWorld Φ} :
    (runApp requestId).Ensures (WebCall.sem Φ) (fun r s' w' => ∃ sends left,
      After requestId w ⟨sends.map .send ++ [.finish left r], sends, left, r⟩ r s' w') {} w := by
  refine .iterate (I := fun _ s v => ∃ sends, v.steps = w.steps ++ sends.map .send ∧
    v.sent = w.sent ++ sends.map (HttpMessage.mark requestId) ∧ v.logged = w.logged ∧
    s.responseStatus = statusOf sends) ?_ ⟨[], by simp, by simp, rfl, rfl⟩
  intro _ s v passed
  obtain ⟨sends, steps, sent, logged, status⟩ := passed
  refine .bind (P := Post (fun step s' v' => s' = s ∧ v' = { v with steps := v.steps ++ [step] })
    fun _ _ _ => False) ?_ ?_ fun _ _ _ never => never.elim
  · apply Ensures.ask
    intro step v' answer
    exact ⟨rfl, answer⟩
  intro step s' v' asked
  obtain ⟨rfl, rfl⟩ := asked
  cases step with
  | send message =>
    refine .bind (P := Post (fun _ s₁ v₁ => s₁.responseStatus = message.status s'.responseStatus ∧
      v₁.steps = v.steps ++ [.send message] ∧ v₁.sent = v.sent ++ [message.mark requestId] ∧
      v₁.logged = v.logged) fun _ _ _ => False) ?_ ?_ fun _ _ _ never => never.elim
    · refine .catching sendWithRequestId_ensures ?_ ?_
      · intro _ s₁ v₁ passed
        obtain ⟨rfl, rfl⟩ := passed
        exact ⟨rfl, rfl, rfl, rfl⟩
      · intro e s₁ v₁ passed
        obtain ⟨rfl, rfl⟩ := passed
        exact .pure ⟨rfl, rfl, rfl, rfl⟩
    · intro _ s₁ v₁ passed
      obtain ⟨status₁, steps₁, sent₁, logged₁⟩ := passed
      refine .pure ⟨sends ++ [message], ?_, ?_, logged₁.trans logged, ?_⟩
      · rw [steps₁, steps, List.map_append, List.append_assoc]
        rfl
      · rw [sent₁, sent, List.map_append, List.append_assoc]
        rfl
      · rw [status₁, status, statusOf_concat]
  | finish left outcome =>
    have ended : After requestId w ⟨sends.map .send ++ [.finish left outcome], sends, left, outcome⟩
        outcome { s' with app := left } { v with steps := v.steps ++ [.finish left outcome] } := by
      refine ⟨?_, sent, logged, status, rfl, rfl⟩
      change v.steps ++ _ = _
      rw [steps, List.append_assoc]
    refine Ensures.modify_bind.mpr (.bind (P := fun r s₁ v₁ => r = outcome ∧
      s₁ = { s' with app := left } ∧ v₁ = { v with steps := v.steps ++ [.finish left outcome] })
      (.ofExcept ⟨rfl, rfl, rfl⟩) ?_ ?_)
    · intro _ s₁ v₁ done
      obtain ⟨rfl, rfl, rfl⟩ := done
      exact .pure ⟨sends, left, ended⟩
    · intro e s₁ v₁ done
      obtain ⟨rfl, rfl, rfl⟩ := done
      exact ⟨sends, left, ended⟩

theorem respondError_ensures {requestId : Text} {code : ErrorCode} {message : Text}
    {w : WebWorld Φ} {s : WebState Φ} : (respondError requestId code message).Ensures (WebCall.sem Φ)
      (fun r s' w' => ∃ own, Responds code message own r ∧
        s' = { s with responseStatus := some code.httpStatus } ∧
        w' = { w with sent := w.sent ++ own.map (HttpMessage.mark requestId) }) s w := by
  refine .bind sendWithRequestId_ensures ?_ ?_
  · intro _ s₁ w₁ begun
    obtain ⟨rfl, rfl⟩ := begun
    refine sendWithRequestId_ensures.mono ?_
    intro r s₂ w₂ done
    obtain ⟨rfl, rfl⟩ := done
    refine ⟨errorMessages code message, .inl rfl, rfl, ?_⟩
    simp [errorMessages, List.append_assoc]
  · intro e s₁ w₁ begun
    obtain ⟨rfl, rfl⟩ := begun
    exact ⟨[.start code.httpStatus []], .inr ⟨rfl, e, rfl⟩, rfl, rfl⟩

variable {allowedHosts : List Text} {typeName : Exc → Text} {scope : Scope} {requestId : Text}
  {w : WebWorld Φ}

theorem Responds.raised {code : ErrorCode} {message : Text} {own : List (HttpMessage Φ)} {e e' : Exc}
    (responds : Responds code message own (.error e)) : Responds code message own (.error e') := by
  rcases responds with all | ⟨begun, -⟩
  · exact .inl all
  · exact .inr ⟨begun, e', rfl⟩

/-- A message that begins an error response decides the status. -/
theorem Responds.status {code : ErrorCode} {message : Text} {own : List (HttpMessage Φ)}
    {answered : Except Exc Unit} (responds : Responds code message own answered)
    (before : List (HttpMessage Φ)) : statusOf (before ++ own) = some code.httpStatus := by
  rcases responds with rfl | ⟨rfl, -⟩
  · rw [errorMessages, statusOf, List.foldl_append]
    rfl
  · rw [statusOf_concat]
    rfl

/-- An exception that comes once a response has begun goes on. -/
theorem onCrash_begun {s : WebState Φ} {e : Exc} (begun : s.responseStatus.isSome) :
    (onCrash typeName requestId e).Ensures (WebCall.sem Φ) (fun r s' w' => r = .error e ∧
      s' = s.update (fun state => { state with errorType := some (typeName e) }) ∧ w' = w) s w := by
  refine Ensures.modify_bind.mpr (Ensures.fields_bind.mpr ?_)
  have still : (s.update fun state => { state with errorType := some (typeName e) }).responseStatus.isSome :=
    begun
  rw [if_pos still]
  exact .raise ⟨rfl, rfl, rfl⟩

theorem rejected_ensures {code : ErrorCode} {message : Text}
    (refused : rejection allowedHosts scope = some (code, message)) :
    Ensures (WebCall.sem Φ) (.catching (handle allowedHosts scope requestId)
      (onCrash typeName requestId)) (fun r s w' => ∃ x : Exchange Φ,
        x.Fits allowedHosts typeName scope requestId ∧ After requestId w x r s w') {} w := by
  have fits : ∀ (own : List (HttpMessage Φ)) (app : AppState Φ) (r : Except Exc Unit),
      Responds code message own r → app.state.errorCode = some code →
      Exchange.Fits ⟨[], own, app, r⟩ allowedHosts typeName scope requestId := by
    intro own app r responds known
    constructor
    · intro code' message' refused'
      rw [refused] at refused'
      cases refused'
      exact ⟨rfl, responds, known⟩
    · intro accepted
      rw [refused] at accepted
      cases accepted
  let known : AppState Φ := { state := { errorCode := some code } }
  have answer : (handle allowedHosts scope requestId).Ensures (WebCall.sem Φ)
      (fun r s w' => ∃ own, Responds code message own r ∧
        s = { responseStatus := some code.httpStatus, app := known } ∧
        w' = { w with sent := w.sent ++ own.map (HttpMessage.mark requestId) }) {} w := by
    unfold handle
    rw [refused]
    exact Ensures.modify_bind.mpr respondError_ensures
  refine .catching answer ?_ ?_
  · intro _ s w' done
    obtain ⟨own, responds, rfl, rfl⟩ := done
    exact ⟨⟨[], own, known, .ok ()⟩, fits own known _ responds rfl,
      (List.append_nil _).symm, rfl, rfl, (responds.status []).symm, rfl, rfl⟩
  · intro e s w' failed
    obtain ⟨own, responds, rfl, rfl⟩ := failed
    refine (onCrash_begun rfl).mono ?_
    intro r s' w'' raised
    obtain ⟨rfl, rfl, rfl⟩ := raised
    exact ⟨⟨[], own, { known with state.errorType := some (typeName e) }, .error e⟩,
      fits own _ _ responds rfl, (List.append_nil _).symm, rfl, rfl, (responds.status []).symm, rfl, rfl⟩

theorem accepted_ensures (accepted : rejection allowedHosts scope = none) :
    Ensures (WebCall.sem Φ) (.catching (handle allowedHosts scope requestId)
      (onCrash typeName requestId)) (fun r s w' => ∃ x : Exchange Φ,
        x.Fits allowedHosts typeName scope requestId ∧ After requestId w x r s w') {} w := by
  have never : ∀ {P : Prop} {code : ErrorCode} {message : Text},
      rejection allowedHosts scope = some (code, message) → P := by
    intro P code message refused
    rw [accepted] at refused
    cases refused
  have crashed : ∀ {x : Exchange Φ} {sends : List (HttpMessage Φ)} {left : AppState Φ} {e : Exc},
      x.steps = sends.map .send ++ [.finish left (.error e)] →
      x.app.state.errorType = some (typeName e) →
      ((statusOf sends).isSome → x.messages = sends ∧ x.answered = .error e) →
      (statusOf sends = none → x.app.state.errorCode = some .internalError ∧
        ∃ own, x.messages = sends ++ own ∧
          Responds .internalError (crashMessage requestId) own x.answered) →
      x.Fits allowedHosts typeName scope requestId := by
    intro x sends left e steps type begun unanswered
    refine ⟨fun _ _ => never, fun _ => ⟨sends, left, .error e, steps, ?_, ?_⟩⟩
    · intro impossible
      cases impossible
    · intro e' same
      cases same
      exact ⟨type, begun, unanswered⟩
  unfold handle
  rw [accepted]
  refine .catching runApp_ensures ?_ ?_
  · intro _ s w' done
    obtain ⟨sends, left, after⟩ := done
    have fits : Exchange.Fits ⟨sends.map .send ++ [.finish left (.ok ())], sends, left, .ok ()⟩
        allowedHosts typeName scope requestId := by
      refine ⟨fun _ _ => never, fun _ => ⟨sends, left, .ok (), rfl, fun _ => ⟨rfl, rfl, rfl⟩, ?_⟩⟩
      intro e impossible
      cases impossible
    exact ⟨_, fits, after⟩
  · intro e s w' failed
    obtain ⟨sends, left, steps, sent, logged, status, app, -⟩ := failed
    have status : s.responseStatus = statusOf sends := status
    by_cases begun : s.responseStatus.isSome
    · -- The exception goes on: the client has a part of a response already.
      refine (onCrash_begun begun).mono ?_
      intro r s' w'' raised
      obtain ⟨rfl, rfl, rfl⟩ := raised
      rw [status] at begun
      let named := s.update fun state => { state with errorType := some (typeName e) }
      refine ⟨⟨_, sends, named.app, .error e⟩, crashed rfl rfl (fun _ => ⟨rfl, rfl⟩) ?_,
        steps, sent, logged, status, rfl, rfl⟩
      intro unanswered
      rw [unanswered] at begun
      cases begun
    · have unanswered : statusOf sends = none := by
        rw [← status]
        exact Option.not_isSome_iff_eq_none.mp begun
      unfold onCrash
      refine Ensures.modify_bind.mpr (Ensures.fields_bind.mpr ?_)
      have still : ¬ (s.update fun state =>
          { state with errorType := some (typeName e) }).responseStatus.isSome := begun
      rw [if_neg still]
      refine Ensures.modify_bind.mpr (respondError_ensures.mono ?_)
      intro r s' w'' responded
      obtain ⟨own, responds, rfl, rfl⟩ := responded
      refine ⟨⟨_, sends ++ own, _, r⟩, crashed rfl rfl ?_ fun _ => ⟨rfl, own, rfl, responds⟩,
        steps, ?_, logged, (responds.status sends).symm, rfl, rfl⟩
      · intro started
        rw [unanswered] at started
        cases started
      · change w'.sent ++ _ = _
        rw [sent, List.map_append, List.append_assoc]

/-- What the request log was given for an exchange, and the outcome of the call. Only an
exception of the log other than an `OSError` replaces that of the exchange. -/
structure Logged (scope : Scope) (requestId : Text) (w : WebWorld Φ) (x : Exchange Φ)
    (event : LogEvent Φ) (written : Except Exc Unit) (r : Except Exc Unit) (w' : WebWorld Φ) :
    Prop where
  steps : w'.steps = w.steps ++ x.steps
  sent : w'.sent = w.sent ++ x.messages.map (HttpMessage.mark requestId)
  logged : w'.logged = w.logged ++ [(event, written)]
  requestId : event.requestId = requestId
  method : event.method = scope.method
  status : event.status = ((statusOf x.messages).filter (· ≠ 0)).getD 500
  route : event.route = x.app.route
  state : event.state = x.app.state
  answered : (∀ e, written = .error e → e.isOSError = true) → r = x.answered
  failed : ∀ e, written = .error e → e.isOSError = false → r = .error e

/-- `_log`, after an exchange of a kind. -/
theorem call_of_exchange {Fits : Exchange Φ → Prop}
    (exchange : Ensures (WebCall.sem Φ) (.catching (handle allowedHosts scope requestId)
      (onCrash typeName requestId)) (fun r s w' => ∃ x, Fits x ∧ After requestId w x r s w') {} w) :
    (call allowedHosts typeName scope requestId).Ensures (WebCall.sem Φ)
      (fun r _ w' => ∃ x event written, Fits x ∧ Logged scope requestId w x event written r w') {} w := by
  refine .ensuring exchange ?_
  intro r s w₁ done
  obtain ⟨x, fits, steps, sent, logged, status, app, rfl⟩ := done
  unfold writeLog
  refine Ensures.fields_bind.mpr (.bind (P := Post (fun _ s' w' => s' = s ∧ w' = w₁) fun _ _ _ => False)
    ?_ ?_ fun _ _ _ never => never.elim)
  · apply Ensures.ask
    intro now w' answer
    exact ⟨rfl, answer⟩
  intro now s' w' timed
  obtain ⟨rfl, rfl⟩ := timed
  have given : ∀ (written r : Except Exc Unit),
      ((∀ e, written = .error e → e.isOSError = true) → r = x.answered) →
      (∀ e, written = .error e → e.isOSError = false → r = .error e) →
      Logged scope requestId w x (eventOf scope requestId s' now) written r
        { w' with logged := w'.logged ++ [(eventOf scope requestId s' now, written)] } := by
    intro written r answered failed
    have ofStatus : (eventOf scope requestId s' now).status =
        ((statusOf x.messages).filter (· ≠ 0)).getD 500 := by
      rw [← status]
      rfl
    exact ⟨steps, sent, congrArg (· ++ _) logged, rfl, rfl, ofStatus, congrArg AppState.route app,
      congrArg AppState.state app, answered, failed⟩
  refine .catching (P := fun written _ w₂ => w₂ =
    { w' with logged := w'.logged ++ [(eventOf scope requestId s' now, written)] }) ?_ ?_ ?_
  · apply Ensures.invoke
    intro written w₂ answer
    exact answer
  · intro _ s₂ w₂ written
    subst written
    refine ⟨x, _, .ok (), fits, given _ _ (fun _ => rfl) ?_⟩
    intro e impossible
    cases impossible
  · intro e s₂ w₂ written
    subst written
    split_ifs with os
    · refine .pure ⟨x, _, .error e, fits, given _ _ (fun _ => rfl) ?_⟩
      intro e' same other
      cases same
      rw [os] at other
      cases other
    · refine .raise ⟨x, _, .error e, fits, given _ _ (fun all => absurd (all e rfl) os) ?_⟩
      intro e' same _
      cases same
      rfl

variable (allowedHosts typeName scope requestId w)

/-- Whatever the application does and whatever fails, a request is answered and logged
once: with its own ID, and with the status of the response that the client got. -/
theorem call_handled : (call allowedHosts typeName scope requestId).Ensures (WebCall.sem Φ)
    (fun r _ w' => ∃ x event written, x.Fits allowedHosts typeName scope requestId ∧
      Logged scope requestId w x event written r w') {} w := by
  apply call_of_exchange
  cases refused : rejection allowedHosts scope with
  | some found => exact rejected_ensures (Prod.mk.eta (p := found) ▸ refused)
  | none => exact accepted_ensures refused

variable {allowedHosts scope}

/-- A request that a page of a host that is not allowed makes to change something never
reaches the application: the client gets an error response, or its beginning. -/
theorem call_foreign {origin : Text} (changes : scope.method ∈ stateChangingMethods)
    (sent : scope.header "origin" = some origin)
    (foreign : hostName (authority origin) ∉ allowedHosts) :
    (call allowedHosts typeName scope requestId).Ensures (WebCall.sem Φ)
      (fun _ _ w' => w'.steps = w.steps ∧ ∃ code message own answered,
        (code = .invalidHostHeader ∨ code = .crossOriginRejected) ∧
        Responds code message own answered ∧
        w'.sent = w.sent ++ own.map (HttpMessage.mark requestId)) {} w := by
  obtain ⟨code, message, refused, which⟩ := rejection_foreign changes sent foreign
  refine (call_of_exchange (rejected_ensures refused)).mono ?_
  intro r s w' handled
  obtain ⟨x, event, written, fits, logged⟩ := handled
  obtain ⟨none, responds, -⟩ := fits.rejected code message refused
  refine ⟨?_, code, message, x.messages, x.answered, which, responds, logged.sent⟩
  rw [logged.steps, none, List.append_nil]

end Call

/-- A form of another site that posts to the service under its own name. -/
def foreignScope : Scope where
  method := lit "POST"
  scheme := lit "http"
  headers := [(asciiBytes (lit "host"), asciiBytes (lit "127.0.0.1:8080")),
    (asciiBytes (lit "origin"), asciiBytes (lit "https://Example.com"))]
  oneWord := by decide

theorem call_foreign_form : (call [lit "127.0.0.1"] (fun _ => lit "OSError") foreignScope
    (lit "r-1")).Ensures (WebCall.sem Unit) (fun _ _ w' => w'.steps = [] ∧ ∃ code message own answered,
      (code = .invalidHostHeader ∨ code = .crossOriginRejected) ∧
      Responds code message own answered ∧ w'.sent = own.map (HttpMessage.mark (lit "r-1"))) {} {} := by
  have foreign : hostName (authority (lit "https://Example.com")) ∉ [lit "127.0.0.1"] := by decide
  exact call_foreign _ _ _ (by decide) (by decide) foreign

end DataBridge.Web
