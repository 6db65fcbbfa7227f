import ApmAgent.AspNetCore.RequestBody

/-! # Exceptions of a request

  Two ways to report an exception that leaves the pipeline of a request. The
  middleware captures the exception and then collects the body; the diagnostic
  listener collects the body first. An error copies the request at the moment
  it is captured, so what is collected later does not reach it.

  Only the request of the context is followed. What the two ways write to the
  response and the user of the transaction when it is stopped does not touch
  it.
-/

namespace ApmAgent

namespace AspNetCore

open Api

/-- A request that is handled: the context of its transaction, which is sampled, and the contexts
    of the errors captured on it. -/
structure HandledRequest where
  context : Context
  errors : List Context

/-- The text of the body a context carries. -/
def bodyText (context : Context) : Option String :=
  (context.request.bind (·.body)).map (·.content)

namespace HandledRequest

/-- `CaptureException`: the error gets a copy of the context. -/
def captureException (s : HandledRequest) : HandledRequest :=
  { s with errors := s.errors ++ [s.context] }

/-- The bodies the errors carry. -/
def errorBodies (s : HandledRequest) : List (Option String) := s.errors.map bodyText

variable [InvariantCulture] [ContentTypes] (config : ConfigSnapshot) (source : BodySource)

/-- `CollectRequestBody` on the transaction. -/
def collectRequestBody (isForError : Bool) (s : HandledRequest) : HandledRequest :=
  { s with context := collectBody config true isForError source s.context }

/-- `FillSampledTransactionContextRequest`: a new request, which has no body yet, and its
    body. -/
def fillSampledTransactionContextRequest (request : Request) : HandledRequest :=
  collectRequestBody config source false
    { context := { Context.empty with request := some { request with body := none } }
      errors := [] }

/-- `ApmMiddleware.InvokeAsync` with a pipeline that throws; `statusCode` is that of the response
    when it has thrown. -/
def apmMiddleware (request : Request) (statusCode : Nat) : HandledRequest :=
  let s := fillSampledTransactionContextRequest config source request
  -- `CaptureExceptionAndRequestBody`, the filter of the `catch` clause.
  let s := collectRequestBody config source true s.captureException
  -- The `finally` block.
  match bodyText s.context with
  | some body =>
    if 400 ≤ statusCode ∧ (body = "" ∨ body = redacted) then
      collectRequestBody config source true s
    else s
  | none => s

/-- `AspNetCoreDiagnosticListener`: the request starts, an exception event is delivered, the
    request stops. -/
def aspNetCoreDiagnosticListener (request : Request) : HandledRequest :=
  let s := fillSampledTransactionContextRequest config source request
  (collectRequestBody config source true s).captureException

/-! ### The body at each moment -/

/-- What is read of the body for a transaction or for an error, if it is to be captured. -/
def capturedBody (isForError : Bool) : Option String :=
  if isCaptureRequestBodyEnabled config isForError &&
      isCaptureRequestBodyEnabledForContentType config source.contentType then
    extractRequestBody config.sanitizeFieldNames source.content
  else none

/-- The body after the request has started, and after it was collected for an error too. -/
def startBody : Body := (capturedBody config source false).elim .redacted .text

def finalBody : Body :=
  (capturedBody config source false).elim
    ((capturedBody config source true).elim .redacted .text) .text

/-- The context carries `body`. -/
def Carries (body : Body) (s : HandledRequest) : Prop :=
  ∃ request, s.context.request = some request ∧ request.body = some body

variable {config source} {s : HandledRequest} {request : Request}

omit [InvariantCulture] [ContentTypes] in
theorem Carries.bodyText_eq {body : Body} (h : s.Carries body) :
    bodyText s.context = some body.content := by
  obtain ⟨request, hrequest, hbody⟩ := h
  simp [bodyText, hrequest, hbody]

theorem fill_carries :
    (fillSampledTransactionContextRequest config source request).Carries
      (startBody config source) :=
  ⟨_, rfl, rfl⟩

/-- A text that was read is not read again. -/
theorem collect_carries_text {text : String} (h : s.Carries (.text text)) :
    (collectRequestBody config source true s).Carries (.text text) := by
  obtain ⟨request, hrequest, hbody⟩ := h
  exact ⟨request, by simp [collectRequestBody, collectBody, hrequest,
    AspNetCore.collectRequestBody, hbody], hbody⟩

/-- The constant is replaced by what is captured for errors. -/
theorem collect_carries_redacted (h : s.Carries .redacted) :
    (collectRequestBody config source true s).Carries
      ((capturedBody config source true).elim .redacted .text) := by
  obtain ⟨request, hrequest, hbody⟩ := h
  refine ⟨_, by simp only [collectRequestBody, collectBody, hrequest, if_pos]; rfl, ?_⟩
  simp [AspNetCore.collectRequestBody, hbody, capturedBody]

/-- Collecting for an error brings the body to its final one, -/
theorem collect_carries_final (h : s.Carries (startBody config source)) :
    (collectRequestBody config source true s).Carries (finalBody config source) := by
  unfold startBody at h
  unfold finalBody
  cases hstart : capturedBody config source false with
  | none =>
    rw [hstart] at h
    exact collect_carries_redacted h
  | some text =>
    rw [hstart] at h
    exact collect_carries_text h

/-- and leaves that one as it is. -/
theorem collect_carries_final_again (h : s.Carries (finalBody config source)) :
    (collectRequestBody config source true s).Carries (finalBody config source) := by
  unfold finalBody at h ⊢
  cases hstart : capturedBody config source false with
  | none =>
    rw [hstart] at h
    cases herror : capturedBody config source true with
    | none =>
      rw [herror] at h
      have hagain : (collectRequestBody config source true s).Carries
          ((capturedBody config source true).elim .redacted .text) := collect_carries_redacted h
      rwa [herror] at hagain
    | some text =>
      rw [herror] at h
      exact collect_carries_text h
  | some text =>
    rw [hstart] at h
    exact collect_carries_text h

variable (config source request)

/-- The middleware's error carries the body of the start, its transaction the final one. -/
theorem apmMiddleware_bodies (statusCode : Nat) :
    (apmMiddleware config source request statusCode).errorBodies =
        [some (startBody config source).content] ∧
      bodyText (apmMiddleware config source request statusCode).context =
        some (finalBody config source).content := by
  let started := fillSampledTransactionContextRequest config source request
  have hstart : started.Carries (startBody config source) := fill_carries
  have hcollected : (collectRequestBody config source true started.captureException).Carries
      (finalBody config source) := collect_carries_final (s := started.captureException) hstart
  have herrors : (collectRequestBody config source true started.captureException).errorBodies =
      [some (startBody config source).content] := by
    rw [← hstart.bodyText_eq]
    rfl
  have hbody := hcollected.bodyText_eq
  simp only [apmMiddleware, started] at hbody ⊢
  rw [hbody]
  simp only
  split
  · exact ⟨herrors, (collect_carries_final_again hcollected).bodyText_eq⟩
  · exact ⟨herrors, hbody⟩

/-- The listener's error and transaction both carry the final body. -/
theorem aspNetCoreDiagnosticListener_bodies :
    (aspNetCoreDiagnosticListener config source request).errorBodies =
        [some (finalBody config source).content] ∧
      bodyText (aspNetCoreDiagnosticListener config source request).context =
        some (finalBody config source).content := by
  have hfilled : (fillSampledTransactionContextRequest config source request).Carries
      (startBody config source) := fill_carries
  have hfinal := (collect_carries_final hfilled).bodyText_eq
  refine ⟨?_, hfinal⟩
  rw [← hfinal]
  rfl

/-! ### Agreement -/

/-- The errors of both ways carry one body, and it is the body of the transactions. -/
def PathsAgree (statusCode : Nat) : Prop :=
  let m := apmMiddleware config source request statusCode
  let l := aspNetCoreDiagnosticListener config source request
  m.errorBodies = l.errorBodies ∧ m.errorBodies = [bodyText m.context] ∧
    l.errorBodies = [bodyText l.context]

/-- Bodies are captured for errors only, the content type is one of those captured, and the body
    that is read does not look like the constant. -/
def capturesForErrorsOnly : Bool :=
  config.captureBody = "errors" &&
    isCaptureRequestBodyEnabledForContentType config source.contentType &&
    (extractRequestBody config.sanitizeFieldNames source.content).any (· ≠ redacted)

theorem startBody_eq_finalBody_iff :
    (startBody config source).content = (finalBody config source).content ↔
      capturesForErrorsOnly config source = false := by
  have herrors : isCaptureRequestBodyEnabled config true =
      (config.captureBody = "all" || config.captureBody = "errors" : Bool) := rfl
  have hstart : isCaptureRequestBodyEnabled config false =
      (config.captureBody = "all" || config.captureBody = "transactions" : Bool) := rfl
  unfold startBody finalBody capturedBody capturesForErrorsOnly
  rw [herrors, hstart]
  cases isCaptureRequestBodyEnabledForContentType config source.contentType with
  | false => simp
  | true =>
    cases extractRequestBody config.sanitizeFieldNames source.content with
    | none => simp
    | some text =>
      by_cases hmode : config.captureBody = "errors"
      · simp [hmode, Body.content]
        exact ⟨Eq.symm, Eq.symm⟩
      · simp only [hmode]
        -- Without that mode errors get nothing that the transaction has not got.
        cases (config.captureBody = "all" : Bool) <;>
          cases (config.captureBody = "transactions" : Bool) <;> simp [Body.content]

/-- The two ways agree on every request but those whose body is captured for errors only. -/
theorem pathsAgree_iff (statusCode : Nat) :
    PathsAgree config source request statusCode ↔
      capturesForErrorsOnly config source = false := by
  obtain ⟨hmErrors, hmBody⟩ := apmMiddleware_bodies config source request statusCode
  obtain ⟨hlErrors, hlBody⟩ := aspNetCoreDiagnosticListener_bodies config source request
  rw [← startBody_eq_finalBody_iff]
  simp only [PathsAgree, hmErrors, hmBody, hlErrors, hlBody, List.cons.injEq, and_true,
    Option.some.injEq, and_self]

omit [InvariantCulture] [ContentTypes] in
/-- A plain text, captured for errors only: the middleware's error does not have it. -/
theorem pathsAgree_counterexample :
    ¬ ∀ (_ : InvariantCulture) (_ : ContentTypes) (config : ConfigSnapshot) (source : BodySource)
      (request : Request) (statusCode : Nat),
      source.content ≠ .unreadable → PathsAgree config source request statusCode := by
  intro h
  let contentTypes : ContentTypes :=
    { mediaType := some, isMatch := fun _ text => some (text = "text/plain") }
  let config := { ConfigSnapshot.defaults with
    captureBody := "errors", captureBodyContentTypes := ["text/plain"] }
  let source : BodySource := ⟨some "text/plain", .other "order=17"⟩
  let request : Request := ⟨none, none, none, some "POST", none, none⟩
  obtain ⟨-, hmiddleware, -⟩ :=
    h .ascii contentTypes config source request 500 (fun hunreadable => by cases hunreadable)
  revert hmiddleware
  decide +kernel

end HandledRequest

end AspNetCore

end ApmAgent
