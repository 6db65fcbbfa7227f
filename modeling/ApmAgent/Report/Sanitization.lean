import ApmAgent.AspNetCore.RequestBody
import ApmAgent.Report.PayloadItemSerializer

/-! # Sensitive values in serialised events

  Two captured events are compared that differ at most in sensitive values:
  the values of request headers, response headers and form fields whose name
  is on the `SanitizeFieldNames` list. The serialised request is the same.
  The serialised response is the same only if the response headers are:
  `Response.Headers` is not declared `[Sanitize]`.
-/

namespace ApmAgent

open Api AspNetCore

/-! ### Equality up to sensitive values -/

section
variable [InvariantCulture] (sanitizeFieldNames : List WildcardMatcher)

/-- Two values that are there, of a header with a sensitive name. -/
def SensitiveHeader (key : String) (value value' : Option String) : Prop :=
  isAnyMatch sanitizeFieldNames key ∧ value.isSome ∧ value'.isSome

/-- Any two values of a form field with a sensitive name. -/
def SensitiveField (key : String) (_ _ : String) : Prop := isAnyMatch sanitizeFieldNames key

def HeadersEqualUpTo : Option StringDictionary → Option StringDictionary → Prop :=
  Option.Rel fun headers headers' =>
    Entries.EqualUpTo (SensitiveHeader sanitizeFieldNames) headers.entries headers'.entries

structure RequestEqualUpTo (request request' : Request) : Prop where
  headers : HeadersEqualUpTo sanitizeFieldNames request.headers request'.headers
  others : { request with headers := none } = { request' with headers := none }

structure ResponseEqualUpTo (response response' : Response) : Prop where
  headers : HeadersEqualUpTo sanitizeFieldNames response.headers response'.headers
  others : { response with headers := none } = { response' with headers := none }

structure ContextEqualUpTo (context context' : Context) : Prop where
  request : Option.Rel (RequestEqualUpTo sanitizeFieldNames) context.request context'.request
  response : Option.Rel (ResponseEqualUpTo sanitizeFieldNames) context.response context'.response
  others : { context with request := none, response := none } =
    { context' with request := none, response := none }

/-- Equal but for the values of form fields with a sensitive name. -/
inductive BodyContentEqualUpTo : BodyContent → BodyContent → Prop where
  | form {fields fields'} (h : Entries.EqualUpTo (SensitiveField sanitizeFieldNames) fields fields') :
      BodyContentEqualUpTo (.form fields) (.form fields')
  | same (content : BodyContent) : BodyContentEqualUpTo content content

structure BodySourceEqualUpTo (source source' : BodySource) : Prop where
  contentType : source.contentType = source'.contentType
  content : BodyContentEqualUpTo sanitizeFieldNames source.content source'.content

end

/-! ### The request -/

section
variable [InvariantCulture] {sanitizeFieldNames : List WildcardMatcher}

/-- The converter tells nothing of a sensitive value but that it is there. -/
theorem headerDictionarySanitizerConverter_eq {headers headers' : StringDictionary}
    (h : Entries.EqualUpTo (SensitiveHeader sanitizeFieldNames) headers.entries
      headers'.entries) :
    headerDictionarySanitizerConverter sanitizeFieldNames headers =
      headerDictionarySanitizerConverter sanitizeFieldNames headers' := by
  refine congrArg Json.object (h.map_eq fun key value value' hsensitive => ?_)
  -- Both values are there and both are replaced.
  obtain ⟨hmatch, hvalue, hvalue'⟩ := hsensitive
  obtain ⟨v, rfl⟩ := Option.isSome_iff_exists.mp hvalue
  obtain ⟨v', rfl⟩ := Option.isSome_iff_exists.mp hvalue'
  simp [sanitizeHeader, hmatch]

/-- With the attribute a property of headers goes through the converter. -/
theorem sanitizedProperty_eq [JsonNet] {headers headers' : Option StringDictionary}
    (h : HeadersEqualUpTo sanitizeFieldNames headers headers') :
    dictionaryProperty sanitizeFieldNames [.sanitize] headers =
      dictionaryProperty sanitizeFieldNames [.sanitize] headers' := by
  rcases h with ⟨heq⟩ | _
  · simp [dictionaryProperty, createProperty, headerDictionarySanitizerConverter_eq heq]
  · rfl

theorem requestJson_eq [JsonNet] {request request' : Request}
    (h : RequestEqualUpTo sanitizeFieldNames request request') :
    requestJson sanitizeFieldNames request = requestJson sanitizeFieldNames request' := by
  obtain ⟨hheaders, hothers⟩ := h
  have hproperty := sanitizedProperty_eq hheaders
  obtain ⟨body, headers, httpVersion, method, socket, url⟩ := request
  obtain ⟨body', headers', httpVersion', method', socket', url'⟩ := request'
  simp only [Request.mk.injEq, true_and] at hothers
  obtain ⟨rfl, rfl, rfl, rfl, rfl⟩ := hothers
  simp only [requestJson]
  rw [hproperty]

/-- Rendering a form tells nothing of a sensitive value. -/
theorem extractRequestBody_eq {content content' : BodyContent}
    (h : BodyContentEqualUpTo sanitizeFieldNames content content') :
    extractRequestBody sanitizeFieldNames content =
      extractRequestBody sanitizeFieldNames content' := by
  cases h with
  | same => rfl
  | @form fields fields' h =>
    have hfields : fields.map (formField sanitizeFieldNames) =
        fields'.map (formField sanitizeFieldNames) :=
      h.map_eq fun key value value' hsensitive => by
        have hmatch : isAnyMatch sanitizeFieldNames key = true := hsensitive
        simp [formField, hmatch]
    have hlength : fields.length = fields'.length := h.length_eq
    simp only [extractRequestBody, extractRequestBodyUnits, hlength,
      appendFields_congr sanitizeFieldNames hfields]

end

section
variable [InvariantCulture] [ContentTypes] {config : ConfigSnapshot}

theorem collectRequestBody_equalUpTo (isForError : Bool) {source source' : BodySource}
    {request request' : Request}
    (hsource : BodySourceEqualUpTo config.sanitizeFieldNames source source')
    (hrequest : RequestEqualUpTo config.sanitizeFieldNames request request') :
    RequestEqualUpTo config.sanitizeFieldNames
      (collectRequestBody config isForError source request)
      (collectRequestBody config isForError source' request') := by
  obtain ⟨hheaders, hothers⟩ := hrequest
  obtain ⟨body, headers, httpVersion, method, socket, url⟩ := request
  obtain ⟨body', headers', httpVersion', method', socket', url'⟩ := request'
  simp only [Request.mk.injEq, true_and] at hothers
  obtain ⟨rfl, rfl, rfl, rfl, rfl⟩ := hothers
  simp only [collectRequestBody, hsource.contentType, extractRequestBody_eq hsource.content]
  -- Captured already or not, both requests get the same body.
  split
  · exact ⟨hheaders, rfl⟩
  · exact ⟨hheaders, rfl⟩

theorem collectBody_equalUpTo (isSampled isForError : Bool) {source source' : BodySource}
    {context context' : Context}
    (hsource : BodySourceEqualUpTo config.sanitizeFieldNames source source')
    (hcontext : ContextEqualUpTo config.sanitizeFieldNames context context') :
    ContextEqualUpTo config.sanitizeFieldNames
      (collectBody config isSampled isForError source context)
      (collectBody config isSampled isForError source' context') := by
  unfold collectBody
  split
  · obtain ⟨hrequest, hresponse, hothers⟩ := hcontext
    have hcollected :=
      optionRel_map (fun _ _ h => collectRequestBody_equalUpTo isForError hsource h) hrequest
    exact ⟨hcollected, hresponse, hothers⟩
  · exact hcontext

end

/-! ### The response -/

theorem writeValue_injective : Function.Injective writeValue := by
  rintro (_ | s) (_ | s') h <;> simp_all [writeValue]

section
variable [InvariantCulture] [JsonNet] {sanitizeFieldNames : List WildcardMatcher}

/-- Without the attribute every value of a header is written. -/
theorem dictionaryProperty_eq_iff {headers headers' : Option StringDictionary}
    (h : HeadersEqualUpTo sanitizeFieldNames headers headers') :
    dictionaryProperty sanitizeFieldNames [] headers =
      dictionaryProperty sanitizeFieldNames [] headers' ↔ headers = headers' := by
  constructor
  · intro heq
    rcases h with @⟨d, d', hentries⟩ | _
    · have hmap := Json.object.inj (Option.some.inj heq)
      refine congrArg some (Dict.ext (hentries.eq_of_map_eq (fun k v v' hv => ?_) hmap))
      exact writeValue_injective (Prod.mk.inj hv).2
    · rfl
  · rintro rfl
    rfl

theorem responseJson_eq_iff {response response' : Response}
    (h : ResponseEqualUpTo sanitizeFieldNames response response') :
    responseJson sanitizeFieldNames response = responseJson sanitizeFieldNames response' ↔
      response.headers = response'.headers := by
  obtain ⟨hheaders, hothers⟩ := h
  obtain ⟨finished, headers, statusCode⟩ := response
  obtain ⟨finished', headers', statusCode'⟩ := response'
  simp only [Response.mk.injEq, true_and] at hothers
  obtain ⟨rfl, rfl⟩ := hothers
  rw [← dictionaryProperty_eq_iff hheaders]
  exact Json.ofPresent_eq_iff [("finished", _)] _

end

/-! ### Contexts and events -/

/-- The headers of the response, if there are any. -/
def Api.Context.responseHeaders (context : Context) : Option StringDictionary :=
  context.response.bind Response.headers

namespace ContextItem

/-- Is the transaction sampled that the event is, or belongs to? -/
def isSampled : ContextItem → Bool
  | transaction item => item.isSampled
  | error item => item.transaction.isSampled

def responseHeaders : ContextItem → Option StringDictionary
  | transaction item => item.context.responseHeaders
  | error item => item.context.bind Context.responseHeaders

/-- The event with another context. -/
def mapContext (f : Context → Context) : ContextItem → ContextItem
  | transaction item => transaction { item with context := f item.context }
  | error item => error { item with context := item.context.map f }

/-- Two transactions or two errors that differ at most in sensitive values of their context. -/
inductive EqualUpTo [InvariantCulture] (sanitizeFieldNames : List WildcardMatcher) :
    ContextItem → ContextItem → Prop where
  | transaction {item item' : TransactionItem}
      (context : ContextEqualUpTo sanitizeFieldNames item.context item'.context)
      (others : { item with context := .empty } = { item' with context := .empty }) :
      EqualUpTo sanitizeFieldNames (.transaction item) (.transaction item')
  | error {item item' : ErrorItem}
      (context : Option.Rel (ContextEqualUpTo sanitizeFieldNames) item.context item'.context)
      (others : { item with context := none } = { item' with context := none }) :
      EqualUpTo sanitizeFieldNames (.error item) (.error item')

theorem isSampled_mapContext (f : Context → Context) (item : ContextItem) :
    (item.mapContext f).isSampled = item.isSampled := by
  cases item <;> rfl

theorem responseHeaders_mapContext {f : Context → Context}
    (hf : ∀ context, (f context).responseHeaders = context.responseHeaders)
    (item : ContextItem) : (item.mapContext f).responseHeaders = item.responseHeaders := by
  cases item with
  | transaction item => exact hf item.context
  | error item =>
    obtain ⟨_ | context, _⟩ := item
    · rfl
    · exact hf context

section
variable [InvariantCulture] {sanitizeFieldNames : List WildcardMatcher} {item item' : ContextItem}

theorem EqualUpTo.isSampled_eq (h : item.EqualUpTo sanitizeFieldNames item') :
    item.isSampled = item'.isSampled := by
  cases h with
  | transaction _ hothers =>
    have hsampled := congrArg TransactionItem.isSampled hothers
    exact hsampled
  | error _ hothers =>
    have hsampled := congrArg (fun item => item.transaction.isSampled) hothers
    exact hsampled

/-- Contexts that are changed alike stay equal up to sensitive values. -/
theorem EqualUpTo.mapContext (h : item.EqualUpTo sanitizeFieldNames item')
    {f f' : Context → Context}
    (hf : ∀ context context', ContextEqualUpTo sanitizeFieldNames context context' →
      ContextEqualUpTo sanitizeFieldNames (f context) (f' context')) :
    (item.mapContext f).EqualUpTo sanitizeFieldNames (item'.mapContext f') := by
  cases h with
  | transaction hcontext hothers => exact .transaction (hf _ _ hcontext) hothers
  | error hcontext hothers => exact .error (optionRel_map hf hcontext) hothers

end

end ContextItem

section
variable [InvariantCulture] [JsonNet] {sanitizeFieldNames : List WildcardMatcher}

theorem responses_eq_iff {response response' : Option Response}
    (h : Option.Rel (ResponseEqualUpTo sanitizeFieldNames) response response') :
    response.map (responseJson sanitizeFieldNames) =
        response'.map (responseJson sanitizeFieldNames) ↔
      response.bind Response.headers = response'.bind Response.headers := by
  rcases h with ⟨heq⟩ | _
  · simpa using responseJson_eq_iff heq
  · simp

theorem contextJson_eq_iff {context context' : Context}
    (h : ContextEqualUpTo sanitizeFieldNames context context') :
    contextJson sanitizeFieldNames context = contextJson sanitizeFieldNames context' ↔
      context.responseHeaders = context'.responseHeaders := by
  obtain ⟨hrequest, hresponse, hothers⟩ := h
  have hrequestJson : context.request.map (requestJson sanitizeFieldNames) =
      context'.request.map (requestJson sanitizeFieldNames) :=
    optionRel_map_eq (fun _ _ h => requestJson_eq h) hrequest
  obtain ⟨custom, labels, request, response, service, user⟩ := context
  obtain ⟨custom', labels', request', response', service', user'⟩ := context'
  simp only [Context.mk.injEq, true_and] at hothers
  obtain ⟨rfl, rfl, rfl, rfl⟩ := hothers
  -- Of the members only the response can differ.
  rw [Context.responseHeaders, Context.responseHeaders, ← responses_eq_iff hresponse]
  simp only [contextJson, hrequestJson]
  exact Json.ofPresent_eq_iff [("custom", _), ("tags", _), ("request", _)] _

theorem transactionJson_eq_iff {item item' : TransactionItem}
    (hcontext : ContextEqualUpTo sanitizeFieldNames item.context item'.context)
    (hothers : { item with context := .empty } = { item' with context := .empty }) :
    transactionJson sanitizeFieldNames item = transactionJson sanitizeFieldNames item' ↔
      item.isSampled = false ∨ item.context.responseHeaders = item'.context.responseHeaders := by
  rw [← contextJson_eq_iff hcontext]
  obtain ⟨context, duration, id, isSampled, name, outcome, parentId, result, sampleRate,
    spanCount, timestamp, traceId, type⟩ := item
  obtain ⟨context', duration', id', isSampled', name', outcome', parentId', result',
    sampleRate', spanCount', timestamp', traceId', type'⟩ := item'
  simp only [TransactionItem.mk.injEq, true_and] at hothers
  obtain ⟨rfl, rfl, rfl, rfl, rfl, rfl, rfl, rfl, rfl, rfl, rfl, rfl⟩ := hothers
  -- The context is the first member, and is left out of an unsampled transaction.
  refine (Json.ofPresent_eq_iff [] _).trans ?_
  cases isSampled <;> simp

theorem errorJson_eq_iff {item item' : ErrorItem}
    (hcontext : Option.Rel (ContextEqualUpTo sanitizeFieldNames) item.context item'.context)
    (hothers : { item with context := none } = { item' with context := none }) :
    errorJson sanitizeFieldNames item = errorJson sanitizeFieldNames item' ↔
      item.transaction.isSampled = false ∨
        item.context.bind Context.responseHeaders =
          item'.context.bind Context.responseHeaders := by
  obtain ⟨context, culprit, exception, id, parentId, timestamp, traceId, transaction,
    transactionId⟩ := item
  obtain ⟨context', culprit', exception', id', parentId', timestamp', traceId', transaction',
    transactionId'⟩ := item'
  simp only [ErrorItem.mk.injEq, true_and] at hothers
  obtain ⟨rfl, rfl, rfl, rfl, rfl, rfl, rfl, rfl⟩ := hothers
  refine (Json.ofPresent_eq_iff [] _).trans ?_
  cases transaction.isSampled with
  | false => simp
  | true =>
    rcases hcontext with ⟨heq⟩ | _
    · simpa using contextJson_eq_iff heq
    · simp

theorem ContextItem.json_eq_iff {item item' : ContextItem}
    (h : item.EqualUpTo sanitizeFieldNames item') :
    item.json sanitizeFieldNames = item'.json sanitizeFieldNames ↔
      item.isSampled = false ∨ item.responseHeaders = item'.responseHeaders := by
  cases h with
  | transaction hcontext hothers => exact transactionJson_eq_iff hcontext hothers
  | error hcontext hothers => exact errorJson_eq_iff hcontext hothers

end

/-! ### From the capture to the text -/

/-- An event and what its request body is collected from. -/
structure Capture where
  /-- The event before the body is collected. -/
  item : ContextItem
  source : BodySource
  /-- The calls of `CollectRequestBody`, each with its `isForError`. -/
  calls : List Bool

namespace Capture

section
variable [InvariantCulture]

/-- Two captures that differ at most in sensitive values. -/
structure EqualUpTo (sanitizeFieldNames : List WildcardMatcher) (c c' : Capture) : Prop where
  item : c.item.EqualUpTo sanitizeFieldNames c'.item
  source : BodySourceEqualUpTo sanitizeFieldNames c.source c'.source
  calls : c.calls = c'.calls

variable [ContentTypes] (config : ConfigSnapshot)

/-- The context after all calls of `CollectRequestBody`. -/
def collectAll (c : Capture) (context : Context) : Context :=
  c.calls.foldl
    (fun context isForError =>
      collectBody config c.item.isSampled isForError c.source context)
    context

/-- The event that is sent. -/
def collected (c : Capture) : ContextItem := c.item.mapContext (c.collectAll config)

/-- The text that is sent. -/
def serialized [JsonNet] (c : Capture) : String :=
  serializeObject config.sanitizeFieldNames (c.collected config)

end

section
variable [InvariantCulture] [ContentTypes] {config : ConfigSnapshot}

theorem collectBody_responseHeaders (isSampled isForError : Bool) (source : BodySource)
    (context : Context) :
    (collectBody config isSampled isForError source context).responseHeaders =
      context.responseHeaders := by
  unfold collectBody
  split <;> rfl

/-- Collecting the body keeps captures equal up to sensitive values. -/
theorem collectAll_equalUpTo {c c' : Capture} (h : c.EqualUpTo config.sanitizeFieldNames c')
    {context context' : Context}
    (hcontext : ContextEqualUpTo config.sanitizeFieldNames context context') :
    ContextEqualUpTo config.sanitizeFieldNames (c.collectAll config context)
      (c'.collectAll config context') := by
  unfold collectAll
  rw [h.item.isSampled_eq, h.calls]
  -- On the calls of `CollectRequestBody`, each on what the previous one left.
  induction c'.calls generalizing context context' with
  | nil => exact hcontext
  | cons isForError calls ih =>
    exact ih (collectBody_equalUpTo c'.item.isSampled isForError h.source hcontext)

theorem collected_equalUpTo {c c' : Capture} (h : c.EqualUpTo config.sanitizeFieldNames c') :
    (c.collected config).EqualUpTo config.sanitizeFieldNames (c'.collected config) :=
  h.item.mapContext fun _ _ => collectAll_equalUpTo h

/-- Collecting the body touches the request alone. -/
theorem collectAll_responseHeaders (c : Capture) (context : Context) :
    (c.collectAll config context).responseHeaders = context.responseHeaders := by
  unfold collectAll
  induction c.calls generalizing context with
  | nil => rfl
  | cons isForError calls ih => exact (ih _).trans (collectBody_responseHeaders ..)

variable [JsonNet]

theorem collected_json_eq_iff {c c' : Capture} (h : c.EqualUpTo config.sanitizeFieldNames c') :
    (c.collected config).json config.sanitizeFieldNames =
        (c'.collected config).json config.sanitizeFieldNames ↔
      c.item.isSampled = false ∨ c.item.responseHeaders = c'.item.responseHeaders := by
  refine (ContextItem.json_eq_iff (collected_equalUpTo h)).trans ?_
  simp only [collected, ContextItem.isSampled_mapContext,
    ContextItem.responseHeaders_mapContext (collectAll_responseHeaders _)]

/-- Two events that differ at most in sensitive values are sent as the same text exactly when
    the transaction is not sampled, or they do not differ in the headers of the response. -/
theorem serialized_eq_iff_responseHeaders {c c' : Capture}
    (h : c.EqualUpTo config.sanitizeFieldNames c') :
    c.serialized config = c'.serialized config ↔
      c.item.isSampled = false ∨ c.item.responseHeaders = c'.item.responseHeaders :=
  (serializeObject_eq_iff config.sanitizeFieldNames).trans (collected_json_eq_iff h)

end

/-! ### A sign-in -/

/-- The sampled transaction of a sign-in form that answers with a session cookie. -/
def signIn (authorization password cookie : String) : Capture where
  item := .transaction
    { context :=
        { Context.empty with
          request := some
            { body := none
              headers := some (.singleton "Authorization" (some authorization))
              httpVersion := some "1.1"
              method := some "POST"
              socket := none
              url := none }
          response := some
            { finished := true
              headers := some (.singleton "set-cookie" (some cookie))
              statusCode := 200 } }
      duration := some (.ofNat 12)
      id := some "b7ad6b7169203331"
      isSampled := true
      name := some "POST /sign-in"
      outcome := .success
      parentId := none
      result := some "HTTP 2xx"
      sampleRate := .ofNat 1
      spanCount := .new
      timestamp := 0
      traceId := some "0af7651916cd43dd8448eb211c80319c"
      type := some "request" }
  source :=
    { contentType := some "application/x-www-form-urlencoded"
      content := .form [("user", "ada"), ("password", password)] }
  calls := [false]

/-- The default configuration, with bodies of transactions captured. -/
def capturingBodies : ConfigSnapshot :=
  { ConfigSnapshot.defaults with captureBody := "transactions" }

section
attribute [local instance] InvariantCulture.ascii

/-- The three values are all sensitive. -/
theorem signIn_equalUpTo (authorization authorization' password password' cookie cookie' : String) :
    (signIn authorization password cookie).EqualUpTo capturingBodies.sanitizeFieldNames
      (signIn authorization' password' cookie') := by
  have hauthorization :
      isAnyMatch capturingBodies.sanitizeFieldNames (some "Authorization") = true := by decide
  have hcookie : isAnyMatch capturingBodies.sanitizeFieldNames (some "set-cookie") = true := by
    decide
  have hpassword : isAnyMatch capturingBodies.sanitizeFieldNames (some "password") = true := by
    decide
  -- The headers of the request, those of the response, and the form.
  refine ⟨.transaction ⟨.some ⟨.some ?_, rfl⟩, .some ⟨.some ?_, rfl⟩, rfl⟩ rfl,
    ⟨rfl, .form ?_⟩, rfl⟩
  · exact .cons ⟨rfl, .inr ⟨hauthorization, rfl, rfl⟩⟩ .nil
  · exact .cons ⟨rfl, .inr ⟨hcookie, rfl, rfl⟩⟩ .nil
  · exact .cons ⟨rfl, .inl rfl⟩ (.cons ⟨rfl, .inr hpassword⟩ .nil)

/-- The patterns that end in a wildcard, on media types that continue no other pattern. -/
@[reducible] def plainContentTypes : ContentTypes where
  mediaType := some
  isMatch pattern text := some (pattern = text ++ ".*?")

attribute [local instance] JsonNet.plain plainContentTypes

/-- The credentials sent to the application stay there. -/
theorem serialized_signIn_credentials :
    (signIn "Basic YTph" "first" "session=1").serialized capturingBodies =
      (signIn "Basic YTpi" "second" "session=1").serialized capturingBodies :=
  (serialized_eq_iff_responseHeaders (signIn_equalUpTo ..)).mpr (.inr rfl)

/-- The session cookie it answers with is sent to the server. -/
theorem serialized_signIn_cookie :
    ¬ ∀ (config : ConfigSnapshot) (c c' : Capture),
      c.EqualUpTo config.sanitizeFieldNames c' → c.serialized config = c'.serialized config := by
  intro h
  have htext := h capturingBodies (signIn "Basic YTph" "first" "session=1")
    (signIn "Basic YTph" "first" "session=2") (signIn_equalUpTo ..)
  have hjson := (serializeObject_eq_iff _).mp htext
  have hheaders := (collected_json_eq_iff (signIn_equalUpTo ..)).mp hjson
  revert hheaders
  decide

end

end Capture

end ApmAgent
