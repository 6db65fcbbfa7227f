import ApmAgent.Api.Context
import ApmAgent.Config.ConfigSnapshot

/-! # Capturing the body of a request

  `CollectRequestBody` fills `Request.Body` of a sampled transaction. Whether
  the body is read depends on the configuration and on the content type; the
  values of form fields with a sensitive name are replaced while the form is
  rendered.
-/

namespace ApmAgent

namespace AspNetCore

open Api

/-- `Consts.RequestBodyMaxLength`. -/
def requestBodyMaxLength : Nat := 2048

/-- What the check of the content type takes from the runtime. -/
class ContentTypes where
  /-- `new ContentType(contentType).MediaType`, `none` when the text is not a content type. -/
  mediaType : String → Option String
  /-- `new Regex(pattern, RegexOptions.IgnoreCase).IsMatch(text)`, `none` when the pattern is not
      a regular expression. -/
  isMatch : (pattern text : String) → Option Bool

/-- What reading the body of a request gives. -/
inductive BodyContent where
  /-- The fields of a form; the values of one field are joined by commas. -/
  | form (fields : List (String × String))
  /-- The text of any other body. -/
  | other (text : String)
  /-- Reading throws. -/
  | unreadable

/-- What `CollectRequestBody` reads of an HTTP request. -/
structure BodySource where
  contentType : Option String
  content : BodyContent

/-! ### `ExtractRequestBody` -/

section
variable [InvariantCulture] (sanitizeFieldNames : List WildcardMatcher)

/-- A form field as it is rendered. -/
def formField (field : String × String) : String :=
  field.1 ++ "=" ++ if isAnyMatch sanitizeFieldNames field.1 then redacted else field.2

/-- The loop over the form. `count` is the number of fields, `itemProcessed` of them are in
    `sb`. -/
def appendFields (count : Nat) : List (String × String) → Nat → String → String
  | [], _, sb => sb
  | field :: fields, itemProcessed, sb =>
    let sb := sb ++ formField sanitizeFieldNames field
    appendFields count fields (itemProcessed + 1)
      (if itemProcessed + 1 ≠ count then sb ++ "&" else sb)

/-- `HttpRequestExtensions.ExtractRequestBody`. -/
def extractRequestBodyUnits : BodyContent → Option (List Nat)
  | .form fields =>
    if 0 < fields.length then
      some (unitsOf (appendFields sanitizeFieldNames fields.length fields 0 ""))
    else none
  | .other text =>
    let body := unitsOf text
    some (if requestBodyMaxLength < body.length then body.take requestBodyMaxLength else body)
  | .unreadable => none

/-- The body as it is sent. -/
def extractRequestBody (content : BodyContent) : Option String :=
  (extractRequestBodyUnits sanitizeFieldNames content).map stringOf

/-- The rendered form is a function of the rendered fields. -/
theorem appendFields_congr {fields fields' : List (String × String)}
    (h : fields.map (formField sanitizeFieldNames) =
      fields'.map (formField sanitizeFieldNames)) (count itemProcessed : Nat) (sb : String) :
    appendFields sanitizeFieldNames count fields itemProcessed sb =
      appendFields sanitizeFieldNames count fields' itemProcessed sb := by
  -- The separators depend on the number of fields alone.
  induction fields generalizing fields' itemProcessed sb with
  | nil =>
    cases fields' with
    | nil => rfl
    | cons field' fields' => simp at h
  | cons field fields ih =>
    cases fields' with
    | nil => simp at h
    | cons field' fields' =>
      obtain ⟨hfield, hfields⟩ := List.cons.inj h
      simp only [appendFields, hfield]
      exact ih hfields _ _

end

/-! ### `CollectRequestBody` -/

section
variable [InvariantCulture] [ContentTypes] (config : ConfigSnapshot)

/-- `StringExtensions.IsLike`; it may throw. -/
def isLike (pattern text : String) : Option Bool :=
  let pattern := pattern.replace "." "\\."
  let pattern := pattern.replace "?" "."
  let pattern := pattern.replace "*" ".*?"
  -- This escapes the backslashes of the first replacement as well.
  let pattern := pattern.replace "\\" "\\\\"
  let pattern := pattern.replace " " "\\s"
  ContentTypes.isMatch pattern text

/-- `ListExtensions.ContainsLike`. -/
def containsLike (list : List String) (matchedString : String) : Option Bool :=
  match list with
  | [] => some false
  | str :: list => do
    if ← isLike str matchedString then pure true else containsLike list matchedString

/-- `TransactionExtensions.IsCaptureRequestBodyEnabled`. -/
def isCaptureRequestBodyEnabled (isForError : Bool) : Bool :=
  config.captureBody = "all" ||
    if isForError then config.captureBody = "errors" else config.captureBody = "transactions"

/-- `TransactionExtensions.IsCaptureRequestBodyEnabledForContentType`. -/
def isCaptureRequestBodyEnabledForContentType (contentType : Option String) : Bool :=
  if isNullOrEmpty contentType then false
  else
    -- One `try` block spans the parsing and the matching; an exception means no.
    ((contentType.bind ContentTypes.mediaType).bind
      (containsLike config.captureBodyContentTypes)).getD false

/-- `TransactionExtensions.CollectRequestBody` on the request of a sampled transaction. -/
def collectRequestBody (isForError : Bool) (source : BodySource) (request : Request) :
    Request :=
  match request.body with
  -- Already captured.
  | some (.text _) => request
  | _ =>
    -- A body that is not read is replaced by the constant, whatever the reason.
    let body :=
      if isCaptureRequestBodyEnabled config isForError &&
          isCaptureRequestBodyEnabledForContentType config source.contentType then
        extractRequestBody config.sanitizeFieldNames source.content
      else none
    { request with body := some (body.elim .redacted .text) }

/-- `CollectRequestBody` on a transaction's context; without a request it throws before it has
    changed anything. -/
def collectBody (isSampled isForError : Bool) (source : BodySource) (context : Context) :
    Context :=
  if isSampled then
    { context with request := context.request.map (collectRequestBody config isForError source) }
  else context

end

end AspNetCore

end ApmAgent
