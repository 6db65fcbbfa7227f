import ApmAgent.AspNetCore.RequestBody

/-! # The limit of a captured request body

  What a request reader keeps of a text body is cut to `requestBodyMaxLength`
  UTF-16 units. The reader of a form puts its fields together without looking
  at the limit.

  `capturesWithinLimit_iff` says which bodies stay within the limit: all that
  are not forms, and the forms whose fields fit.
-/

namespace ApmAgent

namespace AspNetCore

open Api

variable [InvariantCulture] (sanitizeFieldNames : List WildcardMatcher)

/-! ### The form as it is rendered -/

/-- The units a field takes: its name, the `=` and the value that is shown. -/
def fieldLength (field : String × String) : Nat :=
  stringLength field.1 + 1 +
    if isAnyMatch sanitizeFieldNames field.1 then stringLength redacted else stringLength field.2

/-- The fields in order, and `&` between them. -/
def renderedForm (fields : List (String × String)) : String :=
  String.intercalate "&" (fields.map (formField sanitizeFieldNames))

variable {sanitizeFieldNames}

theorem length_formField (field : String × String) :
    stringLength (formField sanitizeFieldNames field) = fieldLength sanitizeFieldNames field := by
  have hequals : stringLength "=" = 1 := by decide
  unfold formField fieldLength
  split <;> simp only [stringLength_append, hequals]

theorem renderedForm_cons_cons (field next : String × String) (fields : List (String × String)) :
    renderedForm sanitizeFieldNames (field :: next :: fields) =
      formField sanitizeFieldNames field ++ "&" ++
        renderedForm sanitizeFieldNames (next :: fields) := by
  simp [renderedForm, String.intercalate_cons_cons]

/-- The loop over the form: the last field is the one after which the count is reached. -/
theorem appendFields_eq_append {count itemProcessed : Nat} {fields : List (String × String)}
    (h : itemProcessed + fields.length = count) (sb : String) :
    appendFields sanitizeFieldNames count fields itemProcessed sb =
      sb ++ renderedForm sanitizeFieldNames fields := by
  induction fields generalizing itemProcessed sb with
  | nil => simp [appendFields, renderedForm]
  | cons field fields ih =>
    rw [appendFields, ih (by rw [← h, List.length_cons]; omega)]
    cases fields with
    | nil =>
      have hlast : itemProcessed + 1 = count := h
      rw [if_neg (not_not.mpr hlast)]
      simp [renderedForm]
    | cons next fields =>
      have hmore : itemProcessed + 1 ≠ count := by
        simp only [List.length_cons] at h
        omega
      rw [if_pos hmore, renderedForm_cons_cons]
      simp only [String.append_assoc]

theorem length_renderedForm (fields : List (String × String)) :
    stringLength (renderedForm sanitizeFieldNames fields) =
      (fields.map (fieldLength sanitizeFieldNames)).sum + (fields.length - 1) := by
  induction fields with
  | nil => rfl
  | cons field fields ih =>
    cases fields with
    | nil => simp [renderedForm, length_formField]
    | cons next fields =>
      rw [renderedForm_cons_cons, stringLength_append, stringLength_append, ih, length_formField]
      simp only [List.map_cons, List.sum_cons, List.length_cons]
      have hsep : stringLength "&" = 1 := by decide
      omega

/-! ### The law -/

variable (sanitizeFieldNames) in
/-- What is captured shows the body: a prefix of a text, or the fields of a form in order with
    the values of the sensitive ones replaced. -/
def Shows (body : List Nat) : BodyContent → Prop
  | .form fields => body = unitsOf (renderedForm sanitizeFieldNames fields)
  | .other text => body <+: unitsOf text
  | .unreadable => False

variable (sanitizeFieldNames) in
/-- What is captured is within the limit, and shows the body. -/
def CapturesWithinLimit (content : BodyContent) : Prop :=
  ∀ body, extractRequestBodyUnits sanitizeFieldNames content = some body →
    body.length ≤ requestBodyMaxLength ∧ Shows sanitizeFieldNames body content

variable (sanitizeFieldNames) in
/-- A form is within the limit with all its fields and the separators between them. -/
def FitsLimit : BodyContent → Prop
  | .form fields =>
    (fields.map (fieldLength sanitizeFieldNames)).sum + (fields.length - 1) ≤
      requestBodyMaxLength
  | .other _ => True
  | .unreadable => True

theorem extractRequestBodyUnits_form {fields : List (String × String)} (h : fields ≠ []) :
    extractRequestBodyUnits sanitizeFieldNames (.form fields) =
      some (unitsOf (renderedForm sanitizeFieldNames fields)) := by
  rw [extractRequestBodyUnits, if_pos (List.length_pos_of_ne_nil h),
    appendFields_eq_append (Nat.zero_add _), String.empty_append]

/-- A text is cut where it is too long. -/
theorem capturesWithinLimit_other (text : String) :
    CapturesWithinLimit sanitizeFieldNames (.other text) := by
  intro body hbody
  rw [extractRequestBodyUnits, Option.some_inj] at hbody
  split at hbody
  · subst hbody
    exact ⟨List.length_take_le _ _, List.take_prefix _ _⟩
  · rename_i hle
    subst hbody
    exact ⟨Nat.le_of_not_lt hle, List.prefix_rfl⟩

/-- A form is not cut. -/
theorem capturesWithinLimit_form_iff (fields : List (String × String)) :
    CapturesWithinLimit sanitizeFieldNames (.form fields) ↔
      FitsLimit sanitizeFieldNames (.form fields) := by
  by_cases hfields : fields = []
  · -- A form without fields is not captured at all.
    subst hfields
    refine iff_of_true (fun body hbody => ?_) (Nat.zero_le _)
    cases hbody
  · rw [CapturesWithinLimit, extractRequestBodyUnits_form hfields, FitsLimit, ← length_renderedForm]
    constructor
    · intro h
      exact (h _ rfl).1
    · rintro h body hbody
      cases hbody
      exact ⟨h, rfl⟩

theorem FitsLimit.captures {content : BodyContent} (h : FitsLimit sanitizeFieldNames content) :
    CapturesWithinLimit sanitizeFieldNames content := by
  cases content with
  | form fields => exact (capturesWithinLimit_form_iff fields).mpr h
  | other text => exact capturesWithinLimit_other text
  | unreadable => exact fun body hbody => nomatch hbody

/-- A captured body is within the limit, and shows what was sent, if and only if it is not a form
    or a form whose fields fit into the limit. -/
theorem capturesWithinLimit_iff (sanitizeFieldNames : List WildcardMatcher)
    (content : BodyContent) :
    CapturesWithinLimit sanitizeFieldNames content ↔ FitsLimit sanitizeFieldNames content := by
  constructor
  · intro h
    cases content with
    | form fields => exact (capturesWithinLimit_form_iff fields).mp h
    | other text => trivial
    | unreadable => trivial
  · exact FitsLimit.captures

omit [InvariantCulture] in
/-- A form with a single long field is captured whole. -/
theorem capturesWithinLimit_counterexample :
    ¬ ∀ (_ : InvariantCulture) (sanitizeFieldNames : List WildcardMatcher)
      (content : BodyContent), CapturesWithinLimit sanitizeFieldNames content := by
  intro h
  obtain ⟨value, hvalue⟩ : ∃ value : String, stringLength value = 2048 :=
    ⟨stringOf (List.replicate 2048 0x78), by rw [stringLength_stringOf, List.length_replicate]⟩
  have hfits : stringLength "comment" + 1 + stringLength value + 0 ≤ requestBodyMaxLength :=
    (@capturesWithinLimit_form_iff .ascii [] [("comment", value)]).mp
      (h .ascii [] (.form [("comment", value)]))
  rw [hvalue] at hfits
  exact absurd hfits (by decide)

/-! ### What a transaction gets -/

variable [ContentTypes] {config : ConfigSnapshot} {isForError : Bool} {source : BodySource}
  {request : Request}

/-- So the body that a transaction is sent with is within the limit, unless it was set before. -/
theorem length_collectRequestBody_le (h : FitsLimit config.sanitizeFieldNames source.content)
    (hnew : ∀ text, request.body ≠ some (.text text)) {text : String}
    (hbody : (collectRequestBody config isForError source request).body = some (.text text)) :
    stringLength text ≤ requestBodyMaxLength := by
  unfold collectRequestBody at hbody
  split at hbody
  · rename_i old hold
    exact absurd hold (hnew old)
  · simp only [Option.some_inj] at hbody
    split at hbody
    · rw [extractRequestBody] at hbody
      cases hextract : extractRequestBodyUnits config.sanitizeFieldNames source.content with
      | none =>
        rw [hextract] at hbody
        cases hbody
      | some body =>
        rw [hextract] at hbody
        cases hbody
        rw [stringLength_stringOf]
        exact (h.captures _ hextract).1
    · cases hbody

end AspNetCore

end ApmAgent
