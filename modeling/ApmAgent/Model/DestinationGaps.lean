import ApmAgent.Model.SpanDestination

/-! # Deduction fills gaps

  A property of the destination that the user has assigned, to null or to a
  value, is not to be deduced. `CopyMissingPropertiesFrom` looks whether the
  property is set; `FillDestinationService` looks whether the service is null.

  * `onlyFillsGaps_iff`: after `End` the destination has what the user assigned,
    and what can be deduced in the other places, exactly if the service was not
    assigned null on a span whose service can be deduced.
-/

namespace ApmAgent

/-! ### The URL of an HTTP context -/

inductive UriKind where
  | absolute
  | relativeOrAbsolute
  deriving DecidableEq, Repr

/-- The constructor of `Uri`, and what the agent makes of user names and passwords. -/
structure UriSyntax where
  /-- `new Uri(value, kind)`, or `none` where that throws. -/
  parse : UriKind → String → Option Uri
  /-- The text of a URL without its user name and password, if it has some. -/
  sanitize : Uri → Option String
  /-- An absolute URL may also be given where a relative one is allowed. -/
  parse_relativeOrAbsolute : ∀ value, (parse .absolute value).isSome →
    (parse .relativeOrAbsolute value).isSome
  parse_empty : parse .absolute "" = none

namespace Http

variable (syn : UriSyntax)

/-- The setter of `Url`. -/
def setUrlText (value : Option String) : Http :=
  let originalUrl := value.bind (syn.parse .relativeOrAbsolute)
  { originalUrl
    url := ((originalUrl.bind syn.sanitize).or value).bind (syn.parse .absolute) }

/-- `SetUrl`; `text` is that of the URL. An exception makes the text empty. -/
def setUrl (uri : Option Uri) (text : Uri → String) : Http where
  originalUrl := uri
  url := syn.parse .absolute ((uri.map text).getD "")

/-- `new Http()`. -/
def new : Http := ⟨none, none⟩

/-- Without an original URL there is no text that is one. -/
def Consistent (http : Http) : Prop := http.originalUrl = none → http.url = none

theorem consistent_setUrlText (value : Option String) : (setUrlText syn value).Consistent := by
  intro hnone
  cases value with
  | none => rfl
  | some value =>
    have hparse : syn.parse .relativeOrAbsolute value = none := hnone
    show ((Option.bind (syn.parse .relativeOrAbsolute value) syn.sanitize).or (some value)).bind _ =
      none
    rw [hparse]
    show syn.parse .absolute value = none
    cases habsolute : syn.parse .absolute value with
    | none => rfl
    | some url =>
      have hsome := syn.parse_relativeOrAbsolute value (by rw [habsolute]; rfl)
      rw [hparse] at hsome
      exact Bool.noConfusion hsome

theorem consistent_setUrl (uri : Option Uri) (text : Uri → String) :
    (setUrl syn uri text).Consistent := by
  intro hnone
  have huri : uri = none := hnone
  rw [huri]
  exact syn.parse_empty

/-- The URL of the call is an absolute one with a host. -/
def HasExternalUrl (http : Http) : Prop :=
  ∃ url, http.originalUrl = some url ∧ url.isAbsoluteUri = true ∧ url.hostNameType ≠ .basic ∧
    url.hostNameType ≠ .unknown

end Http

/-! ### What the destination is to be -/

/-- A span that ends. -/
structure EndingSpan extends DeductionInput where
  shouldBeSentToApmServer : Bool

namespace EndingSpan

/-- What the first `End` does to the destination in the context of the span. -/
def endDestination (span : EndingSpan) (destination : Option Destination) : Option Destination :=
  if span.shouldBeSentToApmServer then span.deduceDestination destination else destination

/-- What can be deduced: address and port from the URL of an HTTP call, the service from the same
    URL or else from type and subtype. Nothing is deduced for a span that is not sent. -/
def deduced (span : EndingSpan) : Destination.Properties :=
  if span.shouldBeSentToApmServer then
    match span.http with
    | some http =>
      match http.originalUrl.bind UrlUtils.extractDestination with
      | some src =>
        { address := src.address.value
          port := src.port.value
          service := http.originalUrl.map (UrlUtils.extractService · span.type) }
      | none => ⟨none, none, none⟩
    | none =>
      { address := none
        port := none
        service := some { name := span.subtype, resource := span.subtype, type := span.type } }
  else ⟨none, none, none⟩

end EndingSpan

/-- What a property is to return that was `user`: what the user assigned, or what is deduced. -/
def Optional.filled {α : Type} (user : Optional α) (deduced : Option α) : Option α :=
  match user with
  | unset => deduced
  | set value => value

/-- After `End` the destination has what the user assigned and what is deduced for the rest. -/
def OnlyFillsGaps (span : EndingSpan) (user : Destination) : Prop :=
  (span.endDestination (some user)).map Destination.properties = some
    { address := user.address.filled span.deduced.address
      port := user.port.filled span.deduced.port
      service := user.service.filled span.deduced.service }

/-! ### Deduction, property by property -/

namespace Optional

variable {α : Type}

theorem filled_none (user : Optional α) : user.filled none = user.value := by
  cases user with
  | unset | set value => rfl

theorem value_orElse (user src : Optional α) :
    (user.orElse src).value = user.filled src.value := by
  cases user with
  | unset | set value => rfl

/-- A value in the place of what reads as null: not what was asked for if null was assigned. -/
theorem getD_eq_filled_iff (user : Optional α) (deduced : α) :
    some (user.value.getD deduced) = user.filled (some deduced) ↔ user ≠ .set none := by
  cases user with
  | unset => simp [filled]
  | set value =>
    cases value with
    | none => simp [filled]
    | some v => simp [filled]

end Optional

namespace UrlUtils

/-- A destination is found for an absolute URL with a host. -/
theorem extractDestination_eq_none_iff {url : Uri} :
    extractDestination url = none ↔
      url.isAbsoluteUri = false ∨ url.hostNameType = .basic ∨ url.hostNameType = .unknown := by
  unfold extractDestination
  split
  · next hcond => simpa [or_assoc] using hcond
  · next hcond => simpa [or_assoc] using hcond

theorem service_of_extractDestination {url : Uri} {src : Destination}
    (h : extractDestination url = some src) : src.service = .unset := by
  unfold extractDestination at h
  split at h
  · cases h
  · cases h
    rfl

end UrlUtils

namespace Http

variable {http : Http}

theorem HasExternalUrl.extractDestination (h : http.HasExternalUrl) :
    ∃ url, http.originalUrl = some url ∧ ∃ src, UrlUtils.extractDestination url = some src := by
  obtain ⟨url, hurl, habsolute, hbasic, hunknown⟩ := h
  refine ⟨url, hurl, Option.ne_none_iff_exists'.mp fun hnone => ?_⟩
  rcases UrlUtils.extractDestination_eq_none_iff.mp hnone with hrelative | hhost | hhost
  · rw [habsolute] at hrelative
    exact Bool.noConfusion hrelative
  · exact hbasic hhost
  · exact hunknown hhost

/-- A context without such a URL gives no destination. -/
theorem deduceHttpDestination_eq_none (hconsistent : http.Consistent) (h : ¬http.HasExternalUrl) :
    DeductionInput.deduceHttpDestination http = none ∧
      http.originalUrl.bind UrlUtils.extractDestination = none := by
  unfold DeductionInput.deduceHttpDestination
  cases hurl : http.originalUrl with
  | none =>
    rw [hconsistent hurl]
    exact ⟨rfl, rfl⟩
  | some url =>
    have hnone : UrlUtils.extractDestination url = none := by
      rw [UrlUtils.extractDestination_eq_none_iff]
      by_cases habsolute : url.isAbsoluteUri = true
      · by_cases hbasic : url.hostNameType = .basic
        · exact Or.inr (Or.inl hbasic)
        · by_cases hunknown : url.hostNameType = .unknown
          · exact Or.inr (Or.inr hunknown)
          · exact absurd ⟨url, hurl, habsolute, hbasic, hunknown⟩ h
      · exact Or.inl (Bool.not_eq_true _ ▸ habsolute)
    exact ⟨hnone, hnone⟩

end Http

namespace DeductionInput

variable {span : DeductionInput}

/-- The service is put in the place of one that reads as null. -/
theorem fillDestinationService_properties (d : Destination) {service : DestinationService}
    (hservice : d.service.value = none →
      span.fillDestinationService d = d.setService (some service)) :
    (span.fillDestinationService d).properties =
      { address := d.address.value
        port := d.port.value
        service := some (d.service.value.getD service) } := by
  cases hvalue : d.service.value with
  | none =>
    rw [hservice hvalue]
    rfl
  | some v =>
    have hkept : span.fillDestinationService d = d := by
      unfold fillDestinationService
      rw [hvalue]
      rfl
    rw [hkept]
    show Destination.Properties.mk _ _ d.service.value = _
    rw [hvalue]
    rfl

end DeductionInput

/-! ### The end of a span -/

theorem Destination.copyMissingPropertiesFrom_new (d : Destination) :
    d.copyMissingPropertiesFrom .new = d := by
  have horElse : ∀ {α : Type} (o : Optional α), o.orElse .unset = o := fun o => by
    cases o with
    | unset | set value => rfl
  show Destination.mk (d.address.orElse .unset) (d.port.orElse .unset) (d.service.orElse .unset) = d
  rw [horElse, horElse, horElse]

namespace EndingSpan

variable {span : EndingSpan}

/-- Nothing can be deduced. -/
theorem onlyFillsGaps_of_none (user : Destination)
    (hkept : span.endDestination (some user) = some user)
    (hdeduced : span.deduced = ⟨none, none, none⟩) : OnlyFillsGaps span user := by
  unfold OnlyFillsGaps
  rw [hkept, hdeduced]
  simp only [Option.map_some, Optional.filled_none]
  rfl

/-- A service can be deduced, with an address and a port or without. -/
theorem onlyFillsGaps_iff_of_service (user src : Destination) (service : DestinationService)
    (hend : span.endDestination (some user) =
      some (span.fillDestinationService (user.copyMissingPropertiesFrom src)))
    (hsrc : src.service = .unset)
    (hservice : ∀ d : Destination, d.service.value = none →
      span.fillDestinationService d = d.setService (some service))
    (hdeduced : span.deduced = ⟨src.address.value, src.port.value, some service⟩) :
    OnlyFillsGaps span user ↔ user.service ≠ .set none := by
  have hvalue : (user.service.orElse src.service).value = user.service.value := by
    rw [hsrc, Optional.value_orElse, Optional.value_unset, Optional.filled_none]
  unfold OnlyFillsGaps
  rw [hend, hdeduced, Option.map_some, Option.some.injEq,
    DeductionInput.fillDestinationService_properties _ (hservice _),
    ← Optional.getD_eq_filled_iff user.service service]
  simp only [Destination.copyMissingPropertiesFrom, hvalue, Optional.value_orElse,
    Destination.Properties.mk.injEq, true_and]

/-- After `End` the user's properties are there and the other ones deduced, unless the service was
    assigned null and can be deduced: the span is sent, and if it is an HTTP call, then one to an
    absolute URL with a host. -/
theorem onlyFillsGaps_iff (hurl : ∀ http, span.http = some http → http.Consistent)
    (user : Destination) :
    OnlyFillsGaps span user ↔
      ¬(user.service = .set none ∧ span.shouldBeSentToApmServer = true ∧
        ∀ http, span.http = some http → http.HasExternalUrl) := by
  by_cases hsent : span.shouldBeSentToApmServer = true
  · have hend : span.endDestination (some user) = span.deduceDestination (some user) := if_pos hsent
    cases hhttp : span.http with
    | none =>
      rw [onlyFillsGaps_iff_of_service user .new ⟨span.subtype, span.subtype, span.type⟩]
      · simp [hsent]
      · rw [hend, Destination.copyMissingPropertiesFrom_new]
        simp [DeductionInput.deduceDestination, hhttp]
      · rfl
      · intro d hd
        simp [DeductionInput.fillDestinationService, hd, hhttp]
      · simp [deduced, hsent, hhttp, Destination.new]
    | some http =>
      by_cases hexternal : http.HasExternalUrl
      · obtain ⟨url, hurl, src, hsrc⟩ := hexternal.extractDestination
        rw [onlyFillsGaps_iff_of_service user src (UrlUtils.extractService url span.type)]
        · simp [hsent, hexternal]
        · rw [hend]
          simp [DeductionInput.deduceDestination, hhttp, DeductionInput.deduceHttpDestination, hurl,
            hsrc]
        · exact UrlUtils.service_of_extractDestination hsrc
        · intro d hd
          obtain ⟨url', hurl', habsolute, -⟩ := hexternal
          rw [hurl] at hurl'
          cases hurl'
          simp [DeductionInput.fillDestinationService, hd, hhttp, hurl, habsolute]
        · simp [deduced, hsent, hhttp, hurl, hsrc]
      · obtain ⟨hnone, hextract⟩ := Http.deduceHttpDestination_eq_none (hurl http hhttp) hexternal
        have hdeduced : span.deduced = ⟨none, none, none⟩ := by
          simp [deduced, hsent, hhttp, hextract]
        have hkept : span.endDestination (some user) = some user := by
          rw [hend]
          exact DeductionInput.deduceDestination_of_hasInvalidUrl ⟨http, hhttp, hnone⟩ _
        refine iff_of_true (onlyFillsGaps_of_none user hkept hdeduced) fun h => ?_
        exact hexternal (h.2.2 http rfl)
  · refine iff_of_true (onlyFillsGaps_of_none user (if_neg hsent) (if_neg hsent)) fun h => ?_
    exact hsent h.2.1

/-- An HTTP call with the address assigned null: the port and the service are deduced. -/
theorem onlyFillsGaps_address_null :
    OnlyFillsGaps
      { type := some "external", subtype := some "http", shouldBeSentToApmServer := true,
        http := some ⟨some ⟨true, .dns, "https", "elastic.co", 443, true⟩,
          some ⟨true, .dns, "https", "elastic.co", 443, true⟩⟩ }
      ⟨.set none, .unset, .unset⟩ := by
  refine (onlyFillsGaps_iff (fun http hhttp hnone => ?_) _).mpr fun h => ?_
  · cases hhttp
    exact absurd hnone (Option.some_ne_none _)
  · exact absurd h.1 (by decide)

/-- A database call with the service assigned null: it is deduced all the same. -/
theorem onlyFillsGaps_counterexample :
    ¬OnlyFillsGaps
      { type := some "db", subtype := some "mysql", shouldBeSentToApmServer := true, http := none }
      ⟨.set (some "localhost"), .set (some 3306), .set none⟩ := by
  unfold OnlyFillsGaps
  decide

end EndingSpan

end ApmAgent
