import ApmAgent.Api.Destination

/-! # Deducing the destination of a span

  When a span that is sent ends, it completes the destination in its context:
  from the URL of an HTTP call, and with a service name from the type and
  subtype of the span.
-/

namespace ApmAgent

/-! ### URLs -/

/-- `UriHostNameType`. -/
inductive UriHostNameType where
  | unknown
  | basic
  | dns
  | ipv4
  | ipv6
  deriving DecidableEq, Repr

/-- What is read of a `Uri`. -/
structure Uri where
  isAbsoluteUri : Bool
  hostNameType : UriHostNameType
  scheme : String
  host : String
  /-- `-1` where there is none. -/
  port : Int32
  isDefaultPort : Bool
  deriving DecidableEq, Repr

namespace UrlUtils

/-- `UrlUtils.ExtractDestination`. -/
def extractDestination (url : Uri) : Option Destination :=
  if !url.isAbsoluteUri || url.hostNameType = .basic || url.hostNameType = .unknown then none
  else
    let host := url.host.toList
    let isBracketed := url.hostNameType = .ipv6 && 2 < host.length &&
      host.head? = some '[' && host.getLast? = some ']'
    let host := if isBracketed then (host.drop 1).dropLast else host
    some
      { address := .set (some (String.ofList host))
        port := .set (if url.port = -1 then none else some url.port)
        service := .unset }

/-- `UrlUtils.ExtractService`; `type` is that of the span. -/
def extractService (url : Uri) (type : Option String) : DestinationService :=
  let port := if url.isDefaultPort then "" else ":" ++ toString url.port.toInt
  { type := type
    name := some (url.scheme ++ "://" ++ url.host ++ port)
    resource := some (url.host ++ ":" ++ toString url.port.toInt) }

end UrlUtils

/-! ### DeduceDestination -/

/-- What `DeduceDestination` reads of `Context.Http`. -/
structure Http where
  originalUrl : Option Uri
  /-- `new Uri(Url)`, or `none` where that throws. -/
  url : Option Uri
  deriving DecidableEq, Repr

/-- What `DeduceDestination` reads of a span besides its destination. -/
structure DeductionInput where
  type : Option String
  subtype : Option String
  http : Option Http
  deriving DecidableEq, Repr

namespace DeductionInput

/-- `DeduceHttpDestination`; an exception on the way gives null. -/
def deduceHttpDestination (http : Http) : Option Destination :=
  (http.originalUrl.or http.url).bind UrlUtils.extractDestination

/-- The local function `FillDestinationService`. -/
def fillDestinationService (span : DeductionInput) (destination : Destination) : Destination :=
  if destination.service.value.isSome then destination
  else
    match span.http with
    | some http =>
      match http.originalUrl with
      -- Reading `IsAbsoluteUri` of null throws, with the type already in place. `End` catches it.
      | none => destination.setService (some { name := none, resource := none, type := span.type })
      | some originalUrl =>
        if !originalUrl.isAbsoluteUri then destination.setService none
        else destination.setService (some (UrlUtils.extractService originalUrl span.type))
    | none =>
      destination.setService
        (some { name := span.subtype, resource := span.subtype, type := span.type })

/-- `Span.DeduceDestination`, on the destination of the span's context. -/
def deduceDestination (span : DeductionInput) (destination : Option Destination) :
    Option Destination :=
  match span.http with
  | some http =>
    match deduceHttpDestination http with
    -- In case of an invalid destination it just returns.
    | none => destination
    | some src =>
      let destination := (destination.map (·.copyMissingPropertiesFrom src)).getD src
      some (span.fillDestinationService destination)
  | none => destination.map span.fillDestinationService

/-- An HTTP call whose URL gives no destination. -/
def HasInvalidUrl (span : DeductionInput) : Prop :=
  ∃ http, span.http = some http ∧ deduceHttpDestination http = none

theorem deduceDestination_of_hasInvalidUrl {span : DeductionInput} (h : span.HasInvalidUrl)
    (destination : Option Destination) :
    span.deduceDestination destination = destination := by
  obtain ⟨http, hhttp, hnone⟩ := h
  simp [deduceDestination, hhttp, hnone]

/-- A destination that is deduced from an original URL comes from an absolute one. -/
theorem isAbsoluteUri_of_deduceHttpDestination {http : Http} {src : Destination}
    (h : deduceHttpDestination http = some src) {url : Uri} (hurl : http.originalUrl = some url) :
    url.isAbsoluteUri := by
  simp only [deduceHttpDestination, hurl, Option.some_or, Option.bind_some,
    UrlUtils.extractDestination] at h
  split at h
  · cases h
  · next hcond =>
    simp only [Bool.or_eq_true, Bool.not_eq_true', not_or, Bool.not_eq_false] at hcond
    exact hcond.1.1

/-- Otherwise the service is there afterwards. -/
theorem deduceDestination_service {span : DeductionInput} (h : ¬ span.HasInvalidUrl)
    (d : Destination) :
    ∃ d', span.deduceDestination (some d) = some d' ∧ d'.service.value.isSome := by
  have hfill (d : Destination) (hhttp : ∀ http, span.http = some http →
      ∀ url, http.originalUrl = some url → url.isAbsoluteUri) :
      (span.fillDestinationService d).service.value.isSome := by
    unfold fillDestinationService
    split
    · next hsome => exact hsome
    · split
      · next http hspan =>
        split
        · rfl
        · next url hurl =>
          have habsolute := hhttp http hspan url hurl
          simp [habsolute, Destination.setService]
      · rfl
  unfold deduceDestination
  split
  · next http hhttp =>
    split
    · next hnone => exact absurd ⟨http, hhttp, hnone⟩ h
    · next src hsrc =>
      refine ⟨_, rfl, hfill _ fun http' hhttp' url hurl => ?_⟩
      rw [hhttp] at hhttp'
      cases hhttp'
      exact isAbsoluteUri_of_deduceHttpDestination hsrc hurl
  · next hnone =>
    refine ⟨_, rfl, hfill _ fun http hhttp => ?_⟩
    rw [hnone] at hhttp
    cases hhttp

end DeductionInput

end ApmAgent
