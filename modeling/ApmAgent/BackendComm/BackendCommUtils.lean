import ApmAgent.Api.Context
import ApmAgent.Framework.FormEncoding
import Mathlib.Data.List.DropRight

/-! # The URLs of APM Server

  `BackendCommUtils.ApmServerEndpoints` (`BackendComm/BackendCommUtils.cs`)
  puts the endpoints of APM Server behind the configured server URL. The
  service and its environment go into the query of the central configuration
  URL, where APM Server reads them.

  * `urlEncode_eq`: `UrlEncode` is the form encoding of the bytes of the text;
  * `buildGetConfigRelativeUrl_eq`: the query joins the fields that are set;
  * `endpoints_read`: from the URL that the agent asks, APM Server reads the
    path and the fields that the agent means.
-/

namespace ApmAgent

open FormEncoding

attribute [local instance] decidableForallMem

/-- What of a `Uri` takes part in combining: the text it is written as. -/
structure UrlText where
  isAbsoluteUri : Bool
  text : List Char
  deriving DecidableEq

/-- `ArgumentException`. -/
structure ArgumentException where
  message : String
  paramName : String
  deriving DecidableEq

namespace ApmServerEndpoints

/-! ### Encoding -/

/-- The bytes that `Uri.EscapeDataString` leaves as they are. -/
def isUnreserved (b : UInt8) : Bool :=
  let c := Char.ofNat b.toNat
  b < 128 && (c.isAlphanum || c = '-' || c = '_' || c = '.' || c = '~')

/-- `Uri.EscapeDataString`. -/
def escapeDataString (s : String) : List Char :=
  encodeText (fun b => if isUnreserved b then [Char.ofNat b.toNat] else escape b) s

/-- `Replace("%20", "+")`. -/
def replaceSpaces : List Char → List Char
  | [] => []
  | '%' :: '2' :: '0' :: rest => '+' :: replaceSpaces rest
  | c :: rest => c :: replaceSpaces rest

/-- `UrlEncode`; no caller passes `null`. -/
def urlEncode (decodedStr : String) : List Char :=
  if decodedStr = "" then [] else replaceSpaces (escapeDataString decodedStr)

/-- The form encoding of a byte. -/
def encodeByte (b : UInt8) : List Char :=
  if b = 32 then ['+'] else if isUnreserved b then [Char.ofNat b.toNat] else escape b

theorem forall_byte {P : UInt8 → Prop} [DecidablePred P]
    (h : (List.range 256).all fun n => P (UInt8.ofNat n)) (b : UInt8) : P b := by
  have hb := List.all_eq_true.mp h b.toNat (List.mem_range.mpr b.toNat_lt)
  simpa using hb

/-- What an unreserved byte is written as has no meaning of its own. -/
theorem isUnreserved_char {b : UInt8} (h : isUnreserved b = true) :
    Char.ofNat b.toNat ∉ ['%', '+', '&', '=', '#'] ∧ (Char.ofNat b.toNat).toNat = b.toNat ∧
      b.toNat < 128 :=
  forall_byte
    (P := fun b => isUnreserved b = true →
      Char.ofNat b.toNat ∉ ['%', '+', '&', '=', '#'] ∧ (Char.ofNat b.toNat).toNat = b.toNat ∧
        b.toNat < 128)
    (by decide +kernel) b h

theorem escape_chars (b : UInt8) :
    ∀ c ∈ escape b, c ≠ '&' ∧ c ≠ '=' ∧ c ≠ '#' :=
  forall_byte (P := fun b => ∀ c ∈ escape b, c ≠ '&' ∧ c ≠ '=' ∧ c ≠ '#') (by decide +kernel) b

theorem encodes_encodeByte : Encodes encodeByte where
  decodeBytes b rest := by
    unfold encodeByte
    split
    · next hspace => rw [hspace]; exact decodeBytes_plus rest
    split
    · next hunreserved =>
      obtain ⟨hchar, htoNat, hlt⟩ := isUnreserved_char hunreserved
      simp only [List.mem_cons, List.not_mem_nil, or_false, not_or] at hchar
      rw [List.singleton_append, decodeBytes_char hchar.1 hchar.2.1 (by omega), htoNat,
        UInt8.ofNat_toNat]
    · exact decodeBytes_escape b rest
  separators b c hc := by
    unfold encodeByte at hc
    split at hc
    · rw [List.mem_singleton.mp hc]
      decide
    split at hc
    · next hunreserved =>
      have hchar := (isUnreserved_char hunreserved).1
      simp only [List.mem_cons, List.not_mem_nil, or_false, not_or] at hchar
      rw [List.mem_singleton.mp hc]
      exact hchar.2.2
    · exact escape_chars b c hc

/-- An escape is replaced as a whole or stays as a whole. -/
theorem replaceSpaces_escape (b : UInt8) (rest : List Char) :
    replaceSpaces (escape b ++ rest) =
      (if b = 32 then ['+'] else escape b) ++ replaceSpaces rest := by
  have hpercent : ∀ high low, high ≠ '%' → low ≠ '%' → (high, low) ≠ ('2', '0') →
      replaceSpaces ('%' :: high :: low :: rest) = '%' :: high :: low :: replaceSpaces rest := by
    intro high low hhigh hlow hne
    rw [replaceSpaces, replaceSpaces, replaceSpaces] <;> simp_all
  have hdigits : b ≠ 32 → hexDigit (b.toNat / 16) ≠ '%' ∧ hexDigit (b.toNat % 16) ≠ '%' ∧
      (hexDigit (b.toNat / 16), hexDigit (b.toNat % 16)) ≠ ('2', '0') :=
    forall_byte
      (P := fun b => b ≠ 32 → hexDigit (b.toNat / 16) ≠ '%' ∧ hexDigit (b.toNat % 16) ≠ '%' ∧
        (hexDigit (b.toNat / 16), hexDigit (b.toNat % 16)) ≠ ('2', '0'))
      (by decide +kernel) b
  split
  · next hspace => subst hspace; rfl
  · next hspace =>
    obtain ⟨hhigh, hlow, hne⟩ := hdigits hspace
    exact hpercent _ _ hhigh hlow hne

theorem replaceSpaces_char {c : Char} (hc : c ≠ '%') (rest : List Char) :
    replaceSpaces (c :: rest) = c :: replaceSpaces rest := by
  rw [replaceSpaces]
  simp [hc]

theorem replaceSpaces_flatMap (bytes : List UInt8) :
    replaceSpaces (bytes.flatMap fun b =>
      if isUnreserved b then [Char.ofNat b.toNat] else escape b) = bytes.flatMap encodeByte := by
  induction bytes with
  | nil => rfl
  | cons b bytes ih =>
    simp only [List.flatMap_cons, encodeByte]
    split
    · next hunreserved =>
      have hspace : b ≠ 32 := by
        rintro rfl
        exact absurd hunreserved (by decide)
      have hchar := (isUnreserved_char hunreserved).1
      simp only [List.mem_cons, not_or] at hchar
      rw [if_neg hspace, List.singleton_append, replaceSpaces_char hchar.1, ih]
      rfl
    · rw [replaceSpaces_escape, ih]

theorem urlEncode_eq (s : String) : urlEncode s = encodeText encodeByte s := by
  unfold urlEncode
  split
  · next hs => rw [hs]; rfl
  · exact replaceSpaces_flatMap s.toByteArray.data.toList

/-! ### URLs -/

/-- `new Uri(Uri, string)`: the relative URL stands in place of what follows the last `/` of the
    base's path. -/
def resolve (baseUri : UrlText) (relativeUri : List Char) : UrlText where
  isAbsoluteUri := true
  text :=
    (baseUri.text.takeWhile fun c => c != '?' && c != '#').rdropWhile (· != '/') ++ relativeUri

def combineAbsoluteAndRelativeUrls (baseAbsoluteUrl : UrlText) (relativeUrl : List Char) :
    Except ArgumentException UrlText :=
  if !baseAbsoluteUrl.isAbsoluteUri then
    .error
      { message := "baseAbsoluteUrl should be an absolute URL." ++
          " baseAbsoluteUrl: `" ++ String.ofList baseAbsoluteUrl.text ++ "'."
        paramName := "baseAbsoluteUrl" }
  else
    -- Only a path that ends with a slash is kept as a whole.
    let baseAbsoluteUrlAdapted :=
      if baseAbsoluteUrl.text.getLast? != some '/' then
        { baseAbsoluteUrl with text := baseAbsoluteUrl.text ++ ['/'] }
      else baseAbsoluteUrl
    .ok (resolve baseAbsoluteUrlAdapted relativeUrl)

def buildIntakeV2EventsAbsoluteUrl (baseUrl : UrlText) : Except ArgumentException UrlText :=
  combineAbsoluteAndRelativeUrls baseUrl "intake/v2/events".toList

/-- The relative URL that `BuildGetConfigAbsoluteUrl` builds. -/
def buildGetConfigRelativeUrl (service : Api.Service) : List Char :=
  let str := "config/v1/agents".toList
  let (str, separator) :=
    match service.name with
    | some name => (str ++ ['?'] ++ "service.name=".toList ++ urlEncode name, '&')
    | none => (str, '?')
  match service.environment with
  | some environment =>
    str ++ [separator] ++ "service.environment=".toList ++ urlEncode environment
  | none => str

def buildGetConfigAbsoluteUrl (baseUrl : UrlText) (service : Api.Service) :
    Except ArgumentException UrlText :=
  combineAbsoluteAndRelativeUrls baseUrl (buildGetConfigRelativeUrl service)

/-! ### What APM Server reads -/

/-- What selects the configuration. -/
def parameters (service : Api.Service) : List (String × String) :=
  service.name.toList.map (("service.name", ·)) ++
    service.environment.toList.map (("service.environment", ·))

theorem encodeText_names :
    encodeText encodeByte "service.name" = "service.name".toList ∧
      encodeText encodeByte "service.environment" = "service.environment".toList := by
  decide +kernel

theorem buildGetConfigRelativeUrl_eq (service : Api.Service) :
    buildGetConfigRelativeUrl service =
      withQuery "config/v1/agents".toList (query encodeByte (parameters service)) := by
  obtain ⟨hname, henvironment⟩ := encodeText_names
  unfold buildGetConfigRelativeUrl parameters
  cases service.name <;> cases service.environment <;>
    simp [withQuery, query, List.intercalate, parameter, hname, henvironment, urlEncode_eq]

/-- The server's URL as a directory. -/
def directory (baseUrl : UrlText) : List Char :=
  if baseUrl.text.getLast? != some '/' then baseUrl.text ++ ['/'] else baseUrl.text

/-- What the base contributes to a combined URL. -/
theorem combineAbsoluteAndRelativeUrls_eq {baseUrl : UrlText}
    (habsolute : baseUrl.isAbsoluteUri = true) :
    ∃ front, (∀ c ∈ front, c ≠ '?' ∧ c ≠ '#') ∧
      (∀ relativeUrl, combineAbsoluteAndRelativeUrls baseUrl relativeUrl =
        .ok { isAbsoluteUri := true, text := front ++ relativeUrl }) ∧
      ((∀ c ∈ baseUrl.text, c ≠ '?' ∧ c ≠ '#') → front = directory baseUrl) := by
  have hlast : (directory baseUrl).getLast? = some '/' := by
    unfold directory
    split
    · simp
    · next hslash => simpa using hslash
  refine ⟨((directory baseUrl).takeWhile fun c => c != '?' && c != '#').rdropWhile (· != '/'),
    fun c hc => ?_, fun relativeUrl => ?_, fun hplain => ?_⟩
  · have hc := List.mem_takeWhile_imp ((List.rdropWhile_prefix _ _).subset hc)
    simpa using hc
  · unfold combineAbsoluteAndRelativeUrls directory resolve
    rw [if_neg (by simp [habsolute])]
    split <;> rfl
  · have hdirectory : ∀ c ∈ directory baseUrl, c ≠ '?' ∧ c ≠ '#' := by
      unfold directory
      split
      · intro c hc
        rcases List.mem_append.mp hc with hc | hc
        · exact hplain c hc
        · rw [List.mem_singleton.mp hc]
          decide
      · exact hplain
    rw [List.takeWhile_eq_self_iff.mpr (by simpa using hdirectory), List.rdropWhile_eq_self_iff]
    intro hne
    rw [List.getLast?_eq_some_getLast hne] at hlast
    simp [Option.some.inj hlast]

end ApmServerEndpoints

open ApmServerEndpoints

/-- From the URLs that the agent builds for one server, APM Server reads the two endpoints in one
    directory, which is the configured URL itself when it has no query, and the service's own name
    and environment, each only where it is set. -/
theorem endpoints_read {baseUrl : UrlText} (habsolute : baseUrl.isAbsoluteUri = true) :
    ∃ front,
      (∃ url, buildIntakeV2EventsAbsoluteUrl baseUrl = .ok url ∧
        readUrl url.text = some (front ++ "intake/v2/events".toList, [])) ∧
      (∀ service, ∃ url, buildGetConfigAbsoluteUrl baseUrl service = .ok url ∧
        readUrl url.text = some (front ++ "config/v1/agents".toList, parameters service)) ∧
      ((∀ c ∈ baseUrl.text, c ≠ '?' ∧ c ≠ '#') → front = directory baseUrl) := by
  obtain ⟨front, hfront, hcombine, hdirectory⟩ := combineAbsoluteAndRelativeUrls_eq habsolute
  -- A path without its own `?` or `#` is read back in front of any encoded query.
  have hread : ∀ endpoint : String, (∀ c ∈ endpoint.toList, c ≠ '?' ∧ c ≠ '#') → ∀ fields,
      readUrl (front ++ withQuery endpoint.toList (query encodeByte fields)) =
        some (front ++ endpoint.toList, fields) := by
    intro endpoint hendpoint fields
    have hpath : ∀ c ∈ front ++ endpoint.toList, c ≠ '?' ∧ c ≠ '#' := by
      intro c hc
      exact (List.mem_append.mp hc).elim (hfront c) (hendpoint c)
    have hwith := readUrl_withQuery encodes_encodeByte hpath fields
    rwa [← append_withQuery] at hwith
  refine ⟨front, ⟨_, hcombine _, ?_⟩, fun service => ⟨_, hcombine _, ?_⟩, hdirectory⟩
  · exact hread "intake/v2/events" (by decide) []
  · rw [buildGetConfigRelativeUrl_eq]
    exact hread "config/v1/agents" (by decide) _

/-- A server below a path, and an environment that needs every kind of escape. -/
theorem endpoints_read_basePath :
    ∃ url, buildGetConfigAbsoluteUrl
        { isAbsoluteUri := true, text := "http://1.2.3.4/base".toList }
        { agent := none, environment := some "a b&c=d+é", framework := none, language := none,
          name := none, node := none, runtime := none, version := none } = .ok url ∧
      readUrl url.text = some ("http://1.2.3.4/base/config/v1/agents".toList,
        [("service.environment", "a b&c=d+é")]) := by
  have habsolute :
      (⟨true, "http://1.2.3.4/base".toList⟩ : UrlText).isAbsoluteUri = true := rfl
  obtain ⟨front, -, hconfig, hdirectory⟩ := endpoints_read habsolute
  rw [hdirectory (by decide)] at hconfig
  exact hconfig _

end ApmAgent
