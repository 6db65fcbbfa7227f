import ApmAgent.Framework.LTS
import ApmAgent.Framework.Store
import ApmAgent.Helpers.DbConnectionStringParser
import ApmAgent.Model.SpanDestination

/-! # Looking up the destination of a database call

  `DbConnectionStringParser` caches the destinations it has parsed and hands
  out the cached objects themselves. `GetDestination` fills the default port
  into the object it gets, and a span that ends completes the object in its
  context.

  `lookup_independent_iff` says which calls and ends leave all later lookups
  as they are on a fresh parser.
-/

namespace ApmAgent

open DbConnectionStringParser (parseConnectionString)

abbrev DestinationRef := Nat

/-- A `DbConnectionStringParser` with the `Destination` objects it created. -/
structure DestinationLookup where
  destinations : Store Destination
  /-- `_cache`; null is cached for an invalid connection string. -/
  cache : List (String × Option DestinationRef)
  cacheCount : Nat

/-- `MaxCacheSize`. -/
def maxCacheSize : Nat := 100

/-- `if (!destination.Port.HasValue) destination.Port = defaultPort`. -/
def Destination.fillPort (defaultPort : Option Int32) (d : Destination) : Destination :=
  if d.port.value.isNone then d.setPort defaultPort else d

namespace DestinationLookup

/-- A fresh parser. -/
def new : DestinationLookup where
  destinations := .empty
  cache := []
  cacheCount := 0

section

variable [InvariantCulture]

/-- `ParseConnectionString` with the object it creates. -/
def parse (s : DestinationLookup) (dbConnectionString : String) :
    DestinationLookup × Option DestinationRef :=
  match parseConnectionString dbConnectionString with
  | none => (s, none)
  | some d =>
    ({ s with destinations := s.destinations.alloc d }, some s.destinations.size)

/-- `ExtractDestination`. -/
def extractDestination (s : DestinationLookup) (dbConnectionString : String) :
    DestinationLookup × Option DestinationRef :=
  match s.cache.lookup dbConnectionString with
  | some destination => (s, destination)
  | none =>
    let (s, destination) := s.parse dbConnectionString
    if s.cacheCount < maxCacheSize then
      ({ s with
          cache := (dbConnectionString, destination) :: s.cache
          cacheCount := s.cacheCount + 1 }, destination)
    else (s, destination)

/-- `DbSpanCommon.GetDestination`. -/
def getDestination (s : DestinationLookup) (dbConnectionString : Option String)
    (isEmbeddedDb : Bool) (defaultPort : Option Int32) :
    DestinationLookup × Option DestinationRef :=
  match dbConnectionString with
  | none => (s, none)
  | some dbConnectionString =>
    if isEmbeddedDb then (s, none)
    else
      let (s, destination) := s.extractDestination dbConnectionString
      match destination with
      | none => (s, none)
      | some r =>
        -- The port is written to the object that may be in the cache.
        ({ s with destinations := s.destinations.update r (·.fillPort defaultPort) }, some r)

/-- What a caller of `GetDestination` gets, by the values of its properties. -/
def lookup (s : DestinationLookup) (dbConnectionString : Option String) (isEmbeddedDb : Bool)
    (defaultPort : Option Int32) : Option Destination.Properties :=
  let (s', destination) := s.getDestination dbConnectionString isEmbeddedDb defaultPort
  destination.bind fun r => (s'.destinations.get? r).map (·.properties)

end

end DestinationLookup

inductive LookupStep where
  | getDestination (dbConnectionString : Option String) (isEmbeddedDb : Bool)
      (defaultPort : Option Int32)
  /-- A span that has received the destination `r` ends, and is sent. -/
  | endSpan (r : DestinationRef) (span : DeductionInput)

section

variable [InvariantCulture]

def DestinationLookup.step (s : DestinationLookup) : LookupStep → Option DestinationLookup
  | .getDestination dbConnectionString isEmbeddedDb defaultPort =>
    some (s.getDestination dbConnectionString isEmbeddedDb defaultPort).1
  | .endSpan r span =>
    (s.destinations.get? r).map fun d =>
      { s with
        destinations :=
          s.destinations.update r fun _ => (span.deduceDestination (some d)).getD d }

/-- Any calls of `GetDestination`, and the ends of spans that got what they returned. -/
def destinationLookupSystem : LTS.System DestinationLookup LookupStep where
  init s := s = .new
  step := DestinationLookup.step

namespace DestinationLookup

/-! ### What a step does -/

/-- The ways a step can change the objects and the cache. -/
inductive Transition (s : DestinationLookup) : LookupStep → DestinationLookup → Prop where
  | noLookup {dbConnectionString : Option String} {isEmbeddedDb : Bool}
      (defaultPort : Option Int32) (hnone : dbConnectionString = none ∨ isEmbeddedDb) :
      Transition s (.getDestination dbConnectionString isEmbeddedDb defaultPort) s
  | hitNull {cs : String} (defaultPort : Option Int32)
      (hit : s.cache.lookup cs = some none) :
      Transition s (.getDestination (some cs) false defaultPort) s
  | hit {cs : String} {r : DestinationRef} (defaultPort : Option Int32)
      (hit : s.cache.lookup cs = some (some r)) :
      Transition s (.getDestination (some cs) false defaultPort)
        { s with destinations := s.destinations.update r (·.fillPort defaultPort) }
  | missNull {cs : String} (defaultPort : Option Int32) (miss : s.cache.lookup cs = none)
      (hparse : parseConnectionString cs = none) (hroom : s.cacheCount < maxCacheSize) :
      Transition s (.getDestination (some cs) false defaultPort)
        { s with cache := (cs, none) :: s.cache, cacheCount := s.cacheCount + 1 }
  | missNullFull {cs : String} (defaultPort : Option Int32) (miss : s.cache.lookup cs = none)
      (hparse : parseConnectionString cs = none) (hfull : maxCacheSize ≤ s.cacheCount) :
      Transition s (.getDestination (some cs) false defaultPort) s
  | miss {cs : String} {d : Destination} (defaultPort : Option Int32)
      (miss : s.cache.lookup cs = none) (hparse : parseConnectionString cs = some d)
      (hroom : s.cacheCount < maxCacheSize) :
      Transition s (.getDestination (some cs) false defaultPort)
        { destinations := s.destinations.alloc (d.fillPort defaultPort)
          cache := (cs, some s.destinations.size) :: s.cache
          cacheCount := s.cacheCount + 1 }
  | missFull {cs : String} {d : Destination} (defaultPort : Option Int32)
      (miss : s.cache.lookup cs = none) (hparse : parseConnectionString cs = some d)
      (hfull : maxCacheSize ≤ s.cacheCount) :
      Transition s (.getDestination (some cs) false defaultPort)
        { s with destinations := s.destinations.alloc (d.fillPort defaultPort) }
  | endSpan {r : DestinationRef} {d : Destination} (span : DeductionInput)
      (hd : s.destinations.get? r = some d) :
      Transition s (.endSpan r span)
        { s with
          destinations :=
            s.destinations.update r fun _ => (span.deduceDestination (some d)).getD d }

/-- Every step is one of the transitions. -/
theorem step_transition {s s' : DestinationLookup} {l : LookupStep} (h : s.step l = some s') :
    Transition s l s' := by
  cases l with
  | endSpan r span =>
    obtain ⟨d, hd, rfl⟩ := Option.map_eq_some_iff.mp h
    exact .endSpan span hd
  | getDestination dbConnectionString isEmbeddedDb defaultPort =>
    simp only [step, Option.some.injEq] at h
    subst h
    rcases dbConnectionString with _ | cs
    · exact .noLookup defaultPort (.inl rfl)
    · cases isEmbeddedDb with
      | true => exact .noLookup defaultPort (.inr rfl)
      | false =>
        rcases hcached : s.cache.lookup cs with _ | _ | r
        · -- The string is not in the cache.
          rcases hparse : parseConnectionString cs with _ | d
          · by_cases hroom : s.cacheCount < maxCacheSize
            · simp only [getDestination, extractDestination, parse, hcached, hparse, hroom,
                Bool.false_eq_true, if_false, if_true]
              exact .missNull defaultPort hcached hparse hroom
            · simp only [getDestination, extractDestination, parse, hcached, hparse, hroom,
                Bool.false_eq_true, if_false]
              exact .missNullFull defaultPort hcached hparse (Nat.not_lt.mp hroom)
          · by_cases hroom : s.cacheCount < maxCacheSize
            · simp only [getDestination, extractDestination, parse, hcached, hparse, hroom,
                Bool.false_eq_true, if_false, if_true, Store.update_alloc_size]
              exact .miss defaultPort hcached hparse hroom
            · simp only [getDestination, extractDestination, parse, hcached, hparse, hroom,
                Bool.false_eq_true, if_false, Store.update_alloc_size]
              exact .missFull defaultPort hcached hparse (Nat.not_lt.mp hroom)
        · simp only [getDestination, extractDestination, hcached, Bool.false_eq_true, if_false]
          exact .hitNull defaultPort hcached
        · simp only [getDestination, extractDestination, hcached, Bool.false_eq_true, if_false]
          exact .hit defaultPort hcached

/-! ### The cache -/

/-- What is cached for a string is null exactly when the string is invalid, and an object of
    the parser otherwise. -/
def CacheCoherent (s : DestinationLookup) : Prop :=
  ∀ cs entry, s.cache.lookup cs = some entry →
    (entry = none → parseConnectionString cs = none) ∧
      ∀ r, entry = some r → ∃ d o, parseConnectionString cs = some d ∧
        s.destinations.get? r = some o

/-- The cached objects still have the properties the parser gave them. -/
def CacheFaithful (s : DestinationLookup) : Prop :=
  ∀ cs r d o, s.cache.lookup cs = some (some r) → parseConnectionString cs = some d →
    s.destinations.get? r = some o → o.properties = d.properties

theorem cacheCoherent_new : CacheCoherent new := by
  intro cs entry h
  cases h

theorem cacheFaithful_new : CacheFaithful new := by
  intro cs r d o h
  cases h

/-- Objects are mutated, or created; none is lost. -/
theorem exists_get?_step {s s' : DestinationLookup} {l : LookupStep} (h : Transition s l s')
    {r : DestinationRef} {o : Destination} (ho : s.destinations.get? r = some o) :
    ∃ o', s'.destinations.get? r = some o' := by
  have hupdate (k : DestinationRef) (f : Destination → Destination) :
      ∃ o', (s.destinations.update k f).get? r = some o' := by
    rw [Store.get?_update, ho]
    split
    · exact ⟨_, rfl⟩
    · exact ⟨_, rfl⟩
  cases h with
  | hit defaultPort hit => exact hupdate _ _
  | miss defaultPort miss hparse hroom => exact ⟨o, Store.get?_alloc_of_some ho _⟩
  | missFull defaultPort miss hparse hfull => exact ⟨o, Store.get?_alloc_of_some ho _⟩
  | endSpan span hd => exact hupdate _ _
  | _ => exact ⟨o, ho⟩

/-- An entry of the cache after a step is an old one, or made by it. -/
theorem lookup_step {s s' : DestinationLookup} {l : LookupStep} (h : Transition s l s')
    {cs : String} {entry : Option DestinationRef} (hentry : s'.cache.lookup cs = some entry) :
    s.cache.lookup cs = some entry ∨
      (entry = none ∧ parseConnectionString cs = none) ∨
      ∃ d defaultPort, entry = some s.destinations.size ∧ parseConnectionString cs = some d ∧
        l = .getDestination (some cs) false defaultPort ∧ s.cacheCount < maxCacheSize ∧
        s.cache.lookup cs = none ∧
        s'.destinations = s.destinations.alloc (d.fillPort defaultPort) := by
  cases h with
  | @missNull cs' defaultPort miss hparse hroom =>
    by_cases hcs : cs = cs'
    · subst hcs
      rw [List.lookup_cons_self] at hentry
      cases hentry
      exact .inr (.inl ⟨rfl, hparse⟩)
    · rw [List.lookup_cons, show (cs == cs') = false by simpa using hcs] at hentry
      exact .inl hentry
  | @miss cs' d defaultPort miss hparse hroom =>
    by_cases hcs : cs = cs'
    · subst hcs
      rw [List.lookup_cons_self] at hentry
      cases hentry
      exact .inr (.inr ⟨d, defaultPort, rfl, hparse, rfl, hroom, miss, rfl⟩)
    · rw [List.lookup_cons, show (cs == cs') = false by simpa using hcs] at hentry
      exact .inl hentry
  | _ => exact .inl hentry

theorem CacheCoherent.step {s s' : DestinationLookup} {l : LookupStep} (h : s.CacheCoherent)
    (hstep : s.step l = some s') : s'.CacheCoherent := by
  have htransition := step_transition hstep
  intro cs entry hentry
  rcases lookup_step htransition hentry with hold | ⟨rfl, hparse⟩ |
    ⟨d, defaultPort, rfl, hparse, -, -, -, hdestinations⟩
  · obtain ⟨hnull, hobject⟩ := h cs entry hold
    refine ⟨hnull, fun r hr => ?_⟩
    obtain ⟨d, o, hparse, ho⟩ := hobject r hr
    obtain ⟨o', ho'⟩ := exists_get?_step htransition ho
    exact ⟨d, o', hparse, ho'⟩
  · refine ⟨fun _ => hparse, fun r hr => ?_⟩
    cases hr
  · refine ⟨fun hnone => ?_, fun r hr => ?_⟩
    · cases hnone
    cases hr
    exact ⟨d, _, hparse, by rw [hdestinations, Store.get?_alloc_size]⟩

/-! ### Lookups -/

/-- Every lookup returns what it would return on a fresh parser. -/
def LooksUpAsFresh (s : DestinationLookup) : Prop :=
  ∀ dbConnectionString isEmbeddedDb defaultPort,
    s.lookup dbConnectionString isEmbeddedDb defaultPort =
      new.lookup dbConnectionString isEmbeddedDb defaultPort

omit [InvariantCulture] in
theorem properties_fillPort (defaultPort : Option Int32) (d : Destination) :
    (d.fillPort defaultPort).properties =
      { d.properties with port := d.properties.port.or defaultPort } := by
  unfold Destination.fillPort Destination.properties
  rcases hport : d.port.value with _ | port
  · simp [Destination.setPort]
  · simp [hport]

/-- A lookup that is not answered from the cache. -/
theorem lookup_of_miss {s : DestinationLookup} {cs : String} (miss : s.cache.lookup cs = none)
    (defaultPort : Option Int32) :
    s.lookup (some cs) false defaultPort =
      (parseConnectionString cs).map fun d => (d.fillPort defaultPort).properties := by
  rcases hparse : parseConnectionString cs with _ | d
  · by_cases hroom : s.cacheCount < maxCacheSize
    · simp [lookup, getDestination, extractDestination, parse, miss, hparse, hroom]
    · simp [lookup, getDestination, extractDestination, parse, miss, hparse, hroom]
  · by_cases hroom : s.cacheCount < maxCacheSize
    · simp [lookup, getDestination, extractDestination, parse, miss, hparse, hroom]
    · simp [lookup, getDestination, extractDestination, parse, miss, hparse, hroom]

/-- A lookup that is answered from the cache. -/
theorem lookup_of_hit {s : DestinationLookup} {cs : String} {r : DestinationRef}
    {o : Destination} (hit : s.cache.lookup cs = some (some r))
    (ho : s.destinations.get? r = some o) (defaultPort : Option Int32) :
    s.lookup (some cs) false defaultPort = some (o.fillPort defaultPort).properties := by
  simp [lookup, getDestination, extractDestination, hit, ho]

/-- Lookups are as on a fresh parser exactly when the cached objects are as they were parsed. -/
theorem looksUpAsFresh_iff {s : DestinationLookup} (h : s.CacheCoherent) :
    s.LooksUpAsFresh ↔ s.CacheFaithful := by
  have hfresh (cs : String) (defaultPort : Option Int32) :
      new.lookup (some cs) false defaultPort =
        (parseConnectionString cs).map fun d => (d.fillPort defaultPort).properties :=
    lookup_of_miss rfl defaultPort
  constructor
  · intro hlookups cs r d o hit hparse ho
    -- Without a default port a lookup shows the object as it is.
    have hsame := hlookups (some cs) false none
    rw [lookup_of_hit hit ho, hfresh, hparse] at hsame
    simp only [Option.map_some, properties_fillPort, Option.or_none] at hsame
    exact Option.some.inj hsame
  · intro hfaithful dbConnectionString isEmbeddedDb defaultPort
    rcases dbConnectionString with _ | cs
    · rfl
    · cases isEmbeddedDb with
      | true => rfl
      | false =>
        rw [hfresh]
        rcases hcached : s.cache.lookup cs with _ | _ | r
        · exact lookup_of_miss hcached defaultPort
        · have hparse := (h cs none hcached).1 rfl
          simp [lookup, getDestination, extractDestination, hcached, hparse]
        · obtain ⟨d, o, hparse, ho⟩ := (h cs (some r) hcached).2 r rfl
          have hsame := hfaithful cs r d o hcached hparse ho
          rw [lookup_of_hit hcached ho, hparse]
          simp [properties_fillPort, hsame]

/-! ### Independence of the history -/

def IsCached (s : DestinationLookup) (r : DestinationRef) : Prop :=
  ∃ cs, s.cache.lookup cs = some (some r)

/-- A step that leaves the cached destinations as they are: no default port is filled into one
    of them, and no span that holds one completes it. -/
def LeavesCacheAlone (s : DestinationLookup) : LookupStep → Prop
  | .getDestination dbConnectionString isEmbeddedDb defaultPort =>
    ∀ cs d, dbConnectionString = some cs → isEmbeddedDb = false →
      parseConnectionString cs = some d → d.port.value = none →
      defaultPort = none ∨ (s.cache.lookup cs = none ∧ maxCacheSize ≤ s.cacheCount)
  | .endSpan r span => s.IsCached r → span.HasInvalidUrl

omit [InvariantCulture] in
/-- Filling in a default port shows unless there is a port, or no default one. -/
theorem fillPort_properties_eq_iff {defaultPort : Option Int32} {d o : Destination}
    (h : o.properties = d.properties) :
    (o.fillPort defaultPort).properties = d.properties ↔
      (d.port.value = none → defaultPort = none) := by
  rw [properties_fillPort, h]
  unfold Destination.properties
  rcases d.port.value with _ | port
  · simp
  · simp

/-- Of a faithful cache, an object that is neither looked up nor ended keeps its properties. -/
theorem CacheFaithful.of_same {s s' : DestinationLookup} (h : s.CacheFaithful)
    (hcache : s'.cache = s.cache)
    (hsame : ∀ r o', s'.destinations.get? r = some o' → s.IsCached r →
      ∃ o, s.destinations.get? r = some o ∧ o'.properties = o.properties) :
    s'.CacheFaithful := by
  intro cs r d o' hit hparse ho'
  rw [hcache] at hit
  obtain ⟨o, ho, hproperties⟩ := hsame r o' ho' ⟨cs, hit⟩
  rw [hproperties]
  exact h cs r d o hit hparse ho

/-- Of a faithful cache, only the object that is written to can change. -/
theorem CacheFaithful.of_update {s : DestinationLookup} (h : s.CacheFaithful) {r : DestinationRef}
    {o : Destination} (ho : s.destinations.get? r = some o) {f : Destination → Destination}
    (hsame : s.IsCached r → (f o).properties = o.properties) :
    CacheFaithful { s with destinations := s.destinations.update r f } := by
  refine h.of_same rfl fun k o' ho' hcached => ?_
  obtain ⟨u, hu, rfl⟩ := Store.get?_update_eq_some.mp ho'
  refine ⟨u, hu, ?_⟩
  by_cases hrk : r = k
  · subst hrk
    rw [ho] at hu
    cases hu
    rw [if_pos rfl, hsame hcached]
  · rw [if_neg hrk]

/-- A lookup that is answered from the cache. -/
theorem cacheFaithful_hit_iff {s : DestinationLookup} (hc : s.CacheCoherent)
    (hf : s.CacheFaithful) {cs : String} {r : DestinationRef} (defaultPort : Option Int32)
    (hit : s.cache.lookup cs = some (some r)) :
    CacheFaithful { s with destinations := s.destinations.update r (·.fillPort defaultPort) } ↔
      s.LeavesCacheAlone (.getDestination (some cs) false defaultPort) := by
  obtain ⟨d, o, hparse, ho⟩ := (hc cs (some r) hit).2 r rfl
  have hsame := hf cs r d o hit hparse ho
  constructor
  · intro h cs' d' hcs _ hparse' hport
    cases hcs
    rw [hparse] at hparse'
    cases hparse'
    have hfilled := h cs r d (o.fillPort defaultPort) hit hparse (by simp [ho])
    exact .inl ((fillPort_properties_eq_iff hsame).mp hfilled hport)
  · intro hl
    refine hf.of_update ho fun _ => ?_
    rw [(fillPort_properties_eq_iff hsame).mpr, hsame]
    intro hport
    rcases hl cs d rfl rfl hparse hport with hnone | ⟨hmiss, -⟩
    · exact hnone
    · rw [hit] at hmiss
      cases hmiss

/-- The end of a span. -/
theorem cacheFaithful_endSpan_iff {s : DestinationLookup} (hf : s.CacheFaithful)
    (hc : s.CacheCoherent) {r : DestinationRef} {o : Destination} (span : DeductionInput)
    (ho : s.destinations.get? r = some o) :
    CacheFaithful { s with
      destinations :=
        s.destinations.update r fun _ => (span.deduceDestination (some o)).getD o } ↔
      s.LeavesCacheAlone (.endSpan r span) := by
  constructor
  · rintro h ⟨cs, hit⟩
    by_contra hvalid
    obtain ⟨d, o', hparse, -⟩ := (hc cs (some r) hit).2 r rfl
    obtain ⟨e, he, hservice⟩ := DeductionInput.deduceDestination_service hvalid o
    -- The parser sets no service, the end of the span does.
    have hproperties := h cs r d e hit hparse (by simp [ho, he])
    have hunset : d.properties.service = none := by
      unfold Destination.properties
      rw [DbConnectionStringParser.parseConnectionString_service hparse]
      rfl
    rw [← hproperties] at hunset
    have hsome : e.properties.service.isSome := hservice
    rw [hunset] at hsome
    cases hsome
  · intro hl
    refine hf.of_update ho fun hcached => ?_
    rw [DeductionInput.deduceDestination_of_hasInvalidUrl (hl hcached)]
    rfl

/-- A lookup whose result is put into the cache. -/
theorem cacheFaithful_miss_iff {s s' : DestinationLookup} (hf : s.CacheFaithful)
    (hc : s.CacheCoherent) {cs : String} {d : Destination} {defaultPort : Option Int32}
    (hstep : Transition s (.getDestination (some cs) false defaultPort) s')
    (hparse : parseConnectionString cs = some d) (hroom : s.cacheCount < maxCacheSize)
    (hcache : s'.cache = (cs, some s.destinations.size) :: s.cache)
    (hdestinations : s'.destinations = s.destinations.alloc (d.fillPort defaultPort)) :
    s'.CacheFaithful ↔ s.LeavesCacheAlone (.getDestination (some cs) false defaultPort) := by
  have hhit : s'.cache.lookup cs = some (some s.destinations.size) := by
    rw [hcache, List.lookup_cons_self]
  have hget : s'.destinations.get? s.destinations.size = some (d.fillPort defaultPort) := by
    rw [hdestinations, Store.get?_alloc_size]
  constructor
  · intro h cs' d' hcs _ hparse' hport
    cases hcs
    rw [hparse] at hparse'
    cases hparse'
    have hfilled := h cs _ d _ hhit hparse hget
    exact .inl ((fillPort_properties_eq_iff rfl).mp hfilled hport)
  · intro hl cs' r d' o' hit' hparse' ho'
    rcases lookup_step hstep hit' with hold | ⟨hnone, -⟩ | ⟨d₁, dp, hr, hparse₁, hlabel, -, -, -⟩
    · obtain ⟨d₂, o, hparse₂, ho⟩ := (hc cs' (some r) hold).2 r rfl
      have hkept := Store.get?_alloc_of_some ho (d.fillPort defaultPort)
      rw [hdestinations, hkept] at ho'
      cases ho'
      exact hf cs' r d' _ hold hparse' ho
    · cases hnone
    · cases hr
      cases hlabel
      rw [hget] at ho'
      cases ho'
      rw [hparse] at hparse'
      cases hparse'
      rw [fillPort_properties_eq_iff rfl]
      intro hport
      rcases hl cs d rfl rfl hparse hport with hnone | ⟨-, hfull⟩
      · exact hnone
      · omega

/-- A connection string that is not parsed asks nothing of the call. -/
theorem leavesCacheAlone_of_not_parsed {s : DestinationLookup} {cs : String}
    (hnone : parseConnectionString cs = none) (isEmbeddedDb : Bool)
    (defaultPort : Option Int32) :
    s.LeavesCacheAlone (.getDestination (some cs) isEmbeddedDb defaultPort) := by
  intro cs' d hcs _ hparse
  cases hcs
  rw [hnone] at hparse
  cases hparse

/-- A step keeps the cached objects as they were parsed exactly when it leaves them alone. -/
theorem cacheFaithful_step_iff {s s' : DestinationLookup} {l : LookupStep}
    (hc : s.CacheCoherent) (hf : s.CacheFaithful) (hstep : s.step l = some s') :
    s'.CacheFaithful ↔ s.LeavesCacheAlone l := by
  have htransition := step_transition hstep
  cases step_transition hstep with
  | noLookup defaultPort hnone =>
    refine iff_of_true hf ?_
    intro cs d hcs hembedded
    rcases hnone with hnone | hnone
    · rw [hnone] at hcs
      cases hcs
    · rw [hembedded] at hnone
      cases hnone
  | @hitNull cs defaultPort hit =>
    exact iff_of_true hf (leavesCacheAlone_of_not_parsed ((hc cs none hit).1 rfl) _ _)
  | hit defaultPort hit => exact cacheFaithful_hit_iff hc hf defaultPort hit
  | @missNull cs defaultPort miss hnone hroom =>
    refine iff_of_true ?_ (leavesCacheAlone_of_not_parsed hnone _ _)
    intro cs' r d o hit hparse ho
    rcases lookup_step htransition hit with hold | ⟨hnull, -⟩ | ⟨d₁, dp, -, hparse₁, hlabel, -⟩
    · exact hf cs' r d o hold hparse ho
    · cases hnull
    · cases hlabel
      rw [hnone] at hparse₁
      cases hparse₁
  | @missNullFull cs defaultPort miss hnone hfull =>
    exact iff_of_true hf (leavesCacheAlone_of_not_parsed hnone _ _)
  | miss defaultPort miss hparse hroom =>
    exact cacheFaithful_miss_iff hf hc htransition hparse hroom rfl rfl
  | @missFull cs d defaultPort miss hparse hfull =>
    refine iff_of_true ?_ ?_
    · refine hf.of_same rfl fun r o' ho' hcached => ?_
      obtain ⟨cs', hit⟩ := hcached
      obtain ⟨d', o, -, ho⟩ := (hc cs' (some r) hit).2 r rfl
      rw [Store.get?_alloc_of_some ho] at ho'
      cases ho'
      exact ⟨_, ho, rfl⟩
    · intro cs' d' hcs _ _ _
      cases hcs
      exact .inr ⟨miss, hfull⟩
  | endSpan span hd => exact cacheFaithful_endSpan_iff hf hc span hd

/-- **Independence of the history**: in every state of a run all lookups are as on a fresh
    parser, exactly when every step of the run left the cached destinations alone. -/
theorem lookup_independent_iff (ls : List LookupStep) :
    destinationLookupSystem.Always LooksUpAsFresh new ls ↔
      destinationLookupSystem.Along LeavesCacheAlone new ls := by
  refine LTS.System.always_iff_along (I := CacheCoherent) (fun _ _ _ h hstep => h.step hstep) ?_
    cacheCoherent_new ((looksUpAsFresh_iff cacheCoherent_new).mpr cacheFaithful_new) ls
  intro s l s' hc hlookups hstep
  rw [looksUpAsFresh_iff hc] at hlookups
  rw [looksUpAsFresh_iff (hc.step hstep)]
  exact cacheFaithful_step_iff hc hlookups hstep

end DestinationLookup

end

namespace DestinationLookup

attribute [local instance] InvariantCulture.ascii

/-- The default port of the first call stays with the string. -/
theorem lookup_independent_counterexample :
    ¬ ∀ ls, destinationLookupSystem.Always LooksUpAsFresh new ls := by
  intro h
  have hlast := (h [.getDestination (some "Server=db") false (some 1433)]).last
    (show destinationLookupSystem.run new _ = some _ from rfl)
  have hsame := hlast (some "Server=db") false (some 3306)
  exact absurd hsame (by decide +kernel)

end DestinationLookup

end ApmAgent
