import ApmAgent.Helpers.ParserWithState
import ApmAgent.Model.DestinationLookup
import Mathlib.Data.List.Nodup

/-! # The cache of parsed connection strings

  `ExtractDestination` looks a string up in a concurrent dictionary, parses it
  if it is not there, and adds the result as long as a counter beside the
  dictionary is below `MaxCacheSize`. The test of the counter, the addition and
  the increment of the counter are three steps, and other calls can come in
  between.

  * `extractDestination_returns`: a call returns a destination or null;
  * `cache_correct_and_bounded`: whatever the interleaving, cached and returned
    results are those of their own strings; the cache stays within
    `maxCacheSize` in the runs where calls pass the test only with room for all
    that have passed it and are not counted;
  * `along_testsWithRoom`: so it does where calls exclude each other there;
  * `cache_length_lt`: how far it can grow beyond, by the number of calls
    that are between the test and the increment.
-/

namespace ApmAgent

open DbConnectionStringParser

/-! ### One call after the other -/

/-- `_cache` and `_cacheCount`. -/
structure ResultCache where
  cache : List (String × Option Destination)
  cacheCount : Nat

section

variable [InvariantCulture]

/-- `ExtractDestination`, on the parser that `ParserWithState` runs with some fuel. -/
def ResultCache.extractDestination (c : ResultCache) (fuel : Nat) (dbConnectionString : String) :
    Option (ResultCache × CallResult) :=
  match c.cache.lookup dbConnectionString with
  | some destination => some (c, ⟨.ok destination, 0⟩)
  | none =>
    (runConnectionString fuel dbConnectionString).map fun result =>
      match result.destination with
      | .error _ => (c, result)
      | .ok destination =>
        if c.cacheCount < maxCacheSize then
          (⟨(dbConnectionString, destination) :: c.cache, c.cacheCount + 1⟩, result)
        else (c, result)

/-- Every call ends with a destination or null, and never nests deeper than the limit. -/
theorem extractDestination_returns (c : ResultCache) (dbConnectionString : String) :
    ∃ bound, ∀ fuel, bound ≤ fuel →
      ∃ c' result, c.extractDestination fuel dbConnectionString = some (c', result) ∧
        (∃ destination : Option Destination, result.destination = .ok destination) ∧
        result.deepest ≤ maxNestingDepth := by
  refine ⟨2 * dbConnectionString.length + 2, fun fuel hfuel => ?_⟩
  obtain ⟨result, hrun, hresult, hdeepest⟩ := runConnectionString_returns hfuel
  unfold ResultCache.extractDestination
  cases c.cache.lookup dbConnectionString with
  | some destination => exact ⟨_, _, rfl, ⟨destination, rfl⟩, Nat.zero_le _⟩
  | none =>
    simp only [hrun, Option.map_some, hresult]
    split
    · exact ⟨_, _, rfl, ⟨_, hresult⟩, hdeepest⟩
    · exact ⟨_, _, rfl, ⟨_, hresult⟩, hdeepest⟩

end

/-! ### Calls at the same time -/

/-- Where a call of `ExtractDestination` is. -/
inductive ExtractPhase where
  | started
  /-- `TryGetValue` did not find the string. -/
  | missed
  | parsed (destination : Option Destination)
  /-- `_cacheCount` was below `MaxCacheSize`. -/
  | hasRoom (destination : Option Destination)
  /-- `TryAdd` has added the string, `_cacheCount` is not incremented yet. -/
  | added (destination : Option Destination)
  | returned (destination : Option Destination)
  deriving DecidableEq

/-- What the call has parsed or found. -/
def ExtractPhase.destination? : ExtractPhase → Option (Option Destination)
  | started | missed => none
  | parsed destination | hasRoom destination | added destination | returned destination =>
    some destination

def ExtractPhase.isHasRoom : ExtractPhase → Bool
  | hasRoom _ => true
  | _ => false

def ExtractPhase.isAdded : ExtractPhase → Bool
  | added _ => true
  | _ => false

structure ExtractCall where
  dbConnectionString : String
  phase : ExtractPhase

/-- The cache of one parser with the calls on it. -/
structure DestinationCache where
  cache : List (String × Option Destination)
  cacheCount : Nat
  calls : Store ExtractCall

inductive CacheLabel where
  | call (dbConnectionString : String)
  /-- The call goes one step on. -/
  | next (i : Nat)

namespace DestinationCache

/-- A fresh parser. -/
def new : DestinationCache where
  cache := []
  cacheCount := 0
  calls := .empty

def setPhase (s : DestinationCache) (i : Nat) (phase : ExtractPhase) : DestinationCache :=
  { s with calls := s.calls.update i fun call => { call with phase } }

/-- Additions that `_cacheCount` does not count yet. -/
def uncounted (s : DestinationCache) : Nat := s.calls.countP (·.phase.isAdded)

/-- Calls that have seen room in the cache and not tried to add their string yet. -/
def adding (s : DestinationCache) : Nat := s.calls.countP (·.phase.isHasRoom)

section

variable [InvariantCulture]

/-- The next step of a call; every access to the dictionary or the counter is one. -/
def nextStep (s : DestinationCache) (i : Nat) (call : ExtractCall) : Option DestinationCache :=
  match call.phase with
  | .started =>
    match s.cache.lookup call.dbConnectionString with
    | some destination => some (s.setPhase i (.returned destination))
    | none => some (s.setPhase i .missed)
  | .missed => some (s.setPhase i (.parsed (parseConnectionString call.dbConnectionString)))
  | .parsed destination =>
    if s.cacheCount < maxCacheSize then some (s.setPhase i (.hasRoom destination))
    else some (s.setPhase i (.returned destination))
  | .hasRoom destination =>
    match s.cache.lookup call.dbConnectionString with
    | some _ => some (s.setPhase i (.returned destination))
    | none =>
      some ({ s with cache := (call.dbConnectionString, destination) :: s.cache }.setPhase i
        (.added destination))
  | .added destination =>
    some ({ s with cacheCount := s.cacheCount + 1 }.setPhase i (.returned destination))
  | .returned _ => none

def step (s : DestinationCache) : CacheLabel → Option DestinationCache
  | .call dbConnectionString =>
    some { s with calls := s.calls.alloc ⟨dbConnectionString, .started⟩ }
  | .next i => (s.calls.get? i).bind (s.nextStep i)

/-- Any number of calls on one parser, in any interleaving of their steps. -/
def system : LTS.System DestinationCache CacheLabel where
  init s := s = .new
  step := step

/-! ### What a step does -/

/-- The steps of a call. -/
inductive Next (s : DestinationCache) (i : Nat) (call : ExtractCall) : DestinationCache → Prop where
  | found {d : Option Destination} (hphase : call.phase = .started)
      (hit : s.cache.lookup call.dbConnectionString = some d) :
      Next s i call (s.setPhase i (.returned d))
  | missed (hphase : call.phase = .started)
      (miss : s.cache.lookup call.dbConnectionString = none) :
      Next s i call (s.setPhase i .missed)
  | parsed (hphase : call.phase = .missed) :
      Next s i call (s.setPhase i (.parsed (parseConnectionString call.dbConnectionString)))
  | hasRoom {d : Option Destination} (hphase : call.phase = .parsed d)
      (hroom : s.cacheCount < maxCacheSize) : Next s i call (s.setPhase i (.hasRoom d))
  | full {d : Option Destination} (hphase : call.phase = .parsed d)
      (hfull : maxCacheSize ≤ s.cacheCount) : Next s i call (s.setPhase i (.returned d))
  | late {d d' : Option Destination} (hphase : call.phase = .hasRoom d)
      (hit : s.cache.lookup call.dbConnectionString = some d') :
      Next s i call (s.setPhase i (.returned d))
  | added {d : Option Destination} (hphase : call.phase = .hasRoom d)
      (miss : s.cache.lookup call.dbConnectionString = none) :
      Next s i call
        ({ s with cache := (call.dbConnectionString, d) :: s.cache }.setPhase i (.added d))
  | counted {d : Option Destination} (hphase : call.phase = .added d) :
      Next s i call ({ s with cacheCount := s.cacheCount + 1 }.setPhase i (.returned d))

variable {s s' : DestinationCache} {i : Nat} {call : ExtractCall} {l : CacheLabel}

theorem next_of_nextStep (h : s.nextStep i call = some s') : Next s i call s' := by
  unfold nextStep at h
  split at h
  · next hphase =>
    split at h
    · next hit => cases h; exact .found hphase hit
    · next miss => cases h; exact .missed hphase miss
  · next hphase => cases h; exact .parsed hphase
  · next hphase =>
    split at h
    · next hroom => cases h; exact .hasRoom hphase hroom
    · next hfull => cases h; exact .full hphase (Nat.le_of_not_lt hfull)
  · next hphase =>
    split at h
    · next hit => cases h; exact .late hphase hit
    · next miss => cases h; exact .added hphase miss
  · next hphase => cases h; exact .counted hphase
  · cases h

/-- With room a call passes the size test. -/
theorem eq_of_next_parsed {d : Option Destination} (hnext : Next s i call s')
    (hphase : call.phase = .parsed d) (hroom : s.cacheCount < maxCacheSize) :
    s' = s.setPhase i (.hasRoom d) := by
  cases hnext with
  | hasRoom hphase' _ =>
    rw [hphase] at hphase'
    cases hphase'
    rfl
  | full _ hfull => exact absurd hroom (Nat.not_lt.mpr hfull)
  | found hphase' | missed hphase' | late hphase' | added hphase' =>
    rw [hphase] at hphase'
    cases hphase'
  | parsed hphase' | counted hphase' =>
    rw [hphase] at hphase'
    cases hphase'

/-- A new call, or a step of a call. -/
theorem step_cases (h : system.step s l = some s') :
    (∃ cs, l = .call cs ∧ s' = { s with calls := s.calls.alloc ⟨cs, .started⟩ }) ∨
      ∃ i call, l = .next i ∧ s.calls.get? i = some call ∧ Next s i call s' := by
  cases l with
  | call cs => exact .inl ⟨cs, rfl, (Option.some.inj h).symm⟩
  | next i =>
    obtain ⟨call, hcall, hnext⟩ := Option.bind_eq_some_iff.mp h
    exact .inr ⟨i, call, rfl, hcall, next_of_nextStep hnext⟩

/-! ### Results -/

/-- What is cached for a string, and what a call has, is the result of parsing the string. -/
structure Correct (s : DestinationCache) : Prop where
  cached : ∀ entry ∈ s.cache, entry.2 = parseConnectionString entry.1
  called : ∀ i call d, s.calls.get? i = some call → call.phase.destination? = some d →
    d = parseConnectionString call.dbConnectionString

theorem Correct.of_lookup (h : s.Correct) {cs : String} {d : Option Destination}
    (hit : s.cache.lookup cs = some d) : d = parseConnectionString cs := by
  obtain ⟨before, after, hcache, -⟩ := List.lookup_eq_some_iff.mp hit
  refine h.cached (cs, d) ?_
  rw [hcache]
  exact List.mem_append_right _ List.mem_cons_self

theorem correct_new : Correct new where
  cached := List.forall_mem_nil _
  called _ _ _ h := by cases h

/-- A call gets on to a phase with the result it should have, or with none. -/
theorem Correct.setPhase (h : s.Correct) (hcall : s.calls.get? i = some call) {phase : ExtractPhase}
    (hphase : ∀ d, phase.destination? = some d →
      d = parseConnectionString call.dbConnectionString) : (s.setPhase i phase).Correct := by
  refine ⟨h.cached, fun j call' d hj hd => ?_⟩
  obtain ⟨old, hold, rfl⟩ := Store.get?_update_eq_some.mp hj
  by_cases hij : i = j
  · subst hij
    rw [hcall] at hold
    cases hold
    rw [if_pos rfl] at hd ⊢
    exact hphase d hd
  · rw [if_neg hij] at hd ⊢
    exact h.called j old d hold hd

/-- A call gets on with the result it has. -/
theorem Correct.setPhase_same (h : s.Correct) (hcall : s.calls.get? i = some call)
    {phase : ExtractPhase} (hphase : phase.destination? = call.phase.destination?) :
    (s.setPhase i phase).Correct :=
  h.setPhase hcall fun d hd => h.called i call d hcall (hphase ▸ hd)

theorem correct_step (h : s.Correct) (hstep : system.step s l = some s') : s'.Correct := by
  obtain ⟨cs, -, rfl⟩ | ⟨i, call, -, hcall, hnext⟩ := step_cases hstep
  · refine ⟨h.cached, fun j call d hj hd => ?_⟩
    rw [Store.get?_alloc] at hj
    split at hj
    · cases hj
      cases hd
    · exact h.called j call d hj hd
  · cases hnext with
    | found hphase hit =>
      refine h.setPhase hcall fun d hd => ?_
      cases hd
      exact h.of_lookup hit
    | missed hphase miss => exact h.setPhase hcall nofun
    | parsed hphase =>
      refine h.setPhase hcall fun d hd => ?_
      cases hd
      rfl
    | hasRoom hphase hroom => exact h.setPhase_same hcall (by rw [hphase]; rfl)
    | full hphase hfull => exact h.setPhase_same hcall (by rw [hphase]; rfl)
    | late hphase hit => exact h.setPhase_same hcall (by rw [hphase]; rfl)
    | counted hphase =>
      have hcounted : Correct { s with cacheCount := s.cacheCount + 1 } := ⟨h.cached, h.called⟩
      exact hcounted.setPhase_same hcall (by rw [hphase]; rfl)
    | @added d hphase miss =>
      have hd : d = parseConnectionString call.dbConnectionString :=
        h.called i call d hcall (by rw [hphase]; rfl)
      have hadded : Correct { s with cache := (call.dbConnectionString, d) :: s.cache } := by
        refine ⟨fun entry hentry => ?_, h.called⟩
        obtain rfl | hentry := List.mem_cons.mp hentry
        · exact hd
        · exact h.cached entry hentry
      refine hadded.setPhase hcall fun d' hd' => ?_
      cases hd'
      exact hd

/-! ### The size of the cache -/

/-- Every entry is counted, or was added by a call that is about to count it. -/
def Counted (s : DestinationCache) : Prop := s.cache.length = s.cacheCount + s.uncounted

omit [InvariantCulture] in
/-- What the calls in a phase become by one step of one call. -/
theorem countP_setPhase (hcall : s.calls.get? i = some call) {old : ExtractPhase}
    (hphase : call.phase = old) (phase : ExtractPhase) (p : ExtractPhase → Bool) :
    (s.setPhase i phase).calls.countP (p ·.phase) + (if p old then 1 else 0) =
      s.calls.countP (p ·.phase) + if p phase then 1 else 0 := by
  rw [← hphase]
  exact Store.countP_update hcall (p ·.phase) fun call => { call with phase }

/-- A call adds its string, it counts it, or the cache and the counter stay as they are; and
    only while the counter is below the bound does one more call see room, by the size test. -/
theorem next_counts (hcall : s.calls.get? i = some call) (hnext : Next s i call s') :
    (s'.cache.length = s.cache.length ∧ s'.cacheCount = s.cacheCount ∧
        s'.uncounted = s.uncounted ∧
        (s'.adding ≤ s.adding ∨ s'.adding = s.adding + 1 ∧ s.cacheCount < maxCacheSize ∧
          ∃ d, call.phase = .parsed d)) ∨
      (s'.cache.length = s.cache.length + 1 ∧ s'.cacheCount = s.cacheCount ∧
        s'.uncounted = s.uncounted + 1 ∧ s'.adding + 1 = s.adding) ∨
      (s'.cache.length = s.cache.length ∧ s'.cacheCount = s.cacheCount + 1 ∧
        s'.uncounted + 1 = s.uncounted ∧ s'.adding = s.adding) := by
  have hcounts {old : ExtractPhase} (hphase : call.phase = old) (phase : ExtractPhase) :=
    And.intro (countP_setPhase hcall hphase phase ExtractPhase.isAdded)
      (countP_setPhase hcall hphase phase ExtractPhase.isHasRoom)
  unfold uncounted adding
  cases hnext with
  | @found d hphase hit =>
    obtain ⟨hu, ha⟩ := hcounts hphase (.returned d)
    exact .inl ⟨rfl, rfl, hu, .inl (Nat.le_of_eq ha)⟩
  | missed hphase miss =>
    obtain ⟨hu, ha⟩ := hcounts hphase .missed
    exact .inl ⟨rfl, rfl, hu, .inl (Nat.le_of_eq ha)⟩
  | parsed hphase =>
    obtain ⟨hu, ha⟩ := hcounts hphase (.parsed (parseConnectionString call.dbConnectionString))
    exact .inl ⟨rfl, rfl, hu, .inl (Nat.le_of_eq ha)⟩
  | @hasRoom d hphase hroom =>
    obtain ⟨hu, ha⟩ := hcounts hphase (.hasRoom d)
    exact .inl ⟨rfl, rfl, hu, .inr ⟨ha, hroom, d, hphase⟩⟩
  | @full d hphase hfull =>
    obtain ⟨hu, ha⟩ := hcounts hphase (.returned d)
    exact .inl ⟨rfl, rfl, hu, .inl (Nat.le_of_eq ha)⟩
  | @late d d' hphase hit =>
    obtain ⟨hu, ha⟩ := hcounts hphase (.returned d)
    exact .inl ⟨rfl, rfl, hu, .inl (Nat.le_of_succ_le (Nat.le_of_eq ha))⟩
  | @added d hphase miss =>
    obtain ⟨hu, ha⟩ := hcounts hphase (.added d)
    exact .inr (.inl ⟨rfl, rfl, hu, ha⟩)
  | @counted d hphase =>
    obtain ⟨hu, ha⟩ := hcounts hphase (.returned d)
    exact .inr (.inr ⟨rfl, rfl, hu, ha⟩)

omit [InvariantCulture] in
/-- A call that begins changes none of the numbers. -/
theorem call_counts (s : DestinationCache) (cs : String) :
    uncounted { s with calls := s.calls.alloc ⟨cs, .started⟩ } = s.uncounted ∧
      adding { s with calls := s.calls.alloc ⟨cs, .started⟩ } = s.adding :=
  ⟨Store.countP_alloc _ _ _, Store.countP_alloc _ _ _⟩

theorem counted_step (h : s.Counted) (hstep : system.step s l = some s') : s'.Counted := by
  unfold Counted at h ⊢
  obtain ⟨cs, -, rfl⟩ | ⟨i, call, -, hcall, hnext⟩ := step_cases hstep
  · rw [(call_counts s cs).1]
    exact h
  · have := next_counts hcall hnext
    omega

omit [InvariantCulture] in
theorem counted_new : new.Counted := rfl

/-- A call passes the size test only if there is room, besides what is counted, for the calls that
    have passed it before and are not counted yet. -/
def TestsWithRoom (s : DestinationCache) : CacheLabel → Prop
  | .call _ => True
  | .next i => ∀ call d, s.calls.get? i = some call → call.phase = .parsed d →
    s.cacheCount < maxCacheSize → s.cacheCount + s.adding + s.uncounted < maxCacheSize

/-- The entries, with those that calls behind the size test may still add. -/
def Bounded (s : DestinationCache) : Prop :=
  s.Counted ∧ s.cacheCount + s.adding + s.uncounted ≤ maxCacheSize

omit [InvariantCulture] in
theorem bounded_new : new.Bounded := ⟨counted_new, by decide⟩

omit [InvariantCulture] in
theorem Bounded.length_le (h : s.Bounded) : s.cache.length ≤ maxCacheSize := by
  obtain ⟨hcounted, hle⟩ := h
  unfold Counted at hcounted
  omega

/-- Only the size test takes one more call to where it may add its string. -/
theorem bounded_step (h : s.Bounded) (htest : s.TestsWithRoom l)
    (hstep : system.step s l = some s') : s'.Bounded := by
  obtain ⟨hcounted, hle⟩ := h
  refine ⟨counted_step hcounted hstep, ?_⟩
  obtain ⟨cs, -, rfl⟩ | ⟨i, call, rfl, hcall, hnext⟩ := step_cases hstep
  · rw [(call_counts s cs).1, (call_counts s cs).2]
    exact hle
  · obtain ⟨-, hcount, hu, ha | ⟨ha, hroom, d, hphase⟩⟩ | ⟨-, hcount, hu, ha⟩ |
      ⟨-, hcount, hu, ha⟩ := next_counts hcall hnext
    · omega
    · have := htest call d hcall hphase hroom
      omega
    · omega
    · omega

/-! ### How far the cache can grow -/

/-- At most `k` calls are between the size test and the increment. -/
def AtMostAdding (k : Nat) (s : DestinationCache) (l : CacheLabel) : Prop :=
  ∀ s', system.step s l = some s' → s'.adding + s'.uncounted ≤ k

/-- Behind the size test the counter only grows by what has been seen there: with at most `k`
    calls between the test and the increment at a time, the cache has fewer than
    `maxCacheSize + k` entries. -/
theorem cache_length_lt {k : Nat} (hk : 0 < k) {ls : List CacheLabel}
    (h : system.Along (AtMostAdding k) new ls) :
    system.Always (fun s => s.cache.length < maxCacheSize + k) new ls := by
  let I (s : DestinationCache) : Prop :=
    s.Counted ∧ s.cacheCount + s.uncounted + s.adding < maxCacheSize + k
  have hI : system.Always I new ls := by
    refine LTS.System.always_of_along ?_ ⟨counted_new, Nat.lt_add_left _ hk⟩ h
    rintro s l s' ⟨hcounted, hlt⟩ hadding hstep
    refine ⟨counted_step hcounted hstep, ?_⟩
    have hle := hadding s' hstep
    obtain ⟨cs, -, rfl⟩ | ⟨i, call, -, hcall, hnext⟩ := step_cases hstep
    · rw [(call_counts s cs).1, (call_counts s cs).2]
      exact hlt
    · have := next_counts hcall hnext
      omega
  refine hI.mono fun s hs => ?_
  obtain ⟨hcounted, hlt⟩ := hs
  unfold Counted at hcounted
  omega

/-- Calls that exclude each other between the size test and the increment find room there. -/
theorem along_testsWithRoom {ls : List CacheLabel}
    (h : system.Along (AtMostAdding 1) new ls) : system.Along TestsWithRoom new ls := by
  refine LTS.System.Along.imp (I := fun _ => True) (fun _ _ _ _ _ _ => trivial) ?_ trivial h
  rintro s l s' - hexclude hstep
  obtain ⟨cs, rfl, rfl⟩ | ⟨i, call, rfl, hcall, hnext⟩ := step_cases hstep
  · trivial
  · intro call' d hcall' hphase hroom
    rw [hcall] at hcall'
    cases hcall'
    have hle := hexclude s' hstep
    rw [eq_of_next_parsed hnext hphase hroom] at hle
    have hadding : (s.setPhase i (.hasRoom d)).adding = s.adding + 1 :=
      countP_setPhase hcall hphase (.hasRoom d) ExtractPhase.isHasRoom
    have huncounted : (s.setPhase i (.hasRoom d)).uncounted = s.uncounted :=
      countP_setPhase hcall hphase (.hasRoom d) ExtractPhase.isAdded
    -- The call itself is the only one behind the test.
    omega

/-- Cached and returned results are those of their strings in every run; in the runs where calls
    pass the size test with room for all behind it, the cache is within the bound as well; and it
    is nearly so with few calls behind the test, and within the bound with one. -/
theorem cache_correct_and_bounded (ls : List CacheLabel) :
    system.Always Correct new ls ∧
      (system.Along TestsWithRoom new ls →
        system.Always (fun s => s.Correct ∧ s.cache.length ≤ maxCacheSize) new ls) ∧
      ∀ k, 0 < k → system.Along (AtMostAdding k) new ls →
        system.Always (fun s => s.Correct ∧ s.cache.length < maxCacheSize + k) new ls := by
  have hcorrect : system.Always Correct new ls :=
    LTS.System.always_of_invariant (fun s l s' => correct_step) correct_new ls
  refine ⟨hcorrect, fun htests => ?_, fun k hk hadding => ?_⟩
  · have hbounded : system.Always Bounded new ls :=
      LTS.System.always_of_along (fun _ _ _ h htest hstep => bounded_step h htest hstep)
        bounded_new htests
    exact hcorrect.and (hbounded.mono fun s hs => hs.length_le)
  · exact hcorrect.and (cache_length_lt hk hadding)

/-! ### Calls that all see room -/

/-- A call that has seen room. -/
def waiting (cs : String) : ExtractCall := ⟨cs, .hasRoom (parseConnectionString cs)⟩

omit [InvariantCulture] in
/-- The newest call goes to its next phase. -/
theorem setPhase_alloc (cache : List (String × Option Destination)) (cacheCount : Nat)
    (calls : Store ExtractCall) (call : ExtractCall) (phase : ExtractPhase) :
    setPhase ⟨cache, cacheCount, calls.alloc call⟩ calls.size phase =
      ⟨cache, cacheCount, calls.alloc ⟨call.dbConnectionString, phase⟩⟩ := by
  unfold setPhase
  simp only [Store.update_alloc_size]

/-- As long as nothing is counted, a call comes to see room. -/
theorem run_waiting (cs : String) (calls : Store ExtractCall) :
    system.run ⟨[], 0, calls⟩
        [.call cs, .next calls.size, .next calls.size, .next calls.size] =
      some ⟨[], 0, calls.alloc (waiting cs)⟩ := by
  have hnext (call : ExtractCall) :
      step ⟨[], 0, calls.alloc call⟩ (.next calls.size) =
        nextStep ⟨[], 0, calls.alloc call⟩ calls.size call := by
    show (Store.get? _ _).bind _ = _
    rw [Store.get?_alloc_size]
    rfl
  have hroom : 0 < maxCacheSize := by decide
  simp only [LTS.System.run_cons, LTS.System.run_nil]
  show ((step ⟨[], 0, calls.alloc ⟨cs, .started⟩⟩ (.next calls.size)).bind fun s =>
    (step s (.next calls.size)).bind fun s => (step s (.next calls.size)).bind some) = _
  simp only [hnext, nextStep, List.lookup_nil, setPhase_alloc, Option.bind_some, if_pos hroom,
    waiting]

theorem exists_run_waiting (css : List String) (calls : Store ExtractCall) :
    ∃ ls, system.run ⟨[], 0, calls⟩ ls = some ⟨[], 0, ⟨calls.objects ++ css.map waiting⟩⟩ := by
  induction css generalizing calls with
  | nil => exact ⟨[], by simp⟩
  | cons cs css ih =>
    obtain ⟨ls, hrun⟩ := ih (calls.alloc (waiting cs))
    refine ⟨[.call cs, .next calls.size, .next calls.size, .next calls.size] ++ ls, ?_⟩
    rw [LTS.System.run_append, run_waiting cs calls, Option.bind_some, hrun]
    simp [Store.alloc]

/-- Calls that have seen room all add their strings, whatever the counter says. -/
theorem exists_run_added {css : List String} (hnodup : css.Nodup)
    (cache : List (String × Option Destination)) (calls : List ExtractCall)
    (hnew : ∀ cs ∈ css, cache.lookup cs = none) :
    ∃ ls s, system.run ⟨cache, 0, ⟨calls ++ css.map waiting⟩⟩ ls = some s ∧
      s.cache.length = cache.length + css.length := by
  induction css generalizing cache calls with
  | nil => exact ⟨[], _, rfl, rfl⟩
  | cons cs css ih =>
    obtain ⟨hcs, hcss⟩ := List.nodup_cons.mp hnodup
    obtain ⟨hmiss, hmisses⟩ := List.forall_mem_cons.mp hnew
    have hrest : ∀ cs' ∈ css,
        ((cs, parseConnectionString cs) :: cache).lookup cs' = none := by
      intro cs' hcs'
      have hne : (cs' == cs) = false := by
        refine beq_false_of_ne ?_
        rintro rfl
        exact hcs hcs'
      rw [List.lookup_cons, hne]
      exact hmisses cs' hcs'
    obtain ⟨ls, s, hrun, hlength⟩ := ih hcss ((cs, parseConnectionString cs) :: cache)
      (calls ++ [⟨cs, .added (parseConnectionString cs)⟩]) hrest
    have hget : (⟨calls ++ waiting cs :: css.map waiting⟩ : Store ExtractCall).get? calls.length =
        some (waiting cs) := by
      simp [Store.get?]
    have hstep : system.step ⟨cache, 0, ⟨calls ++ (cs :: css).map waiting⟩⟩ (.next calls.length) =
        some ⟨(cs, parseConnectionString cs) :: cache, 0,
          ⟨calls ++ [⟨cs, .added (parseConnectionString cs)⟩] ++ css.map waiting⟩⟩ := by
      show (Store.get? _ _).bind _ = _
      rw [List.map_cons, hget]
      show nextStep _ calls.length (waiting cs) = _
      simp only [nextStep, waiting, hmiss, setPhase]
      simp [Store.update, List.modify_eq_set_getElem?]
    refine ⟨.next calls.length :: ls, s, ?_, ?_⟩
    · rw [LTS.System.run_cons, hstep]
      exact hrun
    · rw [hlength, List.length_cons, List.length_cons]
      omega

/-- Any number of calls with different strings can all add them. -/
theorem exists_run_all_cached {css : List String} (hnodup : css.Nodup) :
    ∃ ls s, system.run new ls = some s ∧ s.cache.length = css.length := by
  obtain ⟨ls, hwaiting⟩ := exists_run_waiting css .empty
  obtain ⟨ls', s, hadded, hlength⟩ := exists_run_added hnodup [] [] (fun _ _ => rfl)
  refine ⟨ls ++ ls', s, ?_, ?_⟩
  · rw [LTS.System.run_append]
    show (system.run ⟨[], 0, .empty⟩ ls).bind _ = _
    rw [hwaiting]
    exact hadded
  · rw [hlength, List.length_nil, Nat.zero_add]

end

section

attribute [local instance] InvariantCulture.ascii

/-- A single call, from its beginning to its end. -/
theorem cache_correct_and_bounded_one :
    system.Always (fun s => s.Correct ∧ s.cache.length ≤ maxCacheSize) new
      [.call "Server=db", .next 0, .next 0, .next 0, .next 0, .next 0] := by
  refine (cache_correct_and_bounded _).2.1 ?_
  intro s₁ h₁
  cases h₁
  refine ⟨trivial, fun s₂ h₂ => ⟨?_, ?_⟩⟩
  · rintro call d hcall hphase
    cases hcall
    cases hphase
  cases h₂
  refine fun s₃ h₃ => ⟨?_, ?_⟩
  · rintro call d hcall hphase
    cases hcall
    cases hphase
  cases h₃
  refine fun s₄ h₄ => ⟨?_, ?_⟩
  · rintro call d hcall hphase -
    -- No other call is behind the test.
    show 0 + 0 + 0 < maxCacheSize
    decide
  cases h₄
  refine fun s₅ h₅ => ⟨?_, ?_⟩
  · rintro call d hcall hphase
    cases hcall
    cases hphase
  cases h₅
  refine fun s₆ h₆ => ⟨?_, trivial⟩
  rintro call d hcall hphase
  cases hcall
  cases hphase

/-- 101 calls with different strings test the counter before any of them adds its string. -/
theorem cache_bounded_counterexample :
    ∃ ls s, system.run new ls = some s ∧ maxCacheSize < s.cache.length := by
  have hnodup : ((List.range 101).map fun n => String.ofList (List.replicate n 'a')).Nodup := by
    refine List.Nodup.map (fun n m h => ?_) List.nodup_range
    have hlength := congrArg (fun s => s.toList.length) h
    simpa using hlength
  obtain ⟨ls, s, hrun, hlength⟩ := exists_run_all_cached hnodup
  refine ⟨ls, s, hrun, ?_⟩
  rw [hlength, List.length_map, List.length_range]
  decide

end

end DestinationCache

end ApmAgent
