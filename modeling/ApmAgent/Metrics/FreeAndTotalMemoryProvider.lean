import ApmAgent.Framework.Loop
import ApmAgent.Helpers.Numbers

/-! # FreeAndTotalMemoryProvider

  Free and total memory of the system. On Linux they are read line by line from
  `/proc/meminfo`. The loop is left when every value that is collected was
  found; at the end of the file, where the reader returns null for ever, it is
  left with exactly two samples only.

  `getSamplesLinux_returns_iff` says for which files it is left at all.
-/

namespace ApmAgent

/-- `MetricSample`. -/
structure MetricSample where
  key : String
  value : Double
  deriving DecidableEq

/-- `FreeAndTotalMemoryProvider`, as far as it does not change. -/
structure FreeAndTotalMemoryProvider where
  collectFreeMemory : Bool
  collectTotalMemory : Bool
  deriving DecidableEq, Repr

namespace FreeAndTotalMemoryProvider

def freeMemory : String := "system.memory.actual.free"

def totalMemory : String := "system.memory.total"

/-! ### One line -/

/-- The text behind the first occurrence of `name`; there is one exactly if
    `line.Contains(name)`. -/
def textAfter (name : List Char) : List Char → Option (List Char)
  | [] => if name = [] then some [] else none
  | c :: cs =>
    if name.isPrefixOf (c :: cs) then some ((c :: cs).drop name.length) else textAfter name cs

/-- Is this a line about `name`? -/
def isEntry (name : String) (line : String) : Bool :=
  (textAfter name.toList line.toList).isSome

section

variable [InvariantCulture]

/-- `GetEntry`: a number, or a number of kilobytes. -/
def getEntry (line name : String) : Option UInt64 := do
  let values ← textAfter name.toList line.toList
  if values.all isWhiteSpace then none
  else
    match split ' ' (trim (String.ofList values)) with
    | [item] => tryParseULong item
    | [item, unit] =>
      if toLowerInvariantStr unit = "kb" then
        -- The product wraps around.
        (tryParseULong item).map (· * 1024)
      else none
    | _ => none

/-- What the two `if` blocks of the loop add for a line about `name`. -/
def entrySamples (collect : Bool) (name key : String) (line : String) : List MetricSample :=
  if isEntry name line && collect then
    ((getEntry line name).map fun res => ⟨key, .finite res.toNat⟩).toList
  else []

/-! ### The loop -/

/-- The local variables of the loop, and what the reader has not read yet. -/
structure ReadState where
  unread : List String
  line : Option String
  retVal : List MetricSample
  hasMemFree : Bool
  hasMemTotal : Bool

/-- `line = sr.ReadLine()`. -/
def ReadState.readLine (s : ReadState) : ReadState :=
  { s with line := s.unread.head?, unread := s.unread.tail }

variable (p : FreeAndTotalMemoryProvider)

/-- The samples of a line. -/
def lineSamples (line : String) : List MetricSample :=
  entrySamples p.collectFreeMemory "MemAvailable:" freeMemory line ++
    entrySamples p.collectTotalMemory "MemTotal:" totalMemory line

/-- The `if` blocks on the current line. -/
def readEntries (s : ReadState) : ReadState :=
  match s.line with
  | none => s
  | some line =>
    { s with
      retVal := s.retVal ++ p.lineSamples line
      -- Also for an entry that cannot be read.
      hasMemFree := s.hasMemFree || (isEntry "MemAvailable:" line && p.collectFreeMemory)
      hasMemTotal := s.hasMemTotal || (isEntry "MemTotal:" line && p.collectTotalMemory) }

omit [InvariantCulture] in
/-- The condition of the `break`. -/
def hasAll (s : ReadState) : Bool :=
  (s.hasMemFree || !p.collectFreeMemory) && (s.hasMemTotal || !p.collectTotalMemory)

/-- One turn of the loop, the condition of the `while` included. -/
def loopBody (s : ReadState) : ReadState ⊕ List MetricSample :=
  if s.line = none ∧ s.retVal.length = 2 then .inr s.retVal
  else
    let s := p.readEntries s
    if p.hasAll s then .inr s.retVal else .inl s.readLine

/-- Before the loop: the first line is read. -/
def ReadState.start (meminfo : List String) : ReadState :=
  ReadState.readLine
    { unread := meminfo
      line := none
      retVal := []
      hasMemFree := false
      hasMemTotal := false }

/-- `GetSamples` on Linux returns `samples` for a file with the given lines. -/
def ReturnsLinux (meminfo : List String) (samples : List MetricSample) : Prop :=
  Loop.Returns p.loopBody (.start meminfo) samples

/-! ### Where the loop ends -/

omit [InvariantCulture] in
/-- Every value that is collected has a line. -/
def hasAllLines (meminfo : List String) : Bool :=
  (meminfo.any (isEntry "MemAvailable:") || !p.collectFreeMemory) &&
    (meminfo.any (isEntry "MemTotal:") || !p.collectTotalMemory)

/-- The samples of all lines. -/
def allSamples (meminfo : List String) : List MetricSample := meminfo.flatMap p.lineSamples

variable {p} {s : ReadState}

/-- The loop goes on at the end of the file as it stands. -/
theorem not_returns_endOfFile (hline : s.line = none) (hunread : s.unread = [])
    (hlength : s.retVal.length ≠ 2) (hall : p.hasAll s = false) (samples : List MetricSample) :
    ¬ Loop.Returns p.loopBody s samples := by
  refine Loop.not_returns_of_invariant (I := fun t => t = s) ?_ rfl
  rintro t rfl
  refine ⟨t, ?_, rfl⟩
  have hread : p.readEntries t = t := by rw [readEntries, hline]
  have hnext : t.readLine = t := by
    cases t
    simp_all [ReadState.readLine]
  rw [loopBody, if_neg (fun h => hlength h.2)]
  simp [hread, hall, hnext]

/-- Does the rest of the file complete what was found so far? -/
def hasAllWith (p : FreeAndTotalMemoryProvider) (s : ReadState) (pending : List String) : Bool :=
  (s.hasMemFree || pending.any (isEntry "MemAvailable:") || !p.collectFreeMemory) &&
    (s.hasMemTotal || pending.any (isEntry "MemTotal:") || !p.collectTotalMemory)

omit [InvariantCulture] in
theorem hasAllWith_nil : p.hasAllWith s [] = p.hasAll s := by
  simp [hasAllWith, hasAll]

theorem hasAllWith_cons {line : String} {pending : List String} (hline : s.line = some line) :
    p.hasAllWith s (line :: pending) = p.hasAllWith (p.readEntries s) pending := by
  simp only [hasAllWith, readEntries, hline, List.any_cons]
  -- A line of a kind that is not collected counts for neither side.
  cases p.collectFreeMemory <;> cases p.collectTotalMemory <;> simp [Bool.or_assoc]

omit [InvariantCulture] in
theorem hasAllWith_of_hasAll (h : p.hasAll s = true) (pending : List String) :
    p.hasAllWith s pending = true := by
  simp only [hasAll, Bool.and_eq_true, Bool.or_eq_true] at h
  simp only [hasAllWith, Bool.and_eq_true, Bool.or_eq_true]
  exact ⟨h.1.imp_left .inl, h.2.imp_left .inl⟩

/-- At the end of the file the loop is left if everything was found, or with two samples. -/
theorem loopBody_endOfFile (hline : s.line = none)
    (h : p.hasAll s = true ∨ s.retVal.length = 2) : p.loopBody s = .inr s.retVal := by
  have hread : p.readEntries s = s := by rw [readEntries, hline]
  by_cases hlength : s.retVal.length = 2
  · rw [loopBody, if_pos ⟨hline, hlength⟩]
  · rw [loopBody, if_neg (fun hexit => hlength hexit.2), hread]
    simp [h.resolve_right hlength]

/-- A line completes what is collected, or the loop goes on with the next one. -/
theorem loopBody_line {line : String} (hline : s.line = some line) :
    p.loopBody s =
      if p.hasAll (p.readEntries s) then .inr (p.readEntries s).retVal
      else .inl (p.readEntries s).readLine := by
  rw [loopBody, if_neg (by simp [hline])]

theorem readEntries_retVal {line : String} (hline : s.line = some line) :
    (p.readEntries s).retVal = s.retVal ++ p.lineSamples line := by
  simp [readEntries, hline]

theorem readEntries_unread : (p.readEntries s).unread = s.unread := by
  unfold readEntries
  split <;> rfl

/-- What is found in the middle of the file: the rest completes it, or brings the samples to
    two. -/
def Completes (p : FreeAndTotalMemoryProvider) (s : ReadState) (pending : List String) : Prop :=
  p.hasAllWith s pending = true ∨ (s.retVal ++ p.allSamples pending).length = 2

theorem completes_cons {line : String} {pending : List String} (hline : s.line = some line) :
    p.Completes s (line :: pending) ↔ p.Completes (p.readEntries s).readLine pending := by
  have hretVal : (p.readEntries s).readLine.retVal = s.retVal ++ p.lineSamples line :=
    readEntries_retVal hline
  have hall : p.hasAllWith (p.readEntries s).readLine pending =
      p.hasAllWith (p.readEntries s) pending := rfl
  rw [Completes, Completes, hasAllWith_cons hline, hretVal, hall]
  simp [allSamples, List.append_assoc]

/-- One turn for each line, and one for the end of the file, are enough. -/
theorem Completes.runFor_isSome {pending : List String} (h : p.Completes s pending)
    (hline : s.line = pending.head?) (hunread : s.unread = pending.tail) :
    (Loop.runFor p.loopBody (pending.length + 1) s).isSome := by
  induction pending generalizing s with
  | nil =>
    have hend : p.hasAll s = true ∨ s.retVal.length = 2 := by
      simpa [Completes, hasAllWith_nil, allSamples] using h
    simp [Loop.runFor, loopBody_endOfFile hline hend]
  | cons line pending ih =>
    replace hline : s.line = some line := hline
    have hnext := ih ((completes_cons hline).mp h)
      (congrArg List.head? (readEntries_unread.trans hunread))
      (congrArg List.tail (readEntries_unread.trans hunread))
    rw [List.length_cons, Loop.runFor, loopBody_line hline]
    cases p.hasAll (p.readEntries s) with
    | true => rfl
    | false => exact hnext

/-- Otherwise the loop reaches the end of the file and stays there. -/
theorem completes_of_returns {pending : List String} {samples : List MetricSample}
    (hreturns : Loop.Returns p.loopBody s samples) (hline : s.line = pending.head?)
    (hunread : s.unread = pending.tail) : p.Completes s pending := by
  induction pending generalizing s with
  | nil =>
    by_contra hnot
    simp only [Completes, hasAllWith_nil, allSamples, List.flatMap_nil, List.append_nil, not_or,
      Bool.not_eq_true] at hnot
    exact not_returns_endOfFile hline hunread hnot.2 hnot.1 samples hreturns
  | cons line pending ih =>
    replace hline : s.line = some line := hline
    cases hall : p.hasAll (p.readEntries s) with
    | true => exact .inl (hasAllWith_cons hline ▸ hasAllWith_of_hasAll hall pending)
    | false =>
      have hbody : p.loopBody s = .inl (p.readEntries s).readLine := by
        rw [loopBody_line hline, hall]
        rfl
      exact (completes_cons hline).mpr (ih ((Loop.returns_inl_iff hbody).mp hreturns)
        (congrArg List.head? (readEntries_unread.trans hunread))
        (congrArg List.tail (readEntries_unread.trans hunread)))

theorem completes_start (meminfo : List String) :
    p.Completes (.start meminfo) meminfo ↔
      p.hasAllLines meminfo = true ∨ (p.allSamples meminfo).length = 2 := by
  simp [Completes, hasAllWith, ReadState.start, ReadState.readLine, hasAllLines]

/-- `GetSamples` returns on Linux exactly if every collected value has a line in the file, or
    the lines of the file give two samples. -/
theorem getSamplesLinux_returns_iff (p : FreeAndTotalMemoryProvider) (meminfo : List String) :
    (∃ samples, p.ReturnsLinux meminfo samples) ↔
      p.hasAllLines meminfo = true ∨ (p.allSamples meminfo).length = 2 := by
  rw [← completes_start]
  constructor
  · rintro ⟨samples, hreturns⟩
    exact completes_of_returns hreturns rfl rfl
  · intro h
    obtain ⟨samples, hsamples⟩ := Option.isSome_iff_exists.mp (h.runFor_isSome rfl rfl)
    exact ⟨samples, _, hsamples⟩

/-- What `GetSamples` returns on Linux, `none` if it does not return. -/
def getSamplesLinux (p : FreeAndTotalMemoryProvider) (meminfo : List String) :
    Option (List MetricSample) :=
  Loop.runFor p.loopBody (meminfo.length + 1) (.start meminfo)

/-- The bound on the turns takes no result away. -/
theorem getSamplesLinux_eq_some (meminfo : List String) (samples : List MetricSample) :
    p.getSamplesLinux meminfo = some samples ↔ p.ReturnsLinux meminfo samples := by
  constructor
  · intro h
    exact ⟨_, h⟩
  · intro h
    exact h.runFor ((completes_of_returns h rfl rfl).runFor_isSome rfl rfl)

end

/-- A kernel that does not report `MemAvailable`. -/
def withoutMemAvailable : List String :=
  ["MemTotal:        7964040 kB", "MemFree:         2134960 kB"]

/-- Not every file lets the loop end, whatever is collected. -/
theorem getSamplesLinux_returns_counterexample :
    ¬ ∀ (_ : InvariantCulture) (p : FreeAndTotalMemoryProvider) (meminfo : List String),
      p.collectFreeMemory || p.collectTotalMemory →
        ∃ samples, p.ReturnsLinux meminfo samples := by
  intro h
  obtain ⟨samples, hreturns⟩ := h .ascii ⟨true, true⟩ withoutMemAvailable rfl
  have hcompletes := (@completes_start .ascii ⟨true, true⟩ withoutMemAvailable).mp
    (@completes_of_returns .ascii _ _ _ _ hreturns rfl rfl)
  revert hcompletes
  decide +kernel

end FreeAndTotalMemoryProvider

end ApmAgent
