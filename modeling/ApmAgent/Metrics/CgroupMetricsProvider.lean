import ApmAgent.Framework.Backtracking
import ApmAgent.Metrics.FreeAndTotalMemoryProvider

/-! # CgroupMetricsProvider

  The memory metrics of the control group of the process. When the provider is
  made it looks for the group's files: the lines of the mount table are matched
  one by one against two regular expressions, and after them the default
  places are tried.

  `firstLineSample_eq` and `getStatsInactiveFileBytesMetric_eq` say what is read
  of a file: of `memory.stat` the first total, wherever it stands.
-/

namespace ApmAgent

/-- `\d` of a regular expression. Only the ASCII part is fixed: which other characters are
    decimal digits is the runtime's own. -/
class DecimalDigits where
  isDecimalDigit : Char → Bool
  isDecimalDigit_ascii : ∀ c : Char, c.val < 128 → isDecimalDigit c = c.isDigit

/-- No digits outside ASCII. -/
@[reducible] def DecimalDigits.ascii : DecimalDigits where
  isDecimalDigit := Char.isDigit
  isDecimalDigit_ascii := fun _ _ => rfl

export DecimalDigits (isDecimalDigit)

/-! ### Files -/

/-- Why a file cannot be read to its end. -/
inductive ReadFailure where
  | ioException
  | other
  deriving DecidableEq, Repr

/-- The lines that can be read of a file, and what is thrown behind them. -/
structure FileText where
  lines : List String
  failure : Option ReadFailure := none
  deriving DecidableEq, Repr

/-- The files that exist. -/
abbrev FileSystem := String → Option FileText

namespace FileSystem

variable (fs : FileSystem)

/-- `File.Exists`. -/
def exists_ (path : String) : Bool := (fs path).isSome

/-- `new StreamReader(path)`: a file that is missing is an `IOException` too. -/
def reader (path : String) : FileText := (fs path).getD ⟨[], some .ioException⟩

end FileSystem

/-- The first `ReadLine()`; null at the end of the file. -/
def FileText.readLine (text : FileText) : Except ReadFailure (Option String) :=
  match text.lines, text.failure with
  | line :: _, _ => .ok (some line)
  | [], none => .ok none
  | [], some failure => .error failure

/-- A loop over the lines of a file. A turn goes on with the next line or leaves the loop. -/
def scanLines {State Result : Type} (turn : State → String → State ⊕ Result) :
    List String → State → State ⊕ Result
  | [], s => .inl s
  | line :: lines, s =>
    match turn s line with
    | .inl s' => scanLines turn lines s'
    | .inr r => .inr r

/-- `catch (IOException) { return r; }`. -/
def catchIoException {α : Type} (r : α) : Except ReadFailure α → Except ReadFailure α
  | .error .ioException => .ok r
  | result => result

theorem catchIoException_ne_ioException {α : Type} {r : α} (result : Except ReadFailure α) :
    catchIoException r result ≠ .error .ioException := by
  rcases result with (_ | _) | _ <;> simp [catchIoException]

/-- `Path.Combine`, where a slash separates directories. -/
def pathCombine (path1 path2 : String) : String :=
  if path2.toList.head? = some '/' || path1 = "" then path2
  else if path1.toList.getLast? = some '/' then path1 ++ path2
  else path1 ++ "/" ++ path2

/-- `CgroupFiles`. -/
structure CgroupFiles where
  maxMemoryFile : Option String
  usedMemoryFile : String
  statMemoryFile : String
  deriving DecidableEq, Repr

/-- `CgroupMetricsProvider`. -/
structure CgroupMetricsProvider where
  collectMemLimitBytes : Bool
  collectMemUsageBytes : Bool
  collectStatsInactiveFileBytes : Bool
  cGroupFiles : Option CgroupFiles
  deriving DecidableEq, Repr

namespace CgroupMetricsProvider

open Backtracking

/-! ### Regular expressions -/

/-- `.`. -/
def isAny (c : Char) : Bool := c ≠ '\n'

section

variable [DecimalDigits]

/-- `^\d+:memory:.*`. -/
def memoryCgroup : List Piece :=
  .many isDecimalDigit 1 false false :: literal ":memory:".toList ++
    [.many isAny 0 false false]

omit [DecimalDigits] in
/-- `.*first.*second.*`. -/
def mentioning (first second : String) : List Piece :=
  .many isAny 0 false false :: (literal first.toList ++
    .many isAny 0 false false :: (literal second.toList ++ [.many isAny 0 false false]))

/-- `^\d+? \d+? .+? .+? (.*?) .*first.*second.*`. -/
def mountPointPattern (first second : String) : List Piece :=
  .many isDecimalDigit 1 true false :: .char ' ' ::
    .many isDecimalDigit 1 true false :: .char ' ' ::
    .many isAny 1 true false :: .char ' ' ::
    .many isAny 1 true false :: .char ' ' ::
    .many isAny 0 true true :: .char ' ' :: mentioning first second

def cgroup1MountPoint : List Piece := mountPointPattern "cgroup" "memory"

def cgroup2MountPoint : List Piece := mountPointPattern "cgroup2" "cgroup"

omit [DecimalDigits] in
/-- `ApplyCgroupRegex`: the text of the first group. -/
def applyCgroupRegex (regex : List Piece) (mountLine : String) : Option String :=
  (run regex mountLine.toList).map fun groups => String.ofList (groups.headD [])

end

/-! ### The files of a control group -/

/-- What the two versions of control groups call their files. -/
inductive CgroupVersion where
  | v1
  | v2
  deriving DecidableEq, Repr

namespace CgroupVersion

def maxMemory : CgroupVersion → String
  | .v1 => "memory.limit_in_bytes"
  | .v2 => "memory.max"

def usedMemory : CgroupVersion → String
  | .v1 => "memory.usage_in_bytes"
  | .v2 => "memory.current"

def unlimited : CgroupVersion → String
  | .v1 => "9223372036854771712"
  | .v2 => "max"

end CgroupVersion

def procSelfCgroup : String := "/proc/self/cgroup"

def procSelfMountinfo : String := "/proc/self/mountinfo"

def defaultSysFsCgroup : String := "/sys/fs/cgroup"

def cgroupMemoryStat : String := "memory.stat"

section

variable [InvariantCulture] (fs : FileSystem)

/-- `GetMaxMemoryFile`: null if there is no limit in the file. -/
def getMaxMemoryFile (maxMemoryFile cgroupUnlimitedConstant : String) :
    Except ReadFailure (Option String) :=
  catchIoException none do
    match ← (fs.reader maxMemoryFile).readLine with
    | none => return some maxMemoryFile
    | some memMaxLine =>
      if equalsOrdinalIgnoreCase cgroupUnlimitedConstant.toList memMaxLine.toList then
        return none
      else return some maxMemoryFile

/-- The files of a directory, null if the one with the limit is missing. -/
def createCgroupFiles (version : CgroupVersion) (directory : String) :
    Except ReadFailure (Option CgroupFiles) := do
  let maxMemoryFile := pathCombine directory version.maxMemory
  if fs.exists_ maxMemoryFile then
    let maxMemoryFile ← getMaxMemoryFile fs maxMemoryFile version.unlimited
    return some ⟨maxMemoryFile, pathCombine directory version.usedMemory,
      pathCombine directory cgroupMemoryStat⟩
  else return none

/-- `CreateCgroup1Files`. -/
def createCgroup1Files (memoryMountPath : String) : Except ReadFailure (Option CgroupFiles) :=
  createCgroupFiles fs .v1 memoryMountPath

omit [InvariantCulture] in
/-- The directory of the group: the text behind the last colon. -/
def sliceSubDir (cGroupLine : String) : String := (split ':' cGroupLine).getLastD ""

/-- `CreateCgroup2Files`. -/
def createCgroup2Files (cGroupLine rootCgroupFsPath : String) :
    Except ReadFailure (Option CgroupFiles) :=
  createCgroupFiles fs .v2 (rootCgroupFsPath ++ sliceSubDir cGroupLine)

/-! ### Looking for the files -/

variable [DecimalDigits]

omit [InvariantCulture] in
/-- One turn of the loop over `/proc/self/cgroup`. -/
def cGroupLineTurn (cGroupLine : Option String) (line : String) :
    Option String ⊕ Option String :=
  let cGroupLine :=
    if cGroupLine = none ∧ "0:".toList.isPrefixOf line.toList then some line else cGroupLine
  if (run memoryCgroup line.toList).isSome then .inr (some line) else .inl cGroupLine

omit [InvariantCulture] in
/-- The line of the group, null if there is none or the file cannot be read. -/
def findCGroupLine (procSelfCGroup : String) : Except ReadFailure (Option String) :=
  catchIoException none
    (let text := fs.reader procSelfCGroup
     match scanLines cGroupLineTurn text.lines none with
     | .inr cGroupLine => .ok cGroupLine
     | .inl cGroupLine =>
       match text.failure with
       | none => .ok cGroupLine
       | some failure => .error failure)

/-- One line of the mount table: version 2 first, then version 1. -/
def mountLineFiles (cGroupLine mountLine : String) : Except ReadFailure (Option CgroupFiles) := do
  let cgroupFiles ←
    match applyCgroupRegex cgroup2MountPoint mountLine with
    | some rootCgroupFsPath => createCgroup2Files fs cGroupLine rootCgroupFsPath
    | none => pure none
  if cgroupFiles.isSome then return cgroupFiles
  match applyCgroupRegex cgroup1MountPoint mountLine with
  | some memoryMountPath => createCgroup1Files fs memoryMountPath
  | none => return none

/-- The loop over the mount table. -/
def mountInfoFiles (cGroupLine : String) (failure : Option ReadFailure) :
    List String → Except ReadFailure (Option CgroupFiles)
  | [] =>
    match failure with
    | none => .ok none
    | some failure => .error failure
  | mountLine :: mountLines => do
    let cgroupFiles ← mountLineFiles fs cGroupLine mountLine
    if cgroupFiles.isSome then return cgroupFiles
    mountInfoFiles cGroupLine failure mountLines

/-- The places that do not depend on the mount table. -/
def defaultFiles (cGroupLine : String) : Except ReadFailure (Option CgroupFiles) := do
  let cgroupFiles ← createCgroup2Files fs cGroupLine defaultSysFsCgroup
  if cgroupFiles.isSome then return cgroupFiles
  createCgroup1Files fs (pathCombine defaultSysFsCgroup "memory")

/-- `FindCGroupFiles`. -/
def findCGroupFiles (procSelfCGroup mountInfo : String) :
    Except ReadFailure (Option CgroupFiles) := do
  if !fs.exists_ procSelfCGroup then return none
  match ← findCGroupLine fs procSelfCGroup with
  | none => return none
  | some cGroupLine =>
    let cgroupFiles ←
      if fs.exists_ mountInfo then
        let text := fs.reader mountInfo
        catchIoException none (mountInfoFiles fs cGroupLine text.failure text.lines)
      else pure none
    if cgroupFiles.isSome then return cgroupFiles
    defaultFiles fs cGroupLine

/-- The constructor, with what is to be collected. -/
def create (collectMemLimitBytes collectMemUsageBytes collectStatsInactiveFileBytes : Bool) :
    Except ReadFailure CgroupMetricsProvider := do
  let cGroupFiles ← findCGroupFiles fs procSelfCgroup procSelfMountinfo
  return ⟨collectMemLimitBytes, collectMemUsageBytes, collectStatsInactiveFileBytes, cGroupFiles⟩

end

/-! ### Samples -/

def systemProcessCgroupMemoryMemLimitBytes : String :=
  "system.process.cgroup.memory.mem.limit.bytes"

def systemProcessCgroupMemoryMemUsageBytes : String :=
  "system.process.cgroup.memory.mem.usage.bytes"

def systemProcessCgroupMemoryStatsInactiveFileBytes : String :=
  "system.process.cgroup.memory.stats.inactive_file.bytes"

section

variable [InvariantCulture] (fs : FileSystem)

/-- `double.TryParse` with `NumberStyles.Integer` and the invariant culture. -/
def tryParseIntegral (s : String) : Option Double :=
  let (negative, cs) := takeSign (s.toList.dropWhile isNumberWhite)
  let digits := cs.takeWhile Char.isDigit
  if digits = [] || !isTrailing (cs.dropWhile Char.isDigit) then tryParseSymbol s.toList
  else some (.finite (if negative then -digitsValue digits else digitsValue digits))

/-- The sample of a text, if it is a number. -/
def sampleOf (key : String) (line : Option String) : List MetricSample :=
  ((line.bind tryParseIntegral).map fun value => ⟨key, value⟩).toList

/-- The sample of the first line of a file. -/
def firstLineSample (path key : String) : Except ReadFailure (List MetricSample) :=
  catchIoException [] do
    let line ← (fs.reader path).readLine
    return sampleOf key line

/-- `GetMemoryMemLimitBytes`. -/
def getMemoryMemLimitBytes (files : CgroupFiles) : Except ReadFailure (List MetricSample) :=
  match files.maxMemoryFile with
  | none => return []
  | some maxMemoryFile => firstLineSample fs maxMemoryFile systemProcessCgroupMemoryMemLimitBytes

/-- `GetMemoryMemUsageBytes`. -/
def getMemoryMemUsageBytes (files : CgroupFiles) : Except ReadFailure (List MetricSample) :=
  firstLineSample fs files.usedMemoryFile systemProcessCgroupMemoryMemUsageBytes

omit [InvariantCulture] in
/-- One turn of the loop over `memory.stat`. -/
def statTurn (inactiveBytes : Option String) (statLine : String) :
    Option String ⊕ Option String :=
  match split ' ' statLine with
  | name :: value :: _ =>
    if name = "total_inactive_file" then .inr (some value)
    else if name = "inactive_file" then .inl (some value)
    else .inl inactiveBytes
  | _ => .inl inactiveBytes

/-- `GetStatsInactiveFileBytesMetric`. -/
def getStatsInactiveFileBytesMetric (files : CgroupFiles) :
    Except ReadFailure (List MetricSample) :=
  let text := fs.reader files.statMemoryFile
  let sample := sampleOf systemProcessCgroupMemoryStatsInactiveFileBytes
  catchIoException []
    (match scanLines statTurn text.lines none with
     | .inr inactiveBytes => .ok (sample inactiveBytes)
     | .inl inactiveBytes =>
       match text.failure with
       | none => .ok (sample inactiveBytes)
       | some failure => .error failure)

/-- `GetSamples`: null if there are no files. -/
def getSamples (p : CgroupMetricsProvider) : Except ReadFailure (Option (List MetricSample)) :=
  match p.cGroupFiles with
  | none => return none
  | some files => do
    let inactive ←
      if p.collectStatsInactiveFileBytes then getStatsInactiveFileBytesMetric fs files
      else pure []
    let usage ← if p.collectMemUsageBytes then getMemoryMemUsageBytes fs files else pure []
    let limit ← if p.collectMemLimitBytes then getMemoryMemLimitBytes fs files else pure []
    return some (inactive ++ usage ++ limit)

end

/-! ### What is read of a file -/

/-- No file fails otherwise than by an `IOException`. -/
def OnlyIoFailures (fs : FileSystem) : Prop :=
  ∀ path text, fs path = some text → text.failure ≠ some .other

/-- The first line of a file, where there is one. -/
def firstLine (fs : FileSystem) (path : String) : Option String :=
  (fs path).bind fun text => text.lines.head?

/-- The value of a line of `memory.stat`. -/
def statValue (name statLine : String) : Option String :=
  match split ' ' statLine with
  | name' :: value :: _ => if name' = name then some value else none
  | _ => none

/-- The first total, otherwise the last value of the group itself, if the file can be read to its
    end. -/
def inactiveBytes (text : FileText) : Option String :=
  (text.lines.findSome? (statValue "total_inactive_file")).or
    (if text.failure = none then text.lines.reverse.findSome? (statValue "inactive_file")
     else none)

section

variable [InvariantCulture] {fs : FileSystem}

theorem firstLineSample_eq (hfs : OnlyIoFailures fs) (path key : String) :
    firstLineSample fs path key = .ok (sampleOf key (firstLine fs path)) := by
  rw [firstLineSample, firstLine, FileSystem.reader]
  cases htext : fs path with
  | none => rfl
  | some text =>
    have hother := hfs _ _ htext
    obtain ⟨lines, failure⟩ := text
    cases lines with
    | cons line lines => rfl
    | nil =>
      rcases failure with _ | _ | _
      · rfl
      · rfl
      · exact absurd rfl hother

omit [InvariantCulture] in
theorem statTurn_eq (found : Option String) (statLine : String) :
    statTurn found statLine =
      match statValue "total_inactive_file" statLine with
      | some value => .inr (some value)
      | none => .inl ((statValue "inactive_file" statLine).or found) := by
  unfold statTurn statValue
  split
  · split_ifs <;> rfl
  · rfl

omit [InvariantCulture] in
/-- The loop keeps the last value of the group itself until it meets a total. -/
theorem scanLines_statTurn (lines : List String) (found : Option String) :
    scanLines statTurn lines found =
      match lines.findSome? (statValue "total_inactive_file") with
      | some value => .inr (some value)
      | none => .inl ((lines.reverse.findSome? (statValue "inactive_file")).or found) := by
  induction lines generalizing found with
  | nil => rfl
  | cons line lines ih =>
    rw [scanLines, statTurn_eq, List.findSome?_cons, List.reverse_cons, List.findSome?_append]
    cases statValue "total_inactive_file" line with
    | some value => rfl
    | none =>
      simp only [ih]
      cases lines.findSome? (statValue "total_inactive_file") with
      | some value => rfl
      | none =>
        cases hvalue : statValue "inactive_file" line <;> simp [hvalue]

theorem getStatsInactiveFileBytesMetric_eq (hfs : OnlyIoFailures fs) (files : CgroupFiles) :
    getStatsInactiveFileBytesMetric fs files =
      .ok (sampleOf systemProcessCgroupMemoryStatsInactiveFileBytes
        ((fs files.statMemoryFile).bind inactiveBytes)) := by
  rw [getStatsInactiveFileBytesMetric, FileSystem.reader]
  cases htext : fs files.statMemoryFile with
  | none => rfl
  | some text =>
    have hother := hfs _ _ htext
    simp only [Option.getD_some, Option.bind_some, inactiveBytes, scanLines_statTurn]
    cases text.lines.findSome? (statValue "total_inactive_file") with
    | some value => rfl
    | none =>
      rcases hfailure : text.failure with _ | _ | _
      · simp [catchIoException]
      · rfl
      · exact absurd hfailure hother

end

end CgroupMetricsProvider

end ApmAgent
