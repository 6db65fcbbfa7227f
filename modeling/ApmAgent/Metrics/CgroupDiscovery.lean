import ApmAgent.Framework.Split
import ApmAgent.Metrics.CgroupMetricsProvider

/-! # Discovery of the control group

  The provider reads `/proc/self/cgroup` and `/proc/self/mountinfo`. Here these
  are what the kernel writes for a list of groups and a list of mounts.

  * `applyCgroupRegex_line`: a regular expression captures the mount point
    exactly if the options behind it name both of its texts;
  * `findCGroupFiles_eq`: the files are those of the first place, in the order of
    the mounts, that has a file with the memory limit;
  * `getSamples_create`: what the provider reports from then on.
-/

namespace ApmAgent

namespace CgroupMetricsProvider

open Backtracking

/-! ### What the kernel writes -/

/-- A text that is not empty and has neither a space nor a line break; the kernel writes those as
    octal escapes. -/
structure Field where
  chars : List Char
  ne_nil : chars ≠ []
  notMem_space : ' ' ∉ chars
  notMem_newline : '\n' ∉ chars

/-- A line of `/proc/self/mountinfo`, up to its mount point and behind it. -/
structure Mount where
  mountId : Nat
  parentId : Nat
  device : Field
  root : Field
  mountPoint : Field
  options : List Char
  notMem_newline : '\n' ∉ options

namespace Mount

def chars (m : Mount) : List Char :=
  Nat.toDigits 10 m.mountId ++ ' ' :: (Nat.toDigits 10 m.parentId ++ ' ' ::
    (m.device.chars ++ ' ' :: (m.root.chars ++ ' ' :: (m.mountPoint.chars ++ ' ' :: m.options))))

def line (m : Mount) : String := String.ofList m.chars

/-- The options name one text and behind it another one. -/
def mentions (m : Mount) (first second : String) : Bool :=
  m.options.tails.any fun s => first.toList.isPrefixOf s &&
    (s.drop first.toList.length).tails.any second.toList.isPrefixOf

end Mount

/-- A line of `/proc/self/cgroup`. -/
structure Group where
  hierarchyId : Nat
  controllers : List Char
  path : List Char
  notMem_colon : ':' ∉ controllers

namespace Group

def chars (g : Group) : List Char :=
  Nat.toDigits 10 g.hierarchyId ++ ':' :: (g.controllers ++ ':' :: g.path)

def line (g : Group) : String := String.ofList g.chars

/-- The group of the memory controller of version 1. -/
def isMemory (g : Group) : Bool := g.controllers = "memory".toList

/-- The group of version 2. -/
def isUnified (g : Group) : Bool := g.hierarchyId = 0

/-- The part of the path behind its last colon. -/
def subDir (g : Group) : String := String.ofList ((g.path.splitOn ':').getLastD [])

end Group

/-- The group whose memory is meant: that of the memory controller, otherwise the one of
    version 2. -/
def memoryGroup (groups : List Group) : Option Group :=
  (groups.find? Group.isMemory).or (groups.find? Group.isUnified)

/-! ### One line of the mount table -/

theorem mentions_eq_true_iff (m : Mount) (first second : String) :
    m.mentions first second = true ↔
      ∃ before between after, m.options =
        before ++ (first.toList ++ (between ++ (second.toList ++ after))) := by
  simp only [Mount.mentions, List.any_eq_true, List.mem_tails, Bool.and_eq_true,
    List.isPrefixOf_iff_prefix]
  constructor
  · rintro ⟨s, ⟨before, hs⟩, ⟨rest, rfl⟩, t, ⟨between, ht⟩, ⟨after, rfl⟩⟩
    rw [List.drop_left] at ht
    exact ⟨before, between, after, by rw [← hs, ← ht]⟩
  · rintro ⟨before, between, after, hs⟩
    refine ⟨_, ⟨before, hs.symm⟩, List.prefix_append .., second.toList ++ after, ?_,
      List.prefix_append ..⟩
    rw [List.drop_left]
    exact List.suffix_append ..

section

variable [DecimalDigits]

omit [DecimalDigits] in
theorem isAny_of_notMem {cs : List Char} (h : '\n' ∉ cs) : ∀ c ∈ cs, isAny c = true :=
  fun c hc => by simpa [isAny] using fun heq : c = '\n' => h (heq ▸ hc)

omit [DecimalDigits] in
/-- The last part of the pattern looks for two texts, one behind the other. -/
theorem accepts_mentioning (m : Mount) {first second : String} :
    Accepts (mentioning first second) m.options ↔ m.mentions first second = true := by
  rw [mentions_eq_true_iff]
  simp only [mentioning, Accepts, accepts_literal, Nat.zero_le, true_and, and_true]
  constructor
  · rintro ⟨before, _, hs, -, _, rfl, between, _, rfl, -, _, rfl, -⟩
    exact ⟨before, between, _, hs⟩
  · rintro ⟨before, between, after, hs⟩
    have hany : ∀ c ∈ m.options, isAny c = true := isAny_of_notMem m.notMem_newline
    rw [hs] at hany
    refine ⟨before, _, hs, fun c hc => hany c (by simp [hc]), _, rfl, between, _, rfl,
      fun c hc => hany c (by simp [hc]), after, rfl, [], after, rfl, by simp⟩

omit [DecimalDigits] in
theorem isCaptured_of_mem_mentioning {first second : String} {piece : Piece}
    (h : piece ∈ mentioning first second) : piece.isCaptured = false := by
  simp only [mentioning, literal, List.mem_cons, List.mem_append,
    List.mem_map, List.not_mem_nil, or_false] at h
  rcases h with rfl | ⟨_, -, rfl⟩ | rfl | ⟨_, -, rfl⟩ | rfl <;> rfl

theorem isDecimalDigit_toDigits (n : Nat) : ∀ c ∈ Nat.toDigits 10 n, isDecimalDigit c = true := by
  intro c hc
  have hdigit : c.isDigit = true := isDigit_of_mem_toDigits n c hc
  have hascii : c.val < 128 := by
    simp only [Char.isDigit, Bool.and_eq_true, decide_eq_true_eq] at hdigit
    exact UInt32.lt_of_le_of_lt hdigit.2 (by decide)
  rw [DecimalDigits.isDecimalDigit_ascii c hascii, hdigit]

omit [DecimalDigits] in
theorem notMem_toDigits {c : Char} (hc : c.isDigit = false) (n : Nat) :
    c ∉ Nat.toDigits 10 n := by
  intro hmem
  rw [isDigit_of_mem_toDigits n c hmem] at hc
  cases hc

omit [DecimalDigits] in
theorem space_notMem_toDigits (n : Nat) : ' ' ∉ Nat.toDigits 10 n :=
  notMem_toDigits (by decide) n

omit [DecimalDigits] in
theorem one_le_length_toDigits (n : Nat) : 1 ≤ (Nat.toDigits 10 n).length :=
  List.length_pos_iff.mpr Nat.toDigits_ne_nil

/-- The mount point is captured exactly if the options name both texts. -/
theorem applyCgroupRegex_line (m : Mount) (first second : String) :
    applyCgroupRegex (mountPointPattern first second) m.line =
      if m.mentions first second then some (String.ofList m.mountPoint.chars) else none := by
  rw [applyCgroupRegex, Mount.line, String.toList_ofList]
  split
  · next hmentions =>
    have hoptions : run (mentioning first second) m.options = some [] := by
      obtain ⟨captures, hrun⟩ := Option.isSome_iff_exists.mp
        ((run_isSome_iff _ _).mpr ((accepts_mentioning m).mpr hmentions))
      rw [hrun, run_eq_nil (fun piece hpiece => isCaptured_of_mem_mentioning hpiece) hrun]
    have hfield : ∀ f : Field, 1 ≤ f.chars.length := fun f => List.length_pos_iff.mpr f.ne_nil
    have hany : ∀ f : Field, ∀ c ∈ f.chars, isAny c = true :=
      fun f => isAny_of_notMem f.notMem_newline
    have hpoint := run_lazy true (hany m.mountPoint) m.mountPoint.notMem_space
      (Nat.zero_le _) hoptions
    have hroot := run_lazy false (hany m.root) m.root.notMem_space (hfield _) hpoint
    have hdevice := run_lazy false (hany m.device) m.device.notMem_space (hfield _) hroot
    have hparent := run_lazy false (isDecimalDigit_toDigits m.parentId)
      (space_notMem_toDigits _) (one_le_length_toDigits _) hdevice
    have hmount := run_lazy false (isDecimalDigit_toDigits m.mountId)
      (space_notMem_toDigits _) (one_le_length_toDigits _) hparent
    exact congrArg (Option.map _) hmount
  · next hmentions =>
    rw [Option.map_eq_none_iff, ← Option.not_isSome_iff_eq_none, run_isSome_iff]
    -- Wherever the repetitions end, the last part would match behind the mount point.
    intro haccepts
    obtain ⟨s₁, hs₁, h₁⟩ := accepts_suffix (space_notMem_toDigits m.mountId)
      (List.suffix_refl _) haccepts
    obtain ⟨s₂, hs₂, h₂⟩ := accepts_suffix (space_notMem_toDigits m.parentId) hs₁ h₁
    obtain ⟨s₃, hs₃, h₃⟩ := accepts_suffix m.device.notMem_space hs₂ h₂
    obtain ⟨s₄, hs₄, h₄⟩ := accepts_suffix m.root.notMem_space hs₃ h₃
    obtain ⟨s₅, ⟨skipped, hs₅⟩, h₅⟩ := accepts_suffix m.mountPoint.notMem_space hs₄ h₄
    apply hmentions
    rw [mentions_eq_true_iff]
    simp only [mentioning, Accepts, accepts_literal] at h₅
    obtain ⟨before, _, rfl, -, -, _, rfl, between, _, rfl, -, -, after, rfl, -⟩ := h₅
    exact ⟨skipped ++ before, between, after, by simp [← hs₅]⟩

/-! ### The line of the group -/

omit [DecimalDigits] in
theorem colon_notMem_toDigits (n : Nat) : ':' ∉ Nat.toDigits 10 n :=
  notMem_toDigits (by decide) n

omit [DecimalDigits] in
theorem Group.toList_line (g : Group) : g.line.toList = g.chars := String.toList_ofList

/-- The line of the memory controller. -/
theorem run_memoryCgroup_line (g : Group) :
    (run memoryCgroup g.line.toList).isSome = g.isMemory := by
  rw [Bool.eq_iff_iff, run_isSome_iff, Group.isMemory, decide_eq_true_eq, g.toList_line,
    Group.chars]
  have hword : ":memory:".toList = ':' :: ("memory".toList ++ [':']) := by decide
  simp only [memoryCgroup, List.cons_append, Accepts, accepts_literal, hword]
  constructor
  · rintro ⟨digits, _, hline, hdigits, -, rest, rfl, -⟩
    have hcolon : ':' ∉ digits := by
      intro hmem
      have hdigit := hdigits _ hmem
      rw [DecimalDigits.isDecimalDigit_ascii _ (by decide)] at hdigit
      cases hdigit
    have hrest := ((List.append_cons_inj_of_not_mem (colon_notMem_toDigits _) hcolon).mp hline).2
    rw [List.append_assoc] at hrest
    exact ((List.append_cons_inj_of_not_mem g.notMem_colon (by decide)).mp hrest).1
  · intro hcontrollers
    exact ⟨_, _, rfl, isDecimalDigit_toDigits _, one_le_length_toDigits _, g.path,
      by simp [hcontrollers], [], g.path, rfl, by simp⟩

omit [DecimalDigits] in
/-- The line of version 2. -/
theorem isPrefixOf_line (g : Group) :
    "0:".toList.isPrefixOf g.line.toList = g.isUnified := by
  rw [Bool.eq_iff_iff, List.isPrefixOf_iff_prefix, Group.isUnified, decide_eq_true_eq,
    g.toList_line, Group.chars]
  have hzero : Nat.toDigits 10 0 = ['0'] := rfl
  constructor
  · rintro ⟨rest, hline⟩
    have hcut : ['0'] ++ ':' :: rest =
        Nat.toDigits 10 g.hierarchyId ++ ':' :: (g.controllers ++ ':' :: g.path) := hline
    have hdigits :=
      ((List.append_cons_inj_of_not_mem (by decide) (colon_notMem_toDigits _)).mp hcut).1
    rw [← digitsValue_toDigits g.hierarchyId, ← hdigits]
    rfl
  · intro hid
    rw [hid, hzero]
    exact ⟨g.controllers ++ ':' :: g.path, rfl⟩

omit [DecimalDigits] in
theorem sliceSubDir_line (g : Group) : sliceSubDir g.line = g.subDir := by
  rw [sliceSubDir, split, g.toList_line, Group.chars,
    List.splitOn_append_cons_self_of_not_mem (colon_notMem_toDigits _),
    List.splitOn_append_cons_self_of_not_mem g.notMem_colon, Group.subDir]
  cases hsplit : g.path.splitOn ':' with
  | nil => exact absurd hsplit (List.splitOn_ne_nil _ _)
  | cons part parts =>
    rw [List.getLastD_eq_getLast?, List.getLast?_map, List.getLast?_cons_cons,
      List.getLast?_cons_cons, List.getLastD_eq_getLast?,
      List.getLast?_eq_some_getLast (List.cons_ne_nil part parts)]
    rfl

theorem cGroupLineTurn_line (cGroupLine : Option String) (g : Group) :
    cGroupLineTurn cGroupLine g.line =
      if g.isMemory then .inr (some g.line)
      else .inl (cGroupLine.or (if g.isUnified then some g.line else none)) := by
  rw [cGroupLineTurn, run_memoryCgroup_line, isPrefixOf_line]
  cases cGroupLine <;> simp

/-- The loop keeps the first line of version 2 until it meets one of the memory controller. -/
theorem scanLines_cGroupLineTurn (groups : List Group) (cGroupLine : Option String) :
    scanLines cGroupLineTurn (groups.map Group.line) cGroupLine =
      match groups.find? Group.isMemory with
      | some g => .inr (some g.line)
      | none => .inl (cGroupLine.or ((groups.find? Group.isUnified).map Group.line)) := by
  induction groups generalizing cGroupLine with
  | nil => simp [scanLines]
  | cons g groups ih =>
    rw [List.map_cons, scanLines, cGroupLineTurn_line]
    cases hmemory : g.isMemory with
    | true => simp [hmemory]
    | false => cases hunified : g.isUnified <;> simp [hmemory, hunified, ih]

theorem findCGroupLine_eq {fs : FileSystem} {procSelfCGroup : String} {groups : List Group}
    (h : fs procSelfCGroup = some ⟨groups.map Group.line, none⟩) :
    findCGroupLine fs procSelfCGroup = .ok ((memoryGroup groups).map Group.line) := by
  have hreader : fs.reader procSelfCGroup = ⟨groups.map Group.line, none⟩ := by
    rw [FileSystem.reader, h]
    rfl
  rw [findCGroupLine, hreader, memoryGroup]
  simp only [scanLines_cGroupLineTurn]
  cases groups.find? Group.isMemory <;> simp [catchIoException]

end

/-! ### The places in order -/

section

variable [InvariantCulture] {fs : FileSystem} {g : Group}

/-- A place where the files of a control group may be. -/
structure Location where
  version : CgroupVersion
  directory : String

namespace Location

def maxMemoryFile (l : Location) : String := pathCombine l.directory l.version.maxMemory

/-- The files of a place that has a file with the limit. -/
def files (fs : FileSystem) (l : Location) : Except ReadFailure CgroupFiles := do
  let maxMemoryFile ← getMaxMemoryFile fs l.maxMemoryFile l.version.unlimited
  return ⟨maxMemoryFile, pathCombine l.directory l.version.usedMemory,
    pathCombine l.directory cgroupMemoryStat⟩

end Location

/-- The places a mount stands for. -/
def Mount.locations (g : Group) (m : Mount) : List Location :=
  let mountPoint := String.ofList m.mountPoint.chars
  (if m.mentions "cgroup2" "cgroup" then [⟨.v2, mountPoint ++ g.subDir⟩] else []) ++
    (if m.mentions "cgroup" "memory" then [⟨.v1, mountPoint⟩] else [])

/-- Where the files of a group may be, in the order they are looked for. -/
def locations (g : Group) (mounts : List Mount) : List Location :=
  mounts.flatMap (Mount.locations g) ++
    [⟨.v2, "/sys/fs/cgroup" ++ g.subDir⟩, ⟨.v1, "/sys/fs/cgroup/memory"⟩]

/-- The files of the first place that has a file with the limit. -/
def firstFiles (fs : FileSystem) (ls : List Location) :
    Except ReadFailure (Option CgroupFiles) :=
  match ls.find? fun l => fs.exists_ l.maxMemoryFile with
  | none => .ok none
  | some l => (l.files fs).map some

theorem createCgroupFiles_eq (version : CgroupVersion) (directory : String) :
    createCgroupFiles fs version directory = firstFiles fs [⟨version, directory⟩] := by
  rw [createCgroupFiles, firstFiles]
  cases hexists : fs.exists_ (pathCombine directory version.maxMemory) with
  | false => simp [Location.maxMemoryFile, hexists]; rfl
  | true =>
    simp only [Location.maxMemoryFile, Location.files, List.find?_cons, hexists, if_true]
    cases getMaxMemoryFile fs (pathCombine directory version.maxMemory) version.unlimited <;> rfl

theorem getMaxMemoryFile_ne_ioException (maxMemoryFile cgroupUnlimitedConstant : String) :
    getMaxMemoryFile fs maxMemoryFile cgroupUnlimitedConstant ≠ .error .ioException := by
  rw [getMaxMemoryFile]
  exact catchIoException_ne_ioException _

/-- A limit that cannot be read is not thrown. -/
theorem firstFiles_ne_ioException (ls : List Location) :
    firstFiles fs ls ≠ .error .ioException := by
  rw [firstFiles]
  cases ls.find? fun l => fs.exists_ l.maxMemoryFile with
  | none =>
    intro h
    cases h
  | some l =>
    have hread := @getMaxMemoryFile_ne_ioException _ fs l.maxMemoryFile l.version.unlimited
    simp only [Location.files]
    cases hmax : getMaxMemoryFile fs l.maxMemoryFile l.version.unlimited with
    | error failure =>
      intro h
      cases h
      exact hread hmax
    | ok maxMemoryFile =>
      intro h
      cases h

theorem firstFiles_append (ls ls' : List Location) :
    firstFiles fs (ls ++ ls') =
      (do
        let cgroupFiles ← firstFiles fs ls
        if cgroupFiles.isSome then return cgroupFiles
        firstFiles fs ls') := by
  simp only [firstFiles, List.find?_append]
  cases ls.find? fun l => fs.exists_ l.maxMemoryFile with
  | none => rfl
  | some l => cases hfiles : l.files fs <;> simp [hfiles] <;> rfl

theorem defaultFiles_eq : defaultFiles fs g.line = firstFiles fs (locations g []) := by
  have hmemory : pathCombine defaultSysFsCgroup "memory" = "/sys/fs/cgroup/memory" := by decide
  rw [defaultFiles, createCgroup2Files, createCgroup1Files, createCgroupFiles_eq,
    createCgroupFiles_eq, sliceSubDir_line, hmemory]
  exact (firstFiles_append _ _).symm

variable [DecimalDigits]

theorem mountLineFiles_eq (m : Mount) :
    mountLineFiles fs g.line m.line = firstFiles fs (m.locations g) := by
  rw [mountLineFiles, Mount.locations, firstFiles_append, cgroup2MountPoint, cgroup1MountPoint,
    applyCgroupRegex_line, applyCgroupRegex_line]
  cases m.mentions "cgroup2" "cgroup" <;> cases m.mentions "cgroup" "memory" <;>
    simp [createCgroup1Files, createCgroup2Files, createCgroupFiles_eq, sliceSubDir_line] <;> rfl

/-- The mounts are gone through in the order of their lines. -/
theorem mountInfoFiles_eq (failure : Option ReadFailure) (mounts : List Mount) :
    mountInfoFiles fs g.line failure (mounts.map Mount.line) =
      (do
        let cgroupFiles ← firstFiles fs (mounts.flatMap (Mount.locations g))
        if cgroupFiles.isSome then return cgroupFiles
        match failure with
        | none => .ok none
        | some failure => .error failure) := by
  induction mounts with
  | nil => rfl
  | cons m mounts ih =>
    rw [List.map_cons, mountInfoFiles, mountLineFiles_eq, ih, List.flatMap_cons, firstFiles_append]
    cases firstFiles fs (m.locations g) with
    | error failure => rfl
    | ok cgroupFiles => cases cgroupFiles <;> rfl

/-- A mount table that cannot be read to its end counts as far as it was read. -/
theorem catchIoException_mountInfoFiles {failure : Option ReadFailure}
    (hfailure : failure ≠ some .other) (mounts : List Mount) :
    catchIoException none (mountInfoFiles fs g.line failure (mounts.map Mount.line)) =
      firstFiles fs (mounts.flatMap (Mount.locations g)) := by
  rw [mountInfoFiles_eq]
  have hthrown : firstFiles fs (mounts.flatMap (Mount.locations g)) ≠ .error .ioException :=
    firstFiles_ne_ioException _
  cases hfirst : firstFiles fs (mounts.flatMap (Mount.locations g)) with
  | error thrown =>
    cases thrown with
    | ioException => exact absurd hfirst hthrown
    | other => rfl
  | ok cgroupFiles =>
    cases cgroupFiles with
    | some cgroupFiles => rfl
    | none =>
      rcases failure with _ | _ | _
      · rfl
      · rfl
      · exact absurd rfl hfailure

/-- The mounts of the mount table: as many as can be read, none if there is no table. -/
def HasMounts (fs : FileSystem) (mountInfo : String) (mounts : List Mount) : Prop :=
  (fs mountInfo = none ∧ mounts = []) ∨
    ∃ failure, failure ≠ some .other ∧ fs mountInfo = some ⟨mounts.map Mount.line, failure⟩

/-- The files of a process are those of the first place that has a file with the limit: the mounts
    of the table come in the order of its lines, version 2 in front of version 1, then the default
    places. Without a group that counts there are none. -/
theorem findCGroupFiles_eq {groups : List Group} {mounts : List Mount}
    {procSelfCGroup mountInfo : String}
    (hgroups : fs procSelfCGroup = some ⟨groups.map Group.line, none⟩)
    (hmounts : HasMounts fs mountInfo mounts) :
    findCGroupFiles fs procSelfCGroup mountInfo =
      match memoryGroup groups with
      | none => .ok none
      | some g => firstFiles fs (locations g mounts) := by
  have hexists : fs.exists_ procSelfCGroup = true := by
    rw [FileSystem.exists_, hgroups]
    rfl
  rw [findCGroupFiles, hexists, findCGroupLine_eq hgroups]
  cases memoryGroup groups with
  | none => rfl
  | some g =>
    rcases hmounts with ⟨hmissing, rfl⟩ | ⟨failure, hfailure, htable⟩
    · have hexists' : fs.exists_ mountInfo = false := by
        rw [FileSystem.exists_, hmissing]
        rfl
      rw [hexists']
      exact defaultFiles_eq
    · have hexists' : fs.exists_ mountInfo = true := by
        rw [FileSystem.exists_, htable]
        rfl
      have hreader : fs.reader mountInfo = ⟨mounts.map Mount.line, failure⟩ := by
        rw [FileSystem.reader, htable]
        rfl
      have hdefault : locations g mounts =
          mounts.flatMap (Mount.locations g) ++ locations g [] := rfl
      simp only [hdefault, firstFiles_append]
      rw [hexists', hreader, ← defaultFiles_eq, ← catchIoException_mountInfoFiles hfailure]
      rfl

end

/-! ### What is reported -/

section

variable [InvariantCulture]

/-- There is a limit, or a file in which it does not stand yet. -/
def Location.isLimited (fs : FileSystem) (l : Location) : Bool :=
  match fs l.maxMemoryFile with
  | none => false
  | some text =>
    match text.lines with
    | [] => text.failure = none
    | line :: _ => !equalsOrdinalIgnoreCase l.version.unlimited.toList line.toList

/-- The samples of a place: what was found out when the provider was made decides about the
    limit. -/
def Location.samples (made now : FileSystem)
    (collectMemLimitBytes collectMemUsageBytes collectStatsInactiveFileBytes : Bool)
    (l : Location) : List MetricSample :=
  (if collectStatsInactiveFileBytes then
    sampleOf systemProcessCgroupMemoryStatsInactiveFileBytes
      ((now (pathCombine l.directory cgroupMemoryStat)).bind inactiveBytes) else []) ++
  (if collectMemUsageBytes then
    sampleOf systemProcessCgroupMemoryMemUsageBytes
      (firstLine now (pathCombine l.directory l.version.usedMemory)) else []) ++
  (if collectMemLimitBytes && l.isLimited made then
    sampleOf systemProcessCgroupMemoryMemLimitBytes (firstLine now l.maxMemoryFile) else [])

variable {fs : FileSystem}

theorem getMaxMemoryFile_eq (hfs : OnlyIoFailures fs) (l : Location) :
    getMaxMemoryFile fs l.maxMemoryFile l.version.unlimited =
      .ok (if l.isLimited fs then some l.maxMemoryFile else none) := by
  rw [getMaxMemoryFile, Location.isLimited, FileSystem.reader]
  cases htext : fs l.maxMemoryFile with
  | none => rfl
  | some text =>
    have hother := hfs _ _ htext
    obtain ⟨lines, failure⟩ := text
    cases lines with
    | nil =>
      rcases failure with _ | _ | _
      · rfl
      · rfl
      · exact absurd rfl hother
    | cons line lines =>
      change catchIoException none
          (if equalsOrdinalIgnoreCase l.version.unlimited.toList line.toList then .ok none
           else .ok (some l.maxMemoryFile)) = _
      cases hunlimited : equalsOrdinalIgnoreCase l.version.unlimited.toList line.toList <;>
        simp [catchIoException, hunlimited]

/-! ### The samples of a process -/

/-- The files of a place. -/
def Location.cgroupFiles (fs : FileSystem) (l : Location) : CgroupFiles :=
  ⟨if l.isLimited fs then some l.maxMemoryFile else none,
    pathCombine l.directory l.version.usedMemory, pathCombine l.directory cgroupMemoryStat⟩

theorem firstFiles_eq (hfs : OnlyIoFailures fs) (ls : List Location) :
    firstFiles fs ls =
      .ok ((ls.find? fun l => fs.exists_ l.maxMemoryFile).map (Location.cgroupFiles fs)) := by
  rw [firstFiles]
  cases ls.find? fun l => fs.exists_ l.maxMemoryFile with
  | none => rfl
  | some l =>
    simp only [Location.files, getMaxMemoryFile_eq hfs]
    rfl

theorem getSamples_cgroupFiles {made now : FileSystem} (hnow : OnlyIoFailures now) (l : Location)
    (collectMemLimitBytes collectMemUsageBytes collectStatsInactiveFileBytes : Bool) :
    getSamples now ⟨collectMemLimitBytes, collectMemUsageBytes, collectStatsInactiveFileBytes,
        some (l.cgroupFiles made)⟩ =
      .ok (some (l.samples made now collectMemLimitBytes collectMemUsageBytes
        collectStatsInactiveFileBytes)) := by
  have hlimit : getMemoryMemLimitBytes now (l.cgroupFiles made) =
      .ok (if l.isLimited made then
        sampleOf systemProcessCgroupMemoryMemLimitBytes (firstLine now l.maxMemoryFile)
        else []) := by
    rw [getMemoryMemLimitBytes, Location.cgroupFiles]
    cases l.isLimited made with
    | true => exact firstLineSample_eq hnow _ _
    | false => rfl
  simp only [getSamples, hlimit, getStatsInactiveFileBytesMetric_eq hnow, getMemoryMemUsageBytes,
    firstLineSample_eq hnow, Location.samples]
  -- What is not collected is not read.
  cases collectMemLimitBytes <;> cases collectMemUsageBytes <;>
    cases collectStatsInactiveFileBytes <;> cases l.isLimited made <;> rfl

/-- The place the files of the process are found in. -/
def processLocation (fs : FileSystem) (groups : List Group) (mounts : List Mount) :
    Option Location := do
  let g ← memoryGroup groups
  (locations g mounts).find? fun l => fs.exists_ l.maxMemoryFile

variable [DecimalDigits]

/-- What a provider reports at any later time, from what the kernel wrote when it was made. -/
theorem getSamples_create {made now : FileSystem} (hmade : OnlyIoFailures made)
    (hnow : OnlyIoFailures now) {groups : List Group} {mounts : List Mount}
    (hgroups : made procSelfCgroup = some ⟨groups.map Group.line, none⟩)
    (hmounts : HasMounts made procSelfMountinfo mounts)
    (collectMemLimitBytes collectMemUsageBytes collectStatsInactiveFileBytes : Bool) :
    (do
      let provider ←
        create made collectMemLimitBytes collectMemUsageBytes collectStatsInactiveFileBytes
      provider.getSamples now) =
      .ok ((processLocation made groups mounts).map
        (Location.samples made now collectMemLimitBytes collectMemUsageBytes
          collectStatsInactiveFileBytes)) := by
  rw [create, findCGroupFiles_eq hgroups hmounts, processLocation]
  cases memoryGroup groups with
  | none => rfl
  | some g =>
    simp only [firstFiles_eq hmade, Option.bind_eq_bind, Option.bind_some]
    cases (locations g mounts).find? fun l => made.exists_ l.maxMemoryFile with
    | none => rfl
    | some l => exact getSamples_cgroupFiles hnow l _ _ _

end

/-! ### A container -/

/-- A process of a container that has no limit. -/
def containerGroups : List Group := [⟨0, [], "/app".toList, by decide⟩]

/-- The control groups of the container. -/
def containerMounts : List Mount :=
  [{ mountId := 30
     parentId := 23
     device := ⟨"0:26".toList, by decide, by decide, by decide⟩
     root := ⟨"/".toList, by decide, by decide, by decide⟩
     mountPoint := ⟨"/cgroups".toList, by decide, by decide, by decide⟩
     options := "rw shared:4 - cgroup2 cgroup rw".toList
     notMem_newline := by decide }]

def containerFiles : List (String × List String) :=
  [("/proc/self/cgroup", containerGroups.map Group.line),
    ("/proc/self/mountinfo", containerMounts.map Mount.line),
    ("/cgroups/app/memory.max", ["max"]),
    ("/cgroups/app/memory.current", ["964778496"]),
    ("/cgroups/app/memory.stat", ["anon 17", "inactive_file 5", "total_inactive_file 10"])]

def containerFileSystem : FileSystem := fun path =>
  (containerFiles.lookup path).map fun lines => ⟨lines, none⟩

theorem onlyIoFailures_containerFileSystem : OnlyIoFailures containerFileSystem := by
  intro path text h
  obtain ⟨lines, -, rfl⟩ := Option.map_eq_some_iff.mp h
  intro hfailure
  cases hfailure

section

attribute [local instance] InvariantCulture.ascii DecimalDigits.ascii

/-- A limit is not reported where there is none. -/
theorem getSamples_create_container :
    (do
      let provider ← create containerFileSystem true true true
      provider.getSamples containerFileSystem) =
      .ok (some [⟨systemProcessCgroupMemoryStatsInactiveFileBytes, 10⟩,
        ⟨systemProcessCgroupMemoryMemUsageBytes, 964778496⟩]) := by
  have hgroups : containerFileSystem procSelfCgroup =
      some ⟨containerGroups.map Group.line, none⟩ := by decide +kernel
  have hmounts : HasMounts containerFileSystem procSelfMountinfo containerMounts :=
    .inr ⟨none, by decide, by decide +kernel⟩
  refine (getSamples_create onlyIoFailures_containerFileSystem onlyIoFailures_containerFileSystem
    hgroups hmounts true true true).trans ?_
  exact congrArg Except.ok (by decide +kernel)

end

end CgroupMetricsProvider

end ApmAgent
