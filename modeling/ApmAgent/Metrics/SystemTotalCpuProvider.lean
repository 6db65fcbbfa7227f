import ApmAgent.Metrics.MetricsCollector
import Mathlib.Tactic.Positivity

/-! # SystemTotalCpuProvider

  On Linux the CPU usage is computed from two reads of the first line of
  `/proc/stat`: the share of the time between them that is not idle time. The
  provider keeps the idle time and the total of the last read that succeeded,
  zero before the first one. A failed read leaves them alone.

  `getSamples_isFraction` says that no sample leaves [0, 1] as long as the
  columns of the line grow.
-/

namespace ApmAgent

/-- `long.TryParse` with `NumberStyles.Integer` and the invariant culture. -/
def tryParseLong (s : String) : Option Int64 :=
  let (negative, cs) := takeSign (s.toList.dropWhile isNumberWhite)
  let digits := cs.takeWhile Char.isDigit
  if digits = [] || !isTrailing (cs.dropWhile Char.isDigit) then none
  else
    let n : Int := if negative then -digitsValue digits else digitsValue digits
    if Int64.minValue.toInt ≤ n ∧ n ≤ Int64.maxValue.toInt then some (Int64.ofInt n) else none

/-- `Sum()` of numbers of type `long`, from `sum` on: it throws when an addition overflows. -/
def checkedSum (sum : Int64) : List Int64 → Option Int64
  | [] => some sum
  | n :: numbers =>
    if Int64.minValue.toInt ≤ sum.toInt + n.toInt ∧ sum.toInt + n.toInt ≤ Int64.maxValue.toInt then
      checkedSum (sum + n) numbers
    else none

namespace Double

/-- `x / (double)y` for whole numbers: a division by zero does not throw. -/
def quotient (x y : Int64) : Double :=
  if y = 0 then
    if x = 0 then .nan else if 0 < x then .posInfinity else .negInfinity
  else .finite (x.toInt / y.toInt)

/-- `1.0 - x`. -/
def oneMinus : Double → Double
  | .nan => .nan
  | .posInfinity => .negInfinity
  | .negInfinity => .posInfinity
  | .finite q => .finite (1 - q)

end Double

/-- `SystemTotalCpuProvider`, as far as it changes on Linux. -/
structure SystemTotalCpuProvider where
  prevIdleTime : Int64
  prevTotalTime : Int64
  deriving DecidableEq

namespace SystemTotalCpuProvider

def systemCpuTotalPct : String := "system.cpu.total.norm.pct"

section

variable [InvariantCulture]

/-- The columns of the first line, `none` where `ReadProcStat` does not get that far. There is
    no line if the file is missing or empty, or its reader is disposed of. -/
def columns (firstLine : Option String) : Option (List Int64) := do
  let firstLine ← firstLine
  -- The culture of the comparison tells apart only lines whose columns cannot be parsed.
  if !"cpu".toList.isPrefixOf (toLowerInvariantStr firstLine).toList then none
  else
    let values := split ' ' (trim (String.ofList (firstLine.toList.drop 3)))
    if values.length < 4 then none else values.mapM tryParseLong

/-- `ReadProcStat`: the idle time and the total. -/
def readProcStat (firstLine : Option String) : Option (Int64 × Int64) := do
  let numbers ← columns firstLine
  let total ← checkedSum 0 numbers
  let idle ← numbers[3]?
  pure (idle, total)

/-- The public constructor, which reads the file once. -/
def new (firstLine : Option String) : SystemTotalCpuProvider :=
  match readProcStat firstLine with
  | none => ⟨0, 0⟩
  | some (idle, total) => ⟨idle, total⟩

omit [InvariantCulture] in
/-- The constructor that gets the reader of the file. -/
def ofReader : SystemTotalCpuProvider := ⟨0, 0⟩

omit [InvariantCulture] in
/-- `totalTimeDelta`; the difference wraps around. -/
def totalTimeDelta (s : SystemTotalCpuProvider) (total : Int64) : Int64 := total - s.prevTotalTime

omit [InvariantCulture] in
/-- `notIdle`. -/
def notIdle (s : SystemTotalCpuProvider) (idle total : Int64) : Double :=
  (Double.quotient (idle - s.prevIdleTime) (s.totalTimeDelta total)).oneMinus

/-- `GetSamples` on Linux, with the provider as it leaves it. -/
def getSamples (firstLine : Option String) (s : SystemTotalCpuProvider) :
    Option (List MetricSample) × SystemTotalCpuProvider :=
  match readProcStat firstLine with
  | none => (none, s)
  | some (idle, total) => (some [⟨systemCpuTotalPct, s.notIdle idle total⟩], ⟨idle, total⟩)

/-- The provider as the collector sees it. -/
def provider : MetricsProvider SystemTotalCpuProvider (Option String) :=
  .ofReader (fun _ _ => true) fun firstLine s =>
    some (.returns (s.getSamples firstLine).1, (s.getSamples firstLine).2)

/-- The reads of one provider. -/
def system : LTS.System SystemTotalCpuProvider (Option String) where
  init s := s = ofReader ∨ ∃ firstLine, s = new firstLine
  step s firstLine := some (s.getSamples firstLine).2

/-! ### Columns that grow -/

/-- The rows of the reads that succeed. -/
def rows (lines : List (Option String)) : List (List Int64) :=
  lines.filterMap fun line => if (readProcStat line).isSome then columns line else none

end

/-- A column of a row; a row has a zero where it ends. -/
def column (row : List Int64) (j : Nat) : Int := (row.getD j 0).toInt

/-- The total of a row. -/
def rowTotal (row : List Int64) : Int := (row.map Int64.toInt).sum

/-- From one row to the next each column is non-decreasing, and the total increases. -/
structure Grows (row next : List Int64) : Prop where
  column_le : ∀ j, column row j ≤ column next j
  total_lt : rowTotal row < rowTotal next

/-- The rows grow one after the other. The empty row stands before the first one, so that no
    column is negative. -/
def Growing (rows : List (List Int64)) : Prop := ([] :: rows).IsChain Grows

theorem column_zero_add_tail (row : List Int64) :
    rowTotal row = column row 0 + rowTotal row.tail := by
  cases row with
  | nil => rfl
  | cons n row => rfl

theorem column_tail (row : List Int64) (j : Nat) : column row.tail j = column row (j + 1) := by
  cases row with
  | nil => rfl
  | cons n row => rfl

/-- A row whose columns are at least those of another has at least its total. -/
theorem rowTotal_le {n : Nat} {row next : List Int64} (hrow : row.length ≤ n)
    (hnext : next.length ≤ n) (h : ∀ j, column row j ≤ column next j) :
    rowTotal row ≤ rowTotal next := by
  induction n generalizing row next with
  | zero =>
    rw [List.length_eq_zero_iff.mp (Nat.le_zero.mp hrow),
      List.length_eq_zero_iff.mp (Nat.le_zero.mp hnext)]
  | succ n ih =>
    have hrest : rowTotal row.tail ≤ rowTotal next.tail := by
      apply ih
      · rw [List.length_tail]
        omega
      · rw [List.length_tail]
        omega
      · intro j
        rw [column_tail, column_tail]
        exact h (j + 1)
    rw [column_zero_add_tail row, column_zero_add_tail next]
    exact Int.add_le_add (h 0) hrest

/-- If no column shrinks, the total grows by at least as much as any one of them. -/
theorem column_sub_le {row next : List Int64} (h : ∀ j, column row j ≤ column next j) (k : Nat) :
    column next k - column row k ≤ rowTotal next - rowTotal row := by
  have htail : ∀ j, column row.tail j ≤ column next.tail j := fun j => by
    simpa only [column_tail] using h (j + 1)
  rw [column_zero_add_tail row, column_zero_add_tail next]
  induction k generalizing row next with
  | zero =>
    have hrest := rowTotal_le (Nat.le_max_left _ _) (Nat.le_max_right _ _) htail
    omega
  | succ k ih =>
    have hrest := ih htail fun j => by simpa only [column_tail] using htail (j + 1)
    rw [← column_zero_add_tail, ← column_zero_add_tail, column_tail, column_tail] at hrest
    have := h 0
    omega

/-! ### What is read -/

section

variable [InvariantCulture] {firstLine : Option String} {s : SystemTotalCpuProvider}
  {row next : List Int64} {idle total : Int64}

omit [InvariantCulture] in
/-- A sum that does not throw is exact. -/
theorem checkedSum_toInt {numbers : List Int64} {sum : Int64}
    (h : checkedSum sum numbers = some total) : total.toInt = sum.toInt + rowTotal numbers := by
  induction numbers generalizing sum with
  | nil =>
    cases h
    simp [rowTotal]
  | cons n numbers ih =>
    unfold checkedSum at h
    split at h
    · rename_i hrange
      have hadd : (sum + n).toInt = sum.toInt + n.toInt := by
        rw [Int64.toInt_add]
        refine Int.bmod_eq_of_le ?_ ?_
        · have := hrange.1
          simp only [Int64.toInt_minValue] at this
          omega
        · have := hrange.2
          simp only [Int64.toInt_maxValue] at this
          omega
      rw [ih h, hadd, Int.add_assoc]
      rfl
    · cases h

/-- What a successful read returns of the columns. -/
theorem readProcStat_eq_some (h : readProcStat firstLine = some (idle, total)) :
    ∃ numbers, columns firstLine = some numbers ∧ total.toInt = rowTotal numbers ∧
      idle.toInt = column numbers 3 := by
  obtain ⟨numbers, hcolumns, h⟩ := Option.bind_eq_some_iff.mp h
  obtain ⟨sum, hsum, h⟩ := Option.bind_eq_some_iff.mp h
  obtain ⟨third, hthird, h⟩ := Option.bind_eq_some_iff.mp h
  cases h
  refine ⟨numbers, hcolumns, ?_, ?_⟩
  · rw [checkedSum_toInt hsum]
    simp
  · rw [column, List.getD_eq_getElem?_getD, hthird, Option.getD_some]

/-! ### The invariant -/

/-- The provider keeps what the last successful read returned of its row. -/
structure Follows (s : SystemTotalCpuProvider) (row : List Int64) : Prop where
  prevIdleTime_eq : s.prevIdleTime.toInt = column row 3
  prevTotalTime_eq : s.prevTotalTime.toInt = rowTotal row
  nonneg : ∀ j, 0 ≤ column row j

/-- A read is reported as a fraction: nothing is divided by zero, and the samples are in
    [0, 1]. -/
structure IsFraction (s : SystemTotalCpuProvider) (firstLine : Option String) : Prop where
  totalTimeDelta_ne : ∀ idle total, readProcStat firstLine = some (idle, total) →
    s.totalTimeDelta total ≠ 0
  samples_mem : ∀ samples, (s.getSamples firstLine).1 = some samples →
    ∀ x ∈ samples, ∃ q : ℚ, x.value = .finite q ∧ 0 ≤ q ∧ q ≤ 1

omit [InvariantCulture] in
theorem follows_ofReader : ofReader.Follows [] := by
  constructor
  · rfl
  · rfl
  · exact fun _ => Int.le_refl 0

omit [InvariantCulture] in
theorem Follows.of_read (hs : s.Follows row) (hgrows : Grows row next)
    (htotal : total.toInt = rowTotal next) (hidle : idle.toInt = column next 3) :
    (⟨idle, total⟩ : SystemTotalCpuProvider).Follows next where
  prevIdleTime_eq := hidle
  prevTotalTime_eq := htotal
  nonneg j := Int.le_trans (hs.nonneg j) (hgrows.column_le j)

omit [InvariantCulture] in
/-- The difference of two counters that are in order does not wrap around. -/
theorem toInt_sub_of_le {x y : Int64} (hy : 0 ≤ y.toInt) (h : y.toInt ≤ x.toInt) :
    (x - y).toInt = x.toInt - y.toInt := by
  have := x.toInt_lt
  rw [Int64.toInt_sub]
  exact Int.bmod_eq_of_le (by omega) (by omega)

omit [InvariantCulture] in
theorem Follows.rowTotal_nonneg (hs : s.Follows row) : 0 ≤ rowTotal row :=
  @rowTotal_le _ [] row (Nat.zero_le _) (Nat.le_refl _) hs.nonneg

omit [InvariantCulture] in
/-- The two differences are those of the rows. -/
theorem Follows.deltas (hs : s.Follows row) (hgrows : Grows row next)
    (htotal : total.toInt = rowTotal next) (hidle : idle.toInt = column next 3) :
    (s.totalTimeDelta total).toInt = rowTotal next - rowTotal row ∧
      (idle - s.prevIdleTime).toInt = column next 3 - column row 3 := by
  have hprevTotal := hs.prevTotalTime_eq
  have hprevIdle := hs.prevIdleTime_eq
  constructor
  · have hlt := hgrows.total_lt
    have hnonneg := hs.rowTotal_nonneg
    rw [totalTimeDelta, toInt_sub_of_le (by omega) (by omega), htotal, hprevTotal]
  · have hle := hgrows.column_le 3
    have hnonneg := hs.nonneg 3
    rw [toInt_sub_of_le (by omega) (by omega), hidle, hprevIdle]

omit [InvariantCulture] in
/-- What is not idle time is a share of the whole: the idle time is part of the total. -/
theorem Follows.notIdle_mem (hs : s.Follows row) (hgrows : Grows row next)
    (htotal : total.toInt = rowTotal next) (hidle : idle.toInt = column next 3) :
    s.totalTimeDelta total ≠ 0 ∧ ∃ q : ℚ, s.notIdle idle total = .finite q ∧ 0 ≤ q ∧ q ≤ 1 := by
  obtain ⟨hdelta, hidleDelta⟩ := hs.deltas hgrows htotal hidle
  have hpos : 0 < (s.totalTimeDelta total).toInt := by
    rw [hdelta]
    exact Int.sub_pos_of_lt hgrows.total_lt
  have hnonneg : 0 ≤ (idle - s.prevIdleTime).toInt := by
    rw [hidleDelta]
    exact Int.sub_nonneg_of_le (hgrows.column_le 3)
  have hle : (idle - s.prevIdleTime).toInt ≤ (s.totalTimeDelta total).toInt := by
    rw [hdelta, hidleDelta]
    exact column_sub_le hgrows.column_le 3
  have hne : s.totalTimeDelta total ≠ 0 := by
    intro hzero
    rw [hzero] at hpos
    exact absurd hpos (by decide)
  refine ⟨hne, _, by rw [notIdle, Double.quotient, if_neg hne, Double.oneMinus], ?_, ?_⟩
  · rw [sub_nonneg, div_le_one (by exact_mod_cast hpos)]
    exact_mod_cast hle
  · have hquotient : (0 : ℚ) ≤
        (idle - s.prevIdleTime).toInt / (s.totalTimeDelta total).toInt :=
      div_nonneg (by exact_mod_cast hnonneg) (by exact_mod_cast Int.le_of_lt hpos)
    linarith

/-- A row that grows is reported as a fraction. -/
theorem Follows.isFraction (hs : s.Follows row) (hgrows : Grows row next)
    (hcolumns : columns firstLine = some next) : s.IsFraction firstLine := by
  constructor
  · intro idle total hread
    obtain ⟨numbers, hnumbers, htotal, hidle⟩ := readProcStat_eq_some hread
    cases hcolumns.symm.trans hnumbers
    exact (hs.notIdle_mem hgrows htotal hidle).1
  · intro samples hsamples x hx
    unfold getSamples at hsamples
    split at hsamples
    · cases hsamples
    · rename_i idle total hread
      obtain ⟨numbers, hnumbers, htotal, hidle⟩ := readProcStat_eq_some hread
      cases hcolumns.symm.trans hnumbers
      cases hsamples
      rw [List.mem_singleton.mp hx]
      exact (hs.notIdle_mem hgrows htotal hidle).2

/-- A failed read reports nothing. -/
theorem isFraction_of_failed (h : readProcStat firstLine = none) : s.IsFraction firstLine := by
  constructor
  · intro idle total hread
    simp [h] at hread
  · intro samples hsamples
    simp [getSamples, h] at hsamples

/-- The collector passes on all that is reported as a fraction. -/
theorem IsFraction.validSamples_eq (h : s.IsFraction firstLine) {failedReads w : Int32}
    {reading : Reading} {own : SystemTotalCpuProvider}
    (hread : provider.getSamples firstLine s failedReads = some (reading, own, w)) :
    reading.validSamples = (s.getSamples firstLine).1.getD [] := by
  cases hread
  cases hsamples : (s.getSamples firstLine).1 with
  | none => rfl
  | some samples =>
    refine List.filter_eq_self.mpr fun x hx => ?_
    obtain ⟨q, hq, -⟩ := h.samples_mem samples hsamples x hx
    rw [MetricSample.isValid, hq]

/-! ### Runs -/

/-- How a provider is built, and the reads that its constructor makes. -/
inductive BuiltBy : SystemTotalCpuProvider → List (Option String) → Prop
  | new (firstLine : Option String) : BuiltBy (new firstLine) [firstLine]
  | ofReader : BuiltBy ofReader []

theorem rows_cons_of_failed {lines : List (Option String)} (h : readProcStat firstLine = none) :
    rows (firstLine :: lines) = rows lines := by
  simp [rows, h]

theorem rows_cons_of_read {lines : List (Option String)} {numbers : List Int64}
    (h : readProcStat firstLine = some (idle, total))
    (hcolumns : columns firstLine = some numbers) :
    rows (firstLine :: lines) = numbers :: rows lines := by
  simp [rows, h, hcolumns]

/-- From a state that follows the last row, reads whose rows grow are reported as fractions. -/
theorem Follows.along (hs : s.Follows row) {lines : List (Option String)}
    (h : (row :: rows lines).IsChain Grows) : system.Along IsFraction s lines := by
  induction lines generalizing s row with
  | nil => trivial
  | cons firstLine lines ih =>
    rintro s' hstep
    cases hstep
    cases hread : readProcStat firstLine with
    | none =>
      rw [rows_cons_of_failed hread] at h
      refine ⟨isFraction_of_failed hread, ?_⟩
      rw [getSamples, hread]
      exact ih hs h
    | some r =>
      obtain ⟨idle, total⟩ := r
      obtain ⟨numbers, hcolumns, htotal, hidle⟩ := readProcStat_eq_some hread
      rw [rows_cons_of_read hread hcolumns] at h
      obtain ⟨hgrows, hrest⟩ := List.isChain_cons_cons.mp h
      refine ⟨hs.isFraction hgrows hcolumns, ?_⟩
      rw [getSamples, hread]
      exact ih (hs.of_read hgrows htotal hidle) hrest

/-- Whatever reads fail in between, as long as the rows of the successful ones grow, every sample
    is a fraction and no division by zero happens. -/
theorem getSamples_isFraction {read : List (Option String)} (hs : BuiltBy s read)
    (lines : List (Option String)) (h : Growing (rows (read ++ lines))) :
    system.Along IsFraction s lines := by
  cases hs with
  | ofReader => exact follows_ofReader.along h
  | new firstLine =>
    cases hread : readProcStat firstLine with
    | none =>
      rw [List.singleton_append, rows_cons_of_failed hread] at h
      rw [new, hread]
      exact follows_ofReader.along h
    | some r =>
      obtain ⟨idle, total⟩ := r
      obtain ⟨numbers, hcolumns, htotal, hidle⟩ := readProcStat_eq_some hread
      rw [List.singleton_append, rows_cons_of_read hread hcolumns] at h
      obtain ⟨hgrows, hrest⟩ := List.isChain_cons_cons.mp h
      rw [new, hread]
      exact (follows_ofReader.of_read hgrows htotal hidle).along hrest

end

/-- Three reads of a busy system; the second one fails. -/
def readWithGap : List (Option String) :=
  [some "cpu  10 0 5 85 0", some "cpu  10 0 5", some "cpu  30 1 5 164 0"]

theorem getSamples_isFraction_readWithGap :
    (@Growing (@rows .ascii readWithGap)) ∧
      (@system .ascii).Along (@IsFraction .ascii) ofReader readWithGap := by
  have hrows : @rows .ascii readWithGap = [[10, 0, 5, 85, 0], [30, 1, 5, 164, 0]] := by
    decide +kernel
  have hgrowing : Growing (@rows .ascii ([] ++ readWithGap)) := by
    rw [List.nil_append, hrows]
    refine .cons_cons ⟨fun j => ?_, by decide⟩ (.cons_cons ⟨fun j => ?_, by decide⟩ (.singleton _))
    · rcases j with _ | _ | _ | _ | _ | j <;> simp [column]
    · rcases j with _ | _ | _ | _ | _ | j <;> simp [column]
  exact ⟨hgrowing,
    @getSamples_isFraction .ascii _ _ (@BuiltBy.ofReader .ascii) readWithGap hgrowing⟩

end SystemTotalCpuProvider

end ApmAgent
