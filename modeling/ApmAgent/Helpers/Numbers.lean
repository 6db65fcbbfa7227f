import ApmAgent.Helpers.Text
import Mathlib.Data.Rat.Floor
import Mathlib.Tactic.NormNum

/-! # Numbers and time intervals

  The number parsers of the runtime under the invariant culture, doubles, and
  time spans. A double is an exact rational extended with NaN and the two
  infinities: rounding to 53 bits is not modelled. A time span is its signed
  number of 100 ns ticks.
-/

namespace ApmAgent

/-- The runtime exceptions the modelled code can tell apart. -/
inductive RuntimeException where
  | argument
  | argumentNull
  | argumentOutOfRange
  | invalidOperation
  | overflow
  | timeout
  | other (typeName : String)
  deriving DecidableEq, Repr

/-! ### Doubles -/

/-- `double`. -/
inductive Double where
  | nan
  | posInfinity
  | negInfinity
  | finite (q : ℚ)
  deriving DecidableEq

namespace Double

/-- `x <= y`; every comparison with NaN is false. -/
def le : Double → Double → Bool
  | .nan, _ => false
  | _, .nan => false
  | .negInfinity, _ => true
  | _, .posInfinity => true
  | .posInfinity, _ => false
  | _, .negInfinity => false
  | .finite p, .finite q => p ≤ q

instance (n : Nat) : OfNat Double n := ⟨.finite n⟩

end Double

/-! ### Reading digits -/

/-- The white space the number parsers skip. -/
def isNumberWhite (c : Char) : Bool := c.toNat = 0x20 || (9 ≤ c.toNat && c.toNat ≤ 0x0D)

/-- The value of a list of decimal digits. -/
def digitsValue (cs : List Char) : Nat :=
  cs.foldl (fun n c => 10 * n + (c.toNat - '0'.toNat)) 0

theorem isDigit_of_mem_toDigits (n : Nat) : ∀ c ∈ Nat.toDigits 10 n, c.isDigit = true :=
  fun _ hc => Nat.isDigit_of_mem_toDigits (by decide) (by decide) hc

/-- The decimal notation of a number is read as that number. -/
theorem digitsValue_toDigits (n : Nat) : digitsValue (Nat.toDigits 10 n) = n :=
  Nat.ofDigitChars_ten_toDigits

/-- A leading sign: whether it is `-`, and what follows it. -/
def takeSign : List Char → Bool × List Char
  | '-' :: cs => (true, cs)
  | '+' :: cs => (false, cs)
  | cs => (false, cs)

/-- What may follow a number: white space, then null characters. -/
def isTrailing (cs : List Char) : Bool :=
  (cs.dropWhile isNumberWhite).all (· = '\x00')

/-- `int.TryParse` with `NumberStyles.Integer` and the invariant culture. -/
def tryParseInt (s : String) : Option Int32 :=
  let (negative, cs) := takeSign (s.toList.dropWhile isNumberWhite)
  let digits := cs.takeWhile Char.isDigit
  if digits = [] || !isTrailing (cs.dropWhile Char.isDigit) then none
  else
    let n : Int := if negative then -digitsValue digits else digitsValue digits
    if Int32.minValue.toInt ≤ n ∧ n ≤ Int32.maxValue.toInt then some (Int32.ofInt n) else none

/-- `ulong.TryParse` with `NumberStyles.Integer`: of the negative numbers only zero. -/
def tryParseULong (s : String) : Option UInt64 :=
  let (negative, cs) := takeSign (s.toList.dropWhile isNumberWhite)
  let digits := cs.takeWhile Char.isDigit
  if digits = [] || !isTrailing (cs.dropWhile Char.isDigit) then none
  else
    let n := digitsValue digits
    if n < 2 ^ 64 ∧ (negative → n = 0) then some (UInt64.ofNat n) else none

/-- The exponent of a floating-point literal and what follows it. A letter `e` that no digit
    follows is not an exponent. -/
def takeExponent : List Char → Int × List Char
  | c :: cs =>
    if c = 'e' || c = 'E' then
      let (negative, ds) := takeSign cs
      let digits := ds.takeWhile Char.isDigit
      if digits = [] then (0, c :: cs)
      else
        (if negative then -digitsValue digits else digitsValue digits,
          ds.dropWhile Char.isDigit)
    else (0, c :: cs)
  | [] => (0, [])

/-- The fraction digits after a decimal point and what follows them. -/
def takeFraction : List Char → List Char × List Char
  | '.' :: cs => (cs.takeWhile Char.isDigit, cs.dropWhile Char.isDigit)
  | cs => ([], cs)

/-- The numeric part of `double.TryParse`. -/
def tryParseNumber (cs : List Char) : Option ℚ :=
  let (negative, cs) := takeSign (cs.dropWhile isNumberWhite)
  let integral := cs.takeWhile Char.isDigit
  let (fraction, cs) := takeFraction (cs.dropWhile Char.isDigit)
  let (exponent, cs) := takeExponent cs
  if (integral = [] && fraction = []) || !isTrailing cs then none
  else
    let magnitude : ℚ :=
      digitsValue (integral ++ fraction) * (10 : ℚ) ^ (exponent - fraction.length)
    some (if negative then -magnitude else magnitude)

/-- The symbols `double.TryParse` reads when the text is not a number. -/
def tryParseSymbol [InvariantCulture] (cs : List Char) : Option Double :=
  let cs := trimBy isWhiteSpace cs
  -- The symbols of the invariant culture, in any case.
  let is (symbol : String) : Bool := equalsOrdinalIgnoreCase cs symbol.toList
  if is "Infinity" || is "+Infinity" then some .posInfinity
  else if is "-Infinity" then some .negInfinity
  else if is "NaN" || is "+NaN" || is "-NaN" then some .nan
  else none

/-- `double.TryParse` with `NumberStyles.Float` and the invariant culture. -/
def tryParseDouble [InvariantCulture] (s : String) : Option Double :=
  match tryParseNumber s.toList with
  | some q => some (.finite q)
  | none => tryParseSymbol s.toList

/-- `bool.TryParse`: white space and null characters around the word are ignored. -/
def tryParseBool [InvariantCulture] (s : String) : Option Bool :=
  let cs := trimBy (fun c => isWhiteSpace c || c = '\x00') s.toList
  if equalsOrdinalIgnoreCase cs "True".toList then some true
  else if equalsOrdinalIgnoreCase cs "False".toList then some false
  else none

/-! ### Time spans -/

/-- `TimeSpan`, in ticks. -/
abbrev TimeSpan := Int

namespace TimeSpan

def ticksPerMillisecond : Int := 10000

def ticksPerSecond : Int := 10000000

def ticksPerMinute : Int := 600000000

/-- The largest and the smallest number of ticks. -/
def maxTicks : Int := 2 ^ 63 - 1

def minTicks : Int := -2 ^ 63

/-- `TimeSpan.FromMilliseconds`, `FromSeconds` and `FromMinutes` for their number of ticks. -/
def interval (value : Double) (scale : Int) : Except RuntimeException TimeSpan :=
  match value with
  | .nan => .error .argument
  | .posInfinity => .error .overflow
  | .negInfinity => .error .overflow
  | .finite q =>
    -- Ticks beyond the range overflow; the fraction of a tick is cut off.
    let ticks := q * scale
    if ticks > maxTicks ∨ ticks < minTicks then .error .overflow
    else .ok (ticks.num.tdiv ticks.den)

/-- `TimeSpan.TotalMilliseconds`. -/
def totalMilliseconds (t : TimeSpan) : Double := .finite (t / ticksPerMillisecond)

end TimeSpan

section
attribute [local instance] InvariantCulture.ascii

example : tryParseInt " -12 " = some (-12) := by decide

example : tryParseInt "2147483648" = none := by decide

example : tryParseDouble "-1.5e1" = some (.finite (-15)) := by decide +kernel

example : tryParseDouble "1e" = none := by decide +kernel

end

end ApmAgent
