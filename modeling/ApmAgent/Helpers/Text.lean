import ApmAgent.Helpers.Utf16
import Mathlib.Tactic.SplitIfs

/-! # Text

  The string operations of the runtime that the agent's helpers call. A .NET
  string is a `String`; where an algorithm walks over characters it works on
  the list of them. A reference that may be null is an `Option`.
-/

namespace ApmAgent

/-- What is said of all characters of a text is decided by trying these, not all that there are. -/
@[reducible] def decidableForallMem (p : Char → Prop) [DecidablePred p] (cs : List Char) :
    Decidable (∀ c ∈ cs, p c) :=
  List.decidableBAll p cs

/-! ### Casing -/

/-- The case tables of the invariant culture. Only the ASCII part is fixed: the tables for
    the other characters are the runtime's own. -/
class InvariantCulture where
  /-- `char.ToLowerInvariant`. -/
  toLowerInvariant : Char → Char
  /-- The simple upper-case mapping `StringComparison.OrdinalIgnoreCase` compares by. -/
  toUpperInvariant : Char → Char
  toLowerInvariant_ascii : ∀ c : Char, c.val < 128 → toLowerInvariant c = c.toLower
  toUpperInvariant_ascii : ∀ c : Char, c.val < 128 → toUpperInvariant c = c.toUpper

/-- The tables that leave every character outside ASCII as it is. -/
@[reducible] def InvariantCulture.ascii : InvariantCulture where
  toLowerInvariant := Char.toLower
  toUpperInvariant := Char.toUpper
  toLowerInvariant_ascii := fun _ _ => rfl
  toUpperInvariant_ascii := fun _ _ => rfl

export InvariantCulture (toLowerInvariant toUpperInvariant)

/-- `string.ToLowerInvariant`. -/
def toLowerInvariantStr [InvariantCulture] (s : String) : String :=
  String.ofList (s.toList.map toLowerInvariant)

/-- `string.Equals(a, b, StringComparison.OrdinalIgnoreCase)`. -/
def equalsOrdinalIgnoreCase [InvariantCulture] (a b : List Char) : Bool :=
  a.map toUpperInvariant = b.map toUpperInvariant

/-! ### White space, trimming, splitting -/

/-- `char.IsWhiteSpace`. -/
def isWhiteSpace (c : Char) : Bool :=
  let n := c.toNat
  (9 ≤ n && n ≤ 13) || n = 0x20 || n = 0x85 || n = 0xA0 || n = 0x1680 ||
    (0x2000 ≤ n && n ≤ 0x200A) || n = 0x2028 || n = 0x2029 || n = 0x202F ||
    n = 0x205F || n = 0x3000

/-- Drop the characters that satisfy `p` from both ends. -/
def trimBy (p : Char → Bool) (cs : List Char) : List Char :=
  ((cs.dropWhile p).reverse.dropWhile p).reverse

/-- `string.Trim()`. -/
def trim (s : String) : String := String.ofList (trimBy isWhiteSpace s.toList)

/-- `string.Split(c)`. -/
def split (c : Char) (s : String) : List String :=
  (s.toList.splitOn c).map String.ofList

/-- `string.IsNullOrEmpty`. -/
def isNullOrEmpty (s : Option String) : Bool := s.getD "" == ""

/-- `string.IsNullOrWhiteSpace`. -/
def isNullOrWhiteSpace (s : Option String) : Bool := (s.getD "").toList.all isWhiteSpace

/-! ### Truncation -/

/-- `Consts.PropertyMaxLength`. -/
def propertyMaxLength : Nat := 1024

/-- `StringExtensions.Truncate`: `…` stands for the units that were cut off. -/
def truncateUnits (input : List Nat) (length : Nat) : List Nat :=
  if input.length ≤ length then input
  else if length ≤ 5 then input.take length
  else input.take (length - (unitsOf "…").length) ++ unitsOf "…"

/-- The truncated string as it is sent. -/
def truncate (input : String) (length : Nat) : String :=
  stringOf (truncateUnits (unitsOf input) length)

theorem truncateUnits_length_le (input : List Nat) (length : Nat) :
    (truncateUnits input length).length ≤ length := by
  unfold truncateUnits
  split_ifs with hfits hshort
  · exact hfits
  · rw [List.length_take]
    omega
  · -- The ellipsis is one unit.
    have hdots : (unitsOf "…").length = 1 := by decide
    rw [List.length_append, List.length_take, hdots]
    omega

/-- A truncated string fits. -/
theorem truncate_length_le (input : String) (length : Nat) :
    stringLength (truncate input length) ≤ length := by
  rw [truncate, stringLength_stringOf]
  exact truncateUnits_length_le _ _

/-- A string that fits is left as it is. -/
theorem truncate_of_le {input : String} {length : Nat} (h : stringLength input ≤ length) :
    truncate input length = input := by
  have hfits : (unitsOf input).length ≤ length := h
  rw [truncate, truncateUnits, if_pos hfits, stringOf_unitsOf]

end ApmAgent
