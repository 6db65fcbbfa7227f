import ApmAgent.Helpers.Text

/-! # WildcardMatcher

  Glob patterns of configuration options: `*` matches any text, matching is
  case insensitive unless the pattern starts with `(?-i)`. A pattern is split
  at its wildcards into simple matchers, which are searched for one after the
  other.

  The two-part search reads a text that is given as two strings. Positions
  are read through `charAt`, which takes the proof that the position is inside
  one of the parts.
-/

namespace ApmAgent

section
variable [InvariantCulture]

/-! ### Two-part substring search -/

/-- `WildcardMatcher.CharAt`. -/
def charAt (i : Nat) (firstPart secondPart : List Char)
    (h : i < firstPart.length + secondPart.length) : Char :=
  if h₁ : i < firstPart.length then firstPart.get ⟨i, h₁⟩
  else secondPart.get ⟨i - firstPart.length, by omega⟩

/-- The character the comparison looks at. -/
def foldCase (ignoreCase : Bool) (c : Char) : Char :=
  if ignoreCase then toLowerInvariant c else c

/-- The inner `while` loop of `IndexOfIgnoreCase`: how many characters of the needle are
    matched from position `ii` on, up to the first mismatch or the end of the text. -/
def matchedLength (haystack1 haystack2 : List Char) (ignoreCase : Bool) :
    List Char → Nat → Nat
  | [], _ => 0
  | c₂ :: needle, ii =>
    if h : ii < haystack1.length + haystack2.length then
      if foldCase ignoreCase (charAt ii haystack1 haystack2 h) ≠ foldCase ignoreCase c₂ then 0
      else matchedLength haystack1 haystack2 ignoreCase needle (ii + 1) + 1
    else 0

/-- The outer `for` loop of `IndexOfIgnoreCase`, with the number of iterations left. -/
def searchFrom (haystack1 haystack2 needle : List Char) (ignoreCase : Bool) :
    Nat → Nat → Int
  | 0, _ => -1
  | n + 1, i =>
    -- Early out, if possible.
    if i + needle.length > haystack1.length + haystack2.length then -1
    else if matchedLength haystack1 haystack2 ignoreCase needle i = needle.length then i
    else searchFrom haystack1 haystack2 needle ignoreCase n (i + 1)

/-- `string.IndexOf(needle, StringComparison.Ordinal)`, from position `i` on. -/
def indexOfOrdinal (needle : List Char) : List Char → Nat → Int
  | [], i => if needle = [] then i else -1
  | c :: cs, i =>
    if needle.isPrefixOf (c :: cs) then i else indexOfOrdinal needle cs (i + 1)

/-- `WildcardMatcher.IndexOfIgnoreCase`. -/
def indexOfIgnoreCase (haystack1 haystack2 needle : List Char) (ignoreCase : Bool)
    (start stop : Int) : Int :=
  if start < 0 then -1
  else if needle = [] ∨ haystack1.length + haystack2.length = 0 then
    -- Fallback to legacy behavior.
    indexOfOrdinal needle haystack1 0
  else searchFrom haystack1 haystack2 needle ignoreCase (stop - start).toNat start.toNat

/-! ### Matchers -/

/-- A matcher without wildcards in the middle. -/
structure SimpleWildcardMatcher where
  matcher : List Char
  wildcardAtBeginning : Bool
  wildcardAtEnd : Bool
  ignoreCase : Bool
  deriving DecidableEq, Repr

/-- The three subclasses of `WildcardMatcher`. -/
inductive WildcardMatcher where
  | verbatim (matcher : List Char) (ignoreCase : Bool)
  | simple (m : SimpleWildcardMatcher)
  | compound (matcher : List Char) (wildcardMatchers : List SimpleWildcardMatcher)
  deriving DecidableEq, Repr

/-- `SimpleWildcardMatcher.IndexOf`. -/
def SimpleWildcardMatcher.indexOf (m : SimpleWildcardMatcher)
    (firstPart secondPart : List Char) (offset : Int) : Int :=
  let totalLength := firstPart.length + secondPart.length
  -- Only between two wildcards does the offset count; the other searches are anchored.
  if m.wildcardAtEnd && m.wildcardAtBeginning then
    indexOfIgnoreCase firstPart secondPart m.matcher m.ignoreCase offset totalLength
  else if m.wildcardAtEnd then
    indexOfIgnoreCase firstPart secondPart m.matcher m.ignoreCase 0 1
  else if m.wildcardAtBeginning then
    indexOfIgnoreCase firstPart secondPart m.matcher m.ignoreCase
      (totalLength - m.matcher.length) totalLength
  else if totalLength = m.matcher.length then
    indexOfIgnoreCase firstPart secondPart m.matcher m.ignoreCase 0 totalLength
  else -1

/-- The loop of `CompoundWildcardMatcher.Matches`: each matcher is searched for after the
    text the previous one took. -/
def matchesInOrder (firstPart secondPart : List Char) : List SimpleWildcardMatcher → Int → Bool
  | [], _ => true
  | m :: ms, offset =>
    let found := m.indexOf firstPart secondPart offset
    if found = -1 then false
    else matchesInOrder firstPart secondPart ms (found + m.matcher.length)

/-- `WildcardMatcher.Matches(firstPart, secondPart)`; a null second part is the empty string. -/
def WildcardMatcher.matchesParts (w : WildcardMatcher) (firstPart secondPart : List Char) : Bool :=
  match w with
  | .verbatim matcher ignoreCase =>
    if ignoreCase then equalsOrdinalIgnoreCase matcher (firstPart ++ secondPart)
    else matcher = firstPart ++ secondPart
  | .simple m => m.indexOf firstPart secondPart 0 ≠ -1
  | .compound _ ms => matchesInOrder firstPart secondPart ms 0

/-- `WildcardMatcher.Matches(s)`. -/
def WildcardMatcher.matches (w : WildcardMatcher) (s : List Char) : Bool :=
  match w with
  | .verbatim matcher ignoreCase =>
    if ignoreCase then equalsOrdinalIgnoreCase matcher s else matcher = s
  | .simple m => m.indexOf s [] 0 ≠ -1
  | .compound _ ms => matchesInOrder s [] ms 0

/-! ### Parsing a pattern -/

def caseInsensitivePrefix : List Char := "(?i)".toList

def caseSensitivePrefix : List Char := "(?-i)".toList

/-- The simple matchers of the parts between the wildcards: only the first part is anchored
    at the beginning and only the last one at the end. -/
def simpleMatchers (ignoreCase : Bool) (startsWith endsWith : Bool) (isFirst : Bool) :
    List (List Char) → List SimpleWildcardMatcher
  | [] => []
  | [part] => [⟨part, !isFirst || startsWith, endsWith, ignoreCase⟩]
  | part :: rest =>
    ⟨part, !isFirst || startsWith, true, ignoreCase⟩ ::
      simpleMatchers ignoreCase startsWith endsWith false rest

/-- `WildcardMatcher.ValueOf` after the case prefix has been taken off. -/
def WildcardMatcher.ofPattern (matcher : List Char) (ignoreCase : Bool) : WildcardMatcher :=
  let startsWith := matcher.head? = some '*'
  let endsWith := matcher.getLast? = some '*'
  match matcher.splitOn '*' with
  -- One part means that there is no wildcard, and the second alternative is never taken.
  | [part] =>
    if !startsWith && !endsWith then .verbatim part ignoreCase
    else .simple ⟨part, startsWith, endsWith, ignoreCase⟩
  | parts => .compound matcher (simpleMatchers ignoreCase startsWith endsWith true parts)

/-- `WildcardMatcher.ValueOf`. -/
def WildcardMatcher.valueOf (wildcardString : String) : WildcardMatcher :=
  let matcher := wildcardString.toList
  if caseSensitivePrefix.isPrefixOf matcher then
    .ofPattern (matcher.drop caseSensitivePrefix.length) false
  else if caseInsensitivePrefix.isPrefixOf matcher then
    .ofPattern (matcher.drop caseInsensitivePrefix.length) true
  else .ofPattern matcher true

/-! ### Lists of matchers -/

/-- `WildcardMatcher.AnyMatch`: the first matcher that matches. -/
def anyMatch (matchers : List WildcardMatcher) (s : Option String) : Option WildcardMatcher :=
  match s with
  | none => none
  | some s => matchers.find? fun w => w.matchesParts s.toList []

/-- `WildcardMatcher.IsAnyMatch`. -/
def isAnyMatch (matchers : List WildcardMatcher) (s : Option String) : Bool :=
  (anyMatch matchers s).isSome

end

section
attribute [local instance] InvariantCulture.ascii

example :
    isAnyMatch [.valueOf "*key", .valueOf "(?-i)Set-Cookie"] (some "Api-Key") = true := by
  decide

end

end ApmAgent
