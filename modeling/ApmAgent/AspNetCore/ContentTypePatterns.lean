import ApmAgent.AspNetCore.RequestBody
import ApmAgent.Framework.Replace
import ApmAgent.Framework.SearchPattern

/-! # Content type patterns

  The patterns of `CaptureBodyContentTypes` are meant as globs. `IsLike` turns
  one into a regular expression by replacing characters, and looks for a match
  anywhere in the text.

  `containsLike_obeysGlobs` says which patterns work as globs nevertheless:
  those that ask for a text to be contained, as in `*json*`.
-/

namespace ApmAgent

namespace AspNetCore

open SearchPattern

attribute [local instance] decidableForallMem

/-! ### The regular expression -/

/-- What `IsLike` puts together a regular expression from. -/
inductive RegexElement where
  | literal (c : Char)
  | backslash
  | anyCharacter
  | anyText
  | whiteSpace

namespace RegexElement

/-- The element in a regular expression. -/
def text : RegexElement → List Char
  | literal c => [c]
  | backslash => ['\\', '\\']
  | anyCharacter => ['.']
  | anyText => ['.', '*', '?']
  | whiteSpace => ['\\', 's']

/-- What the element takes of a text, `sameLetter` telling which characters are the same but for
    their case. -/
def element (sameLetter : Char → Char → Bool) : RegexElement → Element Char
  | literal c => .one (sameLetter c)
  | backslash => .one (sameLetter '\\')
  | anyCharacter => .one (· ≠ '\n')
  | anyText => .many (· ≠ '\n')
  | whiteSpace => .one isWhiteSpace

end RegexElement

/-- The characters that are special in regular expressions and that `IsLike` leaves as they
    are. -/
def regexSpecial : List Char := ['+', '|', '\x7b', '[', '(', ')', '^', '$']

/-- The characters that `IsLike` replaces. -/
def replaced : List Char := ['.', '?', '*', '\\', ' ']

/-- The regular expressions of the runtime, as far as these elements go. -/
class RegexEngine [ContentTypes] where
  /-- The small letters of the current culture, by which `RegexOptions.IgnoreCase` compares. -/
  toLower : Char → Char
  /-- In ASCII only the small letter of `I` is a matter of the culture. -/
  toLower_ascii : ∀ c, c.val < 128 → c ≠ 'I' → toLower c = c.toLower
  /-- The line feed is no letter. -/
  toLower_lineFeed : ∀ c, toLower c = '\n' → c = '\n'
  /-- A text matches where the elements take a part of it. -/
  isMatch_text : ∀ es : List RegexElement,
    (∀ c, .literal c ∈ es → c ∉ regexSpecial ∧ c ∉ replaced) → ∀ text : String,
      ContentTypes.isMatch (String.ofList (es.flatMap (·.text))) text =
        some (occurs (es.map (·.element fun c d => toLower c = toLower d)) text.toList)

/-- What becomes of a character of a pattern. -/
def likeElements (c : Char) : List RegexElement :=
  if c = '.' then [.backslash, .anyCharacter]
  else if c = '?' then [.anyCharacter]
  else if c = '*' then [.anyText]
  else if c = '\\' then [.backslash]
  else if c = ' ' then [.whiteSpace]
  else [.literal c]

/-- The replacements of `IsLike` come down to one of each character. -/
theorem toList_replacements (pattern : String) :
    (((((pattern.replace "." "\\.").replace "?" ".").replace "*" ".*?").replace "\\"
      "\\\\").replace " " "\\s").toList =
      (pattern.toList.flatMap likeElements).flatMap (·.text) := by
  change (((((pattern.replace (String.singleton '.') "\\.").replace (String.singleton '?')
    ".").replace (String.singleton '*') ".*?").replace (String.singleton '\\')
      "\\\\").replace (String.singleton ' ') "\\s").toList = _
  simp only [Replace.toList_replace_singleton, List.flatMap_assoc]
  refine List.flatMap_congr fun c _ => ?_
  unfold likeElements
  split_ifs with hdot hquestion hstar hbackslash hspace
  · subst hdot
    rfl
  · subst hquestion
    rfl
  · subst hstar
    rfl
  · subst hbackslash
    rfl
  · subst hspace
    rfl
  · simp [Replace.substitute, RegexElement.text, hdot, hquestion, hstar, hbackslash, hspace]

/-! ### Globs -/

section

variable [ContentTypes] [RegexEngine]

/-- The same letter but for its case. -/
def sameLetter (c d : Char) : Bool := RegexEngine.toLower c = RegexEngine.toLower d

theorem sameLetter_self (c : Char) : sameLetter c c = true := decide_eq_true rfl

theorem sameLetter_lineFeed (c : Char) (h : sameLetter c '\n' = true) : c = '\n' := by
  have hlineFeed : RegexEngine.toLower '\n' = '\n' :=
    RegexEngine.toLower_ascii '\n' (by decide) (by decide)
  have hlower := of_decide_eq_true h
  rw [hlineFeed] at hlower
  exact RegexEngine.toLower_lineFeed c hlower

omit [ContentTypes] [RegexEngine] in
/-- What a pattern takes as a glob. -/
def globElement (sameLetter : Char → Char → Bool) (c : Char) : Element Char :=
  if c = '*' then .many fun _ => true
  else if c = '?' then .one fun _ => true
  else .one (sameLetter c)

/-- The whole text matches the pattern as a glob, the case ignored. -/
def GlobMatches (pattern text : String) : Prop :=
  Matches (pattern.toList.map (globElement sameLetter)) text.toList

/-- The patterns work as globs: for every text the test returns, and says whether one of them
    matches it. -/
def ObeysGlobs (patterns : List String) : Prop :=
  ∀ text, ∃ result, containsLike patterns text = some result ∧
    (result = true ↔ ∃ pattern ∈ patterns, GlobMatches pattern text)

omit [ContentTypes] [RegexEngine] in
/-- A character that a regular expression takes as it is: special ones are left out, the
    backslash is not. -/
def IsPlain (c : Char) : Prop := c ∉ regexSpecial ∧ c ∉ ['.', '?', '*', ' ']

instance : DecidablePred IsPlain := fun _ => instDecidableAnd

omit [ContentTypes] [RegexEngine] in
/-- The pattern asks for a text to be contained: plain characters between wildcards. -/
def AsksForPart (pattern : List Char) : Prop :=
  pattern = ['*'] ∨ ∃ m n part, pattern =
    List.replicate (m + 1) '*' ++ part ++ List.replicate (n + 1) '*' ∧ ∀ c ∈ part, IsPlain c

/-- What a pattern takes as a regular expression. -/
def regexElements (c : Char) : List (Element Char) :=
  (likeElements c).map (·.element sameLetter)

/-- `IsLike` looks for the elements of the pattern anywhere in the text. -/
theorem isLike_eq {pattern : String} (h : ∀ c ∈ pattern.toList, c ∉ regexSpecial)
    (text : String) :
    isLike pattern text = some (occurs (pattern.toList.flatMap regexElements) text.toList) := by
  have hliteral : ∀ c, .literal c ∈ pattern.toList.flatMap likeElements →
      c ∉ regexSpecial ∧ c ∉ replaced := by
    intro c hc
    obtain ⟨d, hd, hcd⟩ := List.mem_flatMap.mp hc
    unfold likeElements at hcd
    split_ifs at hcd with hdot hquestion hstar hbackslash hspace <;>
      simp only [List.mem_cons, List.not_mem_nil, or_false, reduceCtorEq, or_self,
        RegexElement.literal.injEq] at hcd
    subst hcd
    exact ⟨h c hd, by simp [replaced, hdot, hquestion, hstar, hbackslash, hspace]⟩
  have hpattern := congrArg String.ofList (toList_replacements pattern)
  rw [String.ofList_toList] at hpattern
  unfold isLike
  simp only [hpattern]
  rw [RegexEngine.isMatch_text _ hliteral, List.map_flatMap]
  rfl

/-! ### Patterns that ask for a part -/

theorem regexElements_star : regexElements '*' = [.many (· ≠ '\n')] := rfl

/-- A plain character is the same element for both readings. -/
theorem regexElements_of_isPlain {c : Char} (h : IsPlain c) :
    regexElements c = [globElement sameLetter c] := by
  obtain ⟨-, hc⟩ := h
  simp only [List.mem_cons, List.not_mem_nil, or_false, not_or] at hc
  obtain ⟨hdot, hquestion, hstar, hspace⟩ := hc
  unfold regexElements likeElements globElement
  rw [if_neg hdot, if_neg hquestion, if_neg hstar, if_neg hstar, if_neg hquestion]
  by_cases hbackslash : c = '\\'
  · subst hbackslash
    rfl
  · rw [if_neg hbackslash, if_neg hspace]
    rfl

theorem globElement_star :
    globElement sameLetter '*' = .many fun _ => true := rfl

/-- A pattern of wildcards only matches every text, in both readings. -/
theorem occurs_iff_matches_star (text : List Char) :
    Occurs (['*'].flatMap regexElements) text ↔
      Matches (['*'].map (globElement sameLetter)) text := by
  refine iff_of_true ⟨[], [], text, rfl, .done .nil⟩ ?_
  rw [List.map_singleton, globElement_star]
  exact matches_many_true (n := 0) text

/-- So does a pattern that asks for a part, in both readings, where the part is. -/
theorem AsksForPart.occurs_iff_matches {pattern : List Char} (h : AsksForPart pattern)
    (text : List Char) :
    Occurs (pattern.flatMap regexElements) text ↔
      Matches (pattern.map (globElement sameLetter)) text := by
  rcases h with rfl | ⟨m, n, part, rfl, hpart⟩
  · exact occurs_iff_matches_star text
  · have hstars : ∀ k, ∀ e ∈ (List.replicate k '*').flatMap regexElements,
        e.isOne = false := by
      intro k e he
      obtain ⟨c, hc, he⟩ := List.mem_flatMap.mp he
      rw [List.eq_of_mem_replicate hc, regexElements_star, List.mem_singleton] at he
      rw [he]
      rfl
    have hsame : part.flatMap regexElements = part.map (globElement sameLetter) := by
      rw [List.flatMap_congr fun c hc => regexElements_of_isPlain (hpart c hc), List.map_eq_flatMap]
    rw [List.flatMap_append, List.flatMap_append, occurs_append_iff (hstars _) (hstars _), hsame,
      List.map_append, List.map_append, List.map_replicate, List.map_replicate, globElement_star,
      matches_many_true_iff]

omit [ContentTypes] [RegexEngine] in
theorem AsksForPart.not_mem_regexSpecial {pattern : List Char} (h : AsksForPart pattern) {c : Char}
    (hc : c ∈ pattern) : c ∉ regexSpecial := by
  have hstar : '*' ∉ regexSpecial := by decide
  rcases h with rfl | ⟨m, n, part, rfl, hpart⟩
  · rw [List.mem_singleton.mp hc]
    exact hstar
  · simp only [List.mem_append] at hc
    rcases hc with (hc | hc) | hc
    · rw [List.eq_of_mem_replicate hc]
      exact hstar
    · exact (hpart c hc).1
    · rw [List.eq_of_mem_replicate hc]
      exact hstar

/-- A list of patterns that work as globs does. -/
theorem obeysGlobs_of_forall {patterns : List String}
    (h : ∀ pattern ∈ patterns, ∀ text, ∃ result, isLike pattern text = some result ∧
      (result = true ↔ GlobMatches pattern text)) : ObeysGlobs patterns := by
  intro text
  induction patterns with
  | nil => exact ⟨false, rfl, by simp⟩
  | cons pattern patterns ih =>
    obtain ⟨first, hfirst, hmatches⟩ := h pattern List.mem_cons_self text
    obtain ⟨result, hresult, hrest⟩ := ih fun p hp => h p (List.mem_cons_of_mem _ hp)
    rw [containsLike, hfirst]
    cases first with
    | true => exact ⟨true, rfl, iff_of_true rfl ⟨pattern, List.mem_cons_self, hmatches.mp rfl⟩⟩
    | false =>
      refine ⟨result, hresult, hrest.trans ?_⟩
      have hnot : ¬ GlobMatches pattern text := fun hglob => by simpa using hmatches.mpr hglob
      constructor
      · rintro ⟨p, hp, hglob⟩
        exact ⟨p, List.mem_cons_of_mem _ hp, hglob⟩
      · rintro ⟨p, hp, hglob⟩
        rcases List.mem_cons.mp hp with rfl | hp
        · exact absurd hglob hnot
        · exact ⟨p, hp, hglob⟩

theorem obeysGlobs_of_asksForPart {patterns : List String}
    (h : ∀ pattern ∈ patterns, AsksForPart pattern.toList) : ObeysGlobs patterns := by
  refine obeysGlobs_of_forall fun pattern hpattern text => ?_
  have hasks := h pattern hpattern
  refine ⟨_, isLike_eq (fun c hc => hasks.not_mem_regexSpecial hc) text, ?_⟩
  rw [occurs_iff]
  exact hasks.occurs_iff_matches text.toList

/-! ### All other patterns -/

/-- The two readings of a pattern agree on every text. -/
def ReadingsAgree (pattern : List Char) : Prop :=
  ∀ text, Occurs (pattern.flatMap regexElements) text ↔
    Matches (pattern.map (globElement sameLetter)) text

omit [ContentTypes] [RegexEngine] in
/-- What stands for a character of the pattern in a text: `star` for a wildcard, `any` for a
    question mark and `blank` for a blank. -/
def fill (star : List Char) (any blank : Char) (c : Char) : List Char :=
  if c = '*' then star
  else if c = '?' then [any]
  else if c = ' ' then [blank]
  else [c]

variable {pattern : List Char}

theorem map_globElement :
    pattern.map (globElement sameLetter) =
      pattern.flatMap fun c => [globElement sameLetter c] := List.map_eq_flatMap

/-- The texts of a pattern as a glob. -/
theorem matches_glob_fill (star : List Char) (any c : Char) :
    Matches [globElement sameLetter c] (fill star any ' ' c) := by
  unfold globElement fill
  split_ifs with hstar hquestion hspace
  · exact matches_many_true (n := 0) star
  · exact .one rfl .nil
  · subst hspace
    exact .one (sameLetter_self ' ') .nil
  · exact .one (sameLetter_self c) .nil

theorem matches_globs_fill (star : List Char) (any : Char) (pattern : List Char) :
    Matches (pattern.map (globElement sameLetter)) (pattern.flatMap (fill star any ' ')) := by
  rw [map_globElement]
  exact .flatMap fun c _ => matches_glob_fill star any c

/-- A text with nothing in the place of the wildcards is as short as can be. -/
theorem length_fill_le (any blank c : Char) :
    (fill [] any blank c).length ≤ ones (regexElements c) := by
  unfold fill regexElements likeElements
  split_ifs <;> simp [RegexElement.element, *] at *

/-- For a dot the regular expression takes one character more, the backslash. -/
theorem length_fill_lt (any blank : Char) :
    (fill [] any blank '.').length < ones (regexElements '.') := by
  simp [fill, regexElements, likeElements, RegexElement.element]

theorem ReadingsAgree.not_mem_dot (h : ReadingsAgree pattern) : '.' ∉ pattern := by
  intro hdot
  obtain ⟨x, y, rfl⟩ := List.append_of_mem hdot
  have hoccurs := (h _).mpr (matches_globs_fill [] 'a' (x ++ '.' :: y))
  have hle := hoccurs.ones_le
  have hx := length_flatMap_le fun c (_ : c ∈ x) => length_fill_le 'a' ' ' c
  have hy := length_flatMap_le fun c (_ : c ∈ y) => length_fill_le 'a' ' ' c
  have hlt := length_fill_lt 'a' ' '
  simp only [List.flatMap_append, List.flatMap_cons, ones_append, List.length_append] at hle
  omega

theorem ReadingsAgree.not_mem_question (h : ReadingsAgree pattern) : '?' ∉ pattern := by
  intro hquestion
  have hoccurs := (h _).mpr (matches_globs_fill [] '\n' pattern)
  have hlength : ∀ c ∈ pattern, (fill [] '\n' ' ' c).length ≤ ones (regexElements c) :=
    fun c _ => length_fill_le '\n' ' ' c
  have hall := (hoccurs.matches (length_flatMap_le hlength)).of_flatMap hlength
  -- The regular expression does not take the line feed.
  obtain ⟨a, t, heq, ha, -⟩ := matches_cons_one.mp (hall '?' hquestion)
  cases heq
  simp at ha

theorem ReadingsAgree.not_mem_space (h : ReadingsAgree pattern) : ' ' ∉ pattern := by
  intro hspace
  have hregex : ∀ c ∈ pattern, Matches (regexElements c) (fill [] 'a' '\n' c) := by
    intro c hc
    have hdot : c ≠ '.' := fun hdot => h.not_mem_dot (hdot ▸ hc)
    have hquestion : c ≠ '?' := fun hquestion => h.not_mem_question (hquestion ▸ hc)
    unfold regexElements likeElements fill
    rw [if_neg hdot, if_neg hquestion, if_neg hquestion]
    split_ifs with hstar hbackslash
    · exact .done .nil
    · subst hbackslash
      exact absurd ‹_› (by decide)
    · subst hbackslash
      exact .one (sameLetter_self _) .nil
    · exact .one (by decide) .nil
    · exact .one (sameLetter_self _) .nil
  have hmatches := (h _).mp (Matches.flatMap hregex).occurs
  rw [map_globElement] at hmatches
  have hlength : ∀ c ∈ pattern,
      (fill [] 'a' '\n' c).length ≤ ones [globElement sameLetter c] := by
    intro c _
    unfold fill globElement
    split_ifs <;> simp
  obtain ⟨a, t, heq, ha, -⟩ := matches_cons_one.mp (hmatches.of_flatMap hlength ' ' hspace)
  cases heq
  exact absurd (sameLetter_lineFeed ' ' ha) (by decide)

theorem globElement_eq_one {c : Char} (hstar : c ≠ '*') (hquestion : c ≠ '?') :
    globElement sameLetter c = .one (sameLetter c) := by
  rw [globElement, if_neg hstar, if_neg hquestion]

/-- A pattern that does not begin with a wildcard is found behind other text as well. -/
theorem ReadingsAgree.head_eq_star (h : ReadingsAgree pattern) (hlineFeed : '\n' ∉ pattern) :
    ∃ rest, pattern = '*' :: rest := by
  cases pattern with
  | nil =>
    have hmatches := (h ['a']).mp ⟨[], [], ['a'], rfl, .nil⟩
    cases hmatches
  | cons c rest =>
    by_cases hstar : c = '*'
    · exact ⟨rest, by rw [hstar]⟩
    · exfalso
      have hquestion : c ≠ '?' := fun hc => h.not_mem_question (hc ▸ List.mem_cons_self)
      have hoccurs := ((h _).mpr (matches_globs_fill [] 'a' (c :: rest))).extend ['\n'] []
      have hmatches := (h _).mp hoccurs
      rw [List.map_cons, globElement_eq_one hstar hquestion] at hmatches
      obtain ⟨a, t, heq, ha, -⟩ := matches_cons_one.mp hmatches
      rw [List.append_assoc, List.cons_append, List.cons.injEq] at heq
      rw [← heq.1] at ha
      exact hlineFeed (sameLetter_lineFeed c ha ▸ List.mem_cons_self)

/-- One that does not end with a wildcard is found in front of other text. -/
theorem ReadingsAgree.last_eq_star (h : ReadingsAgree pattern) (hlineFeed : '\n' ∉ pattern)
    {front : List Char} {c : Char} (hpattern : pattern = front ++ [c]) : c = '*' := by
  subst hpattern
  by_contra hstar
  have hmem : c ∈ front ++ [c] := List.mem_append_right _ List.mem_cons_self
  have hquestion : c ≠ '?' := fun hc => h.not_mem_question (hc ▸ hmem)
  have hoccurs := ((h _).mpr (matches_globs_fill [] 'a' (front ++ [c]))).extend [] ['\n']
  have hmatches := (h _).mp hoccurs
  rw [List.map_append, List.map_singleton, globElement_eq_one hstar hquestion] at hmatches
  obtain ⟨u, v, huv, -, hv⟩ := hmatches.of_append
  obtain ⟨a, t, rfl, ha, ht⟩ := matches_cons_one.mp hv
  cases ht
  have hlast := (List.append_inj' huv rfl).2
  rw [List.cons.injEq] at hlast
  rw [← hlast.1] at ha
  exact hlineFeed (sameLetter_lineFeed c ha ▸ hmem)

omit [ContentTypes] [RegexEngine] in
/-- Are there only wildcards? -/
def OnlyStars (pattern : List Char) : Prop := ∀ c ∈ pattern, c = '*'

/-- What is on one side of a wildcard is shorter than the pattern, if there is anything else on
    the other side. -/
theorem length_fill_lt_ones {x y : List Char} (hy : ¬ OnlyStars y) :
    (x.flatMap (fill [] 'a' ' ')).length < ones (x.flatMap regexElements) +
      ones (y.flatMap regexElements) := by
  have hx := length_flatMap_le fun c (_ : c ∈ x) => length_fill_le 'a' ' ' c
  simp only [OnlyStars, not_forall] at hy
  obtain ⟨c, hc, hstar⟩ := hy
  obtain ⟨u, v, rfl⟩ := List.append_of_mem hc
  have hpos : 0 < ones (regexElements c) := by
    unfold regexElements likeElements
    split_ifs <;> simp [RegexElement.element]
  simp only [List.flatMap_append, List.flatMap_cons, ones_append]
  omega

/-- Only a blank makes the regular expression take a line feed. -/
theorem takes_lineFeed {c : Char} (hspace : c ≠ ' ') (hlineFeed : c ≠ '\n') :
    ∀ e ∈ regexElements c, e.takes '\n' = false := by
  have hletter : ∀ d, d ≠ '\n' → sameLetter d '\n' = false := fun d hd =>
    Bool.eq_false_iff.mpr fun hsame => hd (sameLetter_lineFeed d hsame)
  have hbackslash := hletter '\\' (by decide)
  unfold regexElements likeElements
  rw [if_neg hspace]
  split_ifs <;> simp [RegexElement.element, Element.takes, hbackslash, hletter c hlineFeed]

/-- Two texts that are to be contained one after the other are not found across a line feed. -/
theorem ReadingsAgree.onlyStars_of_split (h : ReadingsAgree pattern) (hlineFeed : '\n' ∉ pattern)
    {x y : List Char} (hpattern : pattern = x ++ '*' :: y) : OnlyStars x ∨ OnlyStars y := by
  by_contra hnot
  obtain ⟨hx, hy⟩ := not_or.mp hnot
  have hmatches : Matches (pattern.map (globElement sameLetter))
      (x.flatMap (fill [] 'a' ' ') ++ '\n' :: y.flatMap (fill [] 'a' ' ')) := by
    rw [hpattern, List.map_append, List.map_cons]
    exact (matches_globs_fill [] 'a' x).append (.more rfl (.done (matches_globs_fill [] 'a' y)))
  have hseparates : ∀ e ∈ pattern.flatMap regexElements, e.takes '\n' = false := by
    intro e he
    obtain ⟨c, hc, he⟩ := List.mem_flatMap.mp he
    exact takes_lineFeed (fun hspace => h.not_mem_space (hspace ▸ hc))
      (fun hc' => hlineFeed (hc' ▸ hc)) e he
  have hones : ones (pattern.flatMap regexElements) =
      ones (x.flatMap regexElements) + ones (y.flatMap regexElements) := by
    rw [hpattern, List.flatMap_append, List.flatMap_cons, ones_append, ones_append,
      regexElements_star]
    simp
  -- On either side of the line feed there is too little text.
  rcases ((h _).mpr hmatches).of_separated hseparates with hoccurs | hoccurs
  · have hle := hoccurs.ones_le
    have hlt := length_fill_lt_ones (x := x) hy
    omega
  · have hle := hoccurs.ones_le
    have hlt := length_fill_lt_ones (x := y) hx
    omega

omit [ContentTypes] [RegexEngine] in
theorem onlyStars_iff : OnlyStars pattern ↔ ∃ n, pattern = List.replicate n '*' := by
  constructor
  · intro h
    exact ⟨pattern.length, List.eq_replicate_iff.mpr ⟨rfl, h⟩⟩
  · rintro ⟨n, rfl⟩ c hc
    exact List.eq_of_mem_replicate hc

omit [ContentTypes] [RegexEngine] in
/-- The longest beginning of a list whose members satisfy `q`, and the rest. -/
theorem exists_span {α : Type*} (q : α → Prop) [DecidablePred q] (l : List α) :
    ∃ u v, l = u ++ v ∧ (∀ a ∈ u, q a) ∧ (v = [] ∨ ∃ a w, v = a :: w ∧ ¬ q a) := by
  induction l with
  | nil => exact ⟨[], [], rfl, List.forall_mem_nil _, .inl rfl⟩
  | cons a l ih =>
    by_cases ha : q a
    · obtain ⟨u, v, rfl, hu, hv⟩ := ih
      exact ⟨a :: u, v, rfl, List.forall_mem_cons.mpr ⟨ha, hu⟩, hv⟩
    · exact ⟨[], a :: l, rfl, List.forall_mem_nil _, .inr ⟨a, l, rfl, ha⟩⟩

/-- A pattern that works as a glob asks for a part. -/
theorem ReadingsAgree.asksForPart (h : ReadingsAgree pattern) (hlineFeed : '\n' ∉ pattern)
    (hspecial : ∀ c ∈ pattern, c ∉ regexSpecial) : AsksForPart pattern := by
  obtain ⟨rest, hrest⟩ := h.head_eq_star hlineFeed
  have hplain : ∀ c ∈ pattern, c ≠ '*' → IsPlain c := by
    intro c hc hstar
    refine ⟨hspecial c hc, ?_⟩
    simp only [List.mem_cons, List.not_mem_nil, or_false, not_or]
    exact ⟨fun hdot => h.not_mem_dot (hdot ▸ hc), fun hquestion =>
      h.not_mem_question (hquestion ▸ hc), hstar, fun hspace => h.not_mem_space (hspace ▸ hc)⟩
  obtain ⟨stars, behind, rfl, hstars, hbehind⟩ := exists_span (· = '*') pattern
  obtain ⟨m, rfl⟩ := onlyStars_iff.mp hstars
  rcases hbehind with rfl | ⟨c, tail, rfl, hc⟩
  · -- There is nothing but wildcards.
    rw [List.append_nil] at hrest ⊢
    rcases m with _ | _ | k
    · cases hrest
    · exact .inl rfl
    · exact .inr ⟨0, k, [], rfl, List.forall_mem_nil _⟩
  · cases m with
    | zero =>
      cases hrest
      exact absurd rfl hc
    | succ m =>
      obtain ⟨part, back, htail, hpart, hback⟩ := exists_span (· ≠ '*') (c :: tail)
      have hmem : ∀ d ∈ part, d ∈ List.replicate (m + 1) '*' ++ c :: tail := by
        intro d hd
        rw [htail]
        exact List.mem_append_right _ (List.mem_append_left _ hd)
      have hne : part ≠ [] := by
        rintro rfl
        rcases hback with rfl | ⟨d, y, rfl, hd⟩
        · cases htail
        · cases htail
          exact hd hc
      rcases hback with rfl | ⟨d, y, rfl, hd⟩
      · -- The pattern ends with what it asks for.
        exfalso
        rw [List.append_nil] at htail
        have hlast : List.replicate (m + 1) '*' ++ c :: tail =
            (List.replicate (m + 1) '*' ++ part.dropLast) ++ [part.getLast hne] := by
          rw [htail, List.append_assoc, List.dropLast_append_getLast]
        exact hpart _ (List.getLast_mem hne) (h.last_eq_star hlineFeed hlast)
      · rw [not_not] at hd
        subst hd
        have hsplit : List.replicate (m + 1) '*' ++ c :: tail =
            (List.replicate (m + 1) '*' ++ part) ++ '*' :: y := by
          rw [htail, List.append_assoc]
        rcases h.onlyStars_of_split hlineFeed hsplit with hfront | hy
        · obtain ⟨d, hd⟩ := List.exists_mem_of_ne_nil part hne
          exact absurd (hfront d (List.mem_append_right _ hd)) (hpart d hd)
        · obtain ⟨n, rfl⟩ := onlyStars_iff.mp hy
          exact .inr ⟨m, n, part, hsplit, fun d hd => hplain d (hmem d hd) (hpart d hd)⟩

/-! ### The law -/

theorem containsLike_singleton {pattern : String}
    (h : ∀ c ∈ pattern.toList, c ∉ regexSpecial) (text : String) :
    containsLike [pattern] text =
      some (occurs (pattern.toList.flatMap regexElements) text.toList) := by
  rw [containsLike, isLike_eq h]
  cases occurs (pattern.toList.flatMap regexElements) text.toList <;> rfl

/-- What the law says of a single pattern. -/
theorem readingsAgree_of_obeysGlobs {pattern : String} (h : ObeysGlobs [pattern])
    (hspecial : ∀ c ∈ pattern.toList, c ∉ regexSpecial) : ReadingsAgree pattern.toList := by
  intro text
  obtain ⟨result, hresult, hglob⟩ := h (String.ofList text)
  rw [containsLike_singleton hspecial, Option.some_inj, String.toList_ofList] at hresult
  rw [← occurs_iff, hresult, hglob]
  simp [GlobMatches]

/-- Patterns that ask for a part work as globs. No other pattern does, unless it contains special
    characters of regular expressions or a line feed. -/
theorem containsLike_obeysGlobs :
    (∀ patterns : List String, (∀ pattern ∈ patterns, AsksForPart pattern.toList) →
      ObeysGlobs patterns) ∧
    ∀ pattern : String, (∀ c ∈ pattern.toList, c ∉ regexSpecial ∧ c ≠ '\n') →
      (ObeysGlobs [pattern] ↔ AsksForPart pattern.toList) := by
  refine ⟨fun patterns h => obeysGlobs_of_asksForPart h, fun pattern hchars => ⟨fun h => ?_, ?_⟩⟩
  · have hspecial : ∀ c ∈ pattern.toList, c ∉ regexSpecial := fun c hc => (hchars c hc).1
    exact (readingsAgree_of_obeysGlobs h hspecial).asksForPart
      (fun hlineFeed => (hchars _ hlineFeed).2 rfl) hspecial
  · intro h
    exact obeysGlobs_of_asksForPart fun p hp => List.mem_singleton.mp hp ▸ h

end

/-! ### A runtime for these elements -/

/-- Read the elements back from a regular expression. -/
def readElements : List Char → Option (List RegexElement)
  | [] => some []
  | '\\' :: '\\' :: cs => (readElements cs).map (.backslash :: ·)
  | '\\' :: 's' :: cs => (readElements cs).map (.whiteSpace :: ·)
  | '.' :: '*' :: '?' :: cs => (readElements cs).map (.anyText :: ·)
  | '.' :: cs => (readElements cs).map (.anyCharacter :: ·)
  | c :: cs =>
    if c ∈ regexSpecial ∨ c ∈ replaced then none
    else (readElements cs).map (.literal c :: ·)

/-- No element begins with the star that would change the one in front of it. -/
theorem flatMap_text_ne_star {es : List RegexElement}
    (h : ∀ c, .literal c ∈ es → c ∉ regexSpecial ∧ c ∉ replaced) (cs : List Char) :
    es.flatMap (·.text) ≠ '*' :: cs := by
  cases es with
  | nil => simp
  | cons e es =>
    cases e with
    | literal c =>
      intro heq
      rw [List.flatMap_cons, RegexElement.text, List.cons_append, List.cons.injEq] at heq
      exact (h c List.mem_cons_self).2 (heq.1 ▸ by decide)
    | backslash => simp [RegexElement.text]
    | anyCharacter => simp [RegexElement.text]
    | anyText => simp [RegexElement.text]
    | whiteSpace => simp [RegexElement.text]

theorem readElements_text {es : List RegexElement}
    (h : ∀ c, .literal c ∈ es → c ∉ regexSpecial ∧ c ∉ replaced) :
    readElements (es.flatMap (·.text)) = some es := by
  induction es with
  | nil => rfl
  | cons e es ih =>
    have htail : ∀ c, .literal c ∈ es → c ∉ regexSpecial ∧ c ∉ replaced :=
      fun c hc => h c (List.mem_cons_of_mem _ hc)
    have hrest := ih htail
    have hstar := flatMap_text_ne_star htail
    rw [List.flatMap_cons]
    generalize es.flatMap (·.text) = rest at hrest hstar
    cases e with
    | backslash => simp [RegexElement.text, readElements, hrest]
    | whiteSpace => simp [RegexElement.text, readElements, hrest]
    | anyText => simp [RegexElement.text, readElements, hrest]
    | anyCharacter =>
      rw [RegexElement.text, List.cons_append, List.nil_append, readElements, hrest]
      · rfl
      · exact fun cs heq => hstar _ heq
    | literal c =>
      obtain ⟨hspecial, hreplaced⟩ := h c List.mem_cons_self
      rw [RegexElement.text, List.cons_append, List.nil_append, readElements, hrest]
      · rw [if_neg (not_or.mpr ⟨hspecial, hreplaced⟩)]
        rfl
      · rintro cs rfl -
        exact hreplaced (by decide)
      · rintro cs rfl -
        exact hreplaced (by decide)
      · rintro cs rfl -
        exact hreplaced (by decide)
      · rintro rfl
        exact hreplaced (by decide)

/-- A runtime that reads these regular expressions. -/
@[reducible] def asciiContentTypes : ContentTypes where
  mediaType := some
  isMatch pattern text := (readElements pattern.toList).map fun es =>
    occurs (es.map (·.element fun c d => c.toLower = d.toLower)) text.toList

/-- It tells the letters of the alphabet in either case. -/
@[reducible] def asciiRegexEngine : @RegexEngine asciiContentTypes :=
  letI := asciiContentTypes
  { toLower := Char.toLower
    toLower_ascii := fun _ _ _ => rfl
    toLower_lineFeed := by
      intro c hlower
      unfold Char.toLower at hlower
      split at hlower
      · rename_i hupper
        -- A small letter is not a line feed.
        have hval : c.val + ('a'.val - 'A'.val) = '\n'.val := congrArg Char.val hlower
        have hle := hupper.1
        have hle' := hupper.2
        simp only [ge_iff_le, UInt32.le_iff_toNat_le] at hle hle'
        have hnat := congrArg UInt32.toNat hval
        rw [UInt32.toNat_add] at hnat
        simp at hle hle' hnat
        omega
      · exact hlower
    isMatch_text := by
      intro es hes text
      show (readElements (String.ofList _).toList).map _ = _
      rw [String.toList_ofList, readElements_text hes]
      rfl }

/-- The pattern `json` is found inside of another content type. -/
theorem containsLike_obeysGlobs_counterexample :
    ¬ ∀ (_ : ContentTypes) (_ : RegexEngine) (patterns : List String), ObeysGlobs patterns := by
  intro h
  obtain ⟨result, hresult, hglob⟩ :=
    h asciiContentTypes asciiRegexEngine ["json"] "application/json"
  have hfound : occurs ("json".toList.flatMap (@regexElements asciiContentTypes asciiRegexEngine))
      "application/json".toList = true := by
    decide +kernel
  rw [@containsLike_singleton asciiContentTypes asciiRegexEngine _ (by decide +kernel), hfound,
    Option.some_inj] at hresult
  obtain ⟨pattern, hpattern, hmatches⟩ := hglob.mp hresult.symm
  rw [List.mem_singleton.mp hpattern] at hmatches
  -- As a glob it has four characters.
  obtain ⟨c, text, htext, hc, -⟩ := matches_cons_one.mp hmatches
  cases htext
  revert hc
  decide

/-- A list of two patterns that work as globs. -/
theorem containsLike_obeysGlobs_json :
    (∀ pattern ∈ ["*json*", "*/xml*"], AsksForPart pattern.toList) ∧
      @ObeysGlobs asciiContentTypes asciiRegexEngine ["*json*", "*/xml*"] := by
  have hasks : ∀ pattern ∈ ["*json*", "*/xml*"], AsksForPart pattern.toList := by
    intro pattern hpattern
    simp only [List.mem_cons, List.not_mem_nil, or_false] at hpattern
    rcases hpattern with rfl | rfl
    · exact .inr ⟨0, 0, "json".toList, by decide, by decide +kernel⟩
    · exact .inr ⟨0, 0, "/xml".toList, by decide, by decide +kernel⟩
  exact ⟨hasks, (@containsLike_obeysGlobs asciiContentTypes asciiRegexEngine).1 _ hasks⟩

end AspNetCore

end ApmAgent
