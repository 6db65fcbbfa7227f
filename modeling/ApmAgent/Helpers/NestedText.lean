import ApmAgent.Helpers.ConnectionPairs
import ApmAgent.Helpers.KnownValues

/-! # Nested values

  A nested value is a sequence of texts in parentheses, with white space
  between them. The parser takes the texts one after the other, as it takes the
  pairs of a flat text.
-/

namespace ApmAgent

namespace DbConnectionStringParser

/-! ### Balanced texts -/

/-- The search for the closing delimiter passes over the text. -/
def Balanced (cs : List Char) : Prop :=
  ∀ nestingDepth i rest, 0 < nestingDepth →
    findClosingDelimiter nestingDepth i (cs ++ rest) =
      findClosingDelimiter nestingDepth (i + cs.length) rest

theorem balanced_of_not_mem {cs : List Char} (hopen : '(' ∉ cs) (hclose : ')' ∉ cs) :
    Balanced cs := by
  intro nestingDepth i rest hdepth
  induction cs generalizing i with
  | nil => rfl
  | cons c cs ih =>
    rw [List.mem_cons, not_or] at hopen hclose
    rw [List.cons_append, findClosingDelimiter, if_neg (Ne.symm hopen.1),
      if_neg (Ne.symm hclose.1), ih hopen.2 hclose.2, List.length_cons]
    congr 1
    omega

theorem Balanced.append {cs cs' : List Char} (h : Balanced cs) (h' : Balanced cs') :
    Balanced (cs ++ cs') := by
  intro nestingDepth i rest hdepth
  rw [List.append_assoc, h _ _ _ hdepth, h' _ _ _ hdepth, List.length_append, Nat.add_assoc]

theorem Balanced.parentheses {cs : List Char} (h : Balanced cs) :
    Balanced ('(' :: (cs ++ [')'])) := by
  intro nestingDepth i rest hdepth
  have hne : nestingDepth + 1 - 1 ≠ 0 := by omega
  rw [List.cons_append, findClosingDelimiter, if_pos rfl, List.append_assoc,
    h _ _ _ (Nat.succ_pos _), List.singleton_append, findClosingDelimiter,
    if_neg (by decide), if_pos rfl, if_neg hne, Nat.succ_sub_one, List.length_cons,
    List.length_append, List.length_singleton]
  congr 1
  omega

/-! ### Groups -/

/-- A text in parentheses, and the white space before it. -/
structure Group where
  gap : Spaces
  inner : List Char
  balanced : Balanced inner

def Group.chars (g : Group) : List Char := g.gap.chars ++ '(' :: (g.inner ++ [')'])

def groupsText (groups : List Group) : List Char := groups.flatMap Group.chars

theorem balanced_groupsText (groups : List Group) : Balanced (groupsText groups) := by
  induction groups with
  | nil => exact balanced_of_not_mem (List.not_mem_nil) (List.not_mem_nil)
  | cons g groups ih =>
    have hgap : Balanced g.gap.chars :=
      balanced_of_not_mem (g.gap.not_mem (by decide)) (g.gap.not_mem (by decide))
    exact (hgap.append g.balanced.parentheses).append ih

/-- The text from the opening delimiter of the first group on. -/
def fromFirst (g : Group) (groups : List Group) : List Char :=
  '(' :: (g.inner ++ ')' :: groupsText groups)

theorem groupsText_cons (g : Group) (groups : List Group) :
    groupsText (g :: groups) = g.gap.chars ++ fromFirst g groups := by
  simp [groupsText, Group.chars, fromFirst]

theorem getLast?_fromFirst (g : Group) (groups : List Group) :
    (fromFirst g groups).getLast? = some ')' := by
  induction groups generalizing g with
  | nil =>
    have hnil : fromFirst g [] = ('(' :: g.inner) ++ [')'] := rfl
    rw [hnil, List.getLast?_concat]
  | cons g' groups ih =>
    have hcons : fromFirst g (g' :: groups) =
        ('(' :: (g.inner ++ ')' :: g'.gap.chars)) ++ fromFirst g' groups := by
      simp [fromFirst, groupsText_cons]
    rw [hcons, List.getLast?_append, ih g']
    rfl

/-- White space around the groups is trimmed. -/
theorem trimChars_groups (g : Group) (groups : List Group) (r : Spaces) :
    trimChars (groupsText (g :: groups) ++ r.chars) = fromFirst g groups := by
  unfold trimChars
  rw [groupsText_cons, trimBy_pad g.gap.isWhiteSpace _ r.isWhiteSpace]
  refine trimBy_of_ends ?_ ?_
  · rintro c ⟨rfl⟩
    decide
  · intro c hc
    rw [getLast?_fromFirst] at hc
    cases hc
    decide

theorem hasNestedStructure_fromFirst (g : Group) (groups : List Group) :
    hasNestedStructure (fromFirst g groups) = true := by
  have hlength : 2 ≤ (fromFirst g groups).length := by
    simp only [fromFirst, List.length_cons, List.length_append]
    omega
  have hhead : (fromFirst g groups).head? = some '(' := rfl
  unfold hasNestedStructure
  rw [decide_eq_true hlength, hhead, getLast?_fromFirst]
  rfl

theorem findMatchingClosingDelimiter_fromFirst (g : Group) (groups : List Group) :
    findMatchingClosingDelimiter (fromFirst g groups) = some (g.inner.length + 1) := by
  show findClosingDelimiter 1 1 (g.inner ++ ')' :: groupsText groups) = _
  rw [g.balanced _ _ _ (by decide), findClosingDelimiter, if_neg (by decide), if_pos rfl,
    if_pos rfl, Nat.add_comm]

/-- The next opening delimiter is that of the next group. -/
theorem nextOpeningDelimiter_fromFirst (g : Group) (groups : List Group) :
    nextOpeningDelimiter (fromFirst g groups) (g.inner.length + 1) =
      match groups with
      | [] => []
      | g' :: groups => fromFirst g' groups := by
  have hdrop : (fromFirst g groups).drop (g.inner.length + 1 + 1) = groupsText groups := by
    have hlength : g.inner.length + 1 = (g.inner ++ [')']).length := by simp
    unfold fromFirst
    rw [List.drop_succ_cons, List.append_cons, hlength]
    exact List.drop_left
  unfold nextOpeningDelimiter
  rw [hdrop]
  cases groups with
  | nil => rfl
  | cons g' groups =>
    have hgap : ∀ c ∈ g'.gap.chars, decide (c ≠ '(') = true := by
      intro c hc
      simpa using fun h : c = '(' => g'.gap.not_mem (c := '(') (by decide) (h ▸ hc)
    rw [groupsText_cons, List.dropWhile_append_of_pos hgap]
    rfl

/-- The groups of a nested value are taken one after the other. -/
theorem parseSubKeyValues_groups
    (parse : List Char → Destination → Except FormatException Destination) (g : Group)
    (groups : List Group) (d : Destination) :
    parseSubKeyValues parse (fromFirst g groups) d =
      ((g :: groups).map Group.inner).foldlM (fun d keyValue => parse keyValue d) d := by
  have hinner (g : Group) (groups : List Group) :
      ((fromFirst g groups).take (g.inner.length + 1)).drop 1 = g.inner := by
    simp [fromFirst]
  induction groups generalizing g d with
  | nil =>
    rw [parseSubKeyValues_eq, findMatchingClosingDelimiter_fromFirst]
    simp only [nextOpeningDelimiter_fromFirst, if_true, hinner]
    rfl
  | cons g' groups ih =>
    have hne : fromFirst g' groups ≠ [] := List.cons_ne_nil _ _
    rw [parseSubKeyValues_eq, findMatchingClosingDelimiter_fromFirst]
    simp only [nextOpeningDelimiter_fromFirst, if_neg hne, hinner]
    rw [List.map_cons, List.foldlM_cons]
    exact bind_congr fun d => ih g' d

end DbConnectionStringParser

end ApmAgent
