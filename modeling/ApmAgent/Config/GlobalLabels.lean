import ApmAgent.Config.OptionParsers
import ApmAgent.Framework.Split

/-! # Global labels

  The text of `GlobalLabels` is a list of pairs `key=value`, separated by
  commas. The parser adds them to a dictionary one after the other, and gives
  all of them up for one pair it cannot add.

  * `addKeyValuePairs_eq_some_iff`: when the loop gets to its end, and with what;
  * `parseGlobalLabels_allOrNothing`: what is parsed is what was rendered, and
    nothing else than all pairs or none.
-/

namespace ApmAgent

namespace GlobalLabels

/-! ### Texts of labels -/

/-- `key=value`. -/
def pairText (label : String × String) : List Char := label.1.toList ++ '=' :: label.2.toList

/-- `key=value[,key=value[,...]]`. -/
def labelsText (labels : List (String × String)) : String :=
  String.ofList ([','].intercalate (labels.map pairText))

/-- What a pair with a delimiter says: the first `=` ends the key. -/
def labelOf (pair : List Char) : String × String :=
  (String.ofList (pair.takeWhile (· ≠ '=')),
    String.ofList ((pair.dropWhile (· ≠ '=')).drop 1))

/-- Labels whose texts can be told apart: the value may contain the delimiter. -/
structure Separable (labels : Dict String String) : Prop where
  key : ∀ label ∈ labels.entries, ',' ∉ label.1.toList ∧ '=' ∉ label.1.toList
  value : ∀ label ∈ labels.entries, ',' ∉ label.2.toList

/-- Every part of the text has a delimiter, and no two of them have the same key. -/
def IsLabelsText (text : String) : Prop :=
  (∀ pair ∈ text.toList.splitOn ',', '=' ∈ pair) ∧
    ((text.toList.splitOn ',').map fun pair => (labelOf pair).1).Nodup

theorem labelOf_pairText {label : String × String} (h : '=' ∉ label.1.toList) :
    labelOf (pairText label) = label := by
  have hkey : ∀ c ∈ label.1.toList, decide (c ≠ '=') = true := by
    intro c hc
    rw [decide_eq_true_eq]
    rintro rfl
    exact h hc
  unfold labelOf pairText
  rw [List.takeWhile_append_of_pos hkey, List.dropWhile_append_of_pos hkey,
    List.takeWhile_cons_of_neg (by decide), List.dropWhile_cons_of_neg (by decide),
    List.append_nil, List.drop_one, List.tail_cons, String.ofList_toList, String.ofList_toList]

theorem pairText_labelOf {pair : List Char} (h : '=' ∈ pair) : pairText (labelOf pair) = pair := by
  have hrest : pair.dropWhile (· ≠ '=') = '=' :: (pair.dropWhile (· ≠ '=')).drop 1 := by
    induction pair with
    | nil => cases h
    | cons c pair ih =>
      by_cases hc : c = '='
      · rw [hc, List.dropWhile_cons_of_neg (by decide)]
        rfl
      · rw [List.dropWhile_cons_of_pos (by simpa using hc)]
        exact ih (List.mem_of_ne_of_mem (Ne.symm hc) h)
  unfold labelOf pairText
  rw [String.toList_ofList, String.toList_ofList, ← hrest, List.takeWhile_append_dropWhile]

theorem not_mem_pairText {label : String × String} (hkey : ',' ∉ label.1.toList)
    (hvalue : ',' ∉ label.2.toList) : ',' ∉ pairText label := by
  unfold pairText
  rw [List.mem_append, List.mem_cons, not_or, not_or]
  exact ⟨hkey, by decide, hvalue⟩

/-! ### The loop -/

theorem addKeyValuePairs_cons (pair : List Char) (pairs : List (List Char))
    (result : Dict String String) :
    addKeyValuePairs (pair :: pairs) result =
      if '=' ∉ pair then none
      else if (labelOf pair).1 ∈ Entries.keys result.entries then none
      else addKeyValuePairs pairs (result.set (labelOf pair).1 (labelOf pair).2) := rfl

/-- The loop gets to its end if every pair from the current one on has a delimiter and a key of
    its own, and adds the pairs in their order. -/
theorem addKeyValuePairs_eq_some_iff {pairs : List (List Char)}
    {result result' : Dict String String} :
    addKeyValuePairs pairs result = some result' ↔
      (∀ pair ∈ pairs, '=' ∈ pair) ∧
      (Entries.keys result.entries ++ pairs.map fun pair => (labelOf pair).1).Nodup ∧
      result'.entries = result.entries ++ pairs.map labelOf := by
  induction pairs generalizing result with
  | nil =>
    simp only [addKeyValuePairs, Option.some.injEq, List.map_nil, List.append_nil]
    constructor
    · rintro rfl
      exact ⟨List.forall_mem_nil _, result.nodup, rfl⟩
    · rintro ⟨-, -, h⟩
      exact (Dict.ext h).symm
  | cons pair pairs ih =>
    rw [addKeyValuePairs_cons, List.forall_mem_cons]
    by_cases hdelimiter : '=' ∈ pair
    · rw [if_neg (not_not.mpr hdelimiter), and_iff_right hdelimiter]
      by_cases hkey : (labelOf pair).1 ∈ Entries.keys result.entries
      · -- The key is there.
        rw [if_pos hkey]
        refine iff_of_false (Option.some_ne_none _).symm ?_
        rintro ⟨-, hnodup, -⟩
        exact (List.nodup_append.mp hnodup).2.2 _ hkey _ List.mem_cons_self rfl
      · rw [if_neg hkey]
        have hadded : (result.set (labelOf pair).1 (labelOf pair).2).entries =
            result.entries ++ [labelOf pair] := Entries.set_of_not_mem hkey _
        refine ih.trans ?_
        rw [hadded, Entries.keys, List.map_append, List.append_assoc, List.append_assoc]
        rfl
    · rw [if_pos hdelimiter]
      exact iff_of_false (Option.some_ne_none _).symm fun h => hdelimiter h.1.1

/-- The parser on a text that is not empty. -/
theorem parseGlobalLabels_some {text : String} (h : text ≠ "") :
    parseGlobalLabels (some text) =
      (addKeyValuePairs (text.toList.splitOn ',') .empty).getD .empty := by
  show (addKeyValuePairs (if text = "" then [] else _) Dict.empty).getD .empty = _
  rw [if_neg h]

theorem parseGlobalLabels_entries {text : String} (h : text ≠ "") (hlabels : IsLabelsText text) :
    (parseGlobalLabels (some text)).entries = (text.toList.splitOn ',').map labelOf := by
  obtain ⟨hdelimiter, hnodup⟩ := hlabels
  have hkeys : (((text.toList.splitOn ',').map labelOf).map Prod.fst).Nodup := by
    rw [List.map_map]
    exact hnodup
  have hloop : addKeyValuePairs (text.toList.splitOn ',') .empty = some ⟨_, hkeys⟩ :=
    addKeyValuePairs_eq_some_iff.mpr ⟨hdelimiter, hnodup, rfl⟩
  rw [parseGlobalLabels_some h, hloop]
  rfl

theorem parseGlobalLabels_empty {text : String} (h : text ≠ "") (hlabels : ¬IsLabelsText text) :
    parseGlobalLabels (some text) = .empty := by
  rw [parseGlobalLabels_some h]
  cases hloop : addKeyValuePairs (text.toList.splitOn ',') .empty with
  | none => rfl
  | some result =>
    obtain ⟨hdelimiter, hnodup, -⟩ := addKeyValuePairs_eq_some_iff.mp hloop
    exact absurd ⟨hdelimiter, hnodup⟩ hlabels

/-! ### Round trips -/

/-- The text of separable labels is cut at the commas between them. -/
theorem splitOn_labelsText {labels : Dict String String} (hlabels : Separable labels)
    (hne : labels.entries ≠ []) :
    (labelsText labels.entries).toList.splitOn ',' = labels.entries.map pairText := by
  have hcomma : ∀ pair ∈ labels.entries.map pairText, ',' ∉ pair := by
    intro pair hpair
    obtain ⟨label, hlabel, rfl⟩ := List.mem_map.mp hpair
    exact not_mem_pairText (hlabels.key label hlabel).1 (hlabels.value label hlabel)
  have hne' : labels.entries.map pairText ≠ [] := by
    rw [ne_eq, List.map_eq_nil_iff]
    exact hne
  rw [labelsText, String.toList_ofList]
  exact List.splitOn_intercalate ',' hcomma hne'

theorem labelsText_ne_empty {labels : List (String × String)} (h : labels ≠ []) :
    labelsText labels ≠ "" := by
  obtain ⟨label, labels, rfl⟩ := List.exists_cons_of_ne_nil h
  have hmem : '=' ∈ (labelsText (label :: labels)).toList := by
    rw [labelsText, String.toList_ofList]
    have hpair : pairText label ∈ (label :: labels).map pairText := List.mem_cons_self
    have hdelimiter : '=' ∈ pairText label := List.mem_append_right _ List.mem_cons_self
    exact (List.sublist_intercalate_of_mem _ hpair).subset hdelimiter
  intro hempty
  rw [hempty] at hmem
  cases hmem

/-- What was rendered is parsed. -/
theorem parseGlobalLabels_labelsText {labels : Dict String String} (hlabels : Separable labels) :
    parseGlobalLabels (some (labelsText labels.entries)) = labels := by
  by_cases hne : labels.entries = []
  · -- The text is empty.
    rw [hne]
    exact Dict.ext hne.symm
  · have hread : (labels.entries.map pairText).map labelOf = labels.entries := by
      rw [List.map_map]
      refine (List.map_congr_left fun label hlabel => ?_).trans (List.map_id _)
      exact labelOf_pairText (hlabels.key label hlabel).2
    have htext : IsLabelsText (labelsText labels.entries) := by
      unfold IsLabelsText
      rw [splitOn_labelsText hlabels hne]
      constructor
      · intro pair hpair
        obtain ⟨label, -, rfl⟩ := List.mem_map.mp hpair
        exact List.mem_append_right _ List.mem_cons_self
      · have hkeys := congrArg (List.map Prod.fst) hread
        rw [List.map_map] at hkeys
        show (List.map (Prod.fst ∘ labelOf) _).Nodup
        rw [hkeys]
        exact labels.nodup
    refine Dict.ext ?_
    rw [parseGlobalLabels_entries (labelsText_ne_empty hne) htext, splitOn_labelsText hlabels hne,
      hread]

/-- Labels are parsed as they were rendered; and of a text either every part is one label, in
    the order of the parts, or there are no labels. -/
theorem parseGlobalLabels_allOrNothing :
    (∀ labels : Dict String String, Separable labels →
      parseGlobalLabels (some (labelsText labels.entries)) = labels) ∧
    ∀ text : String, text ≠ "" →
      (IsLabelsText text →
        (parseGlobalLabels (some text)).entries.map pairText = text.toList.splitOn ',' ∧
        labelsText (parseGlobalLabels (some text)).entries = text) ∧
      (¬IsLabelsText text → (parseGlobalLabels (some text)).entries = []) := by
  refine ⟨fun labels => parseGlobalLabels_labelsText,
    fun text h => ⟨fun htext => ?_, fun htext => ?_⟩⟩
  · have hparts : (parseGlobalLabels (some text)).entries.map pairText =
        text.toList.splitOn ',' := by
      rw [parseGlobalLabels_entries h htext, List.map_map]
      refine (List.map_congr_left fun pair hpair => ?_).trans (List.map_id _)
      exact pairText_labelOf (htext.1 pair hpair)
    refine ⟨hparts, ?_⟩
    rw [labelsText, hparts, List.intercalate_splitOn, String.ofList_toList]
  · rw [parseGlobalLabels_empty h htext]
    rfl

/-- A value with the delimiter, and a part without one. -/
theorem parseGlobalLabels_allOrNothing_texts :
    parseGlobalLabels (some (labelsText [("a", "1"), ("b", "x=y")])) =
      ⟨[("a", "1"), ("b", "x=y")], by decide⟩ ∧
    labelsText (parseGlobalLabels (some "a=1,b=x=y")).entries = "a=1,b=x=y" ∧
    (parseGlobalLabels (some "a=1,b")).entries = [] := by
  refine ⟨parseGlobalLabels_allOrNothing.1 ⟨[("a", "1"), ("b", "x=y")], by decide⟩ ?_,
    ((parseGlobalLabels_allOrNothing.2 "a=1,b=x=y" (by decide)).1 ?_).2,
    (parseGlobalLabels_allOrNothing.2 "a=1,b" (by decide)).2 ?_⟩
  · exact ⟨by decide, by decide⟩
  · exact ⟨by decide, by decide⟩
  · intro h
    exact absurd (h.1 ['b'] (by decide)) (by decide)

end GlobalLabels

end ApmAgent
