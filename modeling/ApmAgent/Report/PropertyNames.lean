import ApmAgent.Metrics.FreeAndTotalMemoryProvider
import ApmAgent.Report.PayloadItemSerializer
import Mathlib.Data.List.Forall2

/-! # The property names of labels, custom context and metric sets

  Three converters make a property name of every key they find, and write
  another character for those that the intake API does not take in a name.
  `MetricSetConverter` leaves a sample out whose key it has seen, but it
  compares the keys before it rewrites them.

  * `uniqueNames_iff`: the names in what they write are different exactly if
    no two keys differ in rewritten characters only.
-/

namespace ApmAgent

open Api Json

/-! ### Metric sets -/

/-- `MetricSet`. -/
structure MetricSet where
  timestamp : Int64
  samples : List MetricSample

/-- The characters `MetricSetConverter` does not take in a name. -/
def replaceReservedInSample (key : String) : String :=
  key.map fun c => if c = '*' ∨ c = '"' then '_' else c

section

-- The text Json.NET writes for a finite number.
variable (doubleText : ℚ → NumberToken)

/-- A number as Json.NET writes it. -/
def writeDouble : Double → Json
  | .nan => .string "NaN"
  | .posInfinity => .string "Infinity"
  | .negInfinity => .string "-Infinity"
  | .finite q => .number (doubleText q)

/-- The loop over the samples, with the keys in the set `addedKeys`. -/
def writeSamples (addedKeys : List String) : List MetricSample → List (String × Json)
  | [] => []
  | item :: samples =>
    if item.key ∈ addedKeys then writeSamples addedKeys samples
    else
      (replaceReservedInSample item.key, .object [("value", writeDouble doubleText item.value)]) ::
        writeSamples (item.key :: addedKeys) samples

/-- `MetricSetConverter.WriteJson`. -/
def metricSetConverter (metricSet : MetricSet) : Json :=
  .object
    [("samples", .object (writeSamples doubleText [] metricSet.samples)),
      ("timestamp", .number (.ofInt metricSet.timestamp.toInt))]

end

/-! ### Keys that are rewritten alike -/

section

variable {α : Type}

/-- The same but for elements of which each is written as `underscore`. -/
def AlikeUpTo (reserved : α → Prop) (underscore : α) : List α → List α → Prop :=
  List.Forall₂ fun c c' =>
    c = c' ∨ (reserved c ∨ c = underscore) ∧ (reserved c' ∨ c' = underscore)

/-- What is the same after the reserved elements have been replaced. -/
theorem map_eq_iff_alikeUpTo {reserved : α → Prop} [DecidablePred reserved] {underscore : α}
    {k k' : List α} :
    (k.map fun c => if reserved c then underscore else c) =
        (k'.map fun c => if reserved c then underscore else c) ↔
      AlikeUpTo reserved underscore k k' := by
  have helement : ∀ c c' : α,
      (if reserved c then underscore else c) = (if reserved c' then underscore else c') ↔
        c = c' ∨ (reserved c ∨ c = underscore) ∧ (reserved c' ∨ c' = underscore) := by
    intro c c'
    split_ifs <;> grind
  rw [← List.forall₂_eq_eq_eq, List.forall₂_map_left_iff, List.forall₂_map_right_iff]
  simp only [AlikeUpTo, helement]

instance [DecidableEq α] {reserved : α → Prop} [DecidablePred reserved] (underscore : α)
    (k k' : List α) :
    Decidable (AlikeUpTo reserved underscore k k') :=
  inferInstanceAs (Decidable (List.Forall₂ ..))

end

theorem replaceReserved_eq_iff {k k' : String} :
    replaceReserved k = replaceReserved k' ↔
      AlikeUpTo (fun c => c = '.' ∨ c = '*' ∨ c = '"') '_' k.toList k'.toList := by
  rw [← String.toList_inj, replaceReserved, replaceReserved, String.toList_map, String.toList_map]
  exact map_eq_iff_alikeUpTo

theorem replaceReservedInSample_eq_iff {k k' : String} :
    replaceReservedInSample k = replaceReservedInSample k' ↔
      AlikeUpTo (fun c => c = '*' ∨ c = '"') '_' k.toList k'.toList := by
  rw [← String.toList_inj, replaceReservedInSample, replaceReservedInSample, String.toList_map,
    String.toList_map]
  exact map_eq_iff_alikeUpTo

/-! ### The names of labels -/

/-- The unit of a dot, an asterisk or a quotation mark. -/
def ReservedUnit (u : Nat) : Prop := u = 0x2E ∨ u = 0x2A ∨ u = 0x22

instance : DecidablePred ReservedUnit := fun u =>
  inferInstanceAs (Decidable (u = 0x2E ∨ u = 0x2A ∨ u = 0x22))

/-- The units with an underscore for the reserved ones. -/
def replaceReservedUnits (units : List Nat) : List Nat :=
  units.map fun u => if ReservedUnit u then 0x5F else u

/-- The string that `LabelsJsonConverter` passes to `WritePropertyName` for a key. -/
def labelName (key : String) : List Nat :=
  replaceReservedUnits (truncateUnits (unitsOf key) propertyMaxLength)

/-- A unit on its own is reserved where its character is. -/
theorem unitChar_replaceReserved (u : Nat) :
    unitChar (if ReservedUnit u then 0x5F else u) =
      if unitChar u = '.' ∨ unitChar u = '*' ∨ unitChar u = '"' then '_' else unitChar u := by
  by_cases hreserved : ReservedUnit u
  · rw [if_pos hreserved]
    rcases hreserved with rfl | rfl | rfl <;> decide
  · have hchar : ∀ c : Char, c.toNat < 0x80 → unitChar u = c → u = c.toNat := by
      rintro c hc rfl
      unfold unitChar at hc ⊢
      split_ifs with hu
      · exact (toNat_ofNat (by omega)).symm
      · rw [if_neg hu] at hc
        exact absurd hc (by decide)
    rw [if_neg hreserved, if_neg]
    rintro (hdot | hstar | hquote)
    · exact hreserved (.inl (hchar _ (by decide) hdot))
    · exact hreserved (.inr (.inl (hchar _ (by decide) hstar)))
    · exact hreserved (.inr (.inr (hchar _ (by decide) hquote)))

/-- Replacing does not take surrogates apart, so it can be done in the text that is sent. -/
theorem replaceReserved_stringOf (units : List Nat) :
    replaceReserved (stringOf units) = stringOf (replaceReservedUnits units) := by
  rw [← String.toList_inj, replaceReserved, String.toList_map, stringOf, stringOf,
    String.toList_ofList, String.toList_ofList]
  induction units using ofUtf16.induct with
  | case1 => rfl
  | case2 u =>
    rw [ofUtf16, replaceReservedUnits, List.map_singleton, List.map_singleton, ofUtf16,
      unitChar_replaceReserved]
  | case3 u v us hpair ih =>
    -- Neither half of a pair is replaced, nor is the character that they are.
    have hu : ¬ReservedUnit u := fun h => by
      unfold ReservedUnit at h
      omega
    have hv : ¬ReservedUnit v := fun h => by
      unfold ReservedUnit at h
      omega
    have hbeyond : ∀ c : Char, c.toNat < 0x10000 →
        Char.ofNat (0x10000 + (u - 0xD800) * 0x400 + (v - 0xDC00)) ≠ c := by
      rintro c hc rfl
      rw [toNat_ofNat (by omega)] at hc
      omega
    have hkept := ih
    rw [replaceReservedUnits] at hkept ⊢
    rw [List.map_cons, List.map_cons, if_neg hu, if_neg hv, ofUtf16, ofUtf16, if_pos hpair,
      if_pos hpair, List.map_cons, hkept, if_neg]
    rintro (hdot | hstar | hquote)
    · exact hbeyond _ (by decide) hdot
    · exact hbeyond _ (by decide) hstar
    · exact hbeyond _ (by decide) hquote
  | case4 u v us hpair ih =>
    -- An underscore is no surrogate, so replacing does not bring a pair about.
    have hpair' : ¬(((0xD800 ≤ if ReservedUnit u then 0x5F else u) ∧
        (if ReservedUnit u then 0x5F else u) < 0xDC00) ∧
        (0xDC00 ≤ if ReservedUnit v then 0x5F else v) ∧
        (if ReservedUnit v then 0x5F else v) < 0xE000) := by
      split_ifs <;> omega
    have hrest := ih
    rw [replaceReservedUnits, List.map_cons] at hrest ⊢
    rw [List.map_cons, ofUtf16, ofUtf16, if_neg hpair, if_neg hpair', List.map_cons, hrest,
      unitChar_replaceReserved]

/-- The name as it is sent. -/
theorem replaceReserved_truncate (key : String) :
    replaceReserved (truncate key propertyMaxLength) = stringOf (labelName key) :=
  replaceReserved_stringOf _

/-! ### What the converters write -/

/-- The key has a string in the old interface or a label. -/
def Api.LabelsDictionary.HasKey (labels : LabelsDictionary) (key : String) : Prop :=
  key ∈ Entries.keys labels.base.entries ∨ key ∈ Entries.keys labels.innerDictionary.entries

theorem Api.LabelsDictionary.mem_keys_mergedDictionary {labels : LabelsDictionary} {key : String} :
    key ∈ Entries.keys labels.mergedDictionary.entries ↔ labels.HasKey key := by
  unfold LabelsDictionary.mergedDictionary LabelsDictionary.HasKey
  rw [Dict.mem_keys_setAll, or_comm]
  simp [Entries.keys, Function.comp_def]

theorem uniqueNames_writeLabel (label : Label) : (writeLabel label).UniqueNames := by
  obtain ⟨value⟩ := label
  cases value with
  | none => exact .null
  | some value =>
    cases value with
    | string s => exact .string _
    | bool b => exact .bool b
    | number n => exact .number n

theorem uniqueNames_writeValue (value : Option String) : (writeValue value).UniqueNames := by
  cases value with
  | none => exact .null
  | some s => exact .string s

/-- The names that `LabelsJsonConverter` writes, in order. -/
def Api.LabelsDictionary.labelNames (labels : LabelsDictionary) : List (List Nat) :=
  (Entries.keys labels.mergedDictionary.entries).map labelName

/-- They are sent in their UTF-8 encoding. -/
theorem labelsJsonConverter_names (labels : LabelsDictionary) :
    ∃ members, labelsJsonConverter labels = .object members ∧
      members.map Prod.fst = labels.labelNames.map stringOf := by
  refine ⟨_, rfl, ?_⟩
  simp [LabelsDictionary.labelNames, Entries.keys, replaceReserved_truncate,
    Function.comp_def]

theorem nodup_labelNames (labels : LabelsDictionary) :
    labels.labelNames.Nodup ↔
      ∀ k k', labels.HasKey k → labels.HasKey k' →
        AlikeUpTo ReservedUnit 0x5F (truncateUnits (unitsOf k) propertyMaxLength)
          (truncateUnits (unitsOf k') propertyMaxLength) → k = k' := by
  have halike : ∀ k k', labelName k = labelName k' ↔
      AlikeUpTo ReservedUnit 0x5F (truncateUnits (unitsOf k) propertyMaxLength)
        (truncateUnits (unitsOf k') propertyMaxLength) := fun k k' => map_eq_iff_alikeUpTo
  rw [LabelsDictionary.labelNames, List.nodup_map_iff_inj_on labels.mergedDictionary.nodup]
  simp only [LabelsDictionary.mem_keys_mergedDictionary, halike]
  exact ⟨fun h k k' hk hk' => h k hk k' hk', fun h k hk k' hk' => h k k' hk hk'⟩

theorem uniqueNames_labels (labels : LabelsDictionary) :
    (labelsJsonConverter labels).UniqueNames ↔
      ∀ k k', labels.HasKey k → labels.HasKey k' →
        AlikeUpTo (fun c => c = '.' ∨ c = '*' ∨ c = '"') '_' (truncate k propertyMaxLength).toList
          (truncate k' propertyMaxLength).toList → k = k' := by
  unfold labelsJsonConverter
  rw [uniqueNames_object_of_keys (Entries.keys labels.mergedDictionary.entries)
    (fun k => replaceReserved (truncate k propertyMaxLength))
    labels.mergedDictionary.nodup (by simp [Entries.keys, Function.comp_def])]
  · simp only [LabelsDictionary.mem_keys_mergedDictionary, replaceReserved_eq_iff]
    exact ⟨fun h k k' hk hk' => h k hk k' hk', fun h k hk k' hk' => h k k' hk hk'⟩
  · intro m hm
    obtain ⟨e, -, rfl⟩ := List.mem_map.mp hm
    exact uniqueNames_writeLabel e.2

theorem uniqueNames_custom (custom : StringDictionary) :
    (customJsonConverter custom).UniqueNames ↔
      ∀ k ∈ Entries.keys custom.entries, ∀ k' ∈ Entries.keys custom.entries,
        AlikeUpTo (fun c => c = '.' ∨ c = '*' ∨ c = '"') '_' k.toList k'.toList → k = k' := by
  unfold customJsonConverter
  rw [uniqueNames_object_of_keys (Entries.keys custom.entries) replaceReserved
    custom.nodup (by simp [Entries.keys, Function.comp_def])]
  · simp only [replaceReserved_eq_iff]
  · intro m hm
    obtain ⟨e, -, rfl⟩ := List.mem_map.mp hm
    exact uniqueNames_writeValue e.2

/-! ### What is written of a metric set -/

section

variable (doubleText : ℚ → NumberToken)

theorem uniqueNames_writeDouble (value : Double) : (writeDouble doubleText value).UniqueNames := by
  cases value with
  | nan | posInfinity | negInfinity => exact .string _
  | finite q => exact .number _

/-- There is a sample for every key that is not in the set, once. -/
theorem writeSamples_names (addedKeys : List String) (samples : List MetricSample) :
    ∃ keys : List String,
      (writeSamples doubleText addedKeys samples).map Prod.fst = keys.map replaceReservedInSample ∧
      keys.Nodup ∧ ∀ k, k ∈ keys ↔ k ∈ samples.map (·.key) ∧ k ∉ addedKeys := by
  induction samples generalizing addedKeys with
  | nil => exact ⟨[], rfl, List.nodup_nil, by simp⟩
  | cons item samples ih =>
    by_cases hadded : item.key ∈ addedKeys
    · obtain ⟨keys, hnames, hnodup, hmem⟩ := ih addedKeys
      refine ⟨keys, by rw [writeSamples, if_pos hadded, hnames], hnodup, fun k => ?_⟩
      rw [hmem, List.map_cons, List.mem_cons]
      constructor
      · rintro ⟨hk, hnew⟩
        exact ⟨Or.inr hk, hnew⟩
      · rintro ⟨rfl | hk, hnew⟩
        · exact absurd hadded hnew
        · exact ⟨hk, hnew⟩
    · obtain ⟨keys, hnames, hnodup, hmem⟩ := ih (item.key :: addedKeys)
      refine ⟨item.key :: keys, ?_, ?_, fun k => ?_⟩
      · rw [writeSamples, if_neg hadded, List.map_cons, hnames, List.map_cons]
      · refine List.nodup_cons.mpr ⟨fun hkey => ?_, hnodup⟩
        exact ((hmem item.key).mp hkey).2 List.mem_cons_self
      · rw [List.mem_cons, hmem, List.map_cons, List.mem_cons, List.mem_cons]
        by_cases hk : k = item.key
        · simp [hk, hadded]
        · simp [hk]

theorem uniqueNames_writeSamples (addedKeys : List String) (samples : List MetricSample) :
    ∀ m ∈ writeSamples doubleText addedKeys samples, m.2.UniqueNames := by
  induction samples generalizing addedKeys with
  | nil => exact List.forall_mem_nil _
  | cons item samples ih =>
    unfold writeSamples
    split_ifs
    · exact ih addedKeys
    · refine List.forall_mem_cons.mpr ⟨.object (List.nodup_singleton _) ?_, ih _⟩
      exact List.forall_mem_singleton.mpr (uniqueNames_writeDouble doubleText item.value)

theorem uniqueNames_metricSet (metricSet : MetricSet) :
    (metricSetConverter doubleText metricSet).UniqueNames ↔
      ∀ x ∈ metricSet.samples, ∀ y ∈ metricSet.samples,
        AlikeUpTo (fun c => c = '*' ∨ c = '"') '_' x.key.toList y.key.toList →
          x.key = y.key := by
  obtain ⟨keys, hnames, hnodup, hmem⟩ := writeSamples_names doubleText [] metricSet.samples
  have hsamples := uniqueNames_object_of_keys keys _ hnodup hnames
    (uniqueNames_writeSamples doubleText [] metricSet.samples)
  have houter : (metricSetConverter doubleText metricSet).UniqueNames ↔
      (Json.object (writeSamples doubleText [] metricSet.samples)).UniqueNames := by
    unfold metricSetConverter
    rw [uniqueNames_object, List.forall_mem_cons, List.forall_mem_singleton]
    have hnames : ["samples", "timestamp"].Nodup := by decide
    exact ⟨fun h => h.2.1, fun h => ⟨hnames, h, .number _⟩⟩
  rw [houter, hsamples]
  simp only [hmem, replaceReservedInSample_eq_iff, List.not_mem_nil, not_false_eq_true, and_true,
    List.forall_mem_map]

/-- The names that the three converters write are different exactly if no two keys are the same up
    to characters that are replaced: for labels what is left of the keys within the length limit,
    unit by unit as they are written, and in the text that is sent. -/
theorem uniqueNames_iff :
    (∀ labels : LabelsDictionary, labels.labelNames.Nodup ↔
      ∀ k k', labels.HasKey k → labels.HasKey k' →
        AlikeUpTo ReservedUnit 0x5F (truncateUnits (unitsOf k) propertyMaxLength)
          (truncateUnits (unitsOf k') propertyMaxLength) → k = k') ∧
    (∀ labels : LabelsDictionary, (labelsJsonConverter labels).UniqueNames ↔
      ∀ k k', labels.HasKey k → labels.HasKey k' →
        AlikeUpTo (fun c => c = '.' ∨ c = '*' ∨ c = '"') '_' (truncate k propertyMaxLength).toList
          (truncate k' propertyMaxLength).toList → k = k') ∧
    (∀ custom : StringDictionary, (customJsonConverter custom).UniqueNames ↔
      ∀ k ∈ Entries.keys custom.entries, ∀ k' ∈ Entries.keys custom.entries,
        AlikeUpTo (fun c => c = '.' ∨ c = '*' ∨ c = '"') '_' k.toList k'.toList → k = k') ∧
    ∀ metricSet : MetricSet, (metricSetConverter doubleText metricSet).UniqueNames ↔
      ∀ x ∈ metricSet.samples, ∀ y ∈ metricSet.samples,
        AlikeUpTo (fun c => c = '*' ∨ c = '"') '_' x.key.toList y.key.toList → x.key = y.key :=
  ⟨nodup_labelNames, uniqueNames_labels, uniqueNames_custom, uniqueNames_metricSet doubleText⟩

end

/-- Two keys that differ in a character that is replaced. -/
theorem uniqueNames_counterexample :
    ¬(Api.LabelsDictionary.labelNames
      ⟨⟨[("a*b", some "1"), ("a_b", some "2")], by decide⟩, .empty⟩).Nodup ∧
    ¬(labelsJsonConverter ⟨⟨[("a*b", some "1"), ("a_b", some "2")], by decide⟩, .empty⟩).UniqueNames ∧
    ¬(customJsonConverter ⟨[("a*b", some "1"), ("a_b", some "2")], by decide⟩).UniqueNames ∧
    ¬(metricSetConverter (fun _ => .ofNat 0)
      ⟨0, [⟨"a*b", .finite 0⟩, ⟨"a_b", .finite 0⟩]⟩).UniqueNames := by
  have halike : AlikeUpTo (fun c => c = '.' ∨ c = '*' ∨ c = '"') '_' "a*b".toList "a_b".toList := by
    decide
  have hne : "a*b" ≠ "a_b" := by decide
  refine ⟨?_, ?_, ?_, ?_⟩
  · rw [nodup_labelNames]
    exact fun h => hne (h _ _ (Or.inl (by decide)) (Or.inl (by decide)) (by decide))
  · have htruncate : ∀ k : String, stringLength k = 3 → truncate k propertyMaxLength = k :=
      fun k hk => truncate_of_le (by rw [hk]; decide)
    rw [uniqueNames_labels]
    intro h
    refine hne (h _ _ (Or.inl (by decide)) (Or.inl (by decide)) ?_)
    rw [htruncate _ (by decide), htruncate _ (by decide)]
    exact halike
  · rw [uniqueNames_custom]
    exact fun h => hne (h _ (by decide) _ (by decide) halike)
  · rw [uniqueNames_metricSet]
    exact fun h => hne (h ⟨"a*b", .finite 0⟩ List.mem_cons_self ⟨"a_b", .finite 0⟩
      (List.mem_cons_of_mem _ List.mem_cons_self) (by decide))

end ApmAgent
