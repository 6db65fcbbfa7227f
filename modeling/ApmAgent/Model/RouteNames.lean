import ApmAgent.Helpers.Numbers
import ApmAgent.Helpers.Utf16
import Mathlib.Data.List.Lex
import Mathlib.Data.List.Nodup
import Mathlib.Order.Nat

/-! # Route names

  An MVC request is named after its route: area, controller and action, and
  the names of the other route parameters in order. A page that has no
  controller is named after its path.

  `dependsOnlyOnRoute_iff` says which route values have a name at all, and that
  it then depends on nothing but the route.
-/

namespace ApmAgent

/-- A route value: null, or how `ToString` of the object ends. The text may be null. -/
abbrev RouteValue := Option (Except RuntimeException (Option String))

/-- How two keys are compared by `StringComparer.OrdinalIgnoreCase`. -/
def ordinalIgnoreCaseKey [InvariantCulture] (key : String) : List Char :=
  key.toList.map toUpperInvariant

/-- `RouteValueDictionary`: the keys differ in more than their case. -/
structure RouteValueDictionary [InvariantCulture] where
  entries : List (String × RouteValue)
  nodup : (entries.map fun e => ordinalIgnoreCaseKey e.1).Nodup

namespace RouteValueDictionary

variable [InvariantCulture] (routeValues : RouteValueDictionary)

def keys : List String := routeValues.entries.map (·.1)

def tryGetValue (key : String) : Option RouteValue :=
  (routeValues.entries.find? fun e => equalsOrdinalIgnoreCase e.1.toList key.toList).map (·.2)

/-- `value == null ? string.Empty : value.ToString()`, also where there is no value. -/
def text (key : String) : Except RuntimeException (Option String) :=
  match (routeValues.tryGetValue key).getD none with
  | none => .ok (some "")
  | some toString => toString

/-- `areaString`: here a value is not checked for null. -/
def areaString : Except RuntimeException (Option String) :=
  match routeValues.tryGetValue "area" with
  | none => .ok none
  | some none => .error (.other "NullReferenceException")
  | some (some toString) => toString

/-- How many of the keys there are. -/
def count (keys : List String) : Nat :=
  (keys.filter fun key => (routeValues.tryGetValue key).isSome).length

/-- The keys that are not listed as parameters. -/
def isParameter (key : String) : Bool :=
  ["area", "controller", "action", "!__route_group"].all fun name =>
    !equalsOrdinalIgnoreCase key.toList name.toList

/-- The order of `OrderBy(key => key, StringComparer.OrdinalIgnoreCase)`. -/
def keyLE (key key' : String) : Bool :=
  utf16 (ordinalIgnoreCaseKey key) ≤ utf16 (ordinalIgnoreCaseKey key')

def sortedKeys : List String := (routeValues.keys.filter isParameter).mergeSort keyLE

/-- `Transaction.GetNameFromRouteContext`. -/
def getNameFromRouteContext : Except RuntimeException (Option String) := do
  if routeValues.keys.length ≤ 0 then return none
  let controllerString ← routeValues.text "controller"
  if !isNullOrEmpty controllerString then
    let areaString ← routeValues.areaString
    let controllerString := controllerString.getD ""
    let name :=
      if !isNullOrEmpty areaString then areaString.getD "" ++ "/" ++ controllerString
      else controllerString
    let actionString ← routeValues.text "action"
    let name := if !isNullOrEmpty actionString then name ++ "/" ++ actionString.getD "" else name
    if routeValues.keys.length = routeValues.count ["controller", "area", "action"] then
      return some name
    if routeValues.sortedKeys.length ≤ 0 then return some name
    return some (name ++ " \x7b" ++ String.intercalate "/" routeValues.sortedKeys ++ "\x7d")
  else
    let pageString ← routeValues.text "page"
    return if !isNullOrEmpty pageString then pageString else none

/-! ### The law -/

/-- The same keys, and the same values for the parts of the name. -/
structure SameRoute (d d' : RouteValueDictionary) : Prop where
  keys_perm : d.keys.Perm d'.keys
  values_eq : ∀ key ∈ ["area", "controller", "action", "page"],
    d.tryGetValue key = d'.tryGetValue key

/-- The route values have a name, and all those of the same route have the same one. -/
def DependsOnlyOnRoute (d : RouteValueDictionary) : Prop :=
  (∃ name, d.getNameFromRouteContext = .ok name) ∧
    ∀ d', d.SameRoute d' → d'.getNameFromRouteContext = d.getNameFromRouteContext

/-- Where the controller has a text, the area is not null. `ToString` returns wherever it is
    called. -/
def HasParts (d : RouteValueDictionary) : Prop :=
  ∃ controller, d.text "controller" = .ok controller ∧
    if isNullOrEmpty controller then ∃ page, d.text "page" = .ok page
    else d.tryGetValue "area" ≠ some none ∧ (∃ area, d.text "area" = .ok area) ∧
      ∃ action, d.text "action" = .ok action

variable {routeValues} {d d' : RouteValueDictionary}

/-- Comparing keys without case tells those of a dictionary apart. -/
theorem eq_of_ordinalIgnoreCaseKey_eq {key key' : String} (hkey : key ∈ d.keys)
    (hkey' : key' ∈ d.keys) (h : ordinalIgnoreCaseKey key = ordinalIgnoreCaseKey key') :
    key = key' := by
  have hnodup : (d.keys.map ordinalIgnoreCaseKey).Nodup := by
    rw [keys, List.map_map]
    exact d.nodup
  exact List.inj_on_of_nodup_map hnodup hkey hkey' h

/-- So the sorted keys do not depend on the order in which they are enumerated. -/
theorem sortedKeys_eq_of_perm (h : d.keys.Perm d'.keys) : d.sortedKeys = d'.sortedKeys := by
  have hpairwise : ∀ keys : List String, (keys.mergeSort keyLE).Pairwise (keyLE · ·) :=
    List.pairwise_mergeSort
      (fun a b c hab hbc => by
        simp only [keyLE, decide_eq_true_eq] at hab hbc ⊢
        exact le_trans hab hbc)
      (fun a b => by simpa [keyLE] using le_total _ _)
  have hperm : d.sortedKeys.Perm d'.sortedKeys :=
    ((List.mergeSort_perm _ _).trans (h.filter _)).trans (List.mergeSort_perm _ _).symm
  have hmem : ∀ key ∈ d.sortedKeys, key ∈ d.keys := fun key hkey =>
    (List.mem_filter.mp ((List.mergeSort_perm _ _).mem_iff.mp hkey)).1
  refine hperm.eq_of_pairwise (fun key key' hkey hkey' hle hge => ?_) (hpairwise _) (hpairwise _)
  simp only [keyLE, decide_eq_true_eq] at hle hge
  exact eq_of_ordinalIgnoreCaseKey_eq (hmem key hkey) (hmem key' (hperm.mem_iff.mpr hkey'))
    (utf16_injective (le_antisymm hle hge))

/-- All that the name is made of is the same along a route. -/
theorem SameRoute.getNameFromRouteContext_eq (h : d.SameRoute d') :
    d'.getNameFromRouteContext = d.getNameFromRouteContext := by
  have htext : ∀ key ∈ ["area", "controller", "action", "page"], d'.text key = d.text key := by
    intro key hkey
    rw [text, text, h.values_eq key hkey]
  have harea : d'.areaString = d.areaString := by
    rw [areaString, areaString, h.values_eq "area" (by decide)]
  have hcount : d'.count ["controller", "area", "action"] =
      d.count ["controller", "area", "action"] := by
    unfold count
    refine congrArg List.length (List.filter_congr fun key hkey => ?_)
    rw [h.values_eq key (by revert key; decide)]
  have hlength : d'.keys.length = d.keys.length := h.keys_perm.length_eq.symm
  rw [getNameFromRouteContext, getNameFromRouteContext, hlength,
    htext "controller" (by decide), harea, htext "action" (by decide), htext "page" (by decide),
    hcount, sortedKeys_eq_of_perm h.keys_perm]

/-- `areaString` returns where the area is not null and its text is there. -/
theorem areaString_returns_iff :
    (∃ area, d.areaString = .ok area) ↔
      d.tryGetValue "area" ≠ some none ∧ ∃ area, d.text "area" = .ok area := by
  unfold areaString text
  rcases d.tryGetValue "area" with _ | _ | toString <;> simp

/-- An empty dictionary has no part. -/
theorem hasParts_of_empty (h : d.keys.length ≤ 0) : d.HasParts := by
  have hentries : d.entries = [] := by
    rw [keys, List.length_map] at h
    exact List.length_eq_zero_iff.mp (Nat.le_zero.mp h)
  have hvalue : ∀ key, d.text key = .ok (some "") := fun key => by
    rw [text, tryGetValue, hentries]
    rfl
  exact ⟨some "", hvalue _, some "", hvalue _⟩

omit [InvariantCulture] in
/-- Two steps return exactly if the first one does, and then the second. -/
theorem bind_returns_iff {α β : Type} {x : Except RuntimeException α}
    {f : α → Except RuntimeException β} :
    (∃ b, (x >>= f) = .ok b) ↔ ∃ a, x = .ok a ∧ ∃ b, f a = .ok b := by
  cases x with
  | error e => exact iff_of_false (fun h => nomatch h) (fun h => nomatch h)
  | ok a =>
    constructor
    · rintro ⟨b, hb⟩
      exact ⟨a, rfl, b, hb⟩
    · rintro ⟨a, ha, hb⟩
      cases ha
      exact hb

/-- The name is there exactly if its parts are. -/
theorem getNameFromRouteContext_returns_iff :
    (∃ name, d.getNameFromRouteContext = .ok name) ↔ d.HasParts := by
  by_cases hempty : d.keys.length ≤ 0
  · refine iff_of_true ⟨none, ?_⟩ (hasParts_of_empty hempty)
    rw [getNameFromRouteContext, if_pos hempty]
    rfl
  rw [getNameFromRouteContext, if_neg hempty, bind_returns_iff]
  refine exists_congr fun controller => and_congr_right fun _ => ?_
  cases isNullOrEmpty controller with
  | true =>
    rw [if_neg (by decide), if_pos rfl, bind_returns_iff]
    exact exists_congr fun page => and_iff_left ⟨_, rfl⟩
  | false =>
    -- Once the texts are there, putting them together cannot fail.
    have hreturns : ∀ (p q : Prop) [Decidable p] [Decidable q] (a b c : Option String),
        ∃ name, (if p then pure a else if q then pure b else pure c :
          Except RuntimeException (Option String)) = .ok name := by
      intro p q _ _ a b c
      by_cases hp : p
      · exact ⟨a, if_pos hp⟩
      · by_cases hq : q
        · exact ⟨b, by rw [if_neg hp, if_pos hq]; rfl⟩
        · exact ⟨c, by rw [if_neg hp, if_neg hq]; rfl⟩
    rw [if_pos (by decide), if_neg Bool.false_ne_true, ← and_assoc, ← areaString_returns_iff,
      bind_returns_iff]
    constructor
    · rintro ⟨area, harea, h⟩
      obtain ⟨action, haction, -⟩ := bind_returns_iff.mp h
      exact ⟨⟨area, harea⟩, action, haction⟩
    · rintro ⟨⟨area, harea⟩, action, haction⟩
      exact ⟨area, harea, bind_returns_iff.mpr ⟨action, haction, hreturns _ _ _ _ _⟩⟩

/-- The route values have a name that depends only on the route if and only if the area is not
    null where the controller has a text. -/
theorem dependsOnlyOnRoute_iff (d : RouteValueDictionary) : d.DependsOnlyOnRoute ↔ d.HasParts := by
  constructor
  · intro h
    exact getNameFromRouteContext_returns_iff.mp h.1
  · intro h
    exact ⟨getNameFromRouteContext_returns_iff.mpr h, fun _ hsame =>
      hsame.getNameFromRouteContext_eq⟩

end RouteValueDictionary

/-- A controller outside of any area, as the null of its area says. -/
def homeWithoutArea : @RouteValueDictionary .ascii :=
  letI := InvariantCulture.ascii
  { entries := [("area", none), ("controller", some (.ok (some "Home"))),
      ("action", some (.ok (some "Index")))]
    nodup := by decide +kernel }

/-- Not all route values have a name. -/
theorem dependsOnlyOnRoute_counterexample :
    ¬ ∀ (_ : InvariantCulture) (d : RouteValueDictionary), d.DependsOnlyOnRoute := by
  intro h
  obtain ⟨name, hname⟩ := (h .ascii homeWithoutArea).1
  have herror : @RouteValueDictionary.getNameFromRouteContext .ascii homeWithoutArea =
      .error (.other "NullReferenceException") := by rfl
  rw [herror] at hname
  cases hname

end ApmAgent
