import ApmAgent.Framework.Split
import ApmAgent.Logging.LogValuesFormatter

/-! # Composite formats

  `string.Format` reads a composite format from left to right. Doubled braces
  stand for one brace, an item for one of the arguments, and any other
  character for itself.

  There is one lemma for each of these, `formatChars_open` to
  `formatChars_item`, and none of them has a bound on the turns of the loop.
-/

namespace ApmAgent

namespace CompositeFormat

variable {args : List LogArgument} {cs rest : List Char}

/-! ### Items -/

theorem exists_of_bind_eq_ok {α β : Type} {x : Except RuntimeException α}
    {f : α → Except RuntimeException β} {b : β} (h : x >>= f = .ok b) :
    ∃ a, x = .ok a ∧ f a = .ok b := by
  cases x with
  | error e => cases h
  | ok a => exact ⟨a, rfl, h⟩

theorem readNumber_length {n : Nat} (h : readNumber cs = .ok (n, rest)) :
    rest.length ≤ cs.length := by
  simp only [readNumber] at h
  split at h
  · cases h
  · cases h
    exact ((List.dropWhile_sublist _).trans (List.dropWhile_sublist _)).length_le

theorem readAlignment_length {left : Bool} {width : Nat}
    (h : readAlignment cs = .ok (left, width, rest)) : rest.length ≤ cs.length := by
  unfold readAlignment at h
  split at h
  · next cs =>
    obtain ⟨number, hnumber, h⟩ := exists_of_bind_eq_ok h
    cases h
    have hle := readNumber_length hnumber
    have hdrop : (cs.dropWhile (· = ' ')).length ≤ cs.length :=
      (List.dropWhile_sublist _).length_le
    rw [List.length_cons]
    split at hle
    · rw [List.length_tail] at hle
      omega
    · omega
  · cases h
    exact le_rfl

/-- An item ends within the text. -/
theorem readItem_length {item : Item} (h : readItem cs = .ok (item, rest)) :
    rest.length ≤ cs.length := by
  obtain ⟨⟨index, afterIndex⟩, hindex, h⟩ := exists_of_bind_eq_ok h
  obtain ⟨⟨left, width, afterAlignment⟩, halignment, h⟩ := exists_of_bind_eq_ok h
  have hle := (readAlignment_length halignment).trans (readNumber_length hindex)
  dsimp only at h
  split at h
  · cases h
    rw [List.length_cons] at hle
    omega
  · next cs =>
    rw [List.length_cons] at hle
    split at h
    · next rest' heq =>
      cases h
      have hdrop : (cs.dropWhile fun c => decide (c ≠ '}') && decide (c ≠ '{')).length ≤
          cs.length := (List.dropWhile_sublist _).length_le
      rw [heq, List.length_cons] at hdrop
      omega
    · cases h
  · cases h

/-! ### The loop -/

/-- A turn at a character other than a brace. -/
theorem formatFrom_char {c : Char} (hopen : c ≠ '{') (hclose : c ≠ '}') (m : Nat) :
    formatFrom args (m + 1) (c :: cs) = (c :: ·) <$> formatFrom args m cs := by
  rw [formatFrom, bind_pure_comp]
  · exact fun _ h => absurd h hopen
  · exact fun _ h => absurd h hclose
  · exact hopen
  · exact hclose

/-- More turns than the text has characters make no difference. -/
theorem formatFrom_eq {m m' : Nat} (hm : cs.length ≤ m) (hm' : cs.length ≤ m') :
    formatFrom args m cs = formatFrom args m' cs := by
  fun_induction formatFrom args m cs generalizing m' with
  | case1 => cases m' <;> rfl
  | case2 cs hne => exact absurd (List.length_eq_zero_iff.mp (Nat.le_zero.mp hm)) hne
  | case3 m cs ih =>
    cases m' with
    | zero => cases hm'
    | succ m' =>
      rw [List.length_cons, List.length_cons] at hm hm'
      have hrest : formatFrom args m cs = formatFrom args m' cs := ih (by omega) (by omega)
      rw [formatFrom, hrest]
  | case4 m cs ih =>
    cases m' with
    | zero => cases hm'
    | succ m' =>
      rw [List.length_cons, List.length_cons] at hm hm'
      have hrest : formatFrom args m cs = formatFrom args m' cs := ih (by omega) (by omega)
      rw [formatFrom, hrest]
  | case5 m cs hne ih =>
    cases m' with
    | zero => cases hm'
    | succ m' =>
      rw [List.length_cons] at hm hm'
      rw [formatFrom]
      · cases hitem : readItem cs with
        | error e => rfl
        | ok read =>
          -- What follows the item is shorter than the text behind its brace.
          have hle := readItem_length hitem
          have hrest : formatFrom args m read.2 = formatFrom args m' read.2 :=
            ih read.2 (by omega) (by omega)
          simp only [bind, Except.bind, hrest]
      · exact hne
  | case6 m cs hne =>
    cases m' with
    | zero => cases hm'
    | succ m' =>
      rw [formatFrom]
      exact hne
  | case7 m c cs hopens hcloses hopen hclose ih =>
    cases m' with
    | zero => cases hm'
    | succ m' =>
      rw [List.length_cons] at hm hm'
      have hrest : formatFrom args m cs = formatFrom args m' cs := ih (by omega) (by omega)
      rw [formatFrom_char hopen hclose, hrest, bind_pure_comp]

/-- The loop of `string.Format` on a whole text. -/
def formatChars (args : List LogArgument) (cs : List Char) : Except RuntimeException (List Char) :=
  formatFrom args cs.length cs

theorem formatFrom_eq_formatChars {m : Nat} (h : cs.length ≤ m) :
    formatFrom args m cs = formatChars args cs :=
  formatFrom_eq h le_rfl

theorem stringFormat_eq (format : String) :
    stringFormat format args = String.ofList <$> formatChars args format.toList := by
  rw [stringFormat, formatFrom_eq_formatChars (String.length_toList ▸ le_rfl)]
  rfl

@[simp] theorem formatChars_nil : formatChars args [] = .ok [] := rfl

theorem formatChars_open :
    formatChars args ('{' :: '{' :: cs) = ('{' :: ·) <$> formatChars args cs := by
  have hle : cs.length ≤ cs.length + 1 := Nat.le_succ _
  rw [formatChars, List.length_cons, formatFrom, List.length_cons, formatFrom_eq_formatChars hle,
    bind_pure_comp]

theorem formatChars_close :
    formatChars args ('}' :: '}' :: cs) = ('}' :: ·) <$> formatChars args cs := by
  have hle : cs.length ≤ cs.length + 1 := Nat.le_succ _
  rw [formatChars, List.length_cons, formatFrom, List.length_cons, formatFrom_eq_formatChars hle,
    bind_pure_comp]

/-- A character other than a brace. -/
theorem formatChars_char {c : Char} (hopen : c ≠ '{') (hclose : c ≠ '}') :
    formatChars args (c :: cs) = (c :: ·) <$> formatChars args cs := by
  rw [formatChars, List.length_cons, formatFrom_char hopen hclose]
  rfl

/-- An item. -/
theorem formatChars_item {item : Item} {argument : LogArgument} {text : String}
    (hread : readItem cs = .ok (item, rest)) (hargument : args[item.index]? = some argument)
    (htext : render item argument = .ok text) :
    formatChars args ('{' :: cs) = (pad item text ++ ·) <$> formatChars args rest := by
  have hne : ∀ cs', cs = '{' :: cs' → False := by
    rintro cs' rfl
    cases hread
  rw [formatChars, List.length_cons, formatFrom]
  · simp only [hread, bind, Except.bind, hargument, htext]
    rw [formatFrom_eq_formatChars (readItem_length hread)]
    cases formatChars args rest <;> rfl
  · exact hne

/-! ### Texts and numbered items -/

/-- The text has no braces. -/
def IsPlain (cs : List Char) : Prop := ∀ c ∈ cs, c ≠ '{' ∧ c ≠ '}'

instance (cs : List Char) : Decidable (IsPlain cs) :=
  decidableForallMem (fun c => c ≠ '{' ∧ c ≠ '}') cs

theorem IsPlain.append {cs' : List Char} (h : IsPlain cs) (h' : IsPlain cs') :
    IsPlain (cs ++ cs') := by
  intro c hc
  obtain hc | hc := List.mem_append.mp hc
  · exact h c hc
  · exact h' c hc

/-- A text without braces stands for itself. -/
theorem formatChars_plain (h : IsPlain cs) (rest : List Char) :
    formatChars args (cs ++ rest) = (cs ++ ·) <$> formatChars args rest := by
  induction cs with
  | nil => exact (id_map _).symm
  | cons c cs ih =>
    obtain ⟨hc, hcs⟩ := List.forall_mem_cons.mp h
    rw [List.cons_append, formatChars_char hc.1 hc.2, ih hcs, Functor.map_map]
    rfl

theorem formatChars_of_isPlain (h : IsPlain cs) : formatChars args cs = .ok cs := by
  have happend : formatChars args (cs ++ []) = (cs ++ ·) <$> formatChars args [] :=
    formatChars_plain h []
  rw [List.append_nil, formatChars_nil] at happend
  rw [happend]
  exact congrArg Except.ok (List.append_nil cs)

theorem stringFormat_of_isPlain {format : String} (h : IsPlain format.toList) :
    stringFormat format args = .ok format := by
  rw [stringFormat_eq, formatChars_of_isPlain h]
  exact congrArg Except.ok String.ofList_toList

/-- What is between the braces of the item for a number. -/
theorem readItem_index (index : Nat) (rest : List Char) :
    readItem (Nat.toDigits 10 index ++ '}' :: rest) = .ok (⟨index, false, 0, none⟩, rest) := by
  have hdigit := isDigit_of_mem_toDigits index
  have hhead : ∀ c ∈ ('}' :: rest).head?, c.isDigit = false :=
    List.forall_mem_head?_cons.mpr rfl
  have hnumber : readNumber (Nat.toDigits 10 index ++ '}' :: rest) = .ok (index, '}' :: rest) := by
    simp only [readNumber, List.takeWhile_append_of_head hdigit hhead,
      List.dropWhile_append_of_head hdigit hhead, digitsValue_toDigits, if_neg Nat.toDigits_ne_nil]
    rw [List.dropWhile_cons_of_neg (by decide)]
  rw [readItem, hnumber]
  rfl

/-- The item for a number shows the argument in its place. -/
theorem formatChars_index {index : Nat} {argument : LogArgument} {text : String}
    (hargument : args[index]? = some argument)
    (htext : render ⟨index, false, 0, none⟩ argument = .ok text) (rest : List Char) :
    formatChars args ('{' :: (Nat.toDigits 10 index ++ '}' :: rest)) =
      (text.toList ++ ·) <$> formatChars args rest := by
  have hpad : pad ⟨index, false, 0, none⟩ text = text.toList := by
    simp [pad]
  rw [formatChars_item (readItem_index index rest) hargument htext, hpad]

end CompositeFormat

end ApmAgent
