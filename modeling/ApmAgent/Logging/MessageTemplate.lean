import ApmAgent.Logging.CompositeFormat
import ApmAgent.Logging.ScopedLogger
import Mathlib.Data.List.TakeWhile

/-! # Message templates

  A well-formed message is a text with placeholders in it. In the text a brace
  is doubled.

  The scanner finds the placeholders of a template, `placeholders_format`, and
  `string.Format` shows an argument in the place of each one that got a number.
  `formatsExactly_of_showsSurplus` says for which arguments the message and its
  warning are right.
-/

namespace ApmAgent

attribute [local instance] decidableForallMem

/-! ### Templates -/

/-- A part of the text. -/
inductive TextPiece where
  | char (c : Char) (isPlain : c ≠ '{' ∧ c ≠ '}')
  | openBraces
  | closeBraces

namespace TextPiece

/-- As it is written. -/
def chars : TextPiece → List Char
  | .char c _ => [c]
  | .openBraces => ['{', '{']
  | .closeBraces => ['}', '}']

/-- As it is shown. -/
def shown : TextPiece → Char
  | .char c _ => c
  | .openBraces => '{'
  | .closeBraces => '}'

end TextPiece

/-- Text as it is written. -/
def textChars (pieces : List TextPiece) : List Char := pieces.flatMap TextPiece.chars

@[simp] theorem textChars_nil : textChars [] = [] := rfl

@[simp] theorem textChars_cons (piece : TextPiece) (pieces : List TextPiece) :
    textChars (piece :: pieces) = piece.chars ++ textChars pieces := rfl

/-- A placeholder and the text in front of it. -/
structure NamedPlaceholder where
  front : List TextPiece
  name : List Char
  isName : ∀ c ∈ name, (c ≠ '{' ∧ c ≠ '}') ∧ c ≠ ',' ∧ c ≠ ':'

namespace NamedPlaceholder

def chars (p : NamedPlaceholder) : List Char := textChars p.front ++ '{' :: (p.name ++ ['}'])

/-- What the scanner finds of it. -/
def found (p : NamedPlaceholder) : Placeholder where
  before := textChars p.front ++ ['{']
  name := p.name
  after := ['}']

end NamedPlaceholder

structure MessageTemplate where
  named : List NamedPlaceholder
  tail : List TextPiece

namespace MessageTemplate

def chars (t : MessageTemplate) : List Char :=
  t.named.flatMap NamedPlaceholder.chars ++ textChars t.tail

/-- The message. -/
def format (t : MessageTemplate) : String := String.ofList t.chars

end MessageTemplate

/-! ### The scanner -/

section

variable {brace c : Char} {endIndex i b count : Nat} {cs more : List Char}

theorem findBraceFrom_brace :
    findBraceFrom brace endIndex (brace :: cs) i b count =
      findBraceFrom brace endIndex cs (i + 1) (if brace = '}' ∧ count ≠ 0 then b else i)
        (count + 1) := by
  simp [findBraceFrom]

/-- Behind an even number of braces, or none, the search goes on. -/
theorem findBraceFrom_even (hc : c ≠ brace) (hcount : count % 2 = 0)
    (hb : count = 0 → b = endIndex) :
    findBraceFrom brace endIndex (c :: cs) i b count =
      findBraceFrom brace endIndex cs (i + 1) endIndex 0 := by
  cases count with
  | zero => simp [findBraceFrom, hc, hb]
  | succ count => simp [findBraceFrom, hc, hcount]

/-- Behind an odd number of braces the search ends. -/
theorem findBraceFrom_odd (hcs : cs.head? ≠ some brace) (hcount : count % 2 = 1) :
    findBraceFrom brace endIndex cs i b count = b := by
  cases cs with
  | nil => rfl
  | cons c cs =>
    have hc : c ≠ brace := fun h => hcs (congrArg some h)
    have hpos : 0 < count := by omega
    simp [findBraceFrom, hc, hcount, hpos]

theorem findBraceFrom_of_not_mem (h : brace ∉ cs) :
    findBraceFrom brace endIndex cs i endIndex 0 = endIndex := by
  induction cs generalizing i with
  | nil => rfl
  | cons c cs ih =>
    have hc : c ≠ brace := Ne.symm (List.ne_of_not_mem_cons h)
    rw [findBraceFrom_even hc rfl (fun _ => rfl), ih (List.not_mem_of_not_mem_cons h)]

/-- The opening brace of a placeholder is found behind the text in front of it. -/
theorem findBraceFrom_open (front : List TextPiece) (hcs : cs.head? ≠ some '{')
    (hcount : count % 2 = 0) (hb : count = 0 → b = endIndex) :
    findBraceFrom '{' endIndex (textChars front ++ '{' :: cs) i b count =
      i + (textChars front).length := by
  induction front generalizing i b count with
  | nil =>
    have hb' : (if '{' = '}' ∧ count ≠ 0 then b else i) = i := by simp
    rw [textChars_nil, List.nil_append, findBraceFrom_brace, findBraceFrom_odd hcs (by omega), hb']
    rfl
  | cons piece front ih =>
    rw [textChars_cons, List.append_assoc, List.length_append, ← Nat.add_assoc]
    cases piece with
    | char c isPlain =>
      rw [TextPiece.chars, List.singleton_append, findBraceFrom_even isPlain.1 hcount hb,
        ih rfl (fun _ => rfl)]
      rfl
    | openBraces =>
      rw [TextPiece.chars, List.cons_append, List.singleton_append, findBraceFrom_brace,
        findBraceFrom_brace, ih (by omega) (fun h => by omega)]
      rfl
    | closeBraces =>
      rw [TextPiece.chars, List.cons_append, List.singleton_append,
        findBraceFrom_even (by decide) hcount hb, findBraceFrom_even (by decide) rfl (fun _ => rfl),
        ih rfl (fun _ => rfl)]
      rfl

/-- Doubled braces behind the closing brace of a placeholder are not taken for it. -/
theorem findBraceFrom_close (tail : List TextPiece) (hmore : more.head? ≠ some '}')
    (hcount : count % 2 = 1) :
    findBraceFrom '}' endIndex (textChars tail ++ more) i b count = b := by
  induction tail generalizing i count with
  | nil => exact findBraceFrom_odd hmore hcount
  | cons piece tail ih =>
    rw [textChars_cons, List.append_assoc]
    cases piece with
    | char c isPlain =>
      refine findBraceFrom_odd ?_ hcount
      simpa [TextPiece.chars] using isPlain.2
    | openBraces => exact findBraceFrom_odd (by simp [TextPiece.chars]) hcount
    | closeBraces =>
      have hpos : count ≠ 0 := by omega
      rw [TextPiece.chars, List.cons_append, List.singleton_append, findBraceFrom_brace,
        if_pos ⟨rfl, hpos⟩, findBraceFrom_brace, if_pos ⟨rfl, Nat.succ_ne_zero _⟩, ih (by omega)]

/-- The closing brace of a placeholder is found behind its name. -/
theorem findBraceFrom_name {name : List Char} (hname : '}' ∉ name) (tail : List TextPiece)
    (hmore : more.head? ≠ some '}') :
    findBraceFrom '}' endIndex (name ++ '}' :: (textChars tail ++ more)) i endIndex 0 =
      i + name.length := by
  induction name generalizing i with
  | nil =>
    have hb : (if '}' = '}' ∧ 0 ≠ 0 then endIndex else i) = i := by simp
    rw [List.nil_append, findBraceFrom_brace, findBraceFrom_close tail hmore rfl, hb]
    rfl
  | cons c name ih =>
    have hc : c ≠ '}' := Ne.symm (List.ne_of_not_mem_cons hname)
    rw [List.cons_append, findBraceFrom_even hc rfl (fun _ => rfl),
      ih (List.not_mem_of_not_mem_cons hname), List.length_cons, Nat.add_assoc, Nat.add_comm 1]

/-- From where the search in a text without placeholders ends, there is no closing brace: it ends
    at the last brace of the text, or where the text does. -/
theorem not_mem_drop_findBraceFrom (pieces : List TextPiece) {pre : List Char}
    (hcount : count % 2 = 0) (hb : count = 0 → b = endIndex) (hpre : '}' ∉ pre.drop b)
    (hend : endIndex = (pre ++ textChars pieces).length) :
    '}' ∉ (pre ++ textChars pieces).drop
      (findBraceFrom '{' endIndex (textChars pieces) pre.length b count) := by
  induction pieces generalizing pre b count with
  | nil =>
    rw [textChars_nil, List.append_nil, findBraceFrom]
    exact hpre
  | cons piece pieces ih =>
    have hdrop : '}' ∉ (pre ++ piece.chars).drop endIndex := by
      rw [List.drop_of_length_le]
      · exact List.not_mem_nil
      · rw [hend, textChars_cons, ← List.append_assoc]
        exact (List.sublist_append_left _ _).length_le
    rw [textChars_cons, ← List.append_assoc] at hend ⊢
    cases piece with
    | char c isPlain =>
      have hrest := ih (Nat.zero_mod 2) (fun _ => rfl) hdrop hend
      rw [List.length_append] at hrest
      rw [TextPiece.chars, List.singleton_append, findBraceFrom_even isPlain.1 hcount hb]
      exact hrest
    | openBraces =>
      have heven : (count + 1 + 1) % 2 = 0 := by omega
      have hlast : '}' ∉ (pre ++ ['{', '{']).drop (pre.length + 1) := by simp
      have hrest := ih heven (fun h => nomatch h) hlast hend
      rw [List.length_append] at hrest
      rw [TextPiece.chars, List.cons_append, List.singleton_append, findBraceFrom_brace,
        findBraceFrom_brace, if_neg (by simp)]
      exact hrest
    | closeBraces =>
      have hrest := ih (Nat.zero_mod 2) (fun _ => rfl) hdrop hend
      rw [List.length_append] at hrest
      rw [TextPiece.chars, List.cons_append, List.singleton_append,
        findBraceFrom_even (by decide) hcount hb, findBraceFrom_even (by decide) rfl (fun _ => rfl)]
      exact hrest

/-- A text without placeholders has none. -/
theorem nextPlaceholder_text (pieces : List TextPiece) :
    nextPlaceholder (textChars pieces) = none := by
  have hnot : '}' ∉ (textChars pieces).drop (findBraceIndex (textChars pieces) '{' 0) := by
    have hempty : '}' ∉ ([] : List Char).drop (textChars pieces).length := by simp
    exact not_mem_drop_findBraceFrom pieces (Nat.zero_mod 2) (fun _ => rfl) hempty rfl
  have hclose : findBraceIndex (textChars pieces) '}' (findBraceIndex (textChars pieces) '{' 0) =
      (textChars pieces).length := findBraceFrom_of_not_mem hnot
  simp only [nextPlaceholder, hclose, if_true]

namespace NamedPlaceholder

variable (p : NamedPlaceholder)

theorem chars_append (rest : List Char) :
    p.chars ++ rest = textChars p.front ++ ('{' :: p.name ++ '}' :: rest) := by
  simp [chars]

theorem findBraceIndex_open (rest : List Char) :
    findBraceIndex (p.chars ++ rest) '{' 0 = (textChars p.front).length := by
  have hhead : (p.name ++ '}' :: rest).head? ≠ some '{' := by
    cases hname : p.name with
    | nil => simp
    | cons c name => simpa using (p.isName c (by simp [hname])).1.1
  rw [chars_append, findBraceIndex, List.drop_zero, List.cons_append,
    findBraceFrom_open p.front hhead rfl (fun _ => rfl), Nat.zero_add]

theorem findBraceIndex_close (tail : List TextPiece) (hmore : more.head? ≠ some '}') :
    findBraceIndex (p.chars ++ (textChars tail ++ more)) '}' (textChars p.front).length =
      (textChars p.front ++ '{' :: p.name).length := by
  have hname : '}' ∉ '{' :: p.name := by
    rw [List.mem_cons]
    rintro (h | h)
    · exact absurd h (by decide)
    · exact (p.isName _ h).1.2 rfl
  rw [chars_append, findBraceIndex, List.drop_left, findBraceFrom_name hname tail hmore,
    List.length_append]

/-- The first placeholder of a template. -/
theorem nextPlaceholder_append (tail : List TextPiece) (hmore : more.head? ≠ some '}') :
    nextPlaceholder (p.chars ++ (textChars tail ++ more)) =
      some (p.found, textChars tail ++ more) := by
  have hopen := p.findBraceIndex_open (textChars tail ++ more)
  have hclose := p.findBraceIndex_close tail hmore
  generalize textChars tail ++ more = rest at hopen hclose ⊢
  rw [chars_append] at hopen hclose ⊢
  have hdelimiter : ∀ c ∈ '{' :: p.name, (!(decide (c = ',') || decide (c = ':'))) = true := by
    intro c hc
    obtain rfl | hc := List.mem_cons.mp hc
    · decide
    · simp [(p.isName c hc).2]
  -- The text up to the closing brace.
  have hitem : ((textChars p.front ++ ('{' :: p.name ++ '}' :: rest)).take
      (textChars p.front ++ '{' :: p.name).length).drop (textChars p.front).length =
        '{' :: p.name := by
    rw [← List.append_assoc, List.take_left, List.drop_left]
  have hbefore : (textChars p.front ++ ('{' :: p.name ++ '}' :: rest)).take
      ((textChars p.front).length + 1) = textChars p.front ++ ['{'] := by
    simp [List.take_append]
  -- The text from the closing brace on.
  have hafter : (textChars p.front ++ ('{' :: p.name ++ '}' :: rest)).drop
      (textChars p.front ++ '{' :: p.name).length = '}' :: rest := by
    rw [← List.append_assoc, List.drop_left]
  have hbehind : (textChars p.front ++ ('{' :: p.name ++ '}' :: rest)).drop
      ((textChars p.front ++ '{' :: p.name).length + 1) = rest := by
    rw [← List.drop_drop, hafter, List.drop_one, List.tail_cons]
  have hne : (textChars p.front ++ '{' :: p.name).length ≠
      (textChars p.front ++ ('{' :: p.name ++ '}' :: rest)).length := by
    simp only [List.length_append, List.length_cons]
    omega
  simp only [nextPlaceholder, hopen, hclose, if_neg hne, hitem, hbefore, hafter, hbehind,
    List.takeWhile_eq_self_iff.mpr hdelimiter, List.dropWhile_eq_nil_iff.mpr hdelimiter]
  rfl

end NamedPlaceholder

namespace MessageTemplate

/-- A template begins with text, and what follows does not begin with a closing brace. -/
theorem exists_textChars (t : MessageTemplate) :
    ∃ pieces more, t.chars = textChars pieces ++ more ∧ more.head? ≠ some '}' := by
  obtain ⟨ps, tail⟩ := t
  cases ps with
  | nil => exact ⟨tail, [], by simp [chars], by simp⟩
  | cons p ps =>
    exact ⟨p.front, '{' :: (p.name ++ '}' :: chars ⟨ps, tail⟩), by
      simp [chars, NamedPlaceholder.chars], by simp⟩

theorem placeholdersFrom_chars (t : MessageTemplate) {m : Nat} (hm : t.named.length ≤ m) :
    placeholdersFrom m t.chars = (t.named.map NamedPlaceholder.found, textChars t.tail) := by
  obtain ⟨ps, tail⟩ := t
  induction ps generalizing m with
  | nil =>
    have hchars : chars ⟨[], tail⟩ = textChars tail := rfl
    cases m with
    | zero => rfl
    | succ m => rw [hchars, placeholdersFrom, nextPlaceholder_text, List.map_nil]
  | cons p ps ih =>
    cases m with
    | zero => cases hm
    | succ m =>
      obtain ⟨pieces, more, hrest, hmore⟩ := exists_textChars ⟨ps, tail⟩
      have hchars : chars ⟨p :: ps, tail⟩ = p.chars ++ chars ⟨ps, tail⟩ := by
        simp [chars]
      have hnext := p.nextPlaceholder_append pieces hmore
      rw [← hrest] at hnext
      rw [hchars, placeholdersFrom, hnext]
      simp only [ih (Nat.le_of_succ_le_succ hm), List.map_cons]

theorem length_named_le (t : MessageTemplate) : t.named.length ≤ t.chars.length := by
  have hle : t.named.length ≤ (t.named.flatMap NamedPlaceholder.chars).length := by
    induction t.named with
    | nil => exact Nat.zero_le _
    | cons p ps ih =>
      rw [List.flatMap_cons, List.length_append, List.length_cons, NamedPlaceholder.chars,
        List.length_append, List.length_cons]
      omega
  exact hle.trans (List.sublist_append_left _ _).length_le

/-- The scanner finds the placeholders of a template. -/
theorem placeholders_format (t : MessageTemplate) :
    placeholders t.format = (t.named.map NamedPlaceholder.found, textChars t.tail) := by
  rw [placeholders, format, String.toList_ofList, String.length_ofList]
  exact placeholdersFrom_chars t t.length_named_le

end MessageTemplate

end

/-! ### Filling a template -/

namespace LogArgument

/-- `ToString` of the argument does not throw. -/
def ReturnsNormally : LogArgument → Prop
  | .other _ render => ∃ text, render none = .ok text
  | _ => True

/-- What a placeholder shows of the argument. -/
def shown (a : LogArgument) : String :=
  match LogValuesFormatter.formatArgument a with
  | .other _ render => (render none).toOption.getD ""
  | a => a.toText

theorem render_formatArgument {a : LogArgument} (h : a.ReturnsNormally) (index : Nat) :
    CompositeFormat.render ⟨index, false, 0, none⟩ (LogValuesFormatter.formatArgument a) =
      .ok a.shown := by
  cases a with
  | other text render =>
    obtain ⟨shown, hshown⟩ := h
    simp [CompositeFormat.render, LogValuesFormatter.formatArgument, LogArgument.shown, hshown,
      Except.toOption]
  | _ => rfl

end LogArgument

namespace MessageTemplate

/-- The placeholders that there is a text for, each replaced by its text. -/
def fillFrom : List NamedPlaceholder → List String → List Char
  | p :: ps, text :: texts => p.front.map TextPiece.shown ++ text.toList ++ fillFrom ps texts
  | _, _ => []

/-- The message with the texts in its placeholders, in their order, and with single braces. -/
def fill (t : MessageTemplate) (texts : List String) : String :=
  String.ofList (fillFrom t.named texts ++ t.tail.map TextPiece.shown)

def names (t : MessageTemplate) : List String := t.named.map fun p => String.ofList p.name

end MessageTemplate

section

open CompositeFormat LogValuesFormatter

variable {args : List LogArgument}

theorem formatChars_textChars (pieces : List TextPiece) (rest : List Char) :
    formatChars args (textChars pieces ++ rest) =
      (pieces.map TextPiece.shown ++ ·) <$> formatChars args rest := by
  induction pieces with
  | nil => exact (id_map _).symm
  | cons piece pieces ih =>
    rw [textChars_cons, List.append_assoc]
    cases piece with
    | char c isPlain =>
      rw [TextPiece.chars, List.singleton_append, formatChars_char isPlain.1 isPlain.2, ih,
        Functor.map_map]
      rfl
    | openBraces =>
      rw [TextPiece.chars, List.cons_append, List.singleton_append, formatChars_open, ih,
        Functor.map_map]
      rfl
    | closeBraces =>
      rw [TextPiece.chars, List.cons_append, List.singleton_append, formatChars_close, ih,
        Functor.map_map]
      rfl

/-- The numbered placeholders show the values in their order. -/
theorem formatChars_numbered (ps : List NamedPlaceholder) {values : List LogArgument}
    (hvalues : ∀ a ∈ values, a.ReturnsNormally) (hle : ps.length ≤ values.length)
    (pre : List LogArgument) (rest : List Char) :
    formatChars (pre ++ values.map formatArgument)
        (numbered pre.length (ps.map NamedPlaceholder.found) ++ rest) =
      (MessageTemplate.fillFrom ps (values.map LogArgument.shown) ++ ·) <$>
        formatChars (pre ++ values.map formatArgument) rest := by
  induction ps generalizing pre values with
  | nil => exact (id_map _).symm
  | cons p ps ih =>
    cases values with
    | nil => cases hle
    | cons a values =>
      obtain ⟨ha, hvalues⟩ := List.forall_mem_cons.mp hvalues
      have hargument : (pre ++ formatArgument a :: values.map formatArgument)[pre.length]? =
          some (formatArgument a) := by
        simp
      have hchars : numbered pre.length ((p :: ps).map NamedPlaceholder.found) ++ rest =
          textChars p.front ++ '{' :: (Nat.toDigits 10 pre.length ++
            '}' :: (numbered (pre.length + 1) (ps.map NamedPlaceholder.found) ++ rest)) := by
        simp [numbered, NamedPlaceholder.found, Nat.toList_repr]
      have hrest := ih hvalues (Nat.le_of_succ_le_succ hle) (pre ++ [formatArgument a])
      rw [List.length_append, List.length_singleton, List.append_assoc, List.singleton_append]
        at hrest
      rw [List.map_cons, hchars, formatChars_textChars,
        formatChars_index hargument (LogArgument.render_formatArgument ha _), hrest,
        Functor.map_map, Functor.map_map]
      simp only [List.map_cons, MessageTemplate.fillFrom, List.append_assoc]

end

/-! ### Logging -/

/-- The message, the scope and the arguments of a call that a formatter is built for. -/
structure LogRequest where
  template : MessageTemplate
  scope : Option String
  args : List LogArgument
  /-- The scope fills the first placeholder. -/
  named_of_scope : scope.isSome = true → template.named ≠ []
  returnsNormally : ∀ a ∈ args, a.ReturnsNormally

namespace LogRequest

open CompositeFormat LogValuesFormatter

variable (r : LogRequest)

/-- What the placeholders are filled with. -/
def values : List LogArgument := (r.scope.map LogArgument.string).toList ++ r.args

/-- The number of placeholders. -/
def count : Nat := r.template.named.length

/-- The values without a placeholder. -/
def surplus : List LogArgument := r.values.drop r.count

/-- The arguments that the formatter lists. It skips as many as there are placeholders. -/
def listed : List LogArgument := r.args.drop r.count

def formatter : LogValuesFormatter := .new r.template.format r.args r.scope

def log : Except RuntimeException String := r.formatter.formatMessage r.args

/-- The text of arguments in the last warning. -/
def listing (args : List LogArgument) : String := ", ".intercalate (args.map LogArgument.toText)

/-- The warning for arguments without a placeholder, up to their list. -/
def surplusPrefix : String :=
  warning ++ "number of placeholders in the log message does not match the number of " ++
    "parameters. Argument values without placeholders: "

/-- The message is formatted, as it is meant to be if each value has a placeholder and each
    placeholder a value, and otherwise with a warning of the placeholders or the values left
    over. -/
def FormatsExactly : Prop :=
  ∃ text, r.log = .ok text ∧
    (r.values.length = r.count → text = r.template.fill (r.values.map LogArgument.shown)) ∧
    (r.values.length < r.count →
      ∃ message, text = message ++ mismatchWarning (r.template.names.drop r.values.length)) ∧
    (r.count < r.values.length →
      text = r.template.fill (r.values.map LogArgument.shown) ++
        (surplusPrefix ++ listing r.surplus))

/-! ### Scoped loggers -/

/-- Text in front of a template. -/
def prepend (pieces : List TextPiece) : MessageTemplate → MessageTemplate
  | ⟨[], tail⟩ => ⟨[], pieces ++ tail⟩
  | ⟨p :: ps, tail⟩ => ⟨{ p with front := pieces ++ p.front } :: ps, tail⟩

/-- A template as a scoped logger arranges it, with the scope in doubled braces in front. -/
def scopedTemplate (t : MessageTemplate) : MessageTemplate where
  named :=
    ⟨[.openBraces], "Scope".toList, by decide⟩ ::
      (prepend [.closeBraces, .char ' ' (by decide)] t).named
  tail := (prepend [.closeBraces, .char ' ' (by decide)] t).tail

theorem chars_prepend (pieces : List TextPiece) (t : MessageTemplate) :
    (prepend pieces t).chars = textChars pieces ++ t.chars := by
  have happend : ∀ pieces', textChars (pieces ++ pieces') = textChars pieces ++ textChars pieces' :=
    fun pieces' => List.flatMap_append
  obtain ⟨ps, tail⟩ := t
  cases ps with
  | nil => simp [prepend, MessageTemplate.chars, happend]
  | cons p ps => simp [prepend, MessageTemplate.chars, NamedPlaceholder.chars, happend]

theorem format_scopedTemplate (t : MessageTemplate) :
    (scopedTemplate t).format = ScopedLogger.template t.format := by
  have hchars : (scopedTemplate t).chars = "{{{Scope}}} ".toList ++ t.chars := by
    have hprepend := chars_prepend [.closeBraces, .char ' ' (by decide)] t
    rw [MessageTemplate.chars] at hprepend
    rw [scopedTemplate, MessageTemplate.chars, List.flatMap_cons, List.append_assoc, hprepend]
    rfl
  rw [MessageTemplate.format, hchars, String.ofList_append, String.ofList_toList]
  rfl

/-- A call of a scoped logger, with a formatter of its own. -/
def ofScoped (scope : String) (template : MessageTemplate) (args : List LogArgument)
    (returnsNormally : ∀ a ∈ args, a.ReturnsNormally) : LogRequest where
  template := scopedTemplate template
  scope := some scope
  args := args
  named_of_scope := fun _ => List.cons_ne_nil _ _
  returnsNormally := returnsNormally

/-- What a scoped logger logs of a call is what the request gives. -/
theorem log_ofScoped (scope : String) (template : MessageTemplate) {args : List LogArgument}
    (h : ∀ a ∈ args, a.ReturnsNormally) :
    (ofScoped scope template args h).log =
      (ScopedLogger.logFresh scope ⟨template.format, args⟩).text := by
  simp only [log, formatter, ofScoped, format_scopedTemplate, ScopedLogger.logFresh,
    ScopedLogger.newFormatter, LogValuesFormatter.log]

/-! ### The format -/

theorem returnsNormally_values : ∀ a ∈ r.values, a.ReturnsNormally := by
  intro a ha
  obtain ha | ha := List.mem_append.mp ha
  · obtain ⟨scope, -, rfl⟩ : ∃ scope, r.scope = some scope ∧ .string scope = a := by simpa using ha
    trivial
  · exact r.returnsNormally a ha

theorem length_values :
    r.values.length = if r.scope.isSome then r.args.length + 1 else r.args.length := by
  cases h : r.scope with
  | none => simp [values, h]
  | some scope => simp [values, h]

theorem log_eq : r.log = stringFormat r.formatter.format (r.values.map formatArgument) := by
  cases h : r.scope with
  | none => simp [log, formatMessage, formatter, LogValuesFormatter.new, values, h]
  | some scope =>
    simp [log, formatMessage, formatter, LogValuesFormatter.new, values, h, formatArgument]

theorem surplusWarning_of_ne {count expected : Nat} (h : count ≠ expected)
    (args : List LogArgument) :
    surplusWarning count expected args = surplusPrefix ++ listing (args.drop count) := by
  rw [surplusWarning, if_neg h]
  rfl

/-- The format if there are enough placeholders. -/
theorem format_of_le (h : r.values.length ≤ r.count) :
    r.formatter.format =
      String.ofList (numbered 0 ((r.template.named.take r.values.length).map
        NamedPlaceholder.found) ++ textChars r.template.tail) ++
          mismatchWarning (r.template.names.drop r.values.length) := by
  have hnamed : min r.values.length r.template.named.length = r.values.length := Nat.min_eq_left h
  have hsurplus : surplusWarning r.values.length r.values.length r.args = "" := if_pos rfl
  simp only [formatter, LogValuesFormatter.new, MessageTemplate.placeholders_format,
    ← r.length_values, List.length_map, List.length_take, hnamed, hsurplus,
    String.append_empty, List.map_take, List.map_drop, MessageTemplate.names, List.map_map]
  rfl

/-- The format if there are not. -/
theorem format_of_lt (h : r.count < r.values.length) :
    r.formatter.format =
      String.ofList (numbered 0 (r.template.named.map NamedPlaceholder.found) ++
        textChars r.template.tail) ++
          (surplusPrefix ++ listing r.listed) := by
  have hle : (r.template.named.map NamedPlaceholder.found).length ≤ r.values.length := by
    rw [List.length_map]
    exact h.le
  have hmismatch : mismatchWarning [] = "" := if_pos rfl
  have hsurplus : surplusWarning r.template.named.length r.values.length r.args =
      surplusPrefix ++ listing r.listed := surplusWarning_of_ne h.ne r.args
  simp only [formatter, LogValuesFormatter.new, MessageTemplate.placeholders_format,
    ← r.length_values, List.take_of_length_le hle, List.drop_of_length_le hle, List.length_map,
    List.map_nil, hmismatch, String.append_empty, hsurplus]

/-! ### What is logged -/

theorem isPlain_intercalate {texts : List String} (h : ∀ text ∈ texts, IsPlain text.toList) :
    IsPlain (", ".intercalate texts).toList := by
  induction texts with
  | nil => exact fun _ hc => nomatch hc
  | cons text texts ih =>
    obtain ⟨htext, htexts⟩ := List.forall_mem_cons.mp h
    by_cases hnil : texts = []
    · rw [hnil, String.intercalate_singleton]
      exact htext
    · have hseparator : IsPlain ", ".toList := by decide
      rw [String.intercalate_cons_of_ne_nil hnil, String.toList_append, String.toList_append]
      exact (htext.append hseparator).append (ih htexts)

theorem isPlain_warning : IsPlain warning.toList := by decide +kernel

theorem isPlain_surplusPrefix : IsPlain surplusPrefix.toList := by
  have hcount : IsPlain
      "number of placeholders in the log message does not match the number of ".toList := by
    decide +kernel
  have hsurplus : IsPlain "parameters. Argument values without placeholders: ".toList := by
    decide +kernel
  unfold surplusPrefix
  simp only [String.toList_append]
  exact (isPlain_warning.append hcount).append hsurplus

/-- A name has no braces, and neither has the warning. -/
theorem isPlain_mismatchWarning (t : MessageTemplate) (count : Nat) :
    IsPlain (mismatchWarning (t.names.drop count)).toList := by
  have hnames : ∀ name ∈ t.names.drop count, IsPlain name.toList := by
    intro name hname
    obtain ⟨p, -, rfl⟩ := List.mem_map.mp (List.mem_of_mem_drop hname)
    rw [String.toList_ofList]
    exact fun c hc => (p.isName c hc).1
  have hcount : IsPlain
      "number of arguments is not matching the number of placeholders, ".toList := by decide +kernel
  have hmissing : IsPlain "placeholders with missing values: ".toList := by decide +kernel
  unfold mismatchWarning
  split
  · exact fun _ hc => nomatch hc
  · simp only [String.toList_append]
    exact ((isPlain_warning.append hcount).append hmissing).append (isPlain_intercalate hnames)

theorem fillFrom_take (ps : List NamedPlaceholder) (texts : List String) :
    MessageTemplate.fillFrom (ps.take texts.length) texts =
      MessageTemplate.fillFrom ps texts := by
  induction texts generalizing ps with
  | nil => cases ps <;> rfl
  | cons text texts ih =>
    cases ps with
    | nil => rfl
    | cons p ps => rw [List.length_cons, List.take_succ_cons, MessageTemplate.fillFrom, ih,
        MessageTemplate.fillFrom]

/-- The part of a format that the placeholders and the text between them make up. -/
theorem formatChars_numbered_take (rest : List Char) :
    formatChars (r.values.map formatArgument)
        (numbered 0 ((r.template.named.take r.values.length).map NamedPlaceholder.found) ++
          (textChars r.template.tail ++ rest)) =
      ((r.template.fill (r.values.map LogArgument.shown)).toList ++ ·) <$>
        formatChars (r.values.map formatArgument) rest := by
  have hle : (r.template.named.take r.values.length).length ≤ r.values.length :=
    List.length_take_le _ _
  have htake : MessageTemplate.fillFrom (r.template.named.take r.values.length)
      (r.values.map LogArgument.shown) =
        MessageTemplate.fillFrom r.template.named (r.values.map LogArgument.shown) := by
    simpa using fillFrom_take r.template.named (r.values.map LogArgument.shown)
  have hnumbered := formatChars_numbered _ r.returnsNormally_values hle []
    (textChars r.template.tail ++ rest)
  rw [List.nil_append, List.length_nil] at hnumbered
  rw [hnumbered, htake, formatChars_textChars, Functor.map_map, MessageTemplate.fill]
  simp only [String.toList_ofList, List.append_assoc]

theorem log_of_le (h : r.values.length ≤ r.count) :
    r.log = .ok (r.template.fill (r.values.map LogArgument.shown) ++
      mismatchWarning (r.template.names.drop r.values.length)) := by
  have hplain := isPlain_mismatchWarning r.template r.values.length
  rw [log_eq, stringFormat_eq, r.format_of_le h, String.toList_append, String.toList_ofList,
    List.append_assoc, formatChars_numbered_take, formatChars_of_isPlain hplain]
  exact congrArg Except.ok (by simp)

theorem log_of_lt (h : r.count < r.values.length) :
    r.log = (r.template.fill (r.values.map LogArgument.shown) ++ surplusPrefix ++ ·) <$>
      stringFormat (listing r.listed) (r.values.map formatArgument) := by
  have htake : r.template.named.take r.values.length = r.template.named :=
    List.take_of_length_le h.le
  have happend : ∀ cs : List Char, String.ofList
      ((r.template.fill (r.values.map LogArgument.shown)).toList ++
        (surplusPrefix.toList ++ cs)) =
      r.template.fill (r.values.map LogArgument.shown) ++ surplusPrefix ++ String.ofList cs := by
    intro cs
    rw [String.ofList_append, String.ofList_append, String.ofList_toList, String.ofList_toList,
      String.append_assoc]
  rw [log_eq, stringFormat_eq, r.format_of_lt h, String.toList_append, String.toList_ofList,
    List.append_assoc, ← htake, formatChars_numbered_take, String.toList_append,
    formatChars_plain isPlain_surplusPrefix, stringFormat_eq]
  simp only [Functor.map_map, happend]

/-! ### When it is right -/

/-- The arguments that are listed have no braces, and there is no scope for which one is skipped,
    unless this is the only one and has no text. -/
def ShowsSurplus : Prop :=
  (∀ a ∈ r.listed, IsPlain a.toText.toList) ∧
    (r.scope = none ∨ r.surplus.map LogArgument.toText = [""])

theorem formatsExactly_of_le (h : r.values.length ≤ r.count) : r.FormatsExactly := by
  refine ⟨_, r.log_of_le h, fun hcount => ?_, fun _ => ⟨_, rfl⟩, fun hlt => absurd hlt h.not_gt⟩
  have hnames : r.template.names.drop r.values.length = [] := by
    rw [List.drop_eq_nil_iff, MessageTemplate.names, List.length_map, hcount, count]
  rw [hnames]
  exact String.append_empty

theorem formatsExactly_iff_of_lt (h : r.count < r.values.length) :
    r.FormatsExactly ↔
      stringFormat (listing r.listed) (r.values.map formatArgument) = .ok (listing r.surplus) := by
  rw [FormatsExactly, r.log_of_lt h]
  constructor
  · rintro ⟨text, hlog, -, -, hsurplus⟩
    cases hlisted : stringFormat (listing r.listed) (r.values.map formatArgument) with
    | error e =>
      rw [hlisted] at hlog
      cases hlog
    | ok listed =>
      rw [hlisted] at hlog
      have htext := (Except.ok.inj hlog).trans (hsurplus h)
      rw [← String.append_assoc, String.append_right_inj] at htext
      rw [htext]
  · intro hlisted
    rw [hlisted]
    exact ⟨_, rfl, fun hcount => absurd hcount h.ne', fun hlt => absurd hlt h.not_gt,
      fun _ => String.append_assoc⟩

/-- A list without its first argument is another one, unless the argument is alone and has no
    text. -/
theorem listing_eq_cons_iff {a : LogArgument} {args : List LogArgument} :
    listing args = listing (a :: args) ↔ (a :: args).map LogArgument.toText = [""] := by
  unfold listing
  cases args with
  | nil =>
    rw [List.map_nil, List.map_cons, List.map_nil, String.intercalate_nil,
      String.intercalate_singleton, List.singleton_inj]
    exact eq_comm
  | cons b args =>
    refine iff_of_false (fun h => ?_) (by simp)
    have hcons : (a :: b :: args).map LogArgument.toText =
        a.toText :: (b :: args).map LogArgument.toText := rfl
    have hseparator : ", ".length = 2 := rfl
    have hlength := congrArg String.length h
    rw [hcons, String.intercalate_cons_of_ne_nil (by simp), String.length_append,
      String.length_append] at hlength
    omega

/-- The formatter skips one argument too many if there is a scope. -/
theorem listing_eq_iff (h : r.count < r.values.length) :
    listing r.listed = listing r.surplus ↔
      r.scope = none ∨ r.surplus.map LogArgument.toText = [""] := by
  unfold listed surplus
  cases hscope : r.scope with
  | none =>
    have hvalues : r.values = r.args := by simp [values, hscope]
    rw [hvalues]
    exact iff_of_true rfl (.inl rfl)
  | some scope =>
    have hvalues : r.values = .string scope :: r.args := by simp [values, hscope]
    have hnamed : r.template.named ≠ [] := r.named_of_scope (by simp [hscope])
    obtain ⟨n, hcount⟩ : ∃ n, r.count = n + 1 :=
      Nat.exists_eq_succ_of_ne_zero (List.length_pos_iff.mpr hnamed).ne'
    rw [hvalues, hcount, List.length_cons] at h
    have hdrop : r.args.drop n = r.args[n] :: r.args.drop (n + 1) :=
      List.drop_eq_getElem_cons (Nat.lt_of_succ_lt_succ h)
    rw [hvalues, hcount, List.drop_succ_cons, hdrop, listing_eq_cons_iff]
    simp

/-- Without a brace in what is listed, only the argument that is skipped can be missing. -/
theorem formatsExactly_iff_of_isPlain (hlt : r.count < r.values.length)
    (h : ∀ a ∈ r.listed, IsPlain a.toText.toList) : r.FormatsExactly ↔ r.ShowsSurplus := by
  have hlisting : IsPlain (listing r.listed).toList :=
    isPlain_intercalate (List.forall_mem_map.mpr h)
  rw [r.formatsExactly_iff_of_lt hlt, stringFormat_of_isPlain hlisting, Except.ok.injEq,
    r.listing_eq_iff hlt, ShowsSurplus, and_iff_right h]

/-- A call is formatted exactly if there are not more values than placeholders, or the surplus is
    shown; and where no listed argument has a brace, only then. -/
theorem formatsExactly_of_showsSurplus :
    (r.values.length ≤ r.count ∨ r.ShowsSurplus → r.FormatsExactly) ∧
      ((∀ a ∈ r.listed, IsPlain a.toText.toList) →
        (r.FormatsExactly ↔ r.values.length ≤ r.count ∨ r.ShowsSurplus)) := by
  rcases Nat.lt_or_ge r.count r.values.length with hlt | hle
  · rw [or_iff_right hlt.not_ge]
    refine ⟨fun h => ?_, fun hplain => r.formatsExactly_iff_of_isPlain hlt hplain⟩
    exact (r.formatsExactly_iff_of_isPlain hlt h.1).mpr h
  · have hexact := r.formatsExactly_of_le hle
    exact ⟨fun _ => hexact, fun _ => iff_of_true hexact (.inl hle)⟩

/-- A message without placeholders that gets a string. -/
def ok (text : String) : LogRequest where
  template := ⟨[], [.char 'O' (by decide), .char 'K' (by decide)]⟩
  scope := none
  args := [.string text]
  named_of_scope h := nomatch h
  returnsNormally := by
    intro a ha
    obtain rfl := List.mem_singleton.mp ha
    trivial

/-- A string without a brace is listed. -/
theorem formatsExactly_of_showsSurplus_ok : (ok "done").FormatsExactly := by
  have hshows : (ok "done").ShowsSurplus := by
    refine ⟨?_, .inl rfl⟩
    intro a ha
    obtain rfl := List.mem_singleton.mp ha
    decide
  exact (ok "done").formatsExactly_of_showsSurplus.1 (.inr hshows)

/-- A message without placeholders, and a brace for its argument. -/
theorem formatsExactly_counterexample : ¬ ∀ r : LogRequest, r.FormatsExactly := by
  intro h
  let r := LogRequest.ok "\x7b"
  have herror : stringFormat "\x7b" [.string "\x7b"] = .error (.other "FormatException") := by
    decide +kernel
  have hlog : r.log = _ <$> stringFormat "\x7b" [.string "\x7b"] := r.log_of_lt Nat.one_pos
  obtain ⟨text, htext, -⟩ := h r
  rw [hlog, herror] at htext
  cases htext

end LogRequest

end ApmAgent
