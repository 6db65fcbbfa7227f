import ApmAgent.Helpers.Numbers
import ApmAgent.Helpers.Utf16

/-! # LogValuesFormatter

  Structured log messages: the placeholders `{Name}` of a message are numbered,
  so that `string.Format` can fill them in, and their names are the keys of the
  structured state. How many placeholders get a number depends on the number
  of arguments the formatter is built for, and the values of arguments without
  a placeholder become part of the format.
-/

namespace ApmAgent

/-- An argument of a log call, by what the formatter asks of it. -/
inductive LogArgument where
  | null
  | string (s : String)
  /-- Any other `IEnumerable`: `ToString` of it, and of its items, which may be null. -/
  | enumerable (text : String) (items : List (Option String))
  /-- Any other object: `ToString`, and how `string.Format` renders it with a format string; it
      may throw. -/
  | other (text : String) (render : Option String → Except RuntimeException String)

/-- What `string.Join` takes of an argument. -/
def LogArgument.toText : LogArgument → String
  | .null => ""
  | .string s => s
  | .enumerable text _ => text
  | .other text _ => text

/-! ### `string.Format` -/

namespace CompositeFormat

/-- What is between the braces of a format item; the runtime's bounds on the numbers are left
    out. -/
structure Item where
  index : Nat
  leftJustify : Bool
  width : Nat
  format : Option String

/-- Digits, which must be there, and the blanks behind them. -/
def readNumber (cs : List Char) : Except RuntimeException (Nat × List Char) :=
  let digits := cs.takeWhile Char.isDigit
  if digits = [] then .error (.other "FormatException")
  else .ok (digitsValue digits, (cs.dropWhile Char.isDigit).dropWhile (· = ' '))

/-- The alignment of an item. -/
def readAlignment : List Char → Except RuntimeException (Bool × Nat × List Char)
  | ',' :: cs => do
    let cs := cs.dropWhile (· = ' ')
    let leftJustify := cs.head? = some '-'
    let (width, cs) ← readNumber (if leftJustify then cs.tail else cs)
    pure (leftJustify, width, cs)
  | cs => pure (false, 0, cs)

/-- An item, from behind its opening brace to its closing one, and what follows. -/
def readItem (cs : List Char) : Except RuntimeException (Item × List Char) := do
  let (index, cs) ← readNumber cs
  let (leftJustify, width, cs) ← readAlignment cs
  match cs with
  | '}' :: cs => pure (⟨index, leftJustify, width, none⟩, cs)
  | ':' :: cs =>
    match cs.dropWhile fun c => c ≠ '}' && c ≠ '{' with
    | '}' :: rest =>
      let format := cs.takeWhile fun c => c ≠ '}' && c ≠ '{'
      pure (⟨index, leftJustify, width, some (String.ofList format)⟩, rest)
    | _ => .error (.other "FormatException")
  | _ => .error (.other "FormatException")

def pad (item : Item) (text : String) : List Char :=
  let blanks := List.replicate (item.width - stringLength text) ' '
  if item.leftJustify then text.toList ++ blanks else blanks ++ text.toList

/-- An argument as an item shows it. -/
def render (item : Item) : LogArgument → Except RuntimeException String
  | .other _ render => render item.format
  | argument => .ok argument.toText

/-- The loop of `string.Format`; `remaining` bounds the length of the format. -/
def formatFrom (args : List LogArgument) :
    Nat → List Char → Except RuntimeException (List Char)
  | _, [] => .ok []
  | 0, _ => .error (.other "FormatException")
  | remaining + 1, '{' :: '{' :: cs => do pure ('{' :: (← formatFrom args remaining cs))
  | remaining + 1, '}' :: '}' :: cs => do pure ('}' :: (← formatFrom args remaining cs))
  | remaining + 1, '{' :: cs => do
    let (item, cs) ← readItem cs
    match args[item.index]? with
    | none => .error (.other "FormatException")
    | some argument => do
      let text ← render item argument
      pure (pad item text ++ (← formatFrom args remaining cs))
  | _ + 1, '}' :: _ => .error (.other "FormatException")
  | remaining + 1, c :: cs => do pure (c :: (← formatFrom args remaining cs))

end CompositeFormat

/-- `string.Format(CultureInfo.InvariantCulture, format, args)`. -/
def stringFormat (format : String) (args : List LogArgument) :
    Except RuntimeException String :=
  (CompositeFormat.formatFrom args format.length format.toList).map String.ofList

/-! ### Placeholders -/

/-- The loop of `FindBraceIndex` from index `scanIndex` on. -/
def findBraceFrom (brace : Char) (endIndex : Nat) : List Char → Nat → Nat → Nat → Nat
  | [], _, braceIndex, _ => braceIndex
  | c :: cs, scanIndex, braceIndex, braceOccurenceCount =>
    if 0 < braceOccurenceCount && c ≠ brace then
      if braceOccurenceCount % 2 = 0 then
        -- Escaped braces: the search goes on behind this character.
        findBraceFrom brace endIndex cs (scanIndex + 1) endIndex 0
      else braceIndex
    else if c = brace then
      -- Of several `}` the first one counts, of several `{` the last one.
      findBraceFrom brace endIndex cs (scanIndex + 1)
        (if brace = '}' && braceOccurenceCount ≠ 0 then braceIndex else scanIndex)
        (braceOccurenceCount + 1)
    else findBraceFrom brace endIndex cs (scanIndex + 1) braceIndex braceOccurenceCount

/-- `FindBraceIndex` up to the end of the text. -/
def findBraceIndex (format : List Char) (brace : Char) (startIndex : Nat) : Nat :=
  findBraceFrom brace format.length (format.drop startIndex) startIndex format.length 0

/-- A placeholder with the text before it. -/
structure Placeholder where
  /-- Up to and with the opening brace. -/
  before : List Char
  name : List Char
  /-- From the alignment or the format string to the closing brace. -/
  after : List Char
  deriving DecidableEq, Repr

/-- What one turn of the constructor's loop finds from the current index on: a placeholder and
    the text behind it, or that there is none. -/
def nextPlaceholder (format : List Char) : Option (Placeholder × List Char) :=
  let openBraceIndex := findBraceIndex format '{' 0
  let closeBraceIndex := findBraceIndex format '}' openBraceIndex
  if closeBraceIndex = format.length then none
  else
    let item := (format.take closeBraceIndex).drop openBraceIndex
    let isDelimiter (c : Char) : Bool := c = ',' || c = ':'
    some
      ({ before := format.take (openBraceIndex + 1)
         name := (item.takeWhile (!isDelimiter ·)).drop 1
         after :=
          (item.dropWhile (!isDelimiter ·)) ++ (format.drop closeBraceIndex).take 1 },
        format.drop (closeBraceIndex + 1))

/-- All placeholders from the current index on, and the text behind the last one; `remaining`
    bounds the length of the text. -/
def placeholdersFrom : Nat → List Char → List Placeholder × List Char
  | 0, format => ([], format)
  | remaining + 1, format =>
    match nextPlaceholder format with
    | none => ([], format)
    | some (placeholder, rest) =>
      let (placeholders, text) := placeholdersFrom remaining rest
      (placeholder :: placeholders, text)

def placeholders (format : String) : List Placeholder × List Char :=
  placeholdersFrom format.length format.toList

/-! ### The formatter -/

structure LogValuesFormatter where
  originalFormat : String
  valueNames : List String
  /-- `_format`. -/
  format : String
  /-- `_scope`. -/
  scope : Option String
  deriving DecidableEq

namespace LogValuesFormatter

/-- `NullValue`. -/
def nullValue : String := "(null)"

/-- How both warnings begin. -/
def warning : String :=
  " Warning: This line is from an invalid structured log which should be fixed and may not be complete: "

/-- The text of the numbered placeholders. -/
def numbered : Nat → List Placeholder → List Char
  | _, [] => []
  | i, p :: ps => p.before ++ (toString i).toList ++ p.after ++ numbered (i + 1) ps

/-- The warning for placeholders without a value. -/
def mismatchWarning (names : List String) : String :=
  if names = [] then ""
  else
    warning ++ "number of arguments is not matching the number of placeholders, " ++
      "placeholders with missing values: " ++ ", ".intercalate names

/-- The warning for a number of arguments other than the number of names. -/
def surplusWarning (names expectedNumberOfArgs : Nat) (args : List LogArgument) : String :=
  if names = expectedNumberOfArgs then ""
  else
    warning ++ "number of placeholders in the log message does not match the number of " ++
      "parameters. Argument values without placeholders: " ++
      -- Skipped are as many arguments as there are names, the scope's among them.
      ", ".intercalate ((args.drop names).map (·.toText))

/-- The constructor. -/
def new (format : String) (args : List LogArgument) (scope : Option String) :
    LogValuesFormatter :=
  let (found, text) := placeholders format
  let expectedNumberOfArgs := if scope.isSome then args.length + 1 else args.length
  -- The placeholders beyond the expected number vanish, with the text before them.
  let named := found.take expectedNumberOfArgs
  let mismatched := (found.drop expectedNumberOfArgs).map fun p => String.ofList p.name
  { originalFormat := format
    valueNames := named.map fun p => String.ofList p.name
    format :=
      String.ofList (numbered 0 named ++ text) ++ mismatchWarning mismatched ++
        surplusWarning named.length expectedNumberOfArgs args
    scope := scope }

/-- `FormatArgument`. -/
def formatArgument : LogArgument → LogArgument
  | .null => .string nullValue
  | .string s => .string s
  | .enumerable _ items => .string (", ".intercalate (items.map (·.getD nullValue)))
  | .other text render => .other text render

/-- `Format`. -/
def formatMessage (f : LogValuesFormatter) (values : List LogArgument) :
    Except RuntimeException String :=
  stringFormat f.format
    ((f.scope.map LogArgument.string).toList ++ values.map formatArgument)

/-- The values of `GetState` in their places: the name of a value, and none where the formatter
    has no name for it. -/
def namedValues : List String → List LogArgument → List (Option (String × LogArgument))
  | _, [] => []
  | [], _ :: values => none :: namedValues [] values
  | name :: names, value :: values => some (name, value) :: namedValues names values

/-- `GetState`. A value without a name leaves a pair of nulls. -/
def getState (f : LogValuesFormatter) (values : List LogArgument) :
    List (Option (String × LogArgument)) :=
  some ("{OriginalFormat}", .string f.originalFormat) ::
    match f.scope with
    | none => namedValues f.valueNames values
    -- The first name is the one of the scope's placeholder.
    | some scope => some ("Scope", .string scope) :: namedValues (f.valueNames.drop 1) values

end LogValuesFormatter

end ApmAgent
