import ApmAgent.Framework.LazyInit
import ApmAgent.Logging.LogValuesFormatter
import Mathlib.Logic.Function.Basic

/-! # ScopedLogger

  A scoped logger builds one formatter for each message it is called with, from
  the arguments of the first call, and uses it for all later ones.

  `usesOwnFormatter_iff` says in which sequences of calls every call meets the
  formatter that would be built for it.
-/

namespace ApmAgent

namespace LogValuesFormatter

/-! ### Formatters for different arguments -/

/-- The arguments have the same number, or both exceed the `count` placeholders, and those
    without a placeholder have the same text. -/
def Alike (count : Nat) (args args' : List LogArgument) : Prop :=
  (args.length = args'.length ∨ count ≤ args.length ∧ count ≤ args'.length) ∧
    ", ".intercalate ((args.drop count).map (·.toText)) =
      ", ".intercalate ((args'.drop count).map (·.toText))

variable {format scope : String} {args args' : List LogArgument}

/-- How many of the placeholders get a number. -/
theorem new_valueNames_length (format scope : String) (args : List LogArgument) :
    (new format args (some scope)).valueNames.length =
      min (args.length + 1) (placeholders format).1.length := by
  simp [new]

/-- A formatter built for fewer arguments than there are placeholders. -/
theorem new_of_lt (h : args.length < (placeholders format).1.length) :
    new format args (some scope) =
      { originalFormat := format
        valueNames :=
          ((placeholders format).1.take (args.length + 1)).map fun p => String.ofList p.name
        format :=
          String.ofList (numbered 0 ((placeholders format).1.take (args.length + 1)) ++
              (placeholders format).2) ++
            mismatchWarning (((placeholders format).1.drop (args.length + 1)).map
              fun p => String.ofList p.name)
        scope := some scope } := by
  simp [new, surplusWarning, Nat.min_eq_left (Nat.succ_le_of_lt h)]

/-- A formatter built for at least as many arguments as there are placeholders. -/
theorem new_of_le (h : (placeholders format).1.length ≤ args.length) :
    new format args (some scope) =
      { originalFormat := format
        valueNames := (placeholders format).1.map fun p => String.ofList p.name
        format :=
          String.ofList (numbered 0 (placeholders format).1 ++ (placeholders format).2) ++
            (warning ++ "number of placeholders in the log message does not match the number of " ++
              "parameters. Argument values without placeholders: " ++
              ", ".intercalate ((args.drop (placeholders format).1.length).map (·.toText)))
        scope := some scope } := by
  have htake : (placeholders format).1.take (args.length + 1) = (placeholders format).1 :=
    List.take_of_length_le (by omega)
  have hdrop : (placeholders format).1.drop (args.length + 1) = [] :=
    List.drop_of_length_le (by omega)
  have hne : (placeholders format).1.length ≠ args.length + 1 := by omega
  simp [new, htake, hdrop, hne, mismatchWarning, surplusWarning]

/-- Two formatters of one message are the same exactly if they were built for alike arguments. -/
theorem new_eq_iff :
    new format args (some scope) = new format args' (some scope) ↔
      Alike (placeholders format).1.length args args' := by
  -- A formatter with the last warning is not one without it, though both number every
  -- placeholder.
  have hmixed : ∀ {as bs : List LogArgument}, as.length < (placeholders format).1.length →
      (placeholders format).1.length ≤ bs.length →
      new format as (some scope) ≠ new format bs (some scope) := by
    intro as bs hlt hle heq
    have hcount := congrArg (fun f => f.valueNames.length) heq
    simp only [new_valueNames_length] at hcount
    have hall : as.length + 1 = (placeholders format).1.length := by omega
    have hformat := congrArg (fun f => f.format.length) heq
    rw [new_of_lt hlt, new_of_le hle] at hformat
    have hwarning : 0 < warning.length := by decide
    simp only [hall, List.take_length, List.drop_length, List.map_nil, mismatchWarning,
      if_pos, String.length_append, String.length_empty] at hformat
    omega
  rcases Nat.lt_or_ge args.length (placeholders format).1.length with hlt | hle
  · rcases Nat.lt_or_ge args'.length (placeholders format).1.length with hlt' | hle'
    · have hdrop : args.drop (placeholders format).1.length = [] :=
        List.drop_of_length_le hlt.le
      have hdrop' : args'.drop (placeholders format).1.length = [] :=
        List.drop_of_length_le hlt'.le
      constructor
      · intro heq
        have hcount := congrArg (fun f => f.valueNames.length) heq
        simp only [new_valueNames_length] at hcount
        exact ⟨.inl (by omega), by rw [hdrop, hdrop']⟩
      · rintro ⟨hlength | hboth, -⟩
        · rw [new_of_lt hlt, new_of_lt hlt', hlength]
        · omega
    · refine ⟨fun heq => absurd heq (hmixed hlt hle'), ?_⟩
      rintro ⟨hlength | hboth, -⟩ <;> omega
  · rcases Nat.lt_or_ge args'.length (placeholders format).1.length with hlt' | hle'
    · refine ⟨fun heq => absurd heq.symm (hmixed hlt' hle), ?_⟩
      rintro ⟨hlength | hboth, -⟩ <;> omega
    · rw [new_of_le hle, new_of_le hle']
      constructor
      · intro heq
        have hformat := congrArg (fun f => f.format.toList) heq
        simp only [String.toList_append, List.append_cancel_left_eq, String.toList_inj]
          at hformat
        exact ⟨.inr ⟨hle, hle'⟩, hformat⟩
      · rintro ⟨-, htext⟩
        rw [htext]

end LogValuesFormatter

/-! ### The logger -/

/-- `ScopedLogger`. -/
structure ScopedLogger where
  scope : String
  /-- `Formatters`, which a message is added to by its first call. -/
  formatters : String → LazyInit LogValuesFormatter

/-- A call of one of the extension methods, for a level that is enabled. -/
structure LogCall where
  message : String
  args : List LogArgument

/-- What is passed to the underlying logger. -/
structure Logged where
  state : List (Option (String × LogArgument))
  text : Except RuntimeException String

/-- What a formatter makes of a call's arguments. -/
def LogValuesFormatter.log (f : LogValuesFormatter) (args : List LogArgument) : Logged where
  state := f.getState args
  text := f.formatMessage args

namespace ScopedLogger

def new (scope : String) : ScopedLogger where
  scope := scope
  formatters _ := ⟨none⟩

/-- The format of a message, with the scope in front. -/
def template (message : String) : String := "{{{Scope}}} " ++ message

/-- The formatter that is built for a call. -/
def newFormatter (scope : String) (call : LogCall) : LogValuesFormatter :=
  .new (template call.message) call.args (some scope)

/-- `GetOrAddFormatter`. -/
def getOrAddFormatter (l : ScopedLogger) (call : LogCall) : LogValuesFormatter × ScopedLogger :=
  let (formatter, cell) := (l.formatters call.message).initOrGet (newFormatter l.scope call)
  (formatter, { l with formatters := Function.update l.formatters call.message cell })

/-- `DoLog`. -/
def doLog (l : ScopedLogger) (call : LogCall) : Logged × ScopedLogger :=
  let (formatter, l) := l.getOrAddFormatter call
  (formatter.log call.args, l)

/-- The calls of a program, one after the other. -/
def logAll : ScopedLogger → List LogCall → List Logged
  | _, [] => []
  | l, call :: calls => (l.doLog call).1 :: logAll (l.doLog call).2 calls

/-! ### Which formatter a call meets -/

/-- Two calls that a logger may serve with one formatter. -/
def Alike (c d : LogCall) : Prop :=
  c.message = d.message →
    LogValuesFormatter.Alike (placeholders (template c.message)).1.length c.args d.args

/-- Every call meets the formatter that would be built for it. -/
def UsesOwnFormatter : ScopedLogger → List LogCall → Prop
  | _, [] => True
  | l, call :: calls =>
    (l.getOrAddFormatter call).1 = newFormatter l.scope call ∧
      UsesOwnFormatter (l.getOrAddFormatter call).2 calls

theorem alike_iff (scope : String) {c d : LogCall} (h : c.message = d.message) :
    Alike c d ↔ newFormatter scope c = newFormatter scope d := by
  unfold Alike newFormatter
  rw [← h, LogValuesFormatter.new_eq_iff]
  exact ⟨fun halike => halike rfl, fun halike _ => halike⟩

/-- After a call that has met its own formatter, a later one meets its own exactly if the two are
    alike. -/
theorem holds_after_iff {l : ScopedLogger} {c d : LogCall}
    (hc : (l.formatters c.message).Holds (newFormatter l.scope c)) :
    ((l.getOrAddFormatter c).2.formatters d.message).Holds (newFormatter l.scope d) ↔
      (l.formatters d.message).Holds (newFormatter l.scope d) ∧ Alike c d := by
  by_cases hmessage : c.message = d.message
  · have hcell : ((l.getOrAddFormatter c).2.formatters d.message).value? =
        some (newFormatter l.scope c) := by
      rw [← hmessage]
      simp only [getOrAddFormatter, Function.update_self, LazyInit.initOrGet_snd_value?]
      cases hvalue : (l.formatters c.message).value? with
      | none => rfl
      | some f => exact congrArg some (hc f hvalue)
    rw [alike_iff l.scope hmessage, ← hmessage]
    constructor
    · intro hholds
      have heq := hholds _ (hmessage ▸ hcell)
      exact ⟨heq ▸ hc, heq⟩
    · rintro ⟨-, heq⟩ f hf
      rw [hmessage, hcell] at hf
      rw [← heq]
      exact (Option.some.inj hf).symm
  · have hcell : (l.getOrAddFormatter c).2.formatters d.message = l.formatters d.message :=
      Function.update_of_ne (Ne.symm hmessage) _ _
    have halike : Alike c d := fun h => absurd h hmessage
    rw [hcell]
    exact ⟨fun h => ⟨h, halike⟩, fun h => h.1⟩

theorem getOrAddFormatter_eq_iff {l : ScopedLogger} {c : LogCall} :
    (l.getOrAddFormatter c).1 = newFormatter l.scope c ↔
      (l.formatters c.message).Holds (newFormatter l.scope c) := by
  constructor
  · intro h f hf
    simp only [getOrAddFormatter, LazyInit.initOrGet, hf, Option.getD_some] at h
    exact h
  · intro h
    exact h.initOrGet_fst

/-- Every call meets its own formatter exactly if the calls with one message are alike. -/
theorem usesOwnFormatter_iff (l : ScopedLogger) (calls : List LogCall) :
    l.UsesOwnFormatter calls ↔
      (∀ c ∈ calls, (l.formatters c.message).Holds (newFormatter l.scope c)) ∧
        calls.Pairwise Alike := by
  -- After the first call its formatter stands for all later calls with its message.
  induction calls generalizing l with
  | nil => simp [UsesOwnFormatter]
  | cons c calls ih =>
    have hscope : (l.getOrAddFormatter c).2.scope = l.scope := rfl
    rw [UsesOwnFormatter, getOrAddFormatter_eq_iff, ih, hscope, List.pairwise_cons,
      List.forall_mem_cons]
    constructor
    · rintro ⟨hc, hrest, halike⟩
      have hboth := fun d hd => (holds_after_iff hc).mp (hrest d hd)
      exact ⟨⟨hc, fun d hd => (hboth d hd).1⟩, fun d hd => (hboth d hd).2, halike⟩
    · rintro ⟨⟨hc, hrest⟩, hfirst, halike⟩
      exact ⟨hc, fun d hd => (holds_after_iff hc).mpr ⟨hrest d hd, hfirst d hd⟩, halike⟩

/-- What a call is logged as when its formatter was built for it alone. -/
def logFresh (scope : String) (call : LogCall) : Logged :=
  (newFormatter scope call).log call.args

theorem UsesOwnFormatter.logAll_eq {l : ScopedLogger} {calls : List LogCall}
    (h : l.UsesOwnFormatter calls) : l.logAll calls = calls.map (logFresh l.scope) := by
  induction calls generalizing l with
  | nil => rfl
  | cons c calls ih =>
    obtain ⟨hc, hrest⟩ := h
    have hlog : (l.doLog c).1 = logFresh l.scope c :=
      congrArg (fun f => LogValuesFormatter.log f c.args) hc
    have hcalls : (l.doLog c).2.logAll calls = calls.map (logFresh l.scope) := ih hrest
    rw [logAll, hlog, hcalls, List.map_cons]

/-- In every sequence of calls in which the calls with one message are alike, each call logs
    what a formatter of its own would. -/
theorem logAll_eq_fresh (scope : String) (calls : List LogCall) (h : calls.Pairwise Alike) :
    (new scope).logAll calls = calls.map (logFresh scope) := by
  have huses : (new scope).UsesOwnFormatter calls :=
    (usesOwnFormatter_iff _ _).mpr ⟨fun c _ => LazyInit.holds_empty _, h⟩
  exact huses.logAll_eq

/-- Two calls with the message and one argument each. -/
theorem logAll_eq_fresh_twoNames :
    (new "Span").logAll
        [⟨"Ended {Name}", [.string "SELECT"]⟩, ⟨"Ended {Name}", [.string "GET /"]⟩] =
      [logFresh "Span" ⟨"Ended {Name}", [.string "SELECT"]⟩,
        logFresh "Span" ⟨"Ended {Name}", [.string "GET /"]⟩] :=
  logAll_eq_fresh "Span" _ (by
    refine List.pairwise_pair.mpr fun _ => ⟨.inl rfl, ?_⟩
    decide +kernel)

/-- A call with both values, after one that had only one, logs the second value without its
    name. -/
theorem logAll_eq_fresh_counterexample :
    ¬ ∀ (scope : String) (calls : List LogCall),
      (new scope).logAll calls = calls.map (logFresh scope) := by
  intro h
  have hlog := h "Span" [⟨"{A} of {B}", [.string "1"]⟩,
    ⟨"{A} of {B}", [.string "2", .string "3"]⟩]
  have hnames := congrArg
    (fun logged => logged.map fun l : Logged => l.state.map fun value => value.map (·.1)) hlog
  revert hnames
  decide +kernel

end ScopedLogger

end ApmAgent
