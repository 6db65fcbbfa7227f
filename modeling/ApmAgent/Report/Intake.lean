import ApmAgent.Framework.JsonReader
import ApmAgent.Report.PayloadSender

/-! # The intake protocol

  A batch is sent as lines: the metadata first, then one line for each event,
  an object with one member that is named after the kind of the event. The
  receiver cuts the content into lines and reads each of them.

  * `Escaping.jsonNet`: how Json.NET writes a string;
  * `readIntake_posted`: what the receiver reads from a request is the metadata
    and the events that were handed to the serialiser, in batch order.
-/

/-! ### String literals of Json.NET -/

/-- `\u` and four digits. -/
def unicodeEscape (n : Nat) : List Char :=
  ['\\', 'u', Nat.digitChar (n / 4096), Nat.digitChar (n / 256 % 16),
    Nat.digitChar (n / 16 % 16), Nat.digitChar (n % 16)]

def hexDigit? (c : Char) : Option Nat :=
  if '0' ≤ c ∧ c ≤ '9' then some (c.toNat - '0'.toNat)
  else if 'a' ≤ c ∧ c ≤ 'f' then some (c.toNat - 'a'.toNat + 10)
  else if 'A' ≤ c ∧ c ≤ 'F' then some (c.toNat - 'A'.toNat + 10)
  else none

/-- Whether a character is written as `\u` and its code. -/
def NeedsUnicodeEscape (c : Char) : Prop :=
  c.toNat < 32 ∨ c.toNat = 0x85 ∨ c.toNat = 0x2028 ∨ c.toNat = 0x2029

instance (c : Char) : Decidable (NeedsUnicodeEscape c) := inferInstanceAs (Decidable (_ ∨ _))

/-- The characters that are written as a backslash and a letter. -/
def letterEscapes : List (Char × Char) :=
  [('"', '"'), ('\\', '\\'), ('\n', 'n'), ('\r', 'r'), ('\t', 't'), ('\x0c', 'f'), ('\x08', 'b')]

namespace Escaping

/-- What Json.NET writes for a character between double quotes. -/
def jsonNetEscape (c : Char) : List Char :=
  match letterEscapes.lookup c with
  | some letter => ['\\', letter]
  | none => if NeedsUnicodeEscape c then unicodeEscape c.toNat else [c]

/-- Reads one character of a literal. -/
def jsonNetUnescape : List Char → Option (Char × List Char)
  | [] => none
  | '"' :: _ => none
  | '\\' :: 'u' :: a :: b :: c :: d :: rest => do
    let a ← hexDigit? a
    let b ← hexDigit? b
    let c ← hexDigit? c
    let d ← hexDigit? d
    pure (Char.ofNat (a * 4096 + b * 256 + c * 16 + d), rest)
  | '\\' :: letter :: rest =>
    ((letterEscapes.find? fun e => e.2 = letter).map (·.1)).map fun c => (c, rest)
  | c :: rest => some (c, rest)

theorem hexDigit?_digitChar : ∀ d < 16, hexDigit? (Nat.digitChar d) = some d := by decide

theorem jsonNetUnescape_unicodeEscape {n : Nat} (h : n < 65536) (rest : List Char) :
    jsonNetUnescape (unicodeEscape n ++ rest) = some (Char.ofNat n, rest) := by
  have hsum : n / 4096 * 4096 + n / 256 % 16 * 256 + n / 16 % 16 * 16 + n % 16 = n := by omega
  simp only [unicodeEscape, List.cons_append, List.nil_append, jsonNetUnescape,
    hexDigit?_digitChar (n / 4096) (by omega), hexDigit?_digitChar (n / 256 % 16) (by omega),
    hexDigit?_digitChar (n / 16 % 16) (by omega), hexDigit?_digitChar (n % 16) (by omega),
    Option.bind_eq_bind, Option.bind_some, hsum]
  rfl

theorem jsonNetUnescape_letter : ∀ e ∈ letterEscapes, ∀ rest : List Char,
    jsonNetUnescape ('\\' :: e.2 :: rest) = some (e.1, rest) := by
  simp only [letterEscapes, List.forall_mem_cons]
  refine ⟨?_, ?_, ?_, ?_, ?_, ?_, ?_, nofun⟩
  all_goals
    intro rest
    rfl

theorem jsonNetUnescape_self {c : Char} (h : letterEscapes.lookup c = none) (rest : List Char) :
    jsonNetUnescape (c :: rest) = some (c, rest) := by
  unfold jsonNetUnescape
  split
  · contradiction
  · next hcs =>
    cases hcs
    cases h
  · next hcs =>
    cases hcs
    cases h
  · next hcs =>
    cases hcs
    cases h
  · next hcs =>
    cases hcs
    rfl

def jsonNet : Escaping where
  escape := jsonNetEscape
  unescape := jsonNetUnescape
  unescape_escape c rest := by
    unfold jsonNetEscape
    split
    · next letter hletter =>
      obtain ⟨before, after, heq, -⟩ := List.lookup_eq_some_iff.mp hletter
      exact jsonNetUnescape_letter (c, letter) (by simp [heq]) rest
    · next hnone =>
      split
      · next hneeds =>
        have hlt : c.toNat < 65536 := by
          unfold NeedsUnicodeEscape at hneeds
          omega
        rw [jsonNetUnescape_unicodeEscape hlt, Char.ofNat_toNat]
      · exact jsonNetUnescape_self hnone rest
  unescape_quote _ := rfl

theorem jsonNet_escape_self {c : Char} (hletter : letterEscapes.lookup c = none)
    (hneeds : ¬NeedsUnicodeEscape c) : jsonNet.escape c = [c] := by
  simp only [jsonNet, jsonNetEscape, hletter, hneeds, if_false]

/-- A character below the space is never written. -/
theorem not_mem_jsonNetEscape {c : Char} (h : c.toNat < 32) (d : Char) :
    c ∉ jsonNetEscape d := by
  have hne {e : Char} (he : 32 ≤ e.toNat) : c ≠ e := by
    rintro rfl
    omega
  unfold jsonNetEscape
  split
  · next letter hletter =>
    obtain ⟨before, after, heq, -⟩ := List.lookup_eq_some_iff.mp hletter
    have hall : ∀ e ∈ letterEscapes, 32 ≤ e.2.toNat := by decide
    have hmem : (d, letter) ∈ letterEscapes := by simp [heq]
    simp only [List.mem_cons, List.not_mem_nil, or_false, not_or]
    exact ⟨hne (by decide), hne (hall _ hmem)⟩
  · split
    · have hdigit : ∀ n < 16, 32 ≤ (Nat.digitChar n).toNat := by decide
      have hlt : d.toNat < 65536 := by
        rename_i hneeds
        unfold NeedsUnicodeEscape at hneeds
        omega
      simp only [unicodeEscape, List.mem_cons, List.not_mem_nil, or_false, not_or]
      exact ⟨hne (by decide), hne (by decide), hne (hdigit _ (by omega)),
        hne (hdigit _ (by omega)), hne (hdigit _ (by omega)), hne (hdigit _ (by omega))⟩
    · next hnone hneeds =>
      rw [List.mem_singleton]
      rintro rfl
      exact hneeds (.inl h)

end Escaping

namespace ApmAgent

attribute [local instance] decidableForallMem

/-! ### Lines -/

/-- `Environment.NewLine`. -/
inductive NewLine where
  | lf
  | crlf
  deriving DecidableEq, Repr

/-- What comes before the line feed. -/
def NewLine.carriageReturn : NewLine → List Char
  | .lf => []
  | .crlf => ['\r']

/-- `StringBuilder.AppendLine`, for each line. -/
def ndjson (newLine : NewLine) (lines : List String) : List Char :=
  lines.flatMap fun line => (line.toList ++ newLine.carriageReturn) ++ ['\n']

/-- A line without the carriage return at its end. -/
def stripCarriageReturn (line : List Char) : List Char :=
  if line.getLast? = some '\r' then line.dropLast else line

/-- The lines of a text; each of them is ended. -/
def readLines (cs : List Char) : Option (List (List Char)) :=
  let parts := cs.splitOn '\n'
  if parts.getLast? = some [] then some (parts.dropLast.map stripCarriageReturn) else none

theorem stripCarriageReturn_append (newLine : NewLine) {line : List Char} (h : '\r' ∉ line) :
    stripCarriageReturn (line ++ newLine.carriageReturn) = line := by
  cases newLine with
  | lf =>
    have hlast : line.getLast? ≠ some '\r' := fun hlast => h (List.mem_of_getLast? hlast)
    simp only [NewLine.carriageReturn, List.append_nil]
    rw [stripCarriageReturn, if_neg hlast]
  | crlf => simp [stripCarriageReturn, NewLine.carriageReturn]

theorem splitOn_ndjson (newLine : NewLine) (lines : List String)
    (h : ∀ line ∈ lines, '\n' ∉ line.toList) :
    (ndjson newLine lines).splitOn '\n' =
      lines.map (fun line => line.toList ++ newLine.carriageReturn) ++ [[]] := by
  induction lines with
  | nil => rfl
  | cons line lines ih =>
    have hline : '\n' ∉ line.toList ++ newLine.carriageReturn := by
      rw [List.mem_append, not_or]
      exact ⟨h line List.mem_cons_self, by cases newLine <;> decide⟩
    have hrest := ih fun l hl => h l (List.mem_cons_of_mem _ hl)
    unfold ndjson at hrest ⊢
    rw [List.flatMap_cons, List.append_assoc, List.singleton_append,
      List.splitOn_append_cons_self_of_not_mem hline, hrest, List.map_cons, List.cons_append]

/-- The lines are found again if none of them is broken. -/
theorem readLines_ndjson (newLine : NewLine) (lines : List String)
    (h : ∀ line ∈ lines, '\n' ∉ line.toList ∧ '\r' ∉ line.toList) :
    readLines (ndjson newLine lines) = some (lines.map String.toList) := by
  unfold readLines
  rw [splitOn_ndjson newLine lines fun line hline => (h line hline).1]
  simp only [List.getLast?_append, List.getLast?_singleton, Option.some_or, if_true,
    List.dropLast_concat, List.map_map, Option.some.injEq]
  refine List.map_congr_left fun line hline => ?_
  exact stripCarriageReturn_append newLine (h line hline).2

/-! ### Messages -/

/-- Reads a line: an object with one member. -/
def readLine (line : List Char) : Option (String × Json) :=
  match Json.read .jsonNet line with
  | some (.object [m]) => some m
  | _ => none

/-- What the receiver reads from a request: the metadata, and the events with their kinds. -/
def readIntake (cs : List Char) : Option (Json × List (String × Json)) :=
  (readLines cs).bind fun lines =>
    (lines.mapM readLine).bind fun ms =>
      match ms with
      | (name, metadata) :: events => if name = "metadata" then some (metadata, events) else none
      | [] => none

/-- The text of a value, as Json.NET writes it. -/
def jsonNetText (j : Json) : String := String.ofList (Json.text .jsonNet j)

/-- A line with a name and a value. -/
def messageLine (name serialized : String) : String :=
  "\x7b\"" ++ name ++ "\": " ++ serialized ++ "\x7d"

/-- A name that is written as it is. -/
def PlainName (name : String) : Prop :=
  ∀ c ∈ name.toList, letterEscapes.lookup c = none ∧ ¬NeedsUnicodeEscape c

instance (name : String) : Decidable (PlainName name) :=
  inferInstanceAs (Decidable (∀ c ∈ name.toList, _))

theorem plainName_metadata : PlainName "metadata" := by decide

theorem literal_of_plainName {name : String} (h : PlainName name) (rest : List Char) :
    Escaping.jsonNet.literal name ++ rest = '"' :: (name.toList ++ '"' :: rest) := by
  have hbody (cs : List Char)
      (hcs : ∀ c ∈ cs, letterEscapes.lookup c = none ∧ ¬NeedsUnicodeEscape c) :
      Escaping.jsonNet.body cs = cs := by
    induction cs with
    | nil => rfl
    | cons c cs ih =>
      have hc := hcs c List.mem_cons_self
      have htail := ih fun d hd => hcs d (List.mem_cons_of_mem _ hd)
      unfold Escaping.body at htail ⊢
      rw [List.flatMap_cons, Escaping.jsonNet_escape_self hc.1 hc.2, htail]
      rfl
  simp only [Escaping.literal, hbody _ h, List.cons_append, List.append_assoc, List.nil_append]

theorem messageLine_toList (name serialized : String) :
    (messageLine name serialized).toList =
      '\x7b' :: '"' :: (name.toList ++ '"' :: ':' :: ' ' :: (serialized.toList ++ ['\x7d'])) := by
  simp [messageLine, String.toList_append]

theorem readLine_messageLine {name : String} (h : PlainName name) (j : Json) :
    readLine (messageLine name (jsonNetText j)).toList = some (name, j) := by
  have hline : (messageLine name (jsonNetText j)).toList =
      '\x7b' :: (Escaping.jsonNet.literal name ++
        ':' :: ' ' :: (Json.text .jsonNet j ++ ['\x7d'])) := by
    rw [messageLine_toList, literal_of_plainName h, jsonNetText, String.toList_ofList]
  rw [readLine, hline, Json.read_spaced_member]

/-- A line end is never written inside a value. -/
theorem neverWritten_lineEnd {c : Char} (h : c = '\n' ∨ c = '\r') :
    Json.NeverWritten .jsonNet c := by
  refine ⟨fun d => Escaping.not_mem_jsonNetEscape ?_ d, ?_, ?_⟩
  all_goals obtain rfl | rfl := h <;> decide

theorem lineEnd_not_mem_messageLine {c : Char} (h : c = '\n' ∨ c = '\r') {name : String}
    (hname : c ∉ name.toList) (j : Json) : c ∉ (messageLine name (jsonNetText j)).toList := by
  have htext := (neverWritten_lineEnd h).not_mem_text j
  rw [messageLine_toList, jsonNetText, String.toList_ofList]
  simp only [List.mem_cons, List.mem_append, hname, htext, List.not_mem_nil, false_or, or_false]
  obtain rfl | rfl := h <;> decide

/-! ### A request -/

section

variable {Obj ω : Type}

/-- The serialiser writes values, and so was the metadata written. -/
structure PayloadSender.WritesJson (sender : PayloadSender Obj ω) (metadata : Json) : Prop where
  serializeObject : ∀ o w s w', sender.serializeObject o w = (.ok s, w') → ∃ j, s = jsonNetText j
  metadataJson : sender.metadataJson = jsonNetText metadata
  cached : ∀ line ∈ sender.cachedMetadataJsonLine,
    line = messageLine "metadata" (jsonNetText metadata)

/-- The event is read as what the serialiser made of it. -/
structure SerializedAs (sender : PayloadSender Obj ω) (item : EventType × Obj)
    (m : String × Json) : Prop where
  name : m.1 = item.1.name
  value : ∃ w w', sender.serializeObject item.2 w = (.ok (jsonNetText m.2), w')

variable {sender : PayloadSender Obj ω} {metadata : Json}

theorem PayloadSender.WritesJson.metadataJsonLine (h : sender.WritesJson metadata) :
    sender.metadataJsonLine = messageLine "metadata" (jsonNetText metadata) := by
  unfold PayloadSender.metadataJsonLine
  cases hcached : sender.cachedMetadataJsonLine with
  | none =>
    have hprefix : "\x7b\"metadata\": " = "\x7b\"" ++ "metadata" ++ "\": " := by decide
    rw [Option.getD_none, h.metadataJson, messageLine, hprefix]
  | some line => exact h.cached line hcached

theorem plainName_eventType (eventType : EventType) : PlainName eventType.name := by
  cases eventType <;> decide

/-- Every message is named after a kind of event. -/
theorem plainName_of_serializedAs {items : List (EventType × Obj)} {ms : List (String × Json)}
    (h : List.Forall₂ (SerializedAs sender) items ms) : ∀ m ∈ ms, PlainName m.1 := by
  induction h with
  | nil => nofun
  | cons hfirst _ ih =>
    rw [List.forall_mem_cons, hfirst.name]
    exact ⟨plainName_eventType _, ih⟩

/-- The lines of a batch, event by event. -/
theorem serializeItems_messages (h : sender.WritesJson metadata) (items : List (QueueItem Obj))
    (w : ω) {lines : List String} (hlines : (sender.serializeItems items w).lines = .ok lines) :
    ∃ ms : List (String × Json), lines = ms.map (fun m => messageLine m.1 (jsonNetText m.2)) ∧
      List.Forall₂ (SerializedAs sender) (sender.serializeItems items w).handed ms := by
  induction items generalizing w lines with
  | nil =>
    cases hlines
    exact ⟨[], rfl, .nil⟩
  | cons item items ih =>
    obtain ⟨eventType, event⟩ := item
    rcases eventType with _ | eventType
    · exact ih w hlines
    rcases hfilter : tryExecuteFilter (sender.filters eventType) event w with ⟨_ | result, w₁⟩
    · rw [PayloadSender.serializeItems_omitted hfilter] at hlines ⊢
      exact ih w₁ hlines
    rcases hserialized : sender.serializeObject event w₁ with ⟨e | serialized, w₂⟩
    · rw [PayloadSender.serializeItems_error hfilter hserialized] at hlines
      cases hlines
    · rw [PayloadSender.serializeItems_ok hfilter hserialized] at hlines ⊢
      obtain ⟨j, rfl⟩ := h.serializeObject _ _ _ _ hserialized
      cases hrest : (sender.serializeItems items w₂).lines with
      | error e =>
        rw [hrest] at hlines
        cases hlines
      | ok rest =>
        rw [hrest] at hlines
        cases hlines
        obtain ⟨ms, rfl, hms⟩ := ih w₂ hrest
        exact ⟨(eventType.name, j) :: ms, rfl, .cons ⟨rfl, w₁, w₂, hserialized⟩ hms⟩

theorem mapM_readLine {ms : List (String × Json)} (h : ∀ m ∈ ms, PlainName m.1) :
    (ms.map fun m => (messageLine m.1 (jsonNetText m.2)).toList).mapM readLine = some ms := by
  induction ms with
  | nil => rfl
  | cons m ms ih =>
    have hrest := ih fun m' hm' => h m' (List.mem_cons_of_mem _ hm')
    rw [List.map_cons, List.mapM_cons, readLine_messageLine (h m List.mem_cons_self), hrest]
    rfl

theorem lineEnd_not_mem_plainName {c : Char} (hc : c = '\n' ∨ c = '\r') {name : String}
    (h : PlainName name) : c ∉ name.toList := by
  intro hmem
  have hplain := (h c hmem).1
  obtain rfl | rfl := hc <;> cases hplain

/-- The receiver reads the messages that were written. -/
theorem readIntake_messages (newLine : NewLine) (metadata : Json) {ms : List (String × Json)}
    (h : ∀ m ∈ ms, PlainName m.1) :
    readIntake (ndjson newLine
      (((("metadata", metadata) :: ms)).map fun m => messageLine m.1 (jsonNetText m.2))) =
        some (metadata, ms) := by
  have hplain : ∀ m ∈ ("metadata", metadata) :: ms, PlainName m.1 := by
    intro m hm
    obtain rfl | hm := List.mem_cons.mp hm
    · exact plainName_metadata
    · exact h m hm
  have hlines := readLines_ndjson newLine
    ((("metadata", metadata) :: ms).map fun m => messageLine m.1 (jsonNetText m.2)) (by
      intro line hline
      obtain ⟨m, hm, rfl⟩ := List.mem_map.mp hline
      exact ⟨lineEnd_not_mem_messageLine (.inl rfl)
          (lineEnd_not_mem_plainName (.inl rfl) (hplain m hm)) m.2,
        lineEnd_not_mem_messageLine (.inr rfl)
          (lineEnd_not_mem_plainName (.inr rfl) (hplain m hm)) m.2⟩)
  have hread := mapM_readLine hplain
  rw [readIntake, hlines, Option.bind_some, List.map_map]
  simp only [Function.comp_def]
  rw [hread]
  rfl

/-- What is read from a posted request is the metadata and, in batch order, the events that were
    handed to the serialiser. -/
theorem readIntake_posted (newLine : NewLine) (h : sender.WritesJson metadata)
    {items : List (QueueItem Obj)} {w : ω} {lines : List String}
    (hposted : (sender.processQueueItems items w).posted = some lines) :
    ∃ events, readIntake (ndjson newLine lines) = some (metadata, events) ∧
      List.Forall₂ (SerializedAs sender) (sender.processQueueItems items w).handed events := by
  unfold PayloadSender.processQueueItems at hposted ⊢
  cases hitems : (sender.serializeItems items w).lines with
  | error e =>
    simp only [hitems] at hposted
    cases hposted
  | ok rest =>
    simp only [hitems] at hposted
    cases hposted
    obtain ⟨ms, rfl, hms⟩ := serializeItems_messages h items w hitems
    refine ⟨ms, ?_, hms⟩
    rw [h.metadataJsonLine,
      ← readIntake_messages newLine metadata (plainName_of_serializedAs hms), List.map_cons]

end

end ApmAgent
