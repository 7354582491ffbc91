import StoryPreview.Message.Basic
import StoryPreview.Proofs.Json.RoundTrip
/-!
Messages come back from the text they are written as. What is written about a value is enough to read it back
(`State.ofJson?_toJson`, `Action.ofJson?_toJson`), a field that is left out included, and it is plain as long
as the numbers have 64 bits (`Outbound.plain_toJson`, `Inbound.plain_toJson`), so it comes through a text.
What a display reads is what was sent (`Outbound.decode?_encode`). A preview looks at the kind of an action
before it reads the action, which makes no difference to one that was sent (`Inbound.decode_encode`).
-/
namespace StoryPreview

open Json (Plain Setting list? optionalField nullable defaulted)

/-! ## Reading back what is written -/

namespace Json

@[simp] theorem asText?_text (s : String) : asText? (.text s) = some s := rfl

@[simp] theorem asBool?_bool (b : Bool) : asBool? (.bool b) = some b := rfl

@[simp] theorem asNat?_nat (n : Nat) : asNat? (.nat n) = some n := by
  simp [asNat?, nat]

theorem text_ne_null (s : String) : text s ≠ .null := nofun

theorem nat_ne_null (n : Nat) : nat n ≠ .null := nofun

@[simp] theorem required_some (read : Json → Option α) (v : Json) : required read (some v) = read v := rfl

/-- A field that is left out when there is no value is read as no value. -/
theorem nullable_map {toJson : α → Json} {read : Json → Option α} (h : ∀ a, read (toJson a) = some a)
    (hnull : ∀ a, toJson a ≠ .null) (o : Option α) : nullable read (o.map toJson) = some o := by
  cases o with
  | none => rfl
  | some a =>
    unfold nullable
    split
    · next heq => cases heq
    · next heq => exact absurd (Option.some.inj heq) (hnull a)
    · next v _ heq => rw [← Option.some.inj heq, h, Option.map_some]

/-- A list is read back if each of its items is. -/
theorem list?_map {toJson : α → Json} {read : Json → Option α} (h : ∀ a, read (toJson a) = some a)
    (as : List α) : list? read (.array (as.map toJson)) = some as := by
  induction as with
  | nil => rfl
  | cons a as ih =>
    rw [list?] at ih ⊢
    rw [List.map_cons, List.mapM_cons, h a, ih]
    rfl

/-- An object with a tag before its fields is read as the tag and the fields. -/
theorem variant?_object (setting : Setting) {key tag : String} {names : List String}
    {fields : List (String × Json)} (htag : tag ∈ names) (hkey : ∀ f ∈ fields, f.1 ≠ key) :
    variant? setting key names (.object ((key, .text tag) :: fields)) = some (tag, .object fields) := by
  have hvalues : values key ((key, .text tag) :: fields) = [.text tag] := by
    have hnone : fields.filter (fun f => f.1 = key) = [] := by simpa using hkey
    simp [values, hnone]
  have hrest : ((key, .text tag) :: fields).filter (fun f => f.1 ≠ key) = fields := by simpa using hkey
  rw [variant?, hvalues]
  simp only [tag?, if_pos htag, Option.map_some, hrest]

/-- An object with one field. -/
@[simp] theorem onlyField?_singleton (name : String) (read : Json → Option α) (v : Json) :
    (Json.object [(name, v)]).onlyField? name read = read v := by
  simp [onlyField?, record?, fieldValues, values, atMostOne]

end Json

theorem ErrorKind.ofName?_name (k : ErrorKind) : ErrorKind.ofName? k.name = some k := by
  cases k <;> rfl

theorem ErrorInfo.ofJson?_toJson (setting : Setting) (e : ErrorInfo) :
    ErrorInfo.ofJson? setting e.toJson = some e := by
  obtain ⟨kind, message, line⟩ := e
  have hfields : Json.record? ["kind", "message", "line"] (ErrorInfo.toJson ⟨kind, message, line⟩) =
      some [some (.text kind.name), some (.text message), line.map .nat] := by
    cases line <;> simp [toJson, Json.record?, Json.fieldValues, Json.values, Json.atMostOne, optionalField]
  have hkind : ((Json.text kind.name).name? setting).bind ErrorKind.ofName? = some kind :=
    ErrorKind.ofName?_name kind
  have hline : nullable Json.asNat? (line.map .nat) = some line :=
    Json.nullable_map Json.asNat?_nat Json.nat_ne_null line
  simp [ofJson?, hfields, hkind, hline]

theorem TranscriptEntry.ofJson?_toJson (setting : Setting) (e : TranscriptEntry) :
    TranscriptEntry.ofJson? setting e.toJson = some e := by
  cases e with
  | text speaker body =>
    have hspeaker : nullable Json.asText? (speaker.map .text) = some speaker :=
      Json.nullable_map Json.asText?_text Json.text_ne_null speaker
    have hfields : Json.record? ["speaker", "text"]
        (.object (optionalField "speaker" .text speaker ++ [("text", .text body)])) =
          some [speaker.map .text, some (.text body)] := by
      cases speaker <;> simp [Json.record?, Json.fieldValues, Json.values, Json.atMostOne, optionalField]
    rw [ofJson?, toJson, List.cons_append,
      Json.variant?_object setting (by decide) (by cases speaker <;> simp [optionalField])]
    simp [hfields, hspeaker]
  | tag name value =>
    have hvalue : nullable Json.asText? (value.map .text) = some value :=
      Json.nullable_map Json.asText?_text Json.text_ne_null value
    have hfields : Json.record? ["name", "value"]
        (.object (("name", .text name) :: optionalField "value" .text value)) =
          some [some (.text name), value.map .text] := by
      cases value <;> simp [Json.record?, Json.fieldValues, Json.values, Json.atMostOne, optionalField]
    rw [ofJson?, toJson, Json.variant?_object setting (by decide) (by cases value <;> simp [optionalField])]
    simp [hfields, hvalue]

theorem ChoiceView.ofJson?_toJson (c : ChoiceView) : ChoiceView.ofJson? c.toJson = some c := by
  simp [ofJson?, toJson, Json.record?, Json.fieldValues, Json.values, Json.atMostOne]

theorem FunctionEvent.ofJson?_toJson (e : FunctionEvent) : FunctionEvent.ofJson? e.toJson = some e := by
  have hargs : list? Json.asText? (.texts e.args) = some e.args := Json.list?_map Json.asText?_text e.args
  simp [ofJson?, toJson, Json.record?, Json.fieldValues, Json.values, Json.atMostOne, defaulted, hargs]

theorem State.ofJson?_toJson (setting : Setting) (s : State) : State.ofJson? setting s.toJson = some s := by
  have htranscript := Json.list?_map (TranscriptEntry.ofJson?_toJson setting) s.transcript
  have hchoices := Json.list?_map ChoiceView.ofJson?_toJson s.choices
  have herrors := Json.list?_map (ErrorInfo.ofJson?_toJson setting) s.errors
  have hevents := Json.list?_map FunctionEvent.ofJson?_toJson s.events
  simp [ofJson?, toJson, Json.record?, Json.fieldValues, Json.values, Json.atMostOne, htranscript, hchoices,
    herrors, hevents]

theorem Action.ofJson?_toJson (a : Action) : Action.ofJson? a.toJson = some a := by
  -- the tag is taken away first, and then the one field is read
  cases a with
  | start => rfl
  | rewind => rfl
  | selectChoice index =>
    rw [ofJson?, toJson, Json.variant?_object .plain (kind_mem_kinds _) (by simp)]
    simp [kind]
  | toggleLiveUpdate enabled =>
    rw [ofJson?, toJson, Json.variant?_object .plain (kind_mem_kinds _) (by simp)]
    simp [kind]
  | recordErrors errors =>
    have herrors := Json.list?_map (ErrorInfo.ofJson?_toJson .inVariant) errors
    rw [ofJson?, toJson, Json.variant?_object .plain (kind_mem_kinds _) (by simp)]
    simp [kind, herrors]
  | recordEvents events =>
    have hevents := Json.list?_map FunctionEvent.ofJson?_toJson events
    rw [ofJson?, toJson, Json.variant?_object .plain (kind_mem_kinds _) (by simp)]
    simp [kind, hevents]

theorem Position.ofJson?_toJson (p : Position) : Position.ofJson? p.toJson = some p := by
  simp [ofJson?, toJson, Json.record?, Json.fieldValues, Json.values, Json.atMostOne]

theorem JumpTarget.ofJson?_toJson (t : JumpTarget) : JumpTarget.ofJson? t.toJson = some t := by
  cases t <;> simp [ofJson?, toJson, Json.soleField?, Json.values]

theorem Outbound.ofJson?_toJson (m : Outbound) : Outbound.ofJson? m.toJson = some m := by
  cases m with
  | updateState state =>
    rw [ofJson?, toJson, Json.variant?_object .plain (by decide) (by simp)]
    simp [State.ofJson?_toJson]
  | revealPosition position =>
    rw [ofJson?, toJson, Json.variant?_object .plain (by decide) (by simp)]
    simp [Position.ofJson?_toJson]
  | navigationFailed message =>
    rw [ofJson?, toJson, Json.variant?_object .plain (by decide) (by simp)]
    simp

/-! ## What is written is plain -/

/-- The numbers of the value are those of 64 bits. -/
def ErrorInfo.InRange (e : ErrorInfo) : Prop := ∀ line ∈ e.line, line < UInt64.size

def ChoiceView.InRange (c : ChoiceView) : Prop := c.index < UInt64.size

structure State.InRange (s : State) : Prop where
  choices : ∀ c ∈ s.choices, c.InRange
  errors : ∀ e ∈ s.errors, e.InRange

def Action.InRange : Action → Prop
  | .selectChoice index => index < UInt64.size
  | .recordErrors errors => ∀ e ∈ errors, e.InRange
  | _ => True

structure Position.InRange (p : Position) : Prop where
  line : p.line < UInt64.size
  column : p.column < UInt64.size

def JumpTarget.InRange : JumpTarget → Prop
  | .line n => n < UInt64.size
  | .text _ => True

def Inbound.InRange : Inbound → Prop
  | .ready => True
  | .action a => a.InRange
  | .jumpTo target => target.InRange

def Outbound.InRange : Outbound → Prop
  | .updateState state => state.InRange
  | .revealPosition position => position.InRange
  | .navigationFailed _ => True

theorem Json.plain_map {toJson : α → Json} {n : Nat} {as : List α} (h : ∀ a ∈ as, Plain n (toJson a)) :
    Plain (n + 1) (.array (as.map toJson)) := by
  refine .array fun v hv => ?_
  obtain ⟨a, ha, rfl⟩ := List.mem_map.1 hv
  exact h a ha

theorem ErrorInfo.plain_toJson (n : Nat) {e : ErrorInfo} (h : e.InRange) : Plain (n + 1) e.toJson := by
  obtain ⟨kind, message, line⟩ := e
  refine .object ?_ ?_
  · cases line <;> simp [optionalField]
  · cases line with
    | none => simp [optionalField, Plain.text]
    | some k => simp [optionalField, Plain.text, Plain.nat n (h k rfl)]

theorem TranscriptEntry.plain_toJson (n : Nat) (e : TranscriptEntry) : Plain (n + 1) e.toJson := by
  cases e with
  | text speaker body => refine .object ?_ ?_ <;> cases speaker <;> simp [optionalField, Plain.text]
  | tag name value => refine .object ?_ ?_ <;> cases value <;> simp [optionalField, Plain.text]

theorem ChoiceView.plain_toJson (n : Nat) {c : ChoiceView} (h : c.InRange) : Plain (n + 1) c.toJson :=
  .object (by simp) (by simp [Plain.text, Plain.nat n h])

theorem FunctionEvent.plain_toJson (n : Nat) (e : FunctionEvent) : Plain (n + 2) e.toJson := by
  have hargs : Plain (n + 1) (.texts e.args) := Json.plain_map fun s _ => .text n s
  exact .object (by simp) (by simp [Plain.text, hargs])

theorem State.plain_toJson (n : Nat) {s : State} (h : s.InRange) : Plain (n + 4) s.toJson := by
  have htranscript : Plain (n + 3) (.array (s.transcript.map TranscriptEntry.toJson)) :=
    Json.plain_map fun e _ => e.plain_toJson (n + 1)
  have hchoices : Plain (n + 3) (.array (s.choices.map ChoiceView.toJson)) :=
    Json.plain_map fun c hc => ChoiceView.plain_toJson (n + 1) (h.choices c hc)
  have herrors : Plain (n + 3) (.array (s.errors.map ErrorInfo.toJson)) :=
    Json.plain_map fun e he => ErrorInfo.plain_toJson (n + 1) (h.errors e he)
  have hevents : Plain (n + 3) (.array (s.events.map FunctionEvent.toJson)) :=
    Json.plain_map fun e _ => e.plain_toJson n
  exact .object (by simp) (by simp [htranscript, hchoices, herrors, hevents, Plain.bool])

theorem Action.plain_toJson (n : Nat) {a : Action} (h : a.InRange) : Plain (n + 4) a.toJson := by
  cases a with
  | start => exact .object (by simp) (by simp [Plain.text])
  | rewind => exact .object (by simp) (by simp [Plain.text])
  | selectChoice index => exact .object (by simp) (by simp [Plain.text, Plain.nat (n + 3) h])
  | toggleLiveUpdate enabled => exact .object (by simp) (by simp [Plain.text, Plain.bool])
  | recordErrors errors =>
    have herrors : Plain (n + 3) (.array (errors.map ErrorInfo.toJson)) :=
      Json.plain_map fun e he => ErrorInfo.plain_toJson (n + 1) (h e he)
    exact .object (by simp) (by simp [Plain.text, herrors])
  | recordEvents events =>
    have hevents : Plain (n + 3) (.array (events.map FunctionEvent.toJson)) :=
      Json.plain_map fun e _ => e.plain_toJson n
    exact .object (by simp) (by simp [Plain.text, hevents])

theorem Position.plain_toJson (n : Nat) {p : Position} (h : p.InRange) : Plain (n + 1) p.toJson :=
  .object (by simp) (by simp [Plain.nat n h.line, Plain.nat n h.column])

theorem JumpTarget.plain_toJson (n : Nat) {t : JumpTarget} (h : t.InRange) : Plain (n + 1) t.toJson := by
  cases t with
  | line k => exact .object (by simp) (by simp [Plain.nat n (k := k) h])
  | text text => exact .object (by simp) (by simp [Plain.text])

theorem Inbound.plain_toJson {m : Inbound} (h : m.InRange) : Plain 5 m.toJson := by
  cases m with
  | ready => exact .object (by simp) (by simp [Plain.text])
  | action a => exact .object (by simp) (by simp [Plain.text, Action.plain_toJson 0 h])
  | jumpTo target => exact .object (by simp) (by simp [Plain.text, JumpTarget.plain_toJson 3 h])

theorem Outbound.plain_toJson {m : Outbound} (h : m.InRange) : Plain 5 m.toJson := by
  cases m with
  | updateState state => exact .object (by simp) (by simp [Plain.text, State.plain_toJson 0 h])
  | revealPosition position => exact .object (by simp) (by simp [Plain.text, Position.plain_toJson 3 h])
  | navigationFailed message => exact .object (by simp) (by simp [Plain.text])

/-! ## Messages -/

theorem Outbound.decode?_encode {m : Outbound} (h : m.InRange) : Outbound.decode? m.encode = some m := by
  rw [decode?, encode, Json.parse?_compact (plain_toJson h) (by decide), Option.bind_some, ofJson?_toJson]

namespace Inbound

theorem claimedKind_toJson (a : Action) : claimedKind a.toJson = a.kind := by
  cases a <;> rfl

/-- The kind of an action is checked against the names of the kinds before the action is read. -/
theorem actionOfJson_toJson {a : Action} (h : a.toJson.lastWins = a.toJson) :
    actionOfJson a.toJson = .ok (.action a) := by
  rw [actionOfJson, h, claimedKind_toJson, if_neg (not_not_intro (Action.kind_mem_kinds a)),
    Action.ofJson?_toJson]

theorem ofJson_toJson {m : Inbound} (h : m.InRange) : ofJson m.toJson = .ok m := by
  cases m with
  | ready => rfl
  | action a =>
    have haction := actionOfJson_toJson (Json.keysOnce_of_plain (Action.plain_toJson 0 h)).lastWins_eq
    rw [ofJson, toJson, Json.variant?_object .plain (by decide) (by simp)]
    simp [haction]
  | jumpTo target =>
    rw [ofJson, toJson, Json.variant?_object .plain (by decide) (by simp)]
    simp [JumpTarget.ofJson?_toJson]

/-- Whatever a display sends arrives as it was sent. -/
theorem decode_encode {m : Inbound} (h : m.InRange) : decode m.encode = .ok m := by
  rw [decode, encode, Json.parse?_compact (plain_toJson h) (by decide)]
  exact ofJson_toJson h

/-! ## An example -/

/-- Errors whose messages hold quotes, a backslash, control characters and a character of two halves, one of
them at the last line there can be. -/
def escapedErrors : List ErrorInfo :=
  [⟨.compile, "\"[SAY\" \\ \t\n\x00\x08\x1f\x7f", some 18446744073709551615⟩,
    ⟨.unknownAction, "é雪𝄞", none⟩]

theorem decode_encode_escapedErrors :
    Inbound.InRange (.action (.recordErrors escapedErrors)) ∧
    decode (encode (.action (.recordErrors escapedErrors))) = .ok (.action (.recordErrors escapedErrors)) := by
  have hrange : Inbound.InRange (.action (.recordErrors escapedErrors)) := by
    intro e he
    rcases List.mem_cons.1 he with rfl | he
    · rintro line ⟨⟩
      decide
    · rw [List.mem_singleton.1 he]
      exact nofun
  exact ⟨hrange, decode_encode hrange⟩

end Inbound

end StoryPreview
