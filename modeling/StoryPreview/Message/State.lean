import StoryPreview.Json.Record
import StoryPreview.Session.Action
/-!
The JSON forms of states and actions.
-/
namespace StoryPreview

open Json (Setting record? variant? required nullable defaulted list? optionalField)

/-! ## Writing -/

def ErrorKind.name : ErrorKind → String
  | .compile => "compile"
  | .includeLoad => "includeLoad"
  | .invalidChoice => "invalidChoice"
  | .unknownAction => "unknownAction"

def ErrorInfo.toJson (e : ErrorInfo) : Json :=
  .object ([("kind", .text e.kind.name), ("message", .text e.message)] ++
    optionalField "line" .nat e.line)

def TranscriptEntry.toJson : TranscriptEntry → Json
  | .text speaker body =>
    .object (("type", .text "text") :: optionalField "speaker" .text speaker ++
      [("text", .text body)])
  | .tag name value =>
    .object (("type", .text "tag") :: ("name", .text name) :: optionalField "value" .text value)

def ChoiceView.toJson (c : ChoiceView) : Json :=
  .object [("index", .nat c.index), ("text", .text c.text)]

def FunctionEvent.toJson (e : FunctionEvent) : Json :=
  .object [("name", .text e.name), ("args", .texts e.args)]

def State.toJson (s : State) : Json :=
  .object [
    ("transcript", .array (s.transcript.map TranscriptEntry.toJson)),
    ("choices", .array (s.choices.map ChoiceView.toJson)),
    ("errors", .array (s.errors.map ErrorInfo.toJson)),
    ("events", .array (s.events.map FunctionEvent.toJson)),
    ("liveUpdate", .bool s.liveUpdate),
    ("canContinue", .bool s.canContinue),
    ("atEnd", .bool s.atEnd)]

def Action.toJson (a : Action) : Json :=
  .object (("kind", .text a.kind) :: match a with
    | .selectChoice index => [("index", .nat index)]
    | .toggleLiveUpdate enabled => [("enabled", .bool enabled)]
    | .recordErrors errors => [("errors", .array (errors.map ErrorInfo.toJson))]
    | .recordEvents events => [("events", .array (events.map FunctionEvent.toJson))]
    | _ => [])

/-! ## Reading -/

def ErrorKind.ofName? : String → Option ErrorKind
  | "compile" => some .compile
  | "includeLoad" => some .includeLoad
  | "invalidChoice" => some .invalidChoice
  | "unknownAction" => some .unknownAction
  | _ => none

def ErrorInfo.ofJson? (setting : Setting) (v : Json) : Option ErrorInfo := do
  match ← record? ["kind", "message", "line"] v with
  | [kind, message, line] =>
    let kind ← required (fun k => (k.name? setting).bind ErrorKind.ofName?) kind
    let message ← required Json.asText? message
    let line ← nullable Json.asNat? line
    return ⟨kind, message, line⟩
  | _ => none

def TranscriptEntry.ofJson? (setting : Setting) (v : Json) : Option TranscriptEntry := do
  match ← variant? setting "type" ["text", "tag"] v with
  | ("text", rest) =>
    match ← record? ["speaker", "text"] rest with
    | [speaker, body] =>
      return .text (← nullable Json.asText? speaker) (← required Json.asText? body)
    | _ => none
  | (_, rest) =>
    match ← record? ["name", "value"] rest with
    | [name, value] =>
      return .tag (← required Json.asText? name) (← nullable Json.asText? value)
    | _ => none

def ChoiceView.ofJson? (v : Json) : Option ChoiceView := do
  match ← record? ["index", "text"] v with
  | [index, text] => return ⟨← required Json.asNat? index, ← required Json.asText? text⟩
  | _ => none

def FunctionEvent.ofJson? (v : Json) : Option FunctionEvent := do
  match ← record? ["name", "args"] v with
  | [name, args] =>
    return ⟨← required Json.asText? name, ← defaulted [] (list? Json.asText?) args⟩
  | _ => none

def State.ofJson? (setting : Setting) (v : Json) : Option State := do
  match ← record? ["transcript", "choices", "errors", "events", "liveUpdate", "canContinue",
      "atEnd"] v with
  | [transcript, choices, errors, events, liveUpdate, canContinue, atEnd] =>
    return {
      transcript := ← required (list? (TranscriptEntry.ofJson? setting)) transcript
      choices := ← required (list? ChoiceView.ofJson?) choices
      errors := ← required (list? (ErrorInfo.ofJson? setting)) errors
      events := ← required (list? FunctionEvent.ofJson?) events
      liveUpdate := ← required Json.asBool? liveUpdate
      canContinue := ← required Json.asBool? canContinue
      atEnd := ← required Json.asBool? atEnd }
  | _ => none

/-- The one field of a variant. -/
def Json.onlyField? (name : String) (read : Json → Option α) (v : Json) : Option α := do
  match ← record? [name] v with
  | [v] => required read v
  | _ => none

/-- A variant without fields; anything may stand in an object, nothing in an array. -/
def Json.noFields? : Json → Option Unit
  | .object _ => some ()
  | .array [] => some ()
  | _ => none

/-- Reads an action. -/
def Action.ofJson? (v : Json) : Option Action := do
  match ← variant? .plain "kind" kinds v with
  | ("start", rest) => rest.noFields?.map fun _ => .start
  | ("selectChoice", rest) => (rest.onlyField? "index" Json.asNat?).map .selectChoice
  | ("rewind", rest) => rest.noFields?.map fun _ => .rewind
  | ("toggleLiveUpdate", rest) => (rest.onlyField? "enabled" Json.asBool?).map .toggleLiveUpdate
  | ("recordErrors", rest) =>
    (rest.onlyField? "errors" (list? (ErrorInfo.ofJson? .inVariant))).map .recordErrors
  | (_, rest) => (rest.onlyField? "events" (list? FunctionEvent.ofJson?)).map .recordEvents

end StoryPreview
