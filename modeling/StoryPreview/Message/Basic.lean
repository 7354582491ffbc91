import StoryPreview.Json.Reader
import StoryPreview.Message.Position
import StoryPreview.Message.State
/-!
Messages between a preview and the display that shows it. Each is a JSON object with its `type`
beside its content.
-/
namespace StoryPreview

/-- What a display sends. -/
inductive Inbound
  /-- The display can show states. -/
  | ready
  | action (a : Action)
  | jumpTo (target : JumpTarget)
  deriving DecidableEq

/-- What a preview sends. -/
inductive Outbound
  /-- The whole new state. -/
  | updateState (state : State)
  | revealPosition (position : Position)
  | navigationFailed (message : String)
  deriving DecidableEq

/-- Why a message could not be read. -/
inductive ProtocolError
  | malformed
  | unknownAction (kind : String)
  deriving DecidableEq

/-- The wording for a malformed message says nothing about what is wrong with it. -/
def ProtocolError.message : ProtocolError → String
  | .malformed => "malformed message"
  | .unknownAction kind => "unknown action '" ++ kind ++ "'"

open Json (variant?)

namespace Inbound

def toJson : Inbound → Json
  | .ready => .object [("type", .text "ready")]
  | .action a => .object [("type", .text "action"), ("action", a.toJson)]
  | .jumpTo target => .object [("type", .text "jumpTo"), ("target", target.toJson)]

/-- The kind an action claims to be of; nothing if it claims none. -/
def claimedKind : Json → String
  | .object fields =>
    match Json.values "kind" fields with
    | [.text kind] => kind
    | _ => ""
  | _ => ""

/-- Reads the action of a message. Of fields with the same key it is the last that counts. -/
def actionOfJson (v : Json) : Except ProtocolError Inbound :=
  let v := v.lastWins
  let kind := claimedKind v
  if kind ∉ Action.kinds then .error (.unknownAction kind)
  else match Action.ofJson? v with
    | some a => .ok (.action a)
    | none => .error .malformed

/-- Reads a message. -/
def ofJson (v : Json) : Except ProtocolError Inbound :=
  match variant? .plain "type" ["ready", "action", "jumpTo"] v with
  | some ("ready", rest) => if rest.noFields?.isSome then .ok .ready else .error .malformed
  | some ("action", rest) =>
    match rest.onlyField? "action" some with
    | some a => actionOfJson a
    | none => .error .malformed
  | some ("jumpTo", rest) =>
    match rest.onlyField? "target" JumpTarget.ofJson? with
    | some target => .ok (.jumpTo target)
    | none => .error .malformed
  | _ => .error .malformed

/-- Reads the text of a message. -/
def decode (raw : String) : Except ProtocolError Inbound :=
  match Json.parse? raw with
  | some v => ofJson v
  | none => .error .malformed

end Inbound

namespace Outbound

def toJson : Outbound → Json
  | .updateState state => .object [("type", .text "updateState"), ("state", state.toJson)]
  | .revealPosition position =>
    .object [("type", .text "revealPosition"), ("position", position.toJson)]
  | .navigationFailed message =>
    .object [("type", .text "navigationFailed"), ("message", .text message)]

def ofJson? (v : Json) : Option Outbound := do
  match ← variant? .plain "type" ["updateState", "revealPosition", "navigationFailed"] v with
  | ("updateState", rest) =>
    (rest.onlyField? "state" (State.ofJson? .inVariant)).map .updateState
  | ("revealPosition", rest) =>
    (rest.onlyField? "position" Position.ofJson?).map .revealPosition
  | (_, rest) => (rest.onlyField? "message" Json.asText?).map .navigationFailed

/-- The text of a message. -/
def encode (m : Outbound) : String := m.toJson.compact

/-- Reads the text of a message. -/
def decode? (raw : String) : Option Outbound := (Json.parse? raw).bind ofJson?

end Outbound

/-- The text of a message. -/
def Inbound.encode (m : Inbound) : String := m.toJson.compact

end StoryPreview
