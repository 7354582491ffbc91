import StoryPreview.Json.Token
/-!
Reading JSON. The tokens drive a machine whose stack holds the arrays and objects that are still
open; its height is how deeply the value at hand is nested. A value that is nested too deeply has to
be well formed, but stands for nothing.
-/
namespace StoryPreview.Json

/-- An open array with its items so far, or an open object with its fields so far and the key whose
value is being read. The last item or field comes first. A key is none if it has an unpaired
surrogate. -/
inductive Frame
  | array (items : List Json)
  | object (fields : List (Option String × Json)) (key : Option String)

/-- What the next token has to be. -/
inductive Expected
  | value
  /-- The first item of an array, or its end. -/
  | firstItem
  /-- The first key of an object, or its end. -/
  | firstKey
  | key (fields : List (Option String × Json))
  | colon (fields : List (Option String × Json)) (key : Option String)
  /-- A comma or the end of what is open: the value at hand is complete. -/
  | after (v : Json)

/-- Arrays and objects that stand for something nest this deeply and no deeper. -/
def maxDepth : Nat := 127

/-- An array or an object inside of as many others as the stack holds. -/
def nested (stack : List Frame) (v : Json) : Json :=
  if (stack.take maxDepth).length < maxDepth then v else .invalid

/-- The object with the given fields, last first. -/
def objectOf (fields : List (Option String × Json)) : Json :=
  if fields.all (fun f => f.1.isSome) then
    .object (fields.reverse.map fun f => (f.1.getD "", f.2))
  else .invalid

/-- The value that a token begins. -/
def openValue (stack : List Frame) : Token → Option (List Frame × Expected)
  | .scalar v => some (stack, .after v)
  | .text s => some (stack, .after (s.elim .invalid .text))
  | .openArray => some (.array [] :: stack, .firstItem)
  | .openObject => some (stack, .firstKey)
  | _ => none

/-- Takes one token. -/
def readToken (stack : List Frame) (expected : Expected) (t : Token) :
    Option (List Frame × Expected) :=
  match expected, t, stack with
  | .value, t, stack => openValue stack t
  | .firstItem, .closeArray, .array items :: stack =>
    some (stack, .after (nested stack (.array items.reverse)))
  | .firstItem, t, stack => openValue stack t
  | .firstKey, .text k, stack => some (stack, .colon [] k)
  | .firstKey, .closeObject, stack => some (stack, .after (nested stack (.object [])))
  | .key fields, .text k, stack => some (stack, .colon fields k)
  | .colon fields k, .colon, stack => some (.object fields k :: stack, .value)
  | .after v, .comma, .array items :: stack => some (.array (v :: items) :: stack, .value)
  | .after v, .closeArray, .array items :: stack =>
    some (stack, .after (nested stack (.array (v :: items).reverse)))
  | .after v, .comma, .object fields k :: stack => some (stack, .key ((k, v) :: fields))
  | .after v, .closeObject, .object fields k :: stack =>
    some (stack, .after (nested stack (objectOf ((k, v) :: fields))))
  | _, _, _ => none

/-- Takes tokens one after another. -/
def readTokens (stack : List Frame) (expected : Expected) :
    List Token → Option (List Frame × Expected)
  | [] => some (stack, expected)
  | t :: ts =>
    match readToken stack expected t with
    | some (stack, expected) => readTokens stack expected ts
    | none => none

/-- The value that a text holds, which may contain parts that stand for nothing. -/
def read? (s : String) : Option Json :=
  match (tokens? s.toList).bind (readTokens [] .value) with
  | some ([], .after v) => some v
  | _ => none

/-- The value that a text holds, all of whose parts stand for something. -/
def parse? (s : String) : Option Json := (read? s).filter isValid

end StoryPreview.Json
