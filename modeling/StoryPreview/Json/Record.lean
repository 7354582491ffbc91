import StoryPreview.Json.Basic
/-!
Reading records and variants from JSON.

A record is an object in which each known field stands at most once and unknown fields are skipped,
or an array of the fields in their order, the last of which may be missing. A variant is an object
with a tag beside its fields, or an array that starts with the tag. Within a variant the readers are
a little freer: the number of a variant may stand for its tag, and an empty object for the missing
content of a name.
-/
namespace StoryPreview.Json

/-- Whether a value stands within a variant. -/
inductive Setting
  | plain
  | inVariant
  deriving DecidableEq

/-- The only value of a list, if there is at most one. -/
def atMostOne : List Json → Option (Option Json)
  | [] => some none
  | [v] => some (some v)
  | _ => none

/-- The values of the named fields of an object. -/
def fieldValues (fields : List (String × Json)) : List String → Option (List (Option Json))
  | [] => some []
  | name :: names =>
    match atMostOne (values name fields), fieldValues fields names with
    | some v, some vs => some (v :: vs)
    | _, _ => none

/-- The values of an array, one for each of `n` fields. -/
def itemValues : Nat → List Json → Option (List (Option Json))
  | 0, [] => some []
  | 0, _ => none
  | n + 1, [] => (itemValues n []).map (none :: ·)
  | n + 1, v :: vs => (itemValues n vs).map (some v :: ·)

/-- The values of the named fields of a record. -/
def record? (names : List String) : Json → Option (List (Option Json))
  | .object fields => fieldValues fields names
  | .array items => itemValues names.length items
  | _ => none

/-- The tag of a variant: its name, or its number among `names` where numbers may stand for it. -/
def tag? (setting : Setting) (names : List String) : Json → Option String
  | .text s => if s ∈ names then some s else none
  | .number (.integer n) =>
    if setting = .inVariant && 0 ≤ n then names[n.toNat]? else none
  | _ => none

/-- The tag of a variant and what remains when it is taken away. -/
def variant? (setting : Setting) (key : String) (names : List String) :
    Json → Option (String × Json)
  | .object fields =>
    match values key fields with
    | [v] => (tag? setting names v).map fun t => (t, .object (fields.filter fun f => f.1 ≠ key))
    | _ => none
  | .array (v :: vs) => (tag? setting names v).map fun t => (t, .array vs)
  | _ => none

/-- A name that stands alone, or as the key of an object without content. -/
def name? (setting : Setting) : Json → Option String
  | .text s => some s
  | .object [(s, .null)] => some s
  | .object [(s, .object [])] => if setting = .inVariant then some s else none
  | _ => none

/-- A field that must be there. -/
def required (read : Json → Option α) (v : Option Json) : Option α := v.bind read

/-- A field that may be missing, or `null`. -/
def nullable (read : Json → Option α) : Option Json → Option (Option α)
  | none => some none
  | some .null => some none
  | some v => (read v).map some

/-- A field that has a value when it is missing. -/
def defaulted (default : α) (read : Json → Option α) : Option Json → Option α
  | none => some default
  | some v => read v

/-- An array of values of one kind. -/
def list? (read : Json → Option α) : Json → Option (List α)
  | .array items => items.mapM read
  | _ => none

end StoryPreview.Json
