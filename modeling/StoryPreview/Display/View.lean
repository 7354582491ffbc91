import StoryPreview.Session.State
/-!
What a terminal prints for each new state: only what has not been printed before, as long as the
transcript goes on from what was printed; otherwise everything from the top.
-/
namespace StoryPreview

/-- What the terminal shows. -/
structure View where
  /-- The transcript that has been printed. -/
  shown : List TranscriptEntry
  errorsShown : Nat
  /-- The image on each layer. -/
  images : List (String × String)
  bgm : Option String
  deriving DecidableEq

/-- What is to be printed. -/
structure Delta where
  /-- Whether the screen is cleared first. -/
  redraw : Bool
  lines : List String
  errors : List String
  deriving DecidableEq

def Delta.isEmpty (d : Delta) : Bool := !d.redraw && d.lines.isEmpty && d.errors.isEmpty

/-- An error as it is printed. -/
def ErrorInfo.render (e : ErrorInfo) : String :=
  match e.line with
  | some line => "line " ++ toString line ++ ": " ++ e.message
  | none => e.message

namespace View

/-- Nothing printed yet. -/
def empty : View := ⟨[], 0, [], none⟩

/-- Layer and image of a cue: what stands before and behind the first colon, or all of it the image
of the layer without a name. -/
def splitImage (value : String) : String × String :=
  let cs := value.toList
  match cs.dropWhile (· ≠ ':') with
  | [] => ("", value)
  | _ :: image => (String.ofList (cs.takeWhile (· ≠ ':')), String.ofList image)

/-- The line for a cue, if it changes anything that is seen or heard. -/
def renderTag (v : View) (name value : String) : View × Option String :=
  match name with
  | "show_image" =>
    let (layer, image) := splitImage value
    if v.images.lookup layer = some image then (v, none)
    else
      ({ v with images := (layer, image) :: v.images.filter fun i => i.1 ≠ layer },
        some ("  [ShowImage: " ++ image ++ " (" ++ layer ++ ")]"))
  | "clear_layer" =>
    if (v.images.lookup value).isSome then
      ({ v with images := v.images.filter fun i => i.1 ≠ value },
        some ("  [ClearLayer: " ++ value ++ "]"))
    else (v, none)
  | "play_bgm" =>
    if v.bgm = some value then (v, none)
    else ({ v with bgm := some value }, some ("  [PlayBGM: " ++ value ++ "]"))
  | "play_se" => (v, some ("  [PlaySE: " ++ value ++ "]"))
  | name => (v, some ("  [" ++ name ++ ": " ++ value ++ "]"))

def renderEntry (v : View) : TranscriptEntry → View × Option String
  | .text (some speaker) text => (v, some (speaker ++ ":\n" ++ text ++ "\n"))
  | .text none text => (v, some (text ++ "\n"))
  | .tag name value => v.renderTag name (value.getD "")

def renderEntries (v : View) : List TranscriptEntry → View × List String
  | [] => (v, [])
  | e :: es =>
    let (v, line) := v.renderEntry e
    let (v, lines) := v.renderEntries es
    (v, line.toList ++ lines)

/-- Goes on to a state, and says what is to be printed for it. -/
def apply (v : View) (s : State) : View × Delta :=
  let redraw := !v.shown.isPrefixOf s.transcript
  let v := if redraw then empty else v
  let (v, lines) := v.renderEntries (s.transcript.drop v.shown.length)
  let errorsShown := if s.errors.length < v.errorsShown then 0 else v.errorsShown
  let errors := (s.errors.drop errorsShown).map ErrorInfo.render
  ({ v with shown := s.transcript, errorsShown := s.errors.length }, ⟨redraw, lines, errors⟩)

end View

end StoryPreview
