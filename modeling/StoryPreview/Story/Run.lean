import StoryPreview.Story.Basic
import StoryPreview.Story.Cursor
/-!
Running a story: one command at a time, and from a cursor up to the next choice or the end within a
budget of commands.
-/
namespace StoryPreview

/-- A line of the transcript. -/
inductive TranscriptEntry
  /-- Dialogue, or narration when there is no speaker. -/
  | text (speaker : Option String) (text : String)
  /-- A cue such as an image, music or a pause. -/
  | tag (name : String) (value : Option String)
  deriving DecidableEq

/-- A call from the story into a function of the host. -/
structure FunctionEvent where
  name : String
  args : List String
  deriving DecidableEq

/-- What one command puts out. -/
inductive Output
  | nothing
  | entry (e : TranscriptEntry)
  | event (e : FunctionEvent)
  deriving DecidableEq

/-- What a story puts out between two stops. -/
structure Passage where
  entries : List TranscriptEntry
  events : List FunctionEvent
  deriving DecidableEq

namespace Passage

def empty : Passage := ⟨[], []⟩

def isEmpty (p : Passage) : Bool := p.entries.isEmpty && p.events.isEmpty

/-- The passage of a list of outputs. -/
def ofOutputs (outputs : List Output) : Passage where
  entries := outputs.filterMap fun
    | .entry e => some e
    | _ => none
  events := outputs.filterMap fun
    | .event e => some e
    | _ => none

end Passage

/-- Why a story could not go on. -/
inductive RuntimeError
  | stepLimit (limit : Nat)
  | choiceOutOfRange (index available : Nat)
  deriving DecidableEq

def RuntimeError.message : RuntimeError → String
  | .stepLimit limit =>
    "Story did not reach a choice or the end within " ++ toString limit ++ " steps"
  | .choiceOutOfRange index available =>
    "Choice " ++ toString index ++ " out of range (" ++ toString available ++ " available)"

/-- What executing one command gives. -/
structure Step where
  cursor : Cursor
  output : Output
  /-- Whether the story waits for its reader now. -/
  stops : Bool

namespace Story

/-- The cursor after a jump; a label that is nowhere is passed over. -/
def jump (s : Story) (c : Cursor) (label : String) : Cursor :=
  match s.labelIndex? label with
  | some i => { c with pc := i }
  | none => c.next

/-- The cue that a command gives, if it gives one. -/
def cue? : Node → Option (String × String)
  | .showImage layer name => some ("show_image", layer ++ ":" ++ name)
  | .playBgm name => some ("play_bgm", name)
  | .playSe name => some ("play_se", name)
  | .playMovie name => some ("play_movie", name)
  | .wait seconds => some ("wait", seconds.text .single)
  | .clearLayer layer => some ("clear_layer", layer)
  | _ => none

/-- What a command puts out. -/
def output : Node → Output
  | .say speaker text => .entry (.text speaker text)
  | .call name args => .event ⟨name, args⟩
  | node =>
    match cue? node with
    | some (name, value) => .entry (.tag name (some value))
    | none => .nothing

/-- The cursor after a command. A condition that cannot be evaluated does not hold, and a
modification that fails changes nothing. -/
def move (s : Story) (c : Cursor) : Node → Cursor
  | .branch choices => { c.next with pending := choices }
  | .jump label => s.jump c label
  | .jumpIf var cmp value label =>
    match c.check var cmp value with
    | .ok true => s.jump c label
    | _ => c.next
  | .set name value => (c.set name value).next
  | .modify name op value =>
    match c.modify name op value with
    | .ok c => c.next
    | .error _ => c.next
  | _ => c.next

/-- Whether the story waits for its reader after a command. -/
def stops : Node → Bool
  | .branch _ => true
  | _ => false

/-- Executes one command. -/
def execute (s : Story) (c : Cursor) (node : Node) : Step :=
  ⟨s.move c node, output node, stops node⟩

/-- Where a run within a budget got to. -/
structure Progress where
  cursor : Cursor
  /-- What was put out, last first. -/
  trace : List Output
  /-- Whether the story stopped by itself, and not for want of budget. -/
  finished : Bool

/-- Executes up to so many commands, behind what has been put out before. -/
def advance (s : Story) : Nat → Cursor → List Output → Progress
  | 0, c, trace => ⟨c, trace, (s.node? c.pc).isNone⟩
  | budget + 1, c, trace =>
    match s.node? c.pc with
    | none => ⟨c, trace, true⟩
    | some node =>
      let step := s.execute c node
      if step.stops then ⟨step.cursor, step.output :: trace, true⟩
      else s.advance budget step.cursor (step.output :: trace)

/-- Runs up to the next choice or the end. A cursor that waits for a choice stays where it is. When
the budget is spent before that, the run fails and the cursor is where it got to. -/
def run (s : Story) (limit : Nat) (c : Cursor) : Cursor × Except RuntimeError Passage :=
  if c.isWaiting then (c, .ok .empty)
  else
    let p := s.advance limit c []
    (p.cursor, if p.finished then .ok (.ofOutputs p.trace.reverse) else .error (.stepLimit limit))

/-- Takes one of the choices the cursor waits for and goes to its label. -/
def select (s : Story) (c : Cursor) (index : Nat) : Except RuntimeError Cursor :=
  match c.pending[index]? with
  | none => .error (.choiceOutOfRange index c.pending.length)
  | some choice =>
    .ok { c with pc := (s.labelIndex? choice.target).getD c.pc, pending := [] }

end Story

end StoryPreview
