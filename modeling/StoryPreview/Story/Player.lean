import StoryPreview.Story.Run
/-!
Players: a story that is being played, with the budget for each of its runs.
-/
namespace StoryPreview

/-- A choice as the reader sees it. -/
structure ChoiceView where
  index : Nat
  text : String
  deriving DecidableEq

/-- A story and where it is. -/
structure Player where
  story : Story
  budget : Nat
  cursor : Cursor

namespace Player

/-- A story that has not started. -/
def ofStory (story : Story) (budget : Nat) : Player := ⟨story, budget, .start⟩

/-- The same story, not started. -/
def fresh (p : Player) : Player := { p with cursor := .start }

/-- Goes on to the next choice or the end. -/
def goOn (p : Player) : Player × Except RuntimeError Passage :=
  let (cursor, result) := p.story.run p.budget p.cursor
  ({ p with cursor }, result)

/-- Takes a choice and goes on from there. A choice that is not offered changes nothing. -/
def choose (p : Player) (index : Nat) : Player × Except RuntimeError Passage :=
  match p.story.select p.cursor index with
  | .error e => (p, .error e)
  | .ok cursor => { p with cursor }.goOn

/-- The choices on offer, numbered from zero. -/
def choices (p : Player) : List ChoiceView :=
  p.cursor.pending.zipIdx.map fun (choice, index) => ⟨index, choice.text⟩

/-- Whether there is more to come without a choice. -/
def canContinue (p : Player) : Bool := !p.cursor.isWaiting && p.cursor.pc < p.story.size

/-- Whether nothing more is to come. -/
def isEnded (p : Player) : Bool := !p.cursor.isWaiting && p.story.size ≤ p.cursor.pc

end Player

end StoryPreview
