import StoryPreview.Session.Action
/-!
One action folded onto a state. The result depends on the state, the action and where the player is,
and on nothing else.
-/
namespace StoryPreview

/-- What an action did. -/
inductive Outcome
  /-- The story moved. -/
  | advanced
  /-- Only what is recorded about it changed. -/
  | annotated
  /-- The choice is not on offer; an error was recorded. -/
  | invalidChoice
  | ignored
  deriving DecidableEq

/-- Folds an action that does not touch the story. -/
def State.annotate (s : State) : Action → State × Outcome
  | .toggleLiveUpdate enabled => ({ s with liveUpdate := enabled }, .annotated)
  | .recordErrors errors => ({ s with errors := s.errors ++ errors }, .annotated)
  | .recordEvents events => ({ s with events := s.events ++ events }, .annotated)
  | _ => (s, .ignored)

/-- The state after a run that started from a state. -/
def State.afterRun (s : State) (p : Player) (result : Except RuntimeError Passage) :
    Except RuntimeError (State × Outcome) :=
  match result with
  | .ok passage => .ok (s.absorb passage p, .advanced)
  | .error e => .error e

/-- Folds an action, moving the player when the action moves the story. A choice that is not on offer
never reaches the player. -/
def State.apply (s : State) (p : Player) (a : Action) :
    Player × Except RuntimeError (State × Outcome) :=
  match a with
  | .start =>
    let (p, result) := p.fresh.goOn
    (p, { s with transcript := [] }.afterRun p result)
  | .selectChoice index =>
    let available := p.choices.length
    if available ≤ index then
      let errors := s.errors ++ [.invalidChoice index available]
      (p, .ok ({ s with errors }, .invalidChoice))
    else
      let (p, result) := p.choose index
      (p, s.afterRun p result)
  | a => (p, .ok (s.annotate a))

end StoryPreview
