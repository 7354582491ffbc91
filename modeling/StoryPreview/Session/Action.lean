import StoryPreview.Session.State
/-!
Actions, and the log of a session.
-/
namespace StoryPreview

/-- What a reader or the preview itself wants of a session. -/
inductive Action
  /-- Begin the story, or begin it again. -/
  | start
  | selectChoice (index : Nat)
  /-- Undo the last choice. -/
  | rewind
  | toggleLiveUpdate (enabled : Bool)
  | recordErrors (errors : List ErrorInfo)
  | recordEvents (events : List FunctionEvent)
  deriving DecidableEq

namespace Action

/-- The name of the kind of an action. -/
def kind : Action → String
  | .start => "start"
  | .selectChoice _ => "selectChoice"
  | .rewind => "rewind"
  | .toggleLiveUpdate _ => "toggleLiveUpdate"
  | .recordErrors _ => "recordErrors"
  | .recordEvents _ => "recordEvents"

def kinds : List String :=
  ["start", "selectChoice", "rewind", "toggleLiveUpdate", "recordErrors", "recordEvents"]

/-- Whether the action takes a choice. -/
def affectsChoice : Action → Bool
  | .selectChoice _ => true
  | _ => false

theorem kind_mem_kinds (a : Action) : a.kind ∈ kinds := by
  cases a <;> simp [kind, kinds]

end Action

/-- The actions of a session, in order. -/
abbrev ActionLog := List Action

namespace ActionLog

/-- The position of the last choice. -/
def lastChoice : ActionLog → Option Nat
  | [] => none
  | a :: log =>
    match lastChoice log with
    | some i => some (i + 1)
    | none => if a.affectsChoice then some 0 else none

/-- The position of the last choice before position `limit`. -/
def lastChoiceBefore (log : ActionLog) (limit : Nat) : Option Nat := lastChoice (log.take limit)

/-- The log without the choices from a position on. -/
def dropChoicesFrom (log : ActionLog) (position : Nat) : ActionLog :=
  log.take position ++ (log.drop position).filter fun a => !a.affectsChoice

/-- What is left of an action when compile errors are forgotten. -/
def withoutCompileErrors : Action → Option Action
  | .recordErrors errors =>
    let errors := errors.filter fun e => !e.kind.isCompile
    if errors.isEmpty then none else some (.recordErrors errors)
  | a => some a

/-- The log without compile errors, and without records that are left empty. -/
def dropCompileErrors (log : ActionLog) : ActionLog := log.filterMap withoutCompileErrors

end ActionLog

end StoryPreview
