import StoryPreview.Log.Filter
import StoryPreview.Log.Shown
import StoryPreview.Message.Basic
import StoryPreview.Session.Basic
/-!
Notices: what a preview reports to its author beside the state. They never influence the preview.
Each has a level, the part of the program it is about, and a text.
-/
namespace StoryPreview

inductive Notice
  /-- The story is to go on although it waits for a choice. -/
  | choicePending (pc : Nat)
  | executing (pc : Nat) (node : Node)
  | choicesOffered (count pc : Nat)
  | choiceTaken (index start target : Nat) (label : String)
  | jumped (start target : Nat) (label : String)
  | conditionHolds (var : String) (current : Option Value) (cmp : Comparison) (value : String)
      (target : Nat) (label : String)
  | conditionSkipped (var : String) (reason : ValueError)
  | variableSet (name value : String)
  | modificationSkipped (name : String) (op : Operation) (value : String) (reason : ValueError)
  | inclusionIgnored (name : String) (pc : Nat)
  | endReached (pc : Nat)
  /-- A run from one command to another spent its budget. -/
  | stepLimit (limit start stop : Nat)
  | choiceRejected (index available : Nat)
  /-- There is no story that the action could move. -/
  | actionWithoutEffect (kind : String)
  | sessionBegun
  | storyReplaced (actions : Nat)
  | replayDiverged (position : Nat)
  | staleChoicesDropped (position : Nat) (kind : String)
  | rewound (position dropped : Nat)
  | nothingToRewind
  | runFailed (kind : String) (reason : RuntimeError)
  | sessionEnded (actions : Nat)
  /-- An action for a session that has ended. -/
  | actionDropped (kind : String)
  | sessionFailed (reason : SessionError)
  | actionRefused (reason : SessionError)
  | compileFailed (errors : List CompileError)
  | actionQueued (kind : String)
  | queuedActionDropped (kind : String)
  | actorStopped
  | storyInitialized (epoch : Nat)
  | readyRepeated
  | unknownAction (kind : String)
  | messageDropped (reason : ProtocolError)
  | dispatchIgnored
  | previewDisposed
  /-- The text that a target names is not in the document. -/
  | targetMissing (text : String)
  | includeLoading (name path : String)
  | compiling (bytes epoch : Nat)
  | compiled (nodes labels : Nat)
  /-- An edit is not compiled because the live-update flag is off. -/
  | sourceHeld
  | sourceUnchanged
  | displayNeverReady
  | coordinatorStopped
  | serving (path : String)
  | scriptChanged (path : String)
  | scriptUnreadable (path : String) (reason : FileError)
  /-- A message could not be handled; the text says why. -/
  | messageFailed (reason : String)
  | inputClosed

namespace Notice

def level : Notice → LogLevel
  | .executing .. | .variableSet .. | .actionWithoutEffect _ | .sourceUnchanged => .trace
  | .choicePending _ | .choicesOffered .. | .choiceTaken .. | .jumped .. | .conditionHolds ..
  | .endReached _ | .choiceRejected .. | .nothingToRewind | .actionDropped _ | .actionQueued _
  | .queuedActionDropped _ | .actorStopped | .readyRepeated | .dispatchIgnored | .targetMissing _
  | .includeLoading .. | .sourceHeld | .displayNeverReady | .coordinatorStopped => .debug
  | .sessionBegun | .storyReplaced _ | .replayDiverged _ | .staleChoicesDropped .. | .rewound ..
  | .sessionEnded _ | .storyInitialized _ | .previewDisposed | .compiling .. | .compiled ..
  | .serving _ | .scriptChanged _ | .inputClosed => .info
  | .sessionFailed _ => .error
  | _ => .warn

def category : Notice → LogCategory
  | .choicePending _ | .executing .. | .choicesOffered .. | .choiceTaken .. | .jumped ..
  | .conditionHolds .. | .conditionSkipped .. | .variableSet .. | .modificationSkipped ..
  | .inclusionIgnored .. | .endReached _ | .stepLimit .. => .runtime
  | .targetMissing _ => .bridge
  | .includeLoading .. | .compiling .. | .compiled .. | .sourceHeld | .sourceUnchanged
  | .displayNeverReady | .coordinatorStopped => .compiler
  | .serving _ | .scriptChanged _ | .scriptUnreadable .. | .messageFailed _ | .inputClosed => .cli
  | _ => .session

def text : Notice → String
  | .choicePending pc => "Waiting for choice at PC=" ++ toString pc ++ ", not advancing"
  | .executing pc node => "Executing PC=" ++ toString pc ++ " node=" ++ node.shown
  | .choicesOffered count pc =>
    "Presenting " ++ toString count ++ " choices at PC=" ++ toString pc
  | .choiceTaken index start target label =>
    "Choice " ++ toString index ++ " selected, jumping from PC=" ++ toString start ++ " to PC=" ++
      toString target ++ " (label=" ++ label ++ ")"
  | .jumped start target label =>
    "Jumping from PC=" ++ toString start ++ " to PC=" ++ toString target ++ " (label=" ++ label ++
      ")"
  | .conditionHolds var current cmp value target label =>
    "Condition " ++ var ++ "=" ++ Shown.optional Value.shown current ++ " " ++ cmp.label ++ " " ++
      value ++ " holds, jumping to PC=" ++ toString target ++ " (label=" ++ label ++ ")"
  | .conditionSkipped var reason =>
    "Cannot evaluate condition on '" ++ var ++ "': " ++ reason.message
  | .variableSet name value => "Setting " ++ name ++ "=" ++ value
  | .modificationSkipped name op value reason =>
    "MODIFY " ++ name ++ " " ++ op.label ++ " " ++ value ++ " skipped: " ++ reason.message
  | .inclusionIgnored name pc =>
    "Unresolved include '" ++ name ++ "' at PC=" ++ toString pc ++ " ignored"
  | .endReached pc => "Reached end of program at PC=" ++ toString pc
  | .stepLimit limit start stop =>
    "Step limit " ++ toString limit ++ " hit between PC=" ++ toString start ++ " and PC=" ++
      toString stop
  | .choiceRejected index available =>
    "Choice " ++ toString index ++ " rejected, " ++ toString available ++ " available"
  | .actionWithoutEffect kind => kind ++ " has no effect without a story"
  | .sessionBegun => "Beginning session"
  | .storyReplaced actions => "Replacing story, replaying " ++ toString actions ++ " actions"
  | .replayDiverged position =>
    "Replay diverged at log position " ++ toString position ++ ", later choices skipped"
  | .staleChoicesDropped position kind =>
    "Dropping stale choices from log position " ++ toString position ++ " before " ++ kind
  | .rewound position dropped =>
    "Rewinding to log position " ++ toString position ++ " (" ++ toString dropped ++
      " actions dropped)"
  | .nothingToRewind => "Nothing to rewind"
  | .runFailed kind reason => "Runtime failure while applying " ++ kind ++ ": " ++ reason.message
  | .sessionEnded actions => "Disposing session after " ++ toString actions ++ " actions"
  | .actionDropped kind => "Session disposed, dropping " ++ kind
  | .sessionFailed reason => "Session failed, disposing: " ++ reason.message
  | .actionRefused reason => reason.message
  | .compileFailed errors =>
    "Compile failed, keeping the current story: " ++ CompileError.summary errors
  | .actionQueued kind => "Recompile in flight, queueing " ++ kind
  | .queuedActionDropped kind => "Dropping queued " ++ kind ++ " after dispose"
  | .actorStopped => "Session actor stopped"
  | .storyInitialized epoch => "Initializing story (epoch " ++ toString epoch ++ ")"
  | .readyRepeated => "Ignoring repeated ready"
  | .unknownAction kind => "Unknown action kind " ++ Text.quoted kind
  | .messageDropped reason => "Dropping inbound message: " ++ reason.message
  | .dispatchIgnored => "Session gone, dispatch ignored"
  | .previewDisposed => "Disposing preview"
  | .targetMissing text => "Jump target " ++ Text.quoted text ++ " not in document"
  | .includeLoading name path => "Loading include '" ++ name ++ "' from " ++ path
  | .compiling bytes epoch =>
    "Compiling " ++ toString bytes ++ " bytes of source (epoch " ++ toString epoch ++ ")"
  | .compiled nodes labels =>
    "Compiled script: " ++ toString nodes ++ " nodes, " ++ toString labels ++ " labels"
  | .sourceHeld => "Live update is off, holding source"
  | .sourceUnchanged => "Source unchanged, skipping recompile"
  | .displayNeverReady => "Preview disposed before the surface was ready"
  | .coordinatorStopped => "Recompile coordinator stopped"
  | .serving path => "Serving " ++ path
  | .scriptChanged path => path ++ " changed"
  | .scriptUnreadable path reason => "Failed to read " ++ path ++ ": " ++ reason.message
  | .messageFailed reason => reason
  | .inputClosed => "stdin closed, shutting down"

/-- The line of the log for a notice, or nothing. -/
def render (f : LogFilter) (n : Notice) : String :=
  if f.allows n.level n.category then LogFilter.line n.level n.category n.text else ""

end Notice

end StoryPreview
