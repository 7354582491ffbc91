import StoryPreview.Log.Playing
import StoryPreview.Preview.Gate
/-!
The actor that owns the session of a preview. It takes one command after another. From a `hold`, which
announces a compile, to the `load` of its result, actions are kept in a queue.
-/
namespace StoryPreview

/-- What a compile gives. -/
abbrev CompileResult := Except (List CompileError) Player

/-- What the actor is told to do. Calls are numbered, so that each can be answered. -/
inductive Command
  | dispatch (a : Action) (call : Nat)
  /-- A compile is about to begin. -/
  | hold
  /-- A compile has ended; `restart` asks for a new session instead of a replay. -/
  | load (result : CompileResult) (restart : Bool)
  | getState (call : Nat)
  | dispose

/-- What can be seen of a preview from outside. -/
inductive Event
  | posted (m : Outbound)
  | answered (call : Nat) (result : Except PreviewError Unit)
  | told (call : Nat) (state : State)
  /-- A compile of the text of an epoch has begun. -/
  | compiling (text : String) (epoch : Nat)
  | noticed (n : Notice)
  /-- The notices of an operation, for whoever wants to have them worked out. -/
  | reported (notices : Thunk (List Notice))

structure Actor where
  session : Session
  holding : Bool
  /-- The actions kept, with the numbers of their calls. -/
  queued : List (Action × Nat)

namespace Actor

def new (liveDefault : Bool) : Actor := ⟨.new liveDefault, false, []⟩

/-- Nothing is done any more. -/
def isStopped (a : Actor) : Bool := a.session.disposed

/-- The events of an operation of the session: its notices, and every state that was shown. -/
def eventsOf (notices : Thunk (List Notice)) (r : Reply α) : List Event :=
  .reported notices :: r.shown.map fun s => .posted (.updateState s)

/-- The session after an operation, with what is said about a failure. A failure of the story ends
the session. -/
def settle (r : Reply Unit) : Session × List Event :=
  match r.result with
  | .ok _ => (r.session, [])
  | .error (.runtime e) =>
    (r.session.dispose.session,
      .noticed (.sessionFailed (.runtime e)) :: r.session.disposeNotices.map .noticed)
  | .error e => (r.session, [.noticed (.actionRefused e)])

/-- Applies an operation of the session. -/
def apply (a : Actor) (notices : Thunk (List Notice)) (r : Reply Unit) : Actor × List Event :=
  let (session, events) := settle r
  ({ a with session }, eventsOf notices r ++ events)

/-- Applies an action and answers its call. -/
def perform (a : Actor) (action : Action) (call : Nat) : Actor × List Event :=
  let r := a.session.dispatch action
  let (a, events) := a.apply (a.session.dispatchNotices action) r
  (a, events ++ [.answered call (r.result.mapError .session)])

/-- Applies the result of a compile. A script that does not compile leaves the story as it is and is
recorded among the errors. -/
def load (a : Actor) (result : CompileResult) (restart : Bool) : Actor × List Event :=
  let s := a.session
  match result with
  | .ok p =>
    if restart || !s.hasStory then a.apply (s.beginNotices p) (s.begin p)
    else a.apply (s.replaceNotices p) (s.replace p)
  | .error errors =>
    let action := .recordErrors (errors.map .ofCompileError)
    a.apply (.compileFailed errors :: s.dispatchNotices action) (s.dispatch action)

/-- Performs actions in order until one of them ends the session; what is left stays queued. -/
def drain (a : Actor) : List (Action × Nat) → Actor × List Event
  | [] => ({ a with queued := [] }, [])
  | (action, call) :: rest =>
    if a.isStopped then ({ a with queued := (action, call) :: rest }, [])
    else
      let (a, events) := a.perform action call
      let (a, more) := a.drain rest
      (a, events ++ more)

/-- Answers an action without applying it. -/
def drop (q : Action × Nat) : List Event :=
  [.noticed (.queuedActionDropped q.1.kind), .answered q.2 (.ok ())]

/-- Once the session has ended, whatever is queued is answered without being applied. -/
def release (a : Actor) : Actor × List Event :=
  if a.isStopped then
    ({ a with queued := [] }, a.queued.flatMap drop ++ [.noticed .actorStopped])
  else (a, [])

/-- What happens when no more commands can come: whatever is still queued is answered without being
applied. -/
def close (a : Actor) : List Event :=
  a.queued.flatMap drop ++ if a.isStopped then [] else [.noticed .actorStopped]

/-- Takes a command while the session lasts. -/
def obey (a : Actor) : Command → Actor × List Event
  | .dispatch action call =>
    if a.holding then
      ({ a with queued := a.queued ++ [(action, call)] }, [.noticed (.actionQueued action.kind)])
    else a.perform action call
  | .hold => ({ a with holding := true }, [])
  | .load result restart =>
    let (a, events) := a.load result restart
    let (a, more) := { a with holding := false }.drain a.queued
    (a, events ++ more)
  | .getState call => (a, [.told call a.session.state])
  | .dispose =>
    ({ a with session := a.session.dispose.session }, a.session.disposeNotices.map .noticed)

/-- Takes a command. When the session has ended, an action is answered and that is all. -/
def step (a : Actor) (c : Command) : Actor × List Event :=
  if a.isStopped then
    match c with
    | .dispatch _ call => (a, [.answered call (.ok ())])
    | _ => (a, [])
  else
    let (a, events) := a.obey c
    let (a, more) := a.release
    (a, events ++ more)

/-- Takes commands one after another. -/
def run (a : Actor) : List Command → Actor × List Event
  | [] => (a, [])
  | c :: cs =>
    let (a, events) := a.step c
    let (a, more) := a.run cs
    (a, events ++ more)

theorem run_append (a : Actor) (cs ds : List Command) :
    a.run (cs ++ ds) =
      (((a.run cs).1.run ds).1, (a.run cs).2 ++ ((a.run cs).1.run ds).2) := by
  induction cs generalizing a with
  | nil => simp [run]
  | cons c cs ih => simp [run, ih]

end Actor

end StoryPreview
