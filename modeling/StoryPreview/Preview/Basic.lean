import StoryPreview.Preview.Actor
import StoryPreview.Text.Fingerprint
/-!
Previews. A preview has two parties: the actor, which owns the session, and the coordinator, which
compiles edits of the script, one at a time and only the latest. They run whenever they can: `settle`
lets them run until neither can move. The coordinator announces each compile to the actor, waits for
the display the first time, compiles, and sends the result on.

An edit is compiled if the display is ready and the edit begins a new epoch, or the live-update flag is
set and the text differs from the one compiled last. The flag is the one of the last state that the
actor had shown when the coordinator looked. It looks when the source or the flag has changed since it
last saw them: it sees both whenever it looks, and the source once more when a compile begins.
-/
namespace StoryPreview

/-- The latest text of a script. Each new story begins an epoch. -/
structure Source where
  text : String
  epoch : Nat
  deriving DecidableEq

/-- What was compiled last. -/
structure CompileRecord where
  epoch : Nat
  fingerprint : Fingerprint
  deriving DecidableEq

/-- What the coordinator is doing. -/
inductive Phase
  /-- It waits for something to change. -/
  | watching
  /-- It has announced a compile and waits for the display. -/
  | awaitingReady
  /-- A compile is held up. -/
  | compiling (source : Source)
  | stopped
  deriving DecidableEq

/-- A preview; `inbox` holds the commands on their way to the actor. -/
structure Preview where
  actor : Actor
  gate : Gate
  source : Option Source
  compiled : Option CompileRecord
  /-- The epoch of the story the session runs. -/
  loadedEpoch : Option Nat
  phase : Phase
  /-- Whether compiles are held up. -/
  held : Bool
  inbox : List Command
  /-- The live-update flag of the last state shown. -/
  live : Bool
  /-- Whether the source has changed since the coordinator saw it. -/
  sourceChanged : Bool
  /-- Whether the flag has changed since the coordinator saw it. -/
  liveChanged : Bool
  /-- How many calls have been made. -/
  calls : Nat

namespace Preview

def new (liveDefault : Bool) : Preview where
  actor := .new liveDefault
  gate := .waiting
  source := none
  compiled := none
  loadedEpoch := none
  phase := .watching
  held := false
  inbox := []
  live := liveDefault
  sourceChanged := false
  liveChanged := false
  calls := 0

/-! ## The coordinator -/

/-- What is to be done with a source. -/
inductive Verdict
  | compile
  /-- It has to wait until the live-update flag is set. -/
  | hold
  | unchanged
  deriving DecidableEq

def Verdict.notices : Verdict → List Notice
  | .compile => []
  | .hold => [.sourceHeld]
  | .unchanged => [.sourceUnchanged]

/-- What is to be done with a source, in view of what was compiled last. -/
def verdict (compiled : Option CompileRecord) (live : Bool) (source : Source) : Verdict :=
  match compiled with
  | none => .compile
  | some last =>
    if last.epoch ≠ source.epoch then .compile
    else if !live then .hold
    else if last.fingerprint = .ofText source.text then .unchanged
    else .compile

/-- The coordinator ends. -/
def stop (p : Preview) (notices : List Notice) : Preview × List Event :=
  ({ p with phase := .stopped }, (notices ++ [Notice.coordinatorStopped]).map .noticed)

/-- Ends a compile and sends the result to the actor. The first success of an epoch starts a new
session. -/
def finishCompile (compile : String → CompileResult) (p : Preview) (source : Source) : Preview :=
  let result := compile source.text
  { p with
    compiled := some ⟨source.epoch, .ofText source.text⟩
    loadedEpoch := if result.isOk then some source.epoch else p.loadedEpoch
    inbox := p.inbox ++ [.load result (p.loadedEpoch ≠ some source.epoch)]
    phase := .watching }

/-- Begins to compile the latest source, which is done at once unless compiles are held up. -/
def beginCompile (compile : String → CompileResult) (p : Preview) : Preview × List Event :=
  match p.source with
  | none => (p, [])
  | some source =>
    let p := { p with sourceChanged := false }
    (if p.held then { p with phase := .compiling source } else finishCompile compile p source,
      [.compiling source.text source.epoch])

/-- Looks at the latest source. Announces a compile if there is something to compile, and begins it if
the display is ready. -/
def look (compile : String → CompileResult) (p : Preview) : Preview × List Event :=
  let p := { p with sourceChanged := false, liveChanged := false }
  match p.source with
  | none => (p, [])
  | some source =>
    match verdict p.compiled p.live source with
    | .compile =>
      let p := { p with inbox := p.inbox ++ [Command.hold] }
      match p.gate with
      | .waiting => ({ p with phase := .awaitingReady }, [])
      | .opened => beginCompile compile p
      | .closed => p.stop [.displayNeverReady]
    | v => (p, v.notices.map .noticed)

/-- Looks if there is something that the coordinator has not seen. -/
def lookIfChanged (compile : String → CompileResult) (p : Preview) : Preview × List Event :=
  if p.sourceChanged || p.liveChanged then p.look compile else (p, [])

/-- Lets the coordinator run until it has to wait. -/
def coordinate (compile : String → CompileResult) (p : Preview) : Preview × List Event :=
  match p.phase with
  | .watching =>
    if p.actor.isStopped then p.stop [] else p.lookIfChanged compile
  | .awaitingReady =>
    match p.gate with
    | .waiting => (p, [])
    | .opened => beginCompile compile p
    | .closed => p.stop [.displayNeverReady]
  | .compiling source =>
    if p.held then (p, [])
    else if p.actor.isStopped then p.stop []
    else (finishCompile compile p source).lookIfChanged compile
  | .stopped => (p, [])

/-! ## The actor -/

/-- The flag of the last state that was shown, and whether it has changed on the way there. -/
def watchLive (live changed : Bool) : List Event → Bool × Bool
  | [] => (live, changed)
  | .posted (.updateState s) :: events =>
    watchLive s.liveUpdate (changed || s.liveUpdate ≠ live) events
  | _ :: events => watchLive live changed events

/-- Lets the actor take all its commands. The end of the session closes the gate. -/
def deliver (p : Preview) : Preview × List Event :=
  let (actor, events) := p.actor.run p.inbox
  let (live, liveChanged) := watchLive p.live p.liveChanged events
  ({ p with
      actor
      inbox := []
      live
      liveChanged
      gate := if actor.isStopped then .closed else p.gate },
    events)

/-! ## Both -/

def round (compile : String → CompileResult) (p : Preview) : Preview × List Event :=
  let (p, events) := p.coordinate compile
  let (p, more) := p.deliver
  (p, events ++ more)

/-- Lets both run until neither can move. A compile that was held up may be followed by one of an
edit made meanwhile, and the flag that its result brings by one more; after that there is nothing
left to compile. -/
def settle (compile : String → CompileResult) (p : Preview) : Preview × List Event :=
  let (p, first) := p.round compile
  let (p, second) := p.round compile
  let (p, third) := p.round compile
  (p, first ++ second ++ third)

/-! ## Calls -/

/-- Hands over a story to be played from its beginning. -/
def newStory (p : Preview) (text : String) : Preview × List Event :=
  let epoch := p.source.elim 0 Source.epoch + 1
  ({ p with source := some ⟨text, epoch⟩, sourceChanged := true },
    [.noticed (.storyInitialized epoch)])

/-- Hands over an edit. -/
def edit (p : Preview) (text : String) : Preview :=
  { p with source := some ⟨text, p.source.elim 0 Source.epoch⟩, sourceChanged := true }

/-- Reports that the display is ready; only the first report has an effect. -/
def ready (p : Preview) : Preview × Bool :=
  let (gate, opened) := p.gate.tryOpen
  ({ p with gate }, opened)

def isReady (p : Preview) : Bool := p.gate.isOpen

/-- Sends an action to the session. The call is answered once the action has been applied, or at
once when the session has ended. -/
def dispatch (p : Preview) (a : Action) : Preview × List Event :=
  ({ p with inbox := p.inbox ++ [.dispatch a p.calls], calls := p.calls + 1 },
    if p.actor.isStopped then [.noticed .dispatchIgnored] else [])

/-- The state of the session, while it lasts. -/
def state? (p : Preview) : Option State :=
  if p.actor.isStopped then none else some p.actor.session.state

/-- The latest text of the script. -/
def document (p : Preview) : String := p.source.elim "" Source.text

/-- The place in the latest text that a target names. -/
def jumpTo (p : Preview) (target : JumpTarget) : Except NavigationError Position :=
  target.resolve p.document

/-- The notices of going to a target. -/
def jumpNotices (p : Preview) (target : JumpTarget) : List Notice :=
  (target.missing? p.document).toList.map .targetMissing

/-- The answer to a request of the display to go to a place. -/
def navigationReply (p : Preview) (target : JumpTarget) : Outbound :=
  match p.jumpTo target with
  | .ok position => .revealPosition position
  | .error e => .navigationFailed e.message

/-- Ends the preview. -/
def dispose (p : Preview) : Preview × List Event :=
  ({ p with gate := .closed, inbox := p.inbox ++ [.dispose] }, [.noticed .previewDisposed])

/-- A call that is answered at once, after other events. -/
def answered (p : Preview) (result : Except PreviewError Unit) (events : List Event) :
    Preview × List Event :=
  ({ p with calls := p.calls + 1 }, events ++ [.answered p.calls result])

/-- Handles a message that the display has sent. An action of an unknown kind is recorded among the
errors of the session. -/
def handleMessage (p : Preview) (raw : String) : Preview × List Event :=
  match Inbound.decode raw with
  | .ok .ready =>
    let (p, opened) := p.ready
    p.answered (.ok ()) (if opened then [] else [.noticed .readyRepeated])
  | .ok (.action a) => p.dispatch a
  | .ok (.jumpTo target) =>
    p.answered (.ok ())
      ((p.jumpNotices target).map .noticed ++ [.posted (p.navigationReply target)])
  | .error (.unknownAction kind) =>
    let (p, events) := p.dispatch (.recordErrors [.unknownAction kind])
    (p, .noticed (.unknownAction kind) :: events)
  | .error e => p.answered (.error (.protocol e)) [.noticed (.messageDropped e)]

end Preview

end StoryPreview
