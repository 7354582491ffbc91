import StoryPreview.Files.Watcher
import StoryPreview.Preview.Basic
import StoryPreview.Preview.Config
import StoryPreview.Terminal.Screen
/-!
The program between its start and its end. It takes lines of input and looks at the script file; for
each it says what is written to the standard output and to the log.

A line is handled before the next one is read. An action sent before the display is ready is not
answered, so no line is read after it.
-/
namespace StoryPreview

/-- What is written. -/
structure Written where
  out : String
  err : String

def Written.nothing : Written := ⟨"", ""⟩

instance : Append Written := ⟨fun a b => ⟨a.out ++ b.out, a.err ++ b.err⟩⟩

/-- An end of the program: its exit code, and what was written. -/
structure Exit where
  code : Nat
  written : Written

structure Program where
  options : Options
  config : Config
  preview : Preview
  watcher : Watcher
  view : View
  /-- The state that was shown last. -/
  latest : Option State
  /-- Whether it waits for an answer that cannot come. -/
  blocked : Bool
  ended : Bool

namespace Program

/-! ## Start -/

/-- The end of a program that was called in the wrong way. -/
def misused (e : UsageError) : Exit := ⟨1, usage, "Error: " ++ e.message ++ "\n\n"⟩

/-- The end of a program that could not begin. -/
def failed (mode : Mode) (reason : String) : Exit :=
  ⟨1, "", textLines ["Error: " ++ mode.name ++ " failed", "Reason: " ++ reason]⟩

def configUnreadable (path : String) (e : FileError) : String :=
  "Failed to read config " ++ path ++ ": " ++ e.message

def configInvalid (path : String) : String := "Invalid config " ++ path ++ ": malformed"

def scriptUnreadable (path : String) (e : FileError) : String :=
  "Failed to read '" ++ path ++ "': " ++ e.message

/-- The settings for a preview; `read` reads a file, and `logging` turns the log on. -/
def configure (o : Options) (logging : Bool) (read : String → Except FileError String) :
    Except Exit Config :=
  let base : Except Exit Config := match o.config with
    | none => .ok .default
    | some path =>
      match read path with
      | .error e => .error (failed o.mode (configUnreadable path e))
      | .ok json =>
        match Config.ofText? json with
        | none => .error (failed o.mode (configInvalid path))
        | some c => .ok c
  base.map fun c =>
    if o.debug then { c with log := .verbose }
    else { c with log.enabled := c.log.enabled || logging }

/-- What the include names of a script stand for, by the directory they are looked up in and the text
of the script. -/
abbrev Lookup := String → String → Includes

/-- How scripts are compiled. -/
def compile (o : Options) (config : Config) (lookup : Lookup) (source : String) : CompileResult :=
  (Story.compile (lookup (config.includeRootFor o.script) source) source).map fun s =>
    .ofStory s config.maxSteps

/-- The files that a compile loads, with the names they are included by. -/
def loads (o : Options) (config : Config) (lookup : Lookup) (source : String) :
    List (String × String) :=
  let root := config.includeRootFor o.script
  match Script.parse source with
  | .ok nodes => ((lookup root source).loads nodes).map fun name => (name, Path.ofInclude root name)
  | .error _ => []

/-- The notices of a compile. -/
def compileNotices (o : Options) (config : Config) (lookup : Lookup) (source : String)
    (epoch : Nat) : List Notice :=
  .compiling source.utf8ByteSize epoch ::
    (loads o config lookup source).map (fun f => .includeLoading f.1 f.2) ++
    match compile o config lookup source with
    | .ok player => [.compiled player.story.size player.story.labels.size]
    | .error _ => []

/-! ## What events write -/

def log (p : Program) (n : Notice) : Written := ⟨"", n.render p.config.log⟩

/-- Writes notices one after another; they are worked out only if the log is on. -/
def logAll (p : Program) (w : Written) (ns : Thunk (List Notice)) : Written :=
  if p.config.log.enabled then ns.get.foldl (fun w n => w ++ p.log n) w else w

/-- Writes a message to the display. -/
def post (p : Program) (m : Outbound) : Program × Written :=
  match p.options.mode, m with
  | .serve, m => (p, ⟨m.encode ++ "\n", ""⟩)
  | .play, .updateState s =>
    let (view, d) := p.view.apply s
    ({ p with view, latest := some s },
      ⟨Screen.delta d ++ Screen.choices s ++
        if p.options.debug then Screen.debugInfo s else "", ""⟩)
  | .play, _ => (p, .nothing)

/-- What has come of events: the program, what was written, and the answer to a call if it is among
them. -/
structure Course where
  program : Program
  written : Written
  answer : Option (Except PreviewError Unit)

/-- Goes through one event; `call` is the call whose answer is looked for. -/
def Course.take (lookup : Lookup) (call : Nat) (c : Course) (e : Event) : Course :=
  let p := c.program
  match e with
  | .posted m =>
    let (program, w) := p.post m
    { c with program, written := c.written ++ w }
  | .answered i r => if i = call then { c with answer := some r } else c
  | .noticed n => { c with written := p.logAll c.written [n] }
  | .reported ns => { c with written := p.logAll c.written ns }
  | .compiling source epoch =>
    { c with
      written := p.logAll c.written (compileNotices p.options p.config lookup source epoch) }
  | .told .. => c

/-- Lets the preview run, and goes through what happens. -/
def run (p : Program) (lookup : Lookup) (events : List Event) :
    Program × Written × Option (Except PreviewError Unit) :=
  let call := p.preview.calls - 1
  let (preview, more) := p.preview.settle (compile p.options p.config lookup)
  let c := (events ++ more).foldl (Course.take lookup call) ⟨{ p with preview }, .nothing, none⟩
  (c.program, c.written, c.answer)

/-- Begins a preview of a script. A terminal is ready at once; any other display has to say so. -/
def start (o : Options) (config : Config) (lookup : Lookup) (source : String) :
    Program × Written :=
  let (preview, events) := (Preview.new config.liveUpdate).newStory source
  let p : Program := ⟨o, config, preview, .seen source, .empty, none, false, false⟩
  match o.mode with
  | .serve =>
    let (p, w, _) := p.run lookup events
    (p, w ++ p.log (.serving o.script))
  | .play =>
    let (p, w, _) := { p with preview := preview.ready.1 }.run lookup events
    (p, ⟨Screen.header o.script, ""⟩ ++ w)

/-- Starts the program with its arguments. `logging` turns the log on, and `read` reads a file. -/
def launch (args : List String) (logging : Bool) (read : String → Except FileError String)
    (lookup : Lookup) : Except Exit (Program × Written) :=
  match Invocation.ofArgs args with
  | .error e => .error (misused e)
  | .ok .nothing => .error ⟨1, usage, ""⟩
  | .ok .help => .error ⟨0, usage, ""⟩
  | .ok (.preview o) =>
    match configure o logging read with
    | .error exit => .error exit
    | .ok config =>
      match read o.script with
      | .error e => .error (failed o.mode (scriptUnreadable o.script e))
      | .ok source => .ok (start o config lookup source)

/-! ## Input -/

/-- Waits for the answer to a call, and says when it is an error. -/
def await (p : Program) (lookup : Lookup) (events : List Event) :
    Program × Written :=
  match p.run lookup events with
  | (p, w, none) => ({ p with blocked := true }, w)
  | (p, w, some (.ok _)) => (p, w)
  | (p, w, some (.error e)) =>
    (p, w ++ match p.options.mode with
      | .play => ⟨Screen.errorLine e.message, ""⟩
      | .serve => p.log (.messageFailed e.message))

/-- Ends the preview. A player does not wait until the session has ended, so nothing more is heard of
it. -/
def finish (p : Program) (lookup : Lookup) : Program × Written :=
  let (preview, events) := p.preview.dispose
  match p.options.mode with
  | .play =>
    let (p, _, _) := { p with preview }.run lookup []
    ({ p with ended := true }, p.log .previewDisposed ++ ⟨Screen.farewell, ""⟩)
  | .serve =>
    let closed := p.log .inputClosed
    let (p, w, _) := { p with preview }.run lookup events
    ({ p with ended := true }, closed ++ w)

/-- The action that a player asks for; none to quit. -/
def actionFor (p : Program) : PlayCommand → Option Action
  | .choose number => some (.selectChoice (number - 1))
  | .back => some .rewind
  | .restart => some .start
  | .toggleLive => some (.toggleLiveUpdate !(p.latest.all State.liveUpdate))
  | .quit => none

/-- Takes a line of input. -/
def takeLine (p : Program) (lookup : Lookup) (line : String) : Program × Written :=
  if p.ended || p.blocked then (p, .nothing)
  else match p.options.mode with
    | .serve =>
      if Text.trim line.toList = [] then (p, .nothing)
      else
        let (preview, events) := p.preview.handleMessage line
        { p with preview }.await lookup events
    | .play =>
      match PlayCommand.ofLine? line with
      | none => (p, ⟨Screen.invalidInput, ""⟩)
      | some command =>
        match p.actionFor command with
        | none => p.finish lookup
        | some a =>
          let (preview, events) := p.preview.dispatch a
          { p with preview }.await lookup events

/-- Looks at the script file, which has the given contents. -/
def poll (p : Program) (lookup : Lookup) (contents : Except FileError String) :
    Program × Written :=
  if p.ended then (p, .nothing)
  else
    let (watcher, news) := p.watcher.poll contents
    let p := { p with watcher }
    match news with
    | .nothing => (p, .nothing)
    | .unreadable reason => (p, p.log (.scriptUnreadable p.options.script reason))
    | .changed text =>
      let changed := p.log (.scriptChanged p.options.script)
      let (p, w, _) := { p with preview := p.preview.edit text }.run lookup []
      (p, changed ++ w)

/-- The input is over. -/
def close (p : Program) (lookup : Lookup) : Program × Written :=
  if p.ended || p.blocked then (p, .nothing) else p.finish lookup

end Program

end StoryPreview
