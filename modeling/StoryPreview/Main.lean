import StoryPreview.Terminal.Program
/-!
The program itself: it reads files and input, passes them on, and writes what it is told to.
-/
namespace StoryPreview.Main

/-- The number of an error, which some calls report with a minus sign. -/
def errorNumber (code : UInt32) : UInt32 := if code < 0x80000000 then code else 0 - code

/-- The reason of the system why a file could not be read. -/
def fileError : IO.Error → FileError
  | .noFileOrDirectory .. => .notFound
  | .inappropriateType _ code details =>
    let number := errorNumber code
    if number = 20 then .notADirectory
    else if number = 21 then .isADirectory
    else .other (details ++ " (os error " ++ toString number ++ ")")
  | .permissionDenied _ code _ =>
    .other ("Permission denied (os error " ++ toString (errorNumber code) ++ ")")
  | .invalidArgument .. => .nameTooLong
  | e => .other (toString e)

/-- Reads a file as text. -/
def readText (path : String) : IO (Except FileError String) := do
  try
    let bytes ← IO.FS.readBinFile path
    return match String.fromUTF8? bytes with
      | some text => .ok text
      | none => .error .notUtf8
  catch e => return .error (fileError e)

/-- Looks up names and all names that their texts include in turn. -/
partial def lookUp (root : String) (table : List (String × Except LoadError Script.Parsed)) :
    List String → IO (List (String × Except LoadError Script.Parsed))
  | [] => return table
  | name :: names => do
    if (table.lookup name).isSome then lookUp root table names
    else
      match ← readText (Path.ofInclude root name) with
      | .ok text =>
        let script := Script.parse text
        lookUp root ((name, .ok script) :: table) (Script.includeNames script ++ names)
      | .error e => lookUp root ((name, .error (.file e)) :: table) names

/-- What the include names of a script stand for at this moment. -/
def includesOf (root source : String) : IO Includes := do
  return ⟨← lookUp root [] (Script.includeNames (Script.parse source))⟩

def emit (w : Written) : IO Unit := do
  let out ← IO.getStdout
  let err ← IO.getStderr
  err.putStr w.err
  err.flush
  out.putStr w.out
  out.flush

/-- The includes of the latest text of the script, or of a new one. -/
def lookupFor (p : Program) (source : String) : IO Program.Lookup := do
  let includes ← includesOf (p.config.includeRootFor p.options.script) source
  return fun _ _ => includes

def latestSource (p : Program) : String := p.preview.source.elim "" Source.text

/-- A line of input that is being read. -/
abbrev LineTask := Task (Except IO.Error String)

def readLine : IO LineTask := do
  let input ← IO.getStdin
  IO.asTask input.getLine .dedicated

/-- Takes a line that has been read; an empty one ends the input. Gives the next line to wait
for. -/
def takeInput (p : Program) (line : String) : IO (Program × Option LineTask) := do
  let lookup ← lookupFor p (latestSource p)
  if line.isEmpty then
    let (p, w) := p.close lookup
    emit w
    return (p, none)
  else
    let body := String.ofList (Text.stripBreak line.toList)
    let (p, w) := p.takeLine lookup body
    emit w
    return (p, some (← readLine))

/-- Looks at the script file. -/
def lookAtScript (p : Program) : IO Program := do
  let contents ← readText p.options.script
  let lookup ← lookupFor p (contents.toOption.getD "")
  let (p, w) := p.poll lookup contents
  emit w
  return p

/-- Runs until the input is over or the player quits. `reading` is the line being read, none when
there are no more. -/
partial def loop (p : Program) (reading : Option LineTask) (nextPoll : Nat) : IO Unit := do
  if p.ended then return
  let finished ← match reading with
    | some task => IO.hasFinished task
    | none => pure false
  match reading, finished && !p.blocked with
  | some task, true =>
    let (p, reading) ← takeInput p (task.get.toOption.getD "")
    loop p reading nextPoll
  | _, _ =>
    let now ← IO.monoMsNow
    if now < nextPoll then
      IO.sleep 5
      loop p reading nextPoll
    else
      loop (← lookAtScript p) reading (now + p.config.pollInterval)

/-- Reads the files that the arguments name. -/
def filesOf (args : List String) : IO (List (String × Except FileError String)) := do
  match Invocation.ofArgs args with
  | .ok (.preview o) =>
    (o.config.toList ++ [o.script]).mapM fun path => do return (path, ← readText path)
  | _ => return []

/-- Starts the program and gives its exit code. -/
def run (args : List String) : IO UInt32 := do
  let files ← filesOf args
  let read (path : String) := (files.lookup path).getD (.error .notFound)
  let logging := (← IO.getEnv debugVariable).isSome
  let begin (lookup : Program.Lookup) := Program.launch args logging read lookup
  match begin fun _ _ => .ofTexts [] with
  | .error e =>
    emit e.written
    return e.code.toUInt32
  | .ok (p, _) =>
    match begin (← lookupFor p (latestSource p)) with
    | .error e =>
      emit e.written
      return e.code.toUInt32
    | .ok (p, w) =>
      emit w
      loop p (some (← readLine)) 0
      return 0

end StoryPreview.Main

def main (args : List String) : IO UInt32 := StoryPreview.Main.run args
