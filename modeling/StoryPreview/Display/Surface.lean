import StoryPreview.Message.Basic
/-!
Where messages to the display go: onto lines of a writer, or into a queue.
-/
namespace StoryPreview

/-- Why a message could not be delivered. -/
inductive SurfaceError
  | closed
  | io (reason : String)
  deriving DecidableEq

def SurfaceError.message : SurfaceError → String
  | .closed => "display surface is closed"
  | .io reason => "I/O error: " ++ reason

/-- What holds the lines. It takes a write as a whole or fails, and may fail when it is flushed. Either is
told by what it holds, which is more after each write. -/
structure Sink where
  accepts : String → Bool
  flushes : String → Bool

/-- What the writer of lines does next. -/
inductive JsonLines.Stage
  /-- Take the next text, if there is one. -/
  | text
  | lineEnd
  | flush
  deriving DecidableEq

/-- Messages as lines of JSON. Whoever posts a message leaves its text in a queue; a writer takes one text
after another and passes it on. -/
structure JsonLines where
  sink : Sink
  queue : List String
  /-- What the writer does next. -/
  stage : JsonLines.Stage
  written : String
  /-- Whether the writer has failed; it does nothing more, and nobody can post. -/
  ended : Bool

namespace JsonLines

/-- A sink that holds nothing yet. -/
def new (sink : Sink) : JsonLines := ⟨sink, [], .text, "", false⟩

/-- Leaves the text of a message to the writer. -/
def post (s : JsonLines) (m : Outbound) : JsonLines × Except SurfaceError Unit :=
  if s.ended then (s, .error .closed) else ({ s with queue := s.queue ++ [m.encode] }, .ok ())

/-- One write of the writer, which then goes on to the given stage. -/
def write (s : JsonLines) (text : String) (next : Stage) : JsonLines :=
  if s.sink.accepts s.written then { s with written := s.written ++ text, stage := next }
  else { s with ended := true }

/-- The next thing the writer does, if there is one. -/
def work (s : JsonLines) : JsonLines :=
  if s.ended then s
  else match s.stage, s.queue with
    | .text, [] => s
    | .text, text :: queue => { s with queue }.write text .lineEnd
    | .lineEnd, _ => s.write "\n" .flush
    | .flush, _ => if s.sink.flushes s.written then { s with stage := .text } else { s with ended := true }

/-- Whether the writer has anything to do. -/
def busy (s : JsonLines) : Bool := !s.ended && (s.stage ≠ .text || !s.queue.isEmpty)

/-- How many steps the writer can still take. -/
def left (s : JsonLines) : Nat :=
  if s.ended then 0
  else 3 * s.queue.length + match s.stage with
    | .text => 0
    | .lineEnd => 2
    | .flush => 1

theorem left_work_lt {s : JsonLines} (h : s.busy) : s.work.left < s.left := by
  obtain ⟨sink, queue, stage, written, ended⟩ := s
  obtain ⟨rfl, hwork⟩ : ended = false ∧ (stage ≠ .text ∨ queue ≠ []) := by simpa [busy] using h
  cases stage with
  | text =>
    cases queue with
    | nil => simp at hwork
    | cons text queue =>
      by_cases htaken : sink.accepts written <;> simp [work, write, left, htaken]
      omega
  | lineEnd => by_cases htaken : sink.accepts written <;> simp [work, write, left, htaken]
  | flush => by_cases htaken : sink.flushes written <;> simp [work, left, htaken]

/-- Lets the writer go on until it has nothing to do. -/
def settle (s : JsonLines) : JsonLines := if s.busy then s.work.settle else s
termination_by s.left
decreasing_by exact left_work_lt ‹_›

end JsonLines

/-- Messages in a queue. -/
structure Channel where
  queue : List Outbound
  closed : Bool

namespace Channel

def new : Channel := ⟨[], false⟩

def post (c : Channel) (m : Outbound) : Channel × Except SurfaceError Unit :=
  if c.closed then (c, .error .closed) else ({ c with queue := c.queue ++ [m] }, .ok ())

/-- The next message, if there is one. -/
def receive (c : Channel) : Channel × Option Outbound :=
  match c.queue with
  | [] => (c, none)
  | m :: queue => ({ c with queue }, some m)

def close : Channel → Channel := fun _ => ⟨[], true⟩

end Channel

end StoryPreview
