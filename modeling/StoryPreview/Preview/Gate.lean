import StoryPreview.Message.Basic
import StoryPreview.Session.Basic
/-!
The gate between a preview and its display: it opens once, when the display is ready, and is closed
for good when the preview ends.
-/
namespace StoryPreview

/-- Why a preview refused a call. -/
inductive PreviewError
  | disposed
  | session (e : SessionError)
  | protocol (e : ProtocolError)
  | navigation (e : NavigationError)
  deriving DecidableEq

def PreviewError.message : PreviewError → String
  | .disposed => "preview was disposed"
  | .session e => e.message
  | .protocol e => e.message
  | .navigation e => e.message

inductive Gate
  | waiting
  | opened
  | closed
  deriving DecidableEq

namespace Gate

/-- Opens a gate that waits; says whether it did. -/
def tryOpen : Gate → Gate × Bool
  | .waiting => (.opened, true)
  | g => (g, false)

def isOpen (g : Gate) : Bool := g = .opened

/-- What those who wait at the gate are told; none as long as they have to wait. -/
def answer? : Gate → Option (Except PreviewError Unit)
  | .waiting => none
  | .opened => some (.ok ())
  | .closed => some (.error .disposed)

/-- The answer of one who waits at the gate, if there was none before. -/
def notify (g : Gate) (before : Option (Except PreviewError Unit)) :
    Option (Except PreviewError Unit) :=
  before.or g.answer?

end Gate

end StoryPreview
