import StoryPreview.Files.Directory
import StoryPreview.Text.Fingerprint
/-!
Watching a file for new contents.
-/
namespace StoryPreview

structure Watcher where
  /-- The fingerprint of the text that was seen last. -/
  last : Option Fingerprint
  /-- Whether the last look failed; that is reported once. -/
  failing : Bool
  deriving DecidableEq

namespace Watcher

/-- Has seen nothing. -/
def new : Watcher := ⟨none, false⟩

/-- Has seen a text. -/
def seen (text : String) : Watcher := ⟨some (.ofText text), false⟩

/-- What a look at the file brings. -/
inductive News
  | nothing
  | changed (text : String)
  | unreadable (reason : FileError)
  deriving DecidableEq

/-- Looks at the file once. -/
def poll (w : Watcher) (contents : Except FileError String) : Watcher × News :=
  match contents with
  | .error reason =>
    ({ w with failing := true }, if w.failing then .nothing else .unreadable reason)
  | .ok text =>
    let fingerprint := some (Fingerprint.ofText text)
    if w.last = fingerprint then ({ w with failing := false }, .nothing)
    else (⟨fingerprint, false⟩, .changed text)

end Watcher

end StoryPreview
