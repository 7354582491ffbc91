import StoryPreview.Display.Surface
import StoryPreview.Main
import StoryPreview.Proofs.Display.Errors
import StoryPreview.Proofs.Display.Lines
import StoryPreview.Proofs.Files.Below
import StoryPreview.Proofs.Message.Actions
import StoryPreview.Proofs.Message.Places
import StoryPreview.Proofs.Message.Reports
import StoryPreview.Proofs.Preview.Disposal
import StoryPreview.Proofs.Preview.Handshake
import StoryPreview.Proofs.Script.Faults
import StoryPreview.Proofs.Script.Rendering
import StoryPreview.Proofs.Script.Splicing
import StoryPreview.Proofs.Script.Texts
import StoryPreview.Proofs.Session.Coherence
import StoryPreview.Proofs.Session.Edits
import StoryPreview.Proofs.Session.Growth
import StoryPreview.Proofs.Session.Observer
import StoryPreview.Proofs.Session.Refusal
import StoryPreview.Proofs.Session.Reset
import StoryPreview.Proofs.Session.Rewording
import StoryPreview.Proofs.Story.Arithmetic
import StoryPreview.Proofs.Story.Execution
import StoryPreview.Proofs.Story.Inclusion
import StoryPreview.Proofs.Story.Linking
