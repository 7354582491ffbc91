import Std.Data.TreeMap
import Std.Data.TreeSet
import StoryPreview.Script.Includes
/-!
Linked stories: commands together with a table that says where each label is.
-/
namespace StoryPreview

/-- A story: its commands, and for each label the index of a command. -/
structure Story where
  nodes : Array Node
  labels : Std.TreeMap String Nat

namespace Story

def size (s : Story) : Nat := s.nodes.size

/-- The command at an index. -/
def node? (s : Story) (i : Nat) : Option Node := s.nodes[i]?

/-- Where a label is. -/
def labelIndex? (s : Story) (label : String) : Option Nat := s.labels[label]?

end Story

namespace Link

/-- The labels among the commands, with the index of each; the first command has index `n`. -/
def labelsFrom (n : Nat) : List Node → List (String × Nat)
  | [] => []
  | .label name :: nodes => (name, n) :: labelsFrom (n + 1) nodes
  | _ :: nodes => labelsFrom (n + 1) nodes

/-- One error for every label that has come before. -/
def duplicates (seen : List String) : List (String × Nat) → List CompileError
  | [] => []
  | (name, _) :: rest =>
    if name ∈ seen then .duplicateLabel name :: duplicates seen rest
    else duplicates (name :: seen) rest

/-- The labels that commands may jump to, each once, in ascending order. -/
def referenced (nodes : List Node) : List String :=
  (Std.TreeSet.ofList (nodes.flatMap Node.targets)).toList

end Link

/-- Links commands into a story, or says every reason why they cannot be: labels that stand twice, in
the order of the commands, and then labels that are nowhere, in ascending order. -/
def Story.link (nodes : List Node) : Except (List CompileError) Story :=
  let found := Link.labelsFrom 0 nodes
  let labels := Std.TreeMap.ofList found
  let undefined := (Link.referenced nodes).filter fun name => !labels.contains name
  let errors := Link.duplicates [] found ++ undefined.map CompileError.undefinedLabel
  if errors = [] then .ok ⟨nodes.toArray, labels⟩ else .error errors

/-- Compiles a script: reads it, expands its inclusions and links it. Each stage reports all the
errors it finds, and the next one is reached only if there are none. -/
def Story.compile (inc : Includes) (source : String) : Except (List CompileError) Story :=
  match Script.parse source with
  | .error faults => .error (faults.map (CompileError.faulty none))
  | .ok nodes =>
    match inc.expand nodes with
    | .error errors => .error errors
    | .ok nodes => Story.link nodes

/-- Links a script by itself; its inclusions stay where they are. -/
def Story.compileAlone (source : String) : Except (List CompileError) Story :=
  match Script.parse source with
  | .error faults => .error (faults.map (CompileError.faulty none))
  | .ok nodes => Story.link nodes

end StoryPreview
