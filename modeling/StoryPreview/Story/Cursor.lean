import Std.Data.TreeMap
import StoryPreview.Story.Value
/-!
Cursors: where a running story is, and what its variables are.
-/
namespace StoryPreview

/-- The place in a story: the next command, the variables, and the choices of the branch the story
stopped at, none when it waits for no choice. -/
structure Cursor where
  pc : Nat
  vars : Std.TreeMap String Value
  pending : List Choice

namespace Cursor

/-- The beginning of every story. -/
def start : Cursor := ⟨0, ∅, []⟩

def isWaiting (c : Cursor) : Bool := !c.pending.isEmpty

def get? (c : Cursor) (name : String) : Option Value := c.vars[name]?

/-- Gives a variable a value. -/
def put (c : Cursor) (name : String) (v : Value) : Cursor :=
  { c with vars := c.vars.insert name v }

/-- Gives a variable the value of a literal. -/
def set (c : Cursor) (name literal : String) : Cursor := c.put name (.ofLiteral literal)

/-- Applies an operation to a variable; on failure there is no new cursor. -/
def modify (c : Cursor) (name : String) (op : Operation) (operand : String) :
    Except ValueError Cursor :=
  match Value.modify (c.get? name) op operand with
  | .ok v => .ok (c.put name v)
  | .error reason => .error reason

/-- Whether a condition on a variable holds; a variable that is missing counts as zero. -/
def check (c : Cursor) (name : String) (cmp : Comparison) (literal : String) :
    Except ValueError Bool :=
  Value.compare cmp ((c.get? name).getD (.int 0)) (.ofLiteral literal)

def next (c : Cursor) : Cursor := { c with pc := c.pc + 1 }

theorem get?_put_self (c : Cursor) (name : String) (v : Value) :
    (c.put name v).get? name = some v :=
  Std.TreeMap.getElem?_insert_self

theorem get?_put_of_ne (c : Cursor) {name other : String} (v : Value) (h : other ≠ name) :
    (c.put name v).get? other = c.get? other := by
  show (c.vars.insert name v)[other]? = c.vars[other]?
  rw [Std.TreeMap.getElem?_insert, if_neg]
  rw [Std.LawfulEqCmp.compare_eq_iff_eq]
  exact Ne.symm h

end Cursor

end StoryPreview
