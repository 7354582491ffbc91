import Mathlib.Data.Nat.Find
import Mathlib.Logic.Function.Iterate
import StoryPreview.Proofs.Script.Expansion
/-!
Expansion by a loop. A loop over the scripts that are open needs no depth and no recursion: it visits one
command in each round and opens a script by putting it in front of those that are open. It never opens a
script twice at a time (`nodup_names`). From wherever it is, it comes to the end of the innermost script
with the items that the script has by recursion (`comesTo_end`), and so it ends with the expansion
(`loop_expands`).
-/
namespace StoryPreview

namespace Script

/-! ## Values and errors apart -/

def values (xs : List (Except ε α)) : List α := xs.filterMap Except.toOption

def errors (xs : List (Except ε α)) : List ε :=
  xs.filterMap fun
    | .ok _ => none
    | .error e => some e

theorem values_append {ε α : Type} (xs ys : List (Except ε α)) :
    values (xs ++ ys) = values xs ++ values ys := List.filterMap_append

theorem errors_append {ε α : Type} (xs ys : List (Except ε α)) :
    errors (xs ++ ys) = errors xs ++ errors ys := List.filterMap_append

theorem values_map_error {ε α : Type} (es : List ε) :
    values (es.map (.error : ε → Except ε α)) = [] := by
  induction es with
  | nil => rfl
  | cons e es ih => exact ih

theorem errors_map_error {ε α : Type} (es : List ε) :
    errors (es.map (.error : ε → Except ε α)) = es := by
  induction es with
  | nil => rfl
  | cons e es ih => exact congrArg (e :: ·) ih

theorem gather_eq {ε α : Type} (xs : List (Except ε α)) :
    gather xs = if (errors xs).isEmpty then .ok (values xs) else .error (errors xs) := by
  induction xs with
  | nil => rfl
  | cons x xs ih =>
    rw [gather.eq_def]
    cases x with
    | ok a =>
      have hvalues : values (.ok a :: xs) = a :: values xs := rfl
      have herrors : errors (.ok a :: xs) = errors xs := rfl
      rw [hvalues, herrors]
      dsimp only
      rw [ih]
      cases errors xs <;> rfl
    | error e =>
      have herrors : errors (.error e :: xs) = e :: errors xs := rfl
      rw [herrors]
      dsimp only
      rw [ih]
      cases errors xs <;> rfl

end Script

namespace Includes

open Script (values errors)

/-! ## The loop -/

/-- A script that is open: the name it is included by, none for the script at the beginning, and its
commands that are still to be visited. -/
structure OpenScript where
  name : Option String
  left : List Node

/-- Where the loop is: the open scripts, the innermost first, and the commands and errors it has come
upon. -/
structure Splicing where
  opened : List OpenScript
  nodes : List Node
  errors : List CompileError

/-- The names that scripts are included by. -/
def names (opened : List OpenScript) : List String := opened.filterMap OpenScript.name

namespace Splicing

def start (nodes : List Node) : Splicing := ⟨[⟨none, nodes⟩], [], []⟩

def keep (s : Splicing) (node : Node) : Splicing := { s with nodes := s.nodes ++ [node] }

def fail (s : Splicing) (es : List CompileError) : Splicing := { s with errors := s.errors ++ es }

/-- Visits a command of the innermost script. -/
def visit (inc : Includes) (s : Splicing) : Node → Splicing
  | .inclusion name =>
    if name ∈ names s.opened then s.fail [.cycle name]
    else match inc.load name with
      | .error reason => s.fail [.load name reason]
      | .ok (.error faults) => s.fail (faults.map fun f => .faulty (some name) f)
      | .ok (.ok nodes) => { s with opened := ⟨some name, nodes⟩ :: s.opened }
  | node => s.keep node

/-- One round of the loop: it visits the next command of the innermost script, or closes a script that
has none left. -/
def round (inc : Includes) (s : Splicing) : Splicing :=
  match s.opened with
  | [] => s
  | ⟨_, []⟩ :: outer => { s with opened := outer }
  | ⟨name, node :: left⟩ :: outer => { s with opened := ⟨name, left⟩ :: outer }.visit inc node

/-- What the loop gives at its end. -/
def result (s : Splicing) : Except (List CompileError) (List Node) :=
  if s.errors.isEmpty then .ok s.nodes else .error s.errors

/-- The loop has come upon more items. -/
def found (s : Splicing) (items : List Item) : Splicing :=
  { s with nodes := s.nodes ++ values items, errors := s.errors ++ Script.errors items }

theorem found_append (s : Splicing) (xs ys : List Item) :
    s.found (xs ++ ys) = (s.found xs).found ys := by
  unfold found
  rw [Script.values_append, Script.errors_append, List.append_assoc, List.append_assoc]

theorem keep_eq (s : Splicing) (node : Node) : s.keep node = s.found [.ok node] := by
  have hvalues : values [(.ok node : Item)] = [node] := rfl
  have herrors : Script.errors [(.ok node : Item)] = [] := rfl
  unfold keep found
  rw [hvalues, herrors, List.append_nil]

theorem fail_eq (s : Splicing) (es : List CompileError) : s.fail es = s.found (es.map .error) := by
  unfold fail found
  rw [Script.values_map_error, Script.errors_map_error, List.append_nil]

/-- A command that opens no script adds what it contributes. -/
theorem visit_eq {inc : Includes} {node : Node} (s : Splicing)
    (h : ∀ name nodes, node = .inclusion name → name ∉ names s.opened →
      inc.load name ≠ .ok (.ok nodes)) (deeper : List String → List Node → List Item) :
    s.visit inc node = s.found (inc.visit (names s.opened) deeper node) := by
  cases node with
  | inclusion name =>
    unfold visit Includes.visit
    dsimp only
    by_cases hname : name ∈ names s.opened
    · rw [if_pos hname, if_pos hname]
      exact s.fail_eq _
    · rw [if_neg hname, if_neg hname]
      cases hload : inc.load name with
      | error reason => exact s.fail_eq _
      | ok script =>
        cases script with
        | error faults =>
          dsimp only
          rw [s.fail_eq, List.map_map]
          rfl
        | ok nodes => exact absurd hload (h name nodes rfl hname)
  | _ => exact s.keep_eq _

theorem visit_of_opens {inc : Includes} {s : Splicing} {name : String} {nodes : List Node}
    (hname : name ∉ names s.opened) (hload : inc.load name = .ok (.ok nodes)) :
    s.visit inc (.inclusion name) = { s with opened := ⟨some name, nodes⟩ :: s.opened } := by
  unfold visit
  dsimp only
  rw [if_neg hname, hload]

end Splicing

/-- The loop after so many rounds. -/
def rounds (inc : Includes) (nodes : List Node) (n : Nat) : Splicing :=
  (Splicing.round inc)^[n] (.start nodes)

/-! ## Open scripts -/

theorem names_visit {inc : Includes} {s : Splicing} (h : (names s.opened).Nodup) (node : Node) :
    (names (s.visit inc node).opened).Nodup := by
  cases node with
  | inclusion name =>
    unfold Splicing.visit
    dsimp only
    split
    · exact h
    · rename_i hname
      split
      · exact h
      · exact h
      · exact List.nodup_cons.mpr ⟨hname, h⟩
  | _ => exact h

theorem names_round {inc : Includes} {s : Splicing} (h : (names s.opened).Nodup) :
    (names (s.round inc).opened).Nodup := by
  obtain ⟨opened, nodes, es⟩ := s
  cases opened with
  | nil => exact h
  | cons script outer =>
    obtain ⟨name, left⟩ := script
    cases left with
    | nil =>
      cases name with
      | none => exact h
      | some name => exact (List.nodup_cons.mp h).2
    | cons node left => exact names_visit (s := ⟨⟨name, left⟩ :: outer, nodes, es⟩) h node

/-- No script is open twice at a time. -/
theorem nodup_names (inc : Includes) (nodes : List Node) (n : Nat) :
    (names (inc.rounds nodes n).opened).Nodup := by
  induction n with
  | zero => exact List.nodup_nil
  | succ n ih =>
    unfold rounds at ih ⊢
    rw [Function.iterate_succ_apply']
    exact names_round ih

/-! ## The end -/

/-- The loop comes from one place to another. -/
def ComesTo (inc : Includes) (s t : Splicing) : Prop := ∃ n, (Splicing.round inc)^[n] s = t

theorem ComesTo.refl (inc : Includes) (s : Splicing) : inc.ComesTo s s := ⟨0, rfl⟩

theorem ComesTo.round {inc : Includes} {s t : Splicing} (h : inc.ComesTo (s.round inc) t) :
    inc.ComesTo s t := by
  obtain ⟨n, rfl⟩ := h
  exact ⟨n + 1, rfl⟩

theorem ComesTo.trans {inc : Includes} {s t u : Splicing} (h : inc.ComesTo s t)
    (h' : inc.ComesTo t u) : inc.ComesTo s u := by
  obtain ⟨n, rfl⟩ := h
  obtain ⟨m, rfl⟩ := h'
  exact ⟨m + n, Function.iterate_add_apply _ m n s⟩

/-- The loop comes to the end of the innermost script, and has then come upon the items of what was left
of it. -/
theorem comesTo_end {inc : Includes} (name : Option String) (left : List Node)
    (outer : List OpenScript) (ns : List Node) (es : List CompileError) :
    inc.ComesTo ⟨⟨name, left⟩ :: outer, ns, es⟩
      (Splicing.found ⟨⟨name, []⟩ :: outer, ns, es⟩
        (inc.itemsFrom (names (⟨name, left⟩ :: outer)) left)) := by
  -- Opening a script leaves fewer names to open; within a script there are fewer commands left.
  induction hn : inc.unopened (names (⟨name, left⟩ :: outer)) using Nat.strongRecOn
    generalizing name left outer ns es with
  | ind n ih =>
    induction left generalizing ns es with
    | nil =>
      rw [itemsFrom_eq]
      unfold Splicing.found
      rw [List.flatMap_nil, show values ([] : List Item) = [] from rfl,
        show errors ([] : List Item) = [] from rfl, List.append_nil, List.append_nil]
      exact .refl inc _
    | cons node left ihleft =>
      have hitems : inc.itemsFrom (names (⟨name, node :: left⟩ :: outer)) (node :: left) =
          inc.visit (names (⟨name, left⟩ :: outer)) inc.itemsFrom node ++
            inc.itemsFrom (names (⟨name, left⟩ :: outer)) left := by
        rw [itemsFrom_eq, itemsFrom_eq inc _ left]
        rfl
      rw [hitems, Splicing.found_append]
      by_cases hopens : ∃ included inner, node = .inclusion included ∧
          included ∉ names (⟨name, left⟩ :: outer) ∧ inc.load included = .ok (.ok inner)
      · obtain ⟨included, inner, rfl, hname, hload⟩ := hopens
        have hround : Splicing.round inc ⟨⟨name, .inclusion included :: left⟩ :: outer, ns, es⟩ =
            ⟨⟨some included, inner⟩ :: ⟨name, left⟩ :: outer, ns, es⟩ :=
          Splicing.visit_of_opens (s := ⟨⟨name, left⟩ :: outer, ns, es⟩) hname hload
        have hvisit : inc.visit (names (⟨name, left⟩ :: outer)) inc.itemsFrom
              (.inclusion included) =
            inc.itemsFrom (names (⟨some included, inner⟩ :: ⟨name, left⟩ :: outer)) inner := by
          unfold Includes.visit
          dsimp only
          rw [if_neg hname, hload]
          rfl
        have hfewer : inc.unopened (names (⟨some included, inner⟩ :: ⟨name, left⟩ :: outer)) < n :=
          hn ▸ unopened_lt hload hname
        refine .round (hround ▸ ?_)
        refine (ih _ hfewer _ _ _ _ _ rfl).trans ?_
        -- The included script has nothing left and is closed.
        refine .round ?_
        rw [hvisit]
        exact ihleft _ _ hn
      · have hround : Splicing.round inc ⟨⟨name, node :: left⟩ :: outer, ns, es⟩ =
            Splicing.found ⟨⟨name, left⟩ :: outer, ns, es⟩
              (inc.visit (names (⟨name, left⟩ :: outer)) inc.itemsFrom node) := by
          refine Splicing.visit_eq ⟨⟨name, left⟩ :: outer, ns, es⟩ ?_ inc.itemsFrom
          exact fun included inner hnode hname hload =>
            hopens ⟨included, inner, hnode, hname, hload⟩
        exact .round (hround ▸ ihleft _ _ hn)

theorem comesTo_closed (inc : Includes) (nodes : List Node) :
    inc.ComesTo (.start nodes)
      ⟨[], values (inc.itemsFrom [] nodes), errors (inc.itemsFrom [] nodes)⟩ :=
  (comesTo_end none nodes [] [] []).trans (.round (.refl inc _))

/-- From its end on the loop does nothing. -/
theorem rounds_of_closed {inc : Includes} {nodes : List Node} {n : Nat}
    (h : (inc.rounds nodes n).opened = []) (d : Nat) :
    inc.rounds nodes (d + n) = inc.rounds nodes n := by
  have hround : (inc.rounds nodes n).round inc = inc.rounds nodes n := by
    unfold Splicing.round
    rw [h]
  unfold rounds at hround ⊢
  rw [Function.iterate_add_apply]
  exact Function.iterate_fixed hround d

/-- The loop ends: after so many rounds, and not before, no script is open. The scripts open at a time
have different names. What the loop gives is what the recursion gives that walks through the commands and
puts the items of each behind those of the one before: all commands if no item is an error, and otherwise
all errors. It is what expansion gives. -/
theorem loop_expands (inc : Includes) (nodes : List Node) :
    (∀ n, (names (inc.rounds nodes n).opened).Nodup) ∧
      (∃ n, (inc.rounds nodes n).opened = [] ∧ (∀ m < n, (inc.rounds nodes m).opened ≠ []) ∧
        (inc.rounds nodes n).result = Script.gather (inc.itemsFrom [] nodes)) ∧
      (∀ opened commands, inc.itemsFrom opened commands =
        commands.flatMap (inc.visit opened inc.itemsFrom)) ∧
      inc.expand nodes = Script.gather (inc.itemsFrom [] nodes) := by
  refine ⟨nodup_names inc nodes, ?_, inc.itemsFrom_eq, ?_⟩
  · obtain ⟨k, hk⟩ := comesTo_closed inc nodes
    have hends : ∃ n, (inc.rounds nodes n).opened = [] := ⟨k, congrArg Splicing.opened hk⟩
    have hfirst := Nat.find_spec hends
    refine ⟨Nat.find hends, hfirst, fun m hm => Nat.find_min hends hm, ?_⟩
    have hlast : inc.rounds nodes (Nat.find hends) = inc.rounds nodes k := by
      obtain ⟨d, hd⟩ := Nat.exists_eq_add_of_le' (Nat.find_min' hends (congrArg Splicing.opened hk))
      rw [hd, rounds_of_closed hfirst]
    rw [hlast, Script.gather_eq]
    unfold rounds
    rw [hk]
    rfl
  · unfold expand
    rw [items_eq_itemsFrom]

/-- A script that two others include is expanded in both. -/
example :
    let inc := ofTexts [("left", "[INCLUDE name=pier]"), ("right", "[INCLUDE name=pier]\nA mast."),
      ("pier", "A pier.")]
    let last := inc.rounds [.inclusion "left", .inclusion "right"] 12
    last.opened = [] ∧
      last.result = .ok [.say none "A pier.", .say none "A pier.", .say none "A mast."] := by
  decide +kernel

/-- Two scripts that include each other are a cycle from wherever they are entered, and the commands beside
the cycle are visited. -/
example :
    let inc := ofTexts [("tide", "[INCLUDE name=moon]"), ("moon", "A moon.\n[INCLUDE name=tide]")]
    let last := inc.rounds [.inclusion "tide", .inclusion "moon"] 13
    last.opened = [] ∧ last.nodes = [.say none "A moon.", .say none "A moon."] ∧
      last.result = .error [.cycle "tide", .cycle "moon"] := by
  decide +kernel

end Includes

end StoryPreview
