import Mathlib.Data.List.Basic
import StoryPreview.Proofs.Script.Append
/-!
Expansion without depth and without a stack. A script can be opened only while its name is not open, so
as many levels as there are names left to open are as good as any more: `itemsFrom` expands without a
depth (`itemsFrom_eq`). Where no name is met while it is open, it does not matter which names are open
(`itemsFrom_of_subset`), and so an inclusion that succeeds gives what the included script gives by
itself (`expand_inclusion_ok`).
-/
namespace StoryPreview

namespace Script

/-- A failure has a reason. -/
theorem gather_ne_error_nil {ε α : Type} (xs : List (Except ε α)) : gather xs ≠ .error [] := by
  induction xs with
  | nil => exact fun h => nomatch h
  | cons x xs ih =>
    rw [gather.eq_def]
    cases x with
    | ok a =>
      dsimp only
      split
      · exact fun h => nomatch h
      · rename_i es hes
        rw [← hes]
        exact ih
    | error e =>
      dsimp only
      split <;> exact fun h => nomatch h

theorem parse_ne_error_nil (source : String) : parse source ≠ .error [] := gather_ne_error_nil _

end Script

namespace Includes

/-! ## Depth -/

/-- How many entries of the table may still be opened. -/
def unopened (inc : Includes) (opened : List String) : Nat :=
  (inc.entries.filter fun e => e.1 ∉ opened).length

theorem unopened_le (inc : Includes) (opened : List String) :
    inc.unopened opened ≤ inc.entries.length := List.length_filter_le _ _

theorem unopened_lt {inc : Includes} {opened : List String} {name : String}
    {script : Script.Parsed} (hload : inc.load name = .ok script) (hname : name ∉ opened) :
    inc.unopened (name :: opened) < inc.unopened opened := by
  have hentry : ∃ outcome, (name, outcome) ∈ inc.entries := by
    unfold load at hload
    cases hlookup : inc.entries.lookup name with
    | none =>
      rw [hlookup] at hload
      cases hload
    | some outcome =>
      obtain ⟨l, r, hentries, _⟩ := List.lookup_eq_some_iff.mp hlookup
      rw [hentries]
      exact ⟨outcome, List.mem_append_right _ List.mem_cons_self⟩
  obtain ⟨outcome, hmem⟩ := hentry
  have hfilter : (inc.entries.filter fun e => e.1 ∉ name :: opened) =
      (inc.entries.filter fun e => e.1 ∉ opened).filter fun e => e.1 ≠ name := by
    rw [List.filter_filter]
    refine List.filter_congr fun e _ => ?_
    simp
  unfold unopened
  rw [hfilter]
  refine List.length_filter_lt_length_iff_exists.mpr ⟨(name, outcome), ?_, by simp⟩
  exact List.mem_filter.mpr ⟨hmem, by simpa using hname⟩

/-- The items of a list of commands, when the scripts named in `opened` are being included. -/
def itemsFrom (inc : Includes) (opened : List String) (nodes : List Node) : List Item :=
  inc.itemsWithin (inc.unopened opened) opened nodes

/-- What a command contributes depends on deeper levels only for scripts that it opens. -/
theorem visit_congr {inc : Includes} {opened : List String} {f g : List String → List Node → List Item}
    (h : ∀ {name nodes}, name ∉ opened → inc.load name = .ok (.ok nodes) →
      f (name :: opened) nodes = g (name :: opened) nodes) (node : Node) :
    inc.visit opened f node = inc.visit opened g node := by
  cases node with
  | inclusion name =>
    unfold visit
    dsimp only
    split
    · rfl
    · rename_i hname
      split
      · rfl
      · rfl
      · rename_i nodes hload
        exact h hname hload
  | _ => rfl

/-- More levels than there are names left to open change nothing. -/
theorem itemsWithin_eq {inc : Includes} {depth : Nat} {opened : List String}
    (hdepth : inc.unopened opened ≤ depth) (nodes : List Node) :
    inc.itemsWithin depth opened nodes = nodes.flatMap (inc.visit opened inc.itemsFrom) := by
  induction depth using Nat.strongRecOn generalizing opened nodes with
  | ind depth ih =>
    cases depth with
    | zero =>
      refine List.flatMap_congr fun node _ => visit_congr (fun hname hload => ?_) node
      have hlt := unopened_lt hload hname
      omega
    | succ depth =>
      refine List.flatMap_congr fun node _ => visit_congr (fun {name inner} hname hload => ?_) node
      have hlt := unopened_lt hload hname
      have hdeep : inc.itemsWithin depth (name :: opened) inner = _ :=
        ih depth (by omega) (by omega) inner
      have hjust : inc.itemsFrom (name :: opened) inner = _ :=
        ih (inc.unopened (name :: opened)) (by omega) (Nat.le_refl _) inner
      exact hdeep.trans hjust.symm

theorem itemsFrom_eq (inc : Includes) (opened : List String) (nodes : List Node) :
    inc.itemsFrom opened nodes = nodes.flatMap (inc.visit opened inc.itemsFrom) :=
  itemsWithin_eq (Nat.le_refl _) nodes

theorem items_eq_itemsFrom (inc : Includes) (nodes : List Node) :
    inc.items nodes = inc.itemsFrom [] nodes := by
  rw [itemsFrom_eq]
  exact itemsWithin_eq (inc.unopened_le []) nodes

/-! ## Open scripts -/

/-- Items without an error are the same with fewer scripts open. -/
theorem itemsFrom_of_subset {inc : Includes} {opened fewer : List String} (hsub : fewer ⊆ opened)
    {nodes : List Node} (hok : ∀ e, .error e ∉ inc.itemsFrom opened nodes) :
    inc.itemsFrom fewer nodes = inc.itemsFrom opened nodes := by
  induction hn : inc.unopened opened using Nat.strongRecOn generalizing opened fewer nodes with
  | ind n ih =>
    rw [itemsFrom_eq] at hok ⊢
    rw [itemsFrom_eq inc opened]
    refine List.flatMap_congr fun node hnode => ?_
    have hvisit : ∀ e, .error e ∉ inc.visit opened inc.itemsFrom node :=
      fun e he => hok e (List.mem_flatMap.mpr ⟨node, hnode, he⟩)
    cases node with
    | inclusion name =>
      by_cases hname : name ∈ opened
      · refine absurd ?_ (hvisit (.cycle name))
        simp [visit, hname]
      · have hfewer : name ∉ fewer := fun h => hname (hsub h)
        unfold visit at hvisit ⊢
        dsimp only at hvisit ⊢
        rw [if_neg hname] at hvisit ⊢
        rw [if_neg hfewer]
        split
        · rfl
        · rfl
        · rename_i inner hload
          rw [hload] at hvisit
          have hlt := unopened_lt hload hname
          exact ih _ (hn ▸ hlt) (List.cons_subset_cons name hsub) hvisit rfl
    | _ => rfl

/-- An inclusion that succeeds gives the commands of the included script, expanded by itself. -/
theorem expand_inclusion_ok {inc : Includes} {name : String} {script : Script.Parsed}
    {nodes : List Node} (hload : inc.load name = .ok script) (hscript : script ≠ .error [])
    (h : inc.expand [.inclusion name] = .ok nodes) :
    ∃ inner, script = .ok inner ∧ inc.expand inner = .ok nodes := by
  unfold expand at h
  have hitems := Script.gather_ok.mp h
  rw [items_eq_itemsFrom, itemsFrom_eq, List.flatMap_singleton, visit, if_neg List.not_mem_nil,
    hload] at hitems
  cases script with
  | error faults =>
    cases faults with
    | nil => exact absurd rfl hscript
    | cons f faults => cases nodes <;> simp at hitems
  | ok inner =>
    refine ⟨inner, rfl, Script.gather_ok.mpr ?_⟩
    dsimp only at hitems
    have hok : ∀ e, .error e ∉ inc.itemsFrom [name] inner := by
      intro e he
      rw [hitems] at he
      simp at he
    rw [items_eq_itemsFrom, itemsFrom_of_subset (List.nil_subset [name]) hok, hitems]

end Includes

end StoryPreview
