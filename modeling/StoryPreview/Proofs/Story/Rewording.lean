import Mathlib.Data.List.Forall2
import StoryPreview.Proofs.Story.Extension
/-!
Runs of a story and of one that only says it differently. Texts, names of media, pauses, arguments of
calls and the wording of choices do not decide where a story goes: from cursors that are alike both go
the same way, step by step (`Rewords.move`, `Rewords.advance`, `Rewords.run`).
-/
namespace StoryPreview

/-! ## Wordings -/

/-- A command, and one that says the same thing differently. -/
inductive Node.Rewords : Node → Node → Prop
  | same (node : Node) : Rewords node node
  | say (speaker speaker' : Option String) (text text' : String) :
      Rewords (.say speaker text) (.say speaker' text')
  | showImage (layer layer' name name' : String) :
      Rewords (.showImage layer name) (.showImage layer' name')
  | playBgm (name name' : String) : Rewords (.playBgm name) (.playBgm name')
  | playSe (name name' : String) : Rewords (.playSe name) (.playSe name')
  | playMovie (name name' : String) : Rewords (.playMovie name) (.playMovie name')
  | wait (seconds seconds' : Number.Binary) : Rewords (.wait seconds) (.wait seconds')
  | clearLayer (layer layer' : String) : Rewords (.clearLayer layer) (.clearLayer layer')
  | call (name name' : String) (args args' : List String) :
      Rewords (.call name args) (.call name' args')
  /-- As many choices, and they lead to the same labels. -/
  | branch {choices choices' : List Choice}
      (targets : choices'.map Choice.target = choices.map Choice.target) :
      Rewords (.branch choices) (.branch choices')

/-- Outputs of one kind. -/
inductive Output.Alike : Output → Output → Prop
  | nothing : Alike .nothing .nothing
  | entry (e e' : TranscriptEntry) : Alike (.entry e) (.entry e')
  | event (e e' : FunctionEvent) : Alike (.event e) (.event e')

theorem Output.Alike.refl (o : Output) : o.Alike o := by
  cases o with
  | nothing => exact .nothing
  | entry e => exact .entry e e
  | event e => exact .event e e

theorem Node.Rewords.output {node node' : Node} (h : node.Rewords node') :
    (Story.output node).Alike (Story.output node') := by
  cases h with
  | same node => exact .refl _
  | branch targets => exact .nothing
  | call name name' args args' => exact .event _ _
  | _ => exact .entry _ _

theorem Node.Rewords.stops {node node' : Node} (h : node.Rewords node') :
    Story.stops node' = Story.stops node := by
  cases h <;> rfl

/-- Passages of one length. -/
structure Passage.Alike (p p' : Passage) : Prop where
  entries : p'.entries.length = p.entries.length
  events : p'.events.length = p.events.length

theorem Passage.alike_ofOutputs {os os' : List Output} (h : List.Forall₂ Output.Alike os os') :
    (ofOutputs os).Alike (ofOutputs os') := by
  induction h with
  | nil => exact ⟨rfl, rfl⟩
  | cons ho _ ih =>
    cases ho with
    | nothing => exact ih
    | entry e e' => exact ⟨congrArg (· + 1) ih.entries, ih.events⟩
    | event e e' => exact ⟨ih.entries, congrArg (· + 1) ih.events⟩

/-- Cursors at the same place with the same variables, whose choices lead to the same labels. -/
structure Cursor.Alike (c c' : Cursor) : Prop where
  pc : c'.pc = c.pc
  vars : c'.vars = c.vars
  targets : c'.pending.map Choice.target = c.pending.map Choice.target

theorem Cursor.Alike.refl (c : Cursor) : c.Alike c := ⟨rfl, rfl, rfl⟩

theorem Cursor.Alike.next {c c' : Cursor} (h : c.Alike c') : c.next.Alike c'.next :=
  ⟨congrArg (· + 1) h.pc, h.vars, h.targets⟩

theorem Cursor.Alike.put {c c' : Cursor} (h : c.Alike c') (name : String) (v : Value) :
    (c.put name v).Alike (c'.put name v) :=
  ⟨h.pc, congrArg (·.insert name v) h.vars, h.targets⟩

theorem Cursor.Alike.get? {c c' : Cursor} (h : c.Alike c') (name : String) :
    c'.get? name = c.get? name :=
  congrArg (·[name]?) h.vars

theorem Cursor.Alike.length_pending {c c' : Cursor} (h : c.Alike c') :
    c'.pending.length = c.pending.length := by
  have hlength := congrArg List.length h.targets
  simpa using hlength

theorem Cursor.Alike.isWaiting {c c' : Cursor} (h : c.Alike c') : c'.isWaiting = c.isWaiting := by
  have hempty : c'.pending = [] ↔ c.pending = [] := by
    rw [← List.length_eq_zero_iff, h.length_pending, List.length_eq_zero_iff]
  unfold Cursor.isWaiting
  rw [Bool.eq_iff_iff]
  simp [hempty]

namespace Story

/-- A story and one that says it differently: command by command, with the labels in the same
places. -/
structure Rewords (old new : Story) : Prop where
  nodes : List.Forall₂ Node.Rewords old.nodes.toList new.nodes.toList
  labelIndex? : ∀ name, new.labelIndex? name = old.labelIndex? name

namespace Rewords

variable {old new : Story} {c c' d : Cursor}

theorem size (h : Rewords old new) : new.size = old.size := by
  have hlength := h.nodes.length_eq
  rw [Array.length_toList, Array.length_toList] at hlength
  exact hlength.symm

theorem node?_none (h : Rewords old new) {i : Nat} (hn : old.node? i = none) :
    new.node? i = none := by
  have hsize : old.size ≤ i := Array.getElem?_eq_none_iff.mp hn
  rw [← h.size] at hsize
  exact Array.getElem?_eq_none_iff.mpr hsize

theorem node?_some (h : Rewords old new) {i : Nat} {node : Node} (hn : old.node? i = some node) :
    ∃ node', new.node? i = some node' ∧ node.Rewords node' := by
  obtain ⟨hi, hget⟩ := Array.getElem?_eq_some_iff.mp hn
  have hi' : i < new.size := h.size.symm ▸ hi
  have hrel := h.nodes.get (i := i) hi hi'
  refine ⟨new.nodes[i], Array.getElem?_eq_getElem hi', ?_⟩
  rw [← hget]
  exact hrel

/-! ## One command -/

theorem jump (h : Rewords old new) (hc : c.Alike c') (label : String) :
    (old.jump c label).Alike (new.jump c' label) := by
  unfold Story.jump
  rw [h.labelIndex?]
  split
  · exact ⟨rfl, hc.vars, hc.targets⟩
  · exact ⟨congrArg (· + 1) hc.pc, hc.vars, hc.targets⟩

/-- A command and another wording of it lead to cursors that are alike. -/
theorem move (h : Rewords old new) (hc : c.Alike c') {node node' : Node} (hn : node.Rewords node') :
    (old.move c node).Alike (new.move c' node') := by
  cases hn with
  | same node =>
    cases node with
    | branch choices => exact ⟨hc.next.pc, hc.next.vars, rfl⟩
    | jump label => exact h.jump hc label
    | jumpIf var cmp value label =>
      have hcheck : c'.check var cmp value = c.check var cmp value := by
        unfold Cursor.check
        rw [hc.get?]
      rw [Story.move, Story.move, hcheck]
      split
      · exact h.jump hc label
      · exact hc.next
    | set name value => exact (hc.put name _).next
    | modify name op value =>
      rw [Story.move, Story.move, Cursor.modify, Cursor.modify, hc.get?]
      cases Value.modify (c.get? name) op value with
      | ok v => exact (hc.put name v).next
      | error reason => exact hc.next
    | _ => exact hc.next
  | branch targets => exact ⟨hc.next.pc, hc.next.vars, targets⟩
  | _ => exact hc.next

/-! ## Runs -/

/-- Progress that is alike: the cursors are, and as much was put out. -/
structure ProgressAlike (p p' : Progress) : Prop where
  cursor : p.cursor.Alike p'.cursor
  trace : List.Forall₂ Output.Alike p.trace p'.trace
  finished : p'.finished = p.finished

/-- Within the same budget both stories get equally far. -/
theorem advance (h : Rewords old new) (hc : c.Alike c') {budget : Nat} {trace trace' : List Output}
    (ht : List.Forall₂ Output.Alike trace trace') :
    ProgressAlike (old.advance budget c trace) (new.advance budget c' trace') := by
  induction budget generalizing c c' trace trace' with
  | zero =>
    refine ⟨hc, ht, ?_⟩
    show (new.node? c'.pc).isNone = (old.node? c.pc).isNone
    rw [hc.pc]
    cases hn : old.node? c.pc with
    | none => rw [h.node?_none hn]
    | some node =>
      obtain ⟨node', hn', _⟩ := h.node?_some hn
      rw [hn']
      rfl
  | succ budget ih =>
    cases hn : old.node? c.pc with
    | none =>
      have hn' : new.node? c'.pc = none := hc.pc ▸ h.node?_none hn
      rw [advance_none hn, advance_none hn']
      exact ⟨hc, ht, rfl⟩
    | some node =>
      obtain ⟨node', hn', hrewords⟩ := h.node?_some hn
      rw [← hc.pc] at hn'
      rw [advance_some hn, advance_some hn', hrewords.stops]
      have hmove := h.move hc hrewords
      have htrace := List.Forall₂.cons hrewords.output ht
      split
      · exact ⟨hmove, htrace, rfl⟩
      · exact ih hmove htrace

/-- A run that succeeds on a story succeeds on one that says it differently. -/
theorem run (h : Rewords old new) (hc : c.Alike c') {budget : Nat} {p : Passage}
    (hrun : old.run budget c = (d, .ok p)) :
    ∃ d' p', new.run budget c' = (d', .ok p') ∧ d.Alike d' ∧ p.Alike p' := by
  unfold Story.run at hrun ⊢
  rw [hc.isWaiting]
  split at hrun
  · rename_i hw
    cases hrun
    rw [if_pos hw]
    exact ⟨c', _, rfl, hc, rfl, rfl⟩
  · rename_i hw
    have hadvance : ProgressAlike (old.advance budget c []) (new.advance budget c' []) :=
      h.advance hc .nil
    simp only [Prod.mk.injEq] at hrun
    obtain ⟨rfl, hresult⟩ := hrun
    split at hresult
    · rename_i hf
      cases hresult
      rw [if_neg hw]
      dsimp only
      rw [if_pos (hadvance.finished.trans hf)]
      exact ⟨_, _, rfl, hadvance.cursor,
        Passage.alike_ofOutputs (List.rel_reverse hadvance.trace)⟩
    · cases hresult

/-- A choice of the same number leads to the same place. -/
theorem select (h : Rewords old new) (hc : c.Alike c') {i : Nat}
    (hselect : old.select c i = .ok d) : ∃ d', new.select c' i = .ok d' ∧ d.Alike d' := by
  unfold Story.select at hselect ⊢
  have htarget : (c'.pending[i]?).map Choice.target = (c.pending[i]?).map Choice.target := by
    rw [← List.getElem?_map, ← List.getElem?_map, hc.targets]
  split at hselect
  · cases hselect
  · rename_i choice hi
    cases hselect
    rw [hi] at htarget
    obtain ⟨choice', hi', hsame⟩ := Option.map_eq_some_iff.mp htarget
    rw [hi']
    refine ⟨_, rfl, ?_, hc.vars, rfl⟩
    dsimp only
    rw [hsame, h.labelIndex?, hc.pc]

end Rewords

end Story

end StoryPreview
