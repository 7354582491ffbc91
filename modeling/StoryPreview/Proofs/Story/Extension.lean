import StoryPreview.Proofs.Story.Link
import StoryPreview.Story.Player
/-!
Runs of a story and of one that extends it. From the same cursor both come to the same branch, or the
shorter story ends and the longer one goes on behind what the shorter one has put out
(`Extends.advance`, `Extends.run`).
-/
namespace StoryPreview

namespace Story

/-- Choices that lead to the same places in both stories. -/
def Shared (old new : Story) (choices : List Choice) : Prop :=
  ∀ choice ∈ choices, new.labelIndex? choice.target = old.labelIndex? choice.target

theorem jump_pending (s : Story) (c : Cursor) (label : String) :
    (s.jump c label).pending = c.pending := by
  unfold jump
  split <;> rfl

/-- Only a branch makes a story wait. -/
theorem move_pending (s : Story) (c : Cursor) {node : Node} (h : stops node = false) :
    (s.move c node).pending = c.pending := by
  cases node with
  | branch choices => cases h
  | jump label => exact jump_pending s c label
  | jumpIf var cmp value label =>
    rw [move]
    split
    · exact jump_pending s c label
    · rfl
  | modify name op value =>
    rw [move]
    split
    · rename_i c' hc
      unfold Cursor.modify at hc
      split at hc <;> cases hc
      rfl
    · rfl
  | _ => rfl

theorem advance_none {s : Story} {c : Cursor} (hn : s.node? c.pc = none) (budget : Nat)
    (trace : List Output) : s.advance (budget + 1) c trace = ⟨c, trace, true⟩ := by
  rw [advance, hn]

theorem advance_some {s : Story} {c : Cursor} {node : Node} (hn : s.node? c.pc = some node)
    (budget : Nat) (trace : List Output) :
    s.advance (budget + 1) c trace =
      if stops node then ⟨s.move c node, output node :: trace, true⟩
      else s.advance budget (s.move c node) (output node :: trace) := by
  rw [advance, hn]
  rfl

/-- What has been put out stays put out. -/
theorem trace_suffix_advance (s : Story) (budget : Nat) (c : Cursor) (trace : List Output) :
    trace <:+ (s.advance budget c trace).trace := by
  induction budget generalizing c trace with
  | zero => exact List.suffix_refl trace
  | succ budget ih =>
    cases hn : s.node? c.pc with
    | none =>
      have hstop := advance_none hn budget trace
      exact hstop ▸ List.suffix_refl trace
    | some node =>
      rw [advance_some hn]
      split
      · exact List.suffix_cons _ trace
      · exact (List.suffix_cons _ trace).trans (ih _ _)

namespace Extends

variable {old new : Story}

theorem jump (h : Extends old new) {i : Nat} {node : Node} (hn : old.node? i = some node)
    {label : String} (hl : label ∈ node.targets) (c : Cursor) :
    new.jump c label = old.jump c label := by
  unfold Story.jump
  rw [h.target hn label hl]

theorem move (h : Extends old new) {i : Nat} {node : Node} (hn : old.node? i = some node)
    (c : Cursor) : new.move c node = old.move c node := by
  cases node with
  | jump label => exact h.jump hn (List.mem_singleton_self _) c
  | jumpIf var cmp value label =>
    rw [Story.move, Story.move]
    split
    · exact h.jump hn (List.mem_singleton_self _) c
    · rfl
  | _ => rfl

/-- A branch of the shorter story leads to the same places in both. -/
theorem shared (h : Extends old new) {i : Nat} {node : Node} (hn : old.node? i = some node)
    (hs : stops node = true) (c : Cursor) : Shared old new (old.move c node).pending := by
  cases node with
  | branch choices =>
    intro choice hc
    exact h.target hn _ (List.mem_map_of_mem hc)
  | _ => cases hs

/-- Within the same budget, both stories come to the same branch, or the shorter one to its end and the
longer one further. -/
theorem advance (h : Extends old new) {budget : Nat} {c : Cursor} {trace : List Output}
    (hc : c.pending = []) (hf : (old.advance budget c trace).finished = true) :
    (new.advance budget c trace = old.advance budget c trace ∧
        Shared old new (old.advance budget c trace).cursor.pending) ∨
      ((old.advance budget c trace).cursor.pending = [] ∧
        old.node? (old.advance budget c trace).cursor.pc = none ∧
        (old.advance budget c trace).trace <:+ (new.advance budget c trace).trace) := by
  induction budget generalizing c trace with
  | zero => exact .inr ⟨hc, Option.isNone_iff_eq_none.mp hf, List.suffix_refl trace⟩
  | succ budget ih =>
    cases hn : old.node? c.pc with
    | none =>
      rw [advance_none hn]
      exact .inr ⟨hc, hn, trace_suffix_advance new _ c trace⟩
    | some node =>
      have hnew : new.advance (budget + 1) c trace =
          if stops node then ⟨old.move c node, output node :: trace, true⟩
          else new.advance budget (old.move c node) (output node :: trace) := by
        rw [advance_some (h.node? hn), h.move hn]
      rw [advance_some hn] at hf
      rw [advance_some hn, hnew]
      by_cases hs : stops node = true
      · rw [if_pos hs, if_pos hs]
        exact .inl ⟨rfl, h.shared hn hs c⟩
      · rw [if_neg hs] at hf
        rw [if_neg hs, if_neg hs]
        exact ih ((move_pending old c (by simpa using hs)).trans hc) hf

/-- A run from a cursor whose choices lead to the same places, when it succeeds on both stories. -/
theorem run (h : Extends old new) {budget : Nat} {c c₁ c₂ : Cursor} {p₁ p₂ : Passage}
    (hc : Shared old new c.pending) (ho : old.run budget c = (c₁, .ok p₁))
    (hn : new.run budget c = (c₂, .ok p₂)) :
    (c₂ = c₁ ∧ p₂ = p₁ ∧ Shared old new c₁.pending) ∨
      (c₁.pending = [] ∧ old.node? c₁.pc = none ∧ p₁.entries <+: p₂.entries) := by
  unfold Story.run at ho hn
  by_cases hw : c.isWaiting = true
  · rw [if_pos hw] at ho hn
    cases ho
    cases hn
    exact .inl ⟨rfl, rfl, hc⟩
  · rw [if_neg hw] at ho hn
    have hp : c.pending = [] := by simpa [Cursor.isWaiting] using hw
    simp only [Prod.mk.injEq] at ho hn
    obtain ⟨rfl, ho⟩ := ho
    obtain ⟨rfl, hn⟩ := hn
    split at ho
    · rename_i hf
      split at hn
      · cases ho
        cases hn
        rcases h.advance hp hf with ⟨heq, hshared⟩ | ⟨hend, hpc, htrace⟩
        · rw [heq]
          exact .inl ⟨rfl, rfl, hshared⟩
        · exact .inr ⟨hend, hpc, (List.reverse_prefix.mpr htrace).filterMap _⟩
      · cases hn
    · cases ho

end Extends

/-- Taking a choice that leads to the same place leads to the same cursor. -/
theorem Shared.select {old new : Story} {c : Cursor} (hc : Shared old new c.pending) (i : Nat) :
    new.select c i = old.select c i := by
  unfold Story.select
  split
  · rfl
  · rename_i choice hi
    rw [hc choice (List.mem_of_getElem? hi)]

theorem select_pending {s : Story} {c c' : Cursor} {i : Nat} (h : s.select c i = .ok c') :
    c'.pending = [] := by
  unfold select at h
  split at h
  · cases h
  · cases h
    rfl

end Story

end StoryPreview
