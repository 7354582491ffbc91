import Mathlib.Data.List.Infix
import Mathlib.Data.Nat.Find
import StoryPreview.Message.Position
/-!
Where a text is found. A place of a text is a line and a column behind which its characters stand, all
within that line (`StandsAt`). The search goes through a line from its first character and through the
lines from the first one, so what it finds comes before every other place of the text (`FirstPlace`), and
it finds nothing only if the text stands in no line. So a target that is a text is resolved to the first
place of what is left of it without blanks around, or there is no such place and the error has the text as
it was given (`resolve_text`).
-/
namespace StoryPreview

/-! ## Within a line -/

namespace Text

/-- The needle stands in the line behind its first `k` characters. -/
def OccursAfter (needle line : List Char) (k : Nat) : Prop :=
  ∃ before rest, line = before ++ needle ++ rest ∧ before.length = k

theorem occursAfter_zero {needle line : List Char} : OccursAfter needle line 0 ↔ needle <+: line := by
  constructor
  · rintro ⟨before, rest, rfl, hlength⟩
    rw [List.eq_nil_of_length_eq_zero hlength]
    exact List.prefix_append needle rest
  · rintro ⟨rest, rfl⟩
    exact ⟨[], rest, rfl, rfl⟩

theorem occursAfter_succ {needle cs : List Char} {c : Char} {k : Nat} :
    OccursAfter needle (c :: cs) (k + 1) ↔ OccursAfter needle cs k := by
  constructor
  · rintro ⟨before, rest, hline, hlength⟩
    obtain ⟨d, before, rfl⟩ := List.exists_cons_of_length_eq_add_one hlength
    rw [List.cons_append, List.cons_append, List.cons.injEq] at hline
    exact ⟨before, rest, hline.2, Nat.succ.inj hlength⟩
  · rintro ⟨before, rest, rfl, rfl⟩
    exact ⟨c :: before, rest, rfl, rfl⟩

theorem exists_occursAfter_iff {needle line : List Char} :
    (∃ k, OccursAfter needle line k) ↔ needle <:+: line := by
  constructor
  · rintro ⟨_, before, rest, hline, _⟩
    exact ⟨before, rest, hline.symm⟩
  · rintro ⟨before, rest, hline⟩
    exact ⟨before.length, before, rest, hline.symm, rfl⟩

/-- The search stops at the first place in the line. -/
theorem indexOf?_eq_some_iff {needle line : List Char} {k : Nat} :
    indexOf? needle line = some k ↔
      OccursAfter needle line k ∧ ∀ j, OccursAfter needle line j → k ≤ j := by
  induction line generalizing k with
  | nil =>
    have hempty {j : Nat} : OccursAfter needle [] j ↔ needle = [] ∧ j = 0 := by
      constructor
      · rintro ⟨before, rest, hline, rfl⟩
        simp_all
      · rintro ⟨rfl, rfl⟩
        exact ⟨[], [], rfl, rfl⟩
    unfold indexOf?
    simp only [hempty]
    split <;> simp_all [eq_comm]
  | cons c cs ih =>
    unfold indexOf?
    split
    · rename_i hprefix
      have hhere : OccursAfter needle (c :: cs) 0 :=
        occursAfter_zero.mpr (List.isPrefixOf_iff_prefix.mp hprefix)
      constructor
      · rintro ⟨⟩
        exact ⟨hhere, fun j _ => Nat.zero_le j⟩
      · rintro ⟨_, hleast⟩
        rw [Nat.le_zero.mp (hleast 0 hhere)]
    · rename_i hprefix
      have hnot : ¬ OccursAfter needle (c :: cs) 0 := fun h =>
        hprefix (List.isPrefixOf_iff_prefix.mpr (occursAfter_zero.mp h))
      constructor
      · intro hfound
        obtain ⟨i, hi, rfl⟩ := Option.map_eq_some_iff.mp hfound
        obtain ⟨hoccurs, hleast⟩ := ih.mp hi
        refine ⟨occursAfter_succ.mpr hoccurs, fun j hj => ?_⟩
        cases j with
        | zero => exact absurd hj hnot
        | succ j => exact Nat.succ_le_succ (hleast j (occursAfter_succ.mp hj))
      · rintro ⟨hoccurs, hleast⟩
        cases k with
        | zero => exact absurd hoccurs hnot
        | succ k =>
          have hi : indexOf? needle cs = some k :=
            ih.mpr ⟨occursAfter_succ.mp hoccurs, fun j hj =>
              Nat.le_of_succ_le_succ (hleast (j + 1) (occursAfter_succ.mpr hj))⟩
          rw [hi, Option.map_some]

theorem indexOf?_eq_none_iff {needle line : List Char} :
    indexOf? needle line = none ↔ ¬ needle <:+: line := by
  rw [← exists_occursAfter_iff]
  constructor
  · intro hnone hoccurs
    classical
    have hfirst : indexOf? needle line = some (Nat.find hoccurs) :=
      indexOf?_eq_some_iff.mpr ⟨Nat.find_spec hoccurs, fun j hj => Nat.find_min' hoccurs hj⟩
    rw [hnone] at hfirst
    cases hfirst
  · intro hnot
    cases hindex : indexOf? needle line with
    | none => rfl
    | some k => exact absurd ⟨k, (indexOf?_eq_some_iff.mp hindex).1⟩ hnot

end Text

/-! ## Among lines -/

namespace Position

/-- The needle stands at a place among lines, the first of which is line `n`. -/
def StandsAt (needle : List Char) (n : Nat) (lines : List (List Char)) (p : Position) : Prop :=
  ∃ i line k, p = ⟨n + i, k + 1⟩ ∧ lines[i]? = some line ∧ Text.OccursAfter needle line k

/-- The needle stands at a place and at no earlier one: in no line before, and nowhere before in the same
line. -/
structure FirstPlace (needle : List Char) (n : Nat) (lines : List (List Char)) (p : Position) :
    Prop where
  stands : StandsAt needle n lines p
  first : ∀ q, StandsAt needle n lines q → p.line < q.line ∨ p.line = q.line ∧ p.column ≤ q.column

theorem StandsAt.le_line {needle : List Char} {n : Nat} {lines : List (List Char)} {p : Position}
    (h : StandsAt needle n lines p) : n ≤ p.line := by
  obtain ⟨i, line, k, rfl, _⟩ := h
  exact Nat.le_add_right n i

theorem standsAt_cons {needle line : List Char} {n : Nat} {rest : List (List Char)} {p : Position} :
    StandsAt needle n (line :: rest) p ↔
      (∃ k, p = ⟨n, k + 1⟩ ∧ Text.OccursAfter needle line k) ∨ StandsAt needle (n + 1) rest p := by
  constructor
  · rintro ⟨i, other, k, rfl, hline, hoccurs⟩
    cases i with
    | zero =>
      cases hline
      exact .inl ⟨k, rfl, hoccurs⟩
    | succ i => exact .inr ⟨i, other, k, by rw [Nat.add_right_comm, Nat.add_assoc], hline, hoccurs⟩
  · rintro (⟨k, rfl, hoccurs⟩ | ⟨i, other, k, rfl, hline, hoccurs⟩)
    · exact ⟨0, line, k, rfl, rfl, hoccurs⟩
    · exact ⟨i + 1, other, k, by rw [Nat.add_right_comm, Nat.add_assoc], hline, hoccurs⟩

/-- The needle stands somewhere among the lines if it stands in one of them. -/
theorem exists_standsAt_iff {needle : List Char} {n : Nat} {lines : List (List Char)} :
    (∃ p, StandsAt needle n lines p) ↔ ∃ line ∈ lines, needle <:+: line := by
  simp only [← Text.exists_occursAfter_iff, List.mem_iff_getElem?]
  constructor
  · rintro ⟨_, i, line, k, _, hline, hoccurs⟩
    exact ⟨line, ⟨i, hline⟩, k, hoccurs⟩
  · rintro ⟨line, ⟨i, hline⟩, k, hoccurs⟩
    exact ⟨_, i, line, k, rfl, hline, hoccurs⟩

/-- There is only one first place. -/
theorem FirstPlace.eq {needle : List Char} {n : Nat} {lines : List (List Char)} {p q : Position}
    (hp : FirstPlace needle n lines p) (hq : FirstPlace needle n lines q) : p = q := by
  obtain ⟨line, column⟩ := p
  obtain ⟨line', column'⟩ := q
  have hle := hp.first _ hq.stands
  have hge := hq.first _ hp.stands
  dsimp only at hle hge
  rw [Position.mk.injEq]
  omega

/-- The search goes on to the next line only if the needle does not stand in this one. -/
theorem find?_cases (needle : List Char) (n : Nat) (lines : List (List Char)) :
    (∃ p, find? needle n lines = some p ∧ FirstPlace needle n lines p) ∨
      (find? needle n lines = none ∧ ∀ p, ¬ StandsAt needle n lines p) := by
  induction lines generalizing n with
  | nil =>
    refine .inr ⟨rfl, ?_⟩
    rintro _ ⟨i, line, k, _, hline, _⟩
    cases hline
  | cons line rest ih =>
    unfold find?
    split
    · rename_i k hindex
      obtain ⟨hoccurs, hleast⟩ := Text.indexOf?_eq_some_iff.mp hindex
      refine .inl ⟨⟨n, k + 1⟩, rfl, standsAt_cons.mpr (.inl ⟨k, rfl, hoccurs⟩), fun q hq => ?_⟩
      rcases standsAt_cons.mp hq with ⟨j, rfl, hj⟩ | hlater
      · exact .inr ⟨rfl, Nat.succ_le_succ (hleast j hj)⟩
      · exact .inl hlater.le_line
    · rename_i hindex
      have hnot : ∀ k, ¬ Text.OccursAfter needle line k := fun k hk =>
        Text.indexOf?_eq_none_iff.mp hindex (Text.exists_occursAfter_iff.mp ⟨k, hk⟩)
      have hlater {p : Position} : StandsAt needle n (line :: rest) p ↔
          StandsAt needle (n + 1) rest p := by
        rw [standsAt_cons, or_iff_right]
        rintro ⟨k, _, hk⟩
        exact hnot k hk
      rcases ih (n + 1) with ⟨p, hfound, hfirst⟩ | ⟨hfound, hnone⟩
      · exact .inl ⟨p, hfound, hlater.mpr hfirst.stands, fun q hq => hfirst.first q (hlater.mp hq)⟩
      · exact .inr ⟨hfound, fun p hp => hnone p (hlater.mp hp)⟩

end Position

/-- A target that is a text is resolved to the first place of the text without the blanks around it. If
nothing is left of it, or it stands in no line, the error has the text as it was given. -/
theorem JumpTarget.resolve_text (document text : String) :
    (∀ p, resolve document (.text text) = .ok p ↔
      Text.trim text.toList ≠ [] ∧
        Position.FirstPlace (Text.trim text.toList) 1 (Text.lines document.toList) p) ∧
      ∀ e, resolve document (.text text) = .error e ↔
        e = .textNotFound text ∧
          ¬ (Text.trim text.toList ≠ [] ∧
            ∃ line ∈ Text.lines document.toList, Text.trim text.toList <:+: line) := by
  unfold resolve
  dsimp only
  rw [← Position.exists_standsAt_iff (n := 1)]
  by_cases hblank : Text.trim text.toList = []
  · rw [if_pos hblank]
    exact ⟨fun p => ⟨nofun, fun h => absurd hblank h.1⟩,
      fun e => ⟨fun h => ⟨(Except.error.inj h).symm, fun h => h.1 hblank⟩, fun h => by rw [h.1]⟩⟩
  · rw [if_neg hblank]
    rcases Position.find?_cases (Text.trim text.toList) 1 (Text.lines document.toList) with
      ⟨p, hfound, hfirst⟩ | ⟨hfound, hnone⟩
    · rw [hfound]
      refine ⟨fun q => ⟨?_, fun h => congrArg Except.ok (hfirst.eq h.2)⟩,
        fun e => ⟨nofun, fun h => absurd ⟨hblank, p, hfirst.stands⟩ h.2⟩⟩
      rintro ⟨⟩
      exact ⟨hblank, hfirst⟩
    · rw [hfound]
      refine ⟨fun p => ⟨nofun, fun h => absurd h.2.stands (hnone p)⟩, fun e => ⟨?_, fun h => by rw [h.1]⟩⟩
      rintro ⟨⟩
      exact ⟨rfl, fun ⟨_, p, hp⟩ => hnone p hp⟩

/-- Of two places that overlap it is the first, and a column counts characters. -/
example : JumpTarget.resolve "[SAY]\r\nあ ううう\n" (.text " うう\t") = .ok ⟨2, 3⟩ := by rfl

end StoryPreview
