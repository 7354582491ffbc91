import StoryPreview.Proofs.Story.Extension
/-!
The budget of a run. An `Execution` follows a story one command at a time and knows no budget: it stops
at a branch, or where there is no command. Within a budget it leads to where it stops, or as far as the
budget goes (`Execution.Leads`), and that is where a run gets to (`run_of_leads`). So a run succeeds
exactly if the execution stops in time, and a larger budget never changes a run that succeeds
(`run_exact`).
-/
namespace StoryPreview

/-! ## Execution without a budget -/

/-- The passage with one output more. -/
def Passage.add (p : Passage) : Output → Passage
  | .nothing => p
  | .entry e => { p with entries := p.entries ++ [e] }
  | .event e => { p with events := p.events ++ [e] }

theorem Passage.ofOutputs_concat (outputs : List Output) (o : Output) :
    ofOutputs (outputs ++ [o]) = (ofOutputs outputs).add o := by
  cases o <;> simp [ofOutputs, add]

/-- How far a story has been executed. -/
structure Execution where
  cursor : Cursor
  /-- What it has put out. -/
  passage : Passage
  /-- Whether the last command was a branch. -/
  branched : Bool

namespace Execution

/-- Nothing executed yet. -/
def begin (c : Cursor) : Execution := ⟨c, .empty, false⟩

/-- One command further; nowhere behind a branch, and where there is no command. -/
def next? (s : Story) (e : Execution) : Option Execution :=
  if e.branched then none
  else (s.node? e.cursor.pc).map fun node =>
    let step := s.execute e.cursor node
    ⟨step.cursor, e.passage.add step.output, step.stops⟩

/-- So many commands further; nowhere if the execution stops before. -/
def after? (s : Story) : Execution → Nat → Option Execution
  | e, 0 => some e
  | e, n + 1 => (e.next? s).bind fun e => e.after? s n

/-- From a cursor the execution stops after exactly so many commands, and there. -/
def StopsAfter (s : Story) (c : Cursor) (n : Nat) (e : Execution) : Prop :=
  (begin c).after? s n = some e ∧ e.next? s = none

variable {s : Story} {c : Cursor} {e e₁ e₂ : Execution} {m n : Nat} {b b₁ b₂ : Bool}

theorem next?_of_none (hn : s.node? c.pc = none) (p : Passage) (b : Bool) :
    (⟨c, p, b⟩ : Execution).next? s = none := by
  unfold next?
  dsimp only
  rw [hn, Option.map_none, ite_self]

theorem next?_of_some {node : Node} (hn : s.node? c.pc = some node) (p : Passage) :
    (⟨c, p, false⟩ : Execution).next? s =
      some ⟨s.move c node, p.add (Story.output node), Story.stops node⟩ := by
  unfold next?
  dsimp only
  rw [hn]
  rfl

theorem after?_add (s : Story) (m n : Nat) (e : Execution) :
    e.after? s (m + n) = (e.after? s m).bind fun e => e.after? s n := by
  induction m generalizing e with
  | zero => rw [Nat.zero_add]; rfl
  | succ m ih =>
    rw [Nat.add_right_comm, after?, after?]
    cases e.next? s with
    | none => rfl
    | some e' => exact ih e'

/-- Behind its end an execution goes nowhere. -/
theorem eq_zero_of_stopped (hs : e.next? s = none) (h : e.after? s n = some e₁) : n = 0 := by
  cases n with
  | zero => rfl
  | succ n =>
    rw [after?, hs] at h
    cases h

/-! ## Execution within a budget -/

/-- Where a budget leads: to the end of the execution, if that comes in time, and else as far as the
budget goes. -/
inductive Leads (s : Story) (e : Execution) (n : Nat) : Execution → Bool → Prop
  | stopped {k e'} (hk : k ≤ n) (h : e.after? s k = some e') (hs : e'.next? s = none) :
      Leads s e n e' true
  | spent {e'} (h : e.after? s n = some e') (hs : e'.next? s ≠ none) : Leads s e n e' false

/-- The budget leads as far from the next command, with that command paid for. -/
theorem Leads.of_next (he : e.next? s = some e₁) (h : Leads s e₁ n e₂ b) :
    Leads s e (n + 1) e₂ b := by
  cases h with
  | stopped hk h hs =>
    refine .stopped (Nat.succ_le_succ hk) ?_ hs
    rw [after?, he]
    exact h
  | spent h hs =>
    refine .spent ?_ hs
    rw [after?, he]
    exact h

/-- Nothing comes after the end, so an execution that has stopped is behind any other. -/
theorem le_of_stopped {k : Nat} (h : e.after? s k = some e₁) (hs : e₁.next? s = none)
    (h' : e.after? s n = some e₂) : n ≤ k := by
  refine Nat.le_of_not_lt fun hlt => ?_
  obtain ⟨d, rfl⟩ := Nat.exists_eq_add_of_lt hlt
  rw [Nat.add_assoc, after?_add, h] at h'
  exact absurd (eq_zero_of_stopped hs h') (Nat.succ_ne_zero d)

/-- A budget leads to one place only. -/
theorem Leads.unique (h₁ : Leads s e n e₁ b₁) (h₂ : Leads s e n e₂ b₂) : e₁ = e₂ ∧ b₁ = b₂ := by
  cases h₁ with
  | @stopped k _ hk h hs =>
    cases h₂ with
    | @stopped k' _ hk' h' hs' =>
      obtain rfl : k = k' := Nat.le_antisymm (le_of_stopped h' hs' h) (le_of_stopped h hs h')
      exact ⟨Option.some.inj (h.symm.trans h'), rfl⟩
    | spent h' hs' =>
      obtain rfl : k = n := Nat.le_antisymm hk (le_of_stopped h hs h')
      cases h.symm.trans h'
      exact absurd hs hs'
  | spent h hs =>
    cases h₂ with
    | @stopped k' _ hk' h' hs' =>
      obtain rfl : k' = n := Nat.le_antisymm hk' (le_of_stopped h' hs' h)
      cases h.symm.trans h'
      exact absurd hs' hs
    | spent h' _ => exact ⟨Option.some.inj (h.symm.trans h'), rfl⟩

end Execution

namespace Story

open Execution

variable {s : Story} {c : Cursor}

/-! ## Runs -/

/-- The loop of a run gets to where its budget leads, and has put out the passage on the way. -/
theorem exists_leads_advance (s : Story) (n : Nat) (c : Cursor) (trace : List Output) :
    ∃ e, Leads s ⟨c, .ofOutputs trace.reverse, false⟩ n e (s.advance n c trace).finished ∧
      e.cursor = (s.advance n c trace).cursor ∧
      e.passage = .ofOutputs (s.advance n c trace).trace.reverse := by
  induction n generalizing c trace with
  | zero =>
    rw [advance]
    cases hn : s.node? c.pc with
    | none => exact ⟨_, .stopped (Nat.le_refl 0) rfl (next?_of_none hn _ _), rfl, rfl⟩
    | some node =>
      have hmore := next?_of_some hn (.ofOutputs trace.reverse)
      exact ⟨_, .spent rfl (hmore ▸ Option.some_ne_none _), rfl, rfl⟩
  | succ n ih =>
    cases hn : s.node? c.pc with
    | none =>
      rw [advance_none hn]
      exact ⟨_, .stopped (Nat.zero_le _) rfl (next?_of_none hn _ _), rfl, rfl⟩
    | some node =>
      have hnext := next?_of_some hn (.ofOutputs trace.reverse)
      rw [← Passage.ofOutputs_concat, ← List.reverse_cons] at hnext
      rw [advance_some hn]
      by_cases hs : stops node = true
      · rw [if_pos hs]
        rw [hs] at hnext
        exact ⟨_, .of_next hnext (.stopped (Nat.zero_le n) rfl rfl), rfl, rfl⟩
      · rw [if_neg hs]
        rw [Bool.not_eq_true] at hs
        rw [hs] at hnext
        obtain ⟨e, he, hcursor, hpassage⟩ := ih (s.move c node) (output node :: trace)
        exact ⟨e, .of_next hnext he, hcursor, hpassage⟩

/-- A run gets to where its budget leads. -/
theorem run_of_leads (hc : c.isWaiting = false) {n : Nat} {e : Execution} {b : Bool}
    (h : Leads s (.begin c) n e b) :
    s.run n c = (e.cursor, if b then .ok e.passage else .error (.stepLimit n)) := by
  obtain ⟨e', he', hcursor, hpassage⟩ := exists_leads_advance s n c []
  obtain ⟨rfl, rfl⟩ := he'.unique h
  unfold run
  rw [if_neg (by simp [hc]), hcursor, hpassage]

theorem exists_leads (s : Story) (c : Cursor) (n : Nat) : ∃ e b, Leads s (.begin c) n e b := by
  obtain ⟨e, he, _⟩ := exists_leads_advance s n c []
  exact ⟨e, _, he⟩

/-- The budget of a run is exact. From a cursor that does not wait for a choice, a run succeeds exactly if
the execution from there, which knows no budget, stops after at most so many commands; it then has the
passage of that execution and gets to where that stops. Otherwise the run fails for want of budget and
gets to where the execution is after exactly so many commands. So a larger budget never changes a run
that succeeds. -/
theorem run_exact (hc : c.isWaiting = false) (n : Nat) :
    ((∃ passage, (s.run n c).2 = .ok passage) ↔ ∃ k ≤ n, ∃ e, StopsAfter s c k e) ∧
      (∀ k ≤ n, ∀ e, StopsAfter s c k e → s.run n c = (e.cursor, .ok e.passage)) ∧
      ((¬ ∃ k ≤ n, ∃ e, StopsAfter s c k e) →
        ∃ e, (begin c).after? s n = some e ∧ s.run n c = (e.cursor, .error (.stepLimit n))) ∧
      ∀ m ≥ n, ∀ passage, (s.run n c).2 = .ok passage → s.run m c = s.run n c := by
  have hstops : ∀ m k e, k ≤ m → StopsAfter s c k e → s.run m c = (e.cursor, .ok e.passage) :=
    fun m k e hk h => run_of_leads hc (.stopped hk h.1 h.2)
  have hok : ∀ passage, (s.run n c).2 = .ok passage → ∃ k ≤ n, ∃ e, StopsAfter s c k e := by
    intro passage hrun
    obtain ⟨e, b, he⟩ := exists_leads s c n
    rw [run_of_leads hc he] at hrun
    cases he with
    | stopped hk h hs => exact ⟨_, hk, e, h, hs⟩
    | spent _ _ => cases hrun
  refine ⟨⟨fun ⟨passage, hrun⟩ => hok passage hrun, ?_⟩, fun k hk e => hstops n k e hk, ?_, ?_⟩
  · rintro ⟨k, hk, e, h⟩
    exact ⟨e.passage, by rw [hstops n k e hk h]⟩
  · intro hnot
    obtain ⟨e, b, he⟩ := exists_leads s c n
    cases he with
    | stopped hk h hs => exact absurd ⟨_, hk, e, h, hs⟩ hnot
    | spent h hs => exact ⟨e, h, run_of_leads hc (.spent h hs)⟩
  · intro m hm passage hrun
    obtain ⟨k, hk, e, h⟩ := hok passage hrun
    rw [hstops n k e hk h, hstops m k e (Nat.le_trans hk hm) h]

end Story

/-! ## An example -/

/-- A story that counts down, passes over a jump to a label that is nowhere, and comes to a branch. -/
def Story.countdown : Story where
  nodes := #[.set "n" "2", .label "again", .modify "n" .subtract "1",
    .jumpIf "n" .greater "0" "again", .jump "pad", .say none "Lift-off.", .branch [⟨"again", "again"⟩]]
  labels := .ofList [("again", 1)]

/-- It takes ten commands. With nine it stands before the branch and fails, and with more than ten it goes
no further. -/
theorem Story.run_exact_countdown :
    Cursor.start.isWaiting = false ∧ (∃ e, Execution.StopsAfter countdown .start 10 e) ∧
      (countdown.run 10 .start).2 = .ok ⟨[.text none "Lift-off."], []⟩ ∧
      countdown.run 100 .start = countdown.run 10 .start ∧
      (countdown.run 9 .start).2 = .error (.stepLimit 9) ∧
      (countdown.run 9 .start).1.pc = 6 := by
  have hstops : Execution.StopsAfter countdown .start 10
      (((Execution.begin .start).after? countdown 10).get (by decide +kernel)) :=
    ⟨(Option.some_get _).symm, by decide +kernel⟩
  have hnot : ¬ ∃ k ≤ 9, ∃ e, Execution.StopsAfter countdown .start k e := by
    rintro ⟨k, hk, e, h, hs⟩
    have := Execution.le_of_stopped h hs hstops.1
    omega
  obtain ⟨-, hten, -, hmore⟩ := run_exact (s := countdown) (c := .start) rfl 10
  obtain ⟨-, -, hnine, -⟩ := run_exact (s := countdown) (c := .start) rfl 9
  have hrun := hten 10 (Nat.le_refl 10) _ hstops
  obtain ⟨e, he, hrun'⟩ := hnine hnot
  refine ⟨rfl, ⟨_, hstops⟩, ?_, hmore 100 (by decide) _ (congrArg Prod.snd hrun),
    congrArg Prod.snd hrun', ?_⟩
  · rw [hrun]
    exact congrArg Except.ok (by decide +kernel)
  · rw [hrun']
    have hpc : ((Execution.begin .start).after? countdown 9).map (·.cursor.pc) = some 6 := by
      decide +kernel
    rw [he] at hpc
    exact Option.some.inj hpc

end StoryPreview
