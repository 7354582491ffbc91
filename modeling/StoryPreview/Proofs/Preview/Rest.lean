import StoryPreview.Proofs.Preview.Recompile
/-!
Previews at rest. After a call the two parties come to rest: either the preview can go on, or its session
has ended, and then nothing is compiled or posted any more (`AtRest`, `Ended.settle`). The gate opens once.
A later report that the display is ready changes nothing, whatever has happened meanwhile
(`AtRest.perform_ready`).
-/
namespace StoryPreview

/-! ## Notices -/

/-- Nothing but notices. -/
def Noticed (events : List Event) : Prop := ∃ notices : List Notice, events = notices.map .noticed

theorem noticed_nil : Noticed [] := ⟨[], rfl⟩

theorem Noticed.append {es fs : List Event} (hes : Noticed es) (hfs : Noticed fs) :
    Noticed (es ++ fs) := by
  obtain ⟨notices, rfl⟩ := hes
  obtain ⟨more, rfl⟩ := hfs
  exact ⟨notices ++ more, List.map_append.symm⟩

theorem Noticed.begun {es : List Event} (h : Noticed es) : begun es = [] := by
  obtain ⟨notices, rfl⟩ := h
  simp [StoryPreview.begun]

theorem Noticed.posts {es : List Event} (h : Noticed es) : Actor.posts es = [] := by
  obtain ⟨notices, rfl⟩ := h
  simp [Actor.posts]

theorem Noticed.answers {es : List Event} (h : Noticed es) : Actor.answers es = [] := by
  obtain ⟨notices, rfl⟩ := h
  simp [Actor.answers]

/-- An actor whose session has ended answers every action and does nothing else. -/
theorem Actor.run_of_stopped {a : Actor} (h : a.isStopped = true) (cs : List Command) :
    a.run cs = (a, (cs.filterMap Command.call?).map fun call => .answered call (.ok ())) := by
  induction cs with
  | nil => rfl
  | cons c cs ih => rw [run_cons, step_of_stopped h, ih, calls_cons, List.map_append]

namespace Preview

variable {compile : String → CompileResult} {p : Preview}

/-! ## After the end of the session -/

/-- The session has ended, and whoever waits for the display has been told so. -/
structure Ended (p : Preview) : Prop where
  stopped : p.actor.isStopped = true
  gate : p.gate = .closed
  held : p.held = false

/-- The coordinator ends without compiling anything. -/
theorem Ended.coordinate (h : p.Ended) (compile : String → CompileResult) :
    (p.coordinate compile).1.inbox = p.inbox ∧ Noticed (p.coordinate compile).2 := by
  unfold Preview.coordinate
  split
  · rw [if_pos h.stopped]
    exact ⟨rfl, _, rfl⟩
  · rw [h.gate]
    exact ⟨rfl, _, rfl⟩
  · rw [if_neg (by simp [h.held]), if_pos h.stopped]
    exact ⟨rfl, _, rfl⟩
  · exact ⟨rfl, noticed_nil⟩

/-- Calls that are under way are answered. -/
theorem Ended.round (h : p.Ended) (compile : String → CompileResult) :
    (p.round compile).1.Ended ∧ (p.round compile).1.inbox = [] ∧
      (p.round compile).1.actor = p.actor ∧
      ∃ notices : List Notice, (p.round compile).2 =
        notices.map .noticed ++
          (p.inbox.filterMap Command.call?).map fun call => .answered call (.ok ()) := by
  have hkeeps := keeps_coordinate compile p
  obtain ⟨hinbox, notices, hnotices⟩ := h.coordinate compile
  have hstopped : (p.coordinate compile).1.actor.isStopped = true := by
    rw [hkeeps.actor]
    exact h.stopped
  have hrun := Actor.run_of_stopped hstopped (p.coordinate compile).1.inbox
  rw [hinbox] at hrun
  unfold Preview.round deliver
  dsimp only
  rw [hinbox, hrun, hnotices]
  refine ⟨⟨hstopped, if_pos hstopped, ?_⟩, rfl, hkeeps.actor, notices, rfl⟩
  exact hkeeps.held.trans h.held

theorem Ended.settle (h : p.Ended) (compile : String → CompileResult) :
    (p.settle compile).1.Ended ∧ (p.settle compile).1.inbox = [] ∧
      ∃ notices more : List Notice, (p.settle compile).2 =
        notices.map .noticed ++
          ((p.inbox.filterMap Command.call?).map fun call => .answered call (.ok ())) ++
            more.map .noticed := by
  obtain ⟨h₁, hinbox₁, _, first, hfirst⟩ := h.round compile
  obtain ⟨h₂, hinbox₂, _, second, hsecond⟩ := h₁.round compile
  obtain ⟨h₃, hinbox₃, _, third, hthird⟩ := h₂.round compile
  rw [hinbox₁, List.filterMap_nil, List.map_nil, List.append_nil] at hsecond
  rw [hinbox₂, List.filterMap_nil, List.map_nil, List.append_nil] at hthird
  refine ⟨h₃, hinbox₃, first, second ++ third, ?_⟩
  show (p.round compile).2 ++ ((p.round compile).1.round compile).2 ++
    (((p.round compile).1.round compile).1.round compile).2 = _
  rw [hfirst, hsecond, hthird, List.map_append]
  simp only [List.append_assoc]

theorem held_settle (compile : String → CompileResult) (p : Preview) :
    (p.settle compile).1.held = p.held := by
  have hround (q : Preview) : (q.round compile).1.held = q.held := (keeps_coordinate compile q).held
  exact (hround _).trans ((hround _).trans (hround p))

/-- If the session ends before neither party can move, the gate is closed. -/
theorem ended_settle (hheld : p.held = false) (hs : (p.settle compile).1.actor.isStopped = true) :
    (p.settle compile).1.Ended ∧ (p.settle compile).1.inbox = [] := by
  refine ⟨⟨hs, ?_, (held_settle compile p).trans hheld⟩, rfl⟩
  exact if_pos hs

/-! ## At rest -/

/-- A round after which neither party can move is the only one. -/
theorem settle_of_round {q : Preview} {events : List Event} (hround : p.round compile = (q, events))
    (h : q.Running) (hi : q.Idle) : p.settle compile = (q, events) := by
  unfold settle
  simp only [hround, hi.round h, List.append_nil]

theorem Idle.settle (hi : p.Idle) (h : p.Running) (compile : String → CompileResult) :
    p.settle compile = (p, []) := settle_of_round (hi.round h compile) h hi

/-- Neither party can move; the preview can go on or its session has ended. -/
def AtRest (p : Preview) : Prop := (p.Running ∧ p.Idle) ∨ (p.Ended ∧ p.inbox = [])

theorem AtRest.held (h : p.AtRest) : p.held = false :=
  h.elim (fun h => h.1.held) fun h => h.1.held

theorem held_take (p : Preview) (call : Call) : (p.take call).1.held = p.held := by
  have htakes := takes_take p call
  generalize (p.take call).1 = q at htakes
  cases htakes <;> rfl

theorem Ended.take (h : p.Ended) (call : Call) : (p.take call).1.Ended := by
  have htakes := takes_take p call
  generalize (p.take call).1 = q at htakes
  cases htakes with
  | ready htext hready => exact ⟨h.stopped, by rw [h.gate]; rfl, h.held⟩
  | dispose => exact ⟨h.stopped, rfl, h.held⟩
  | source _ _ | dispatch _ _ | answer _ _ => exact ⟨h.stopped, h.gate, h.held⟩

theorem AtRest.perform (h : p.AtRest) (compile : String → CompileResult) (call : Call) :
    (p.perform compile call).1.AtRest := by
  cases hs : (p.perform compile call).1.actor.isStopped with
  | true =>
    have hheld : (p.take call).1.held = false := (held_take p call).trans h.held
    exact .inr (ended_settle hheld hs)
  | false =>
    obtain ⟨hrun, hidle⟩ | ⟨hended, _⟩ := h
    · exact .inl (hrun.perform hidle hs).2
    · have hstopped := ((hended.take call).settle compile).1.stopped
      exact absurd (hs.symm.trans hstopped) (by decide)

theorem AtRest.play (h : p.AtRest) (steps : List (Call × (String → CompileResult))) :
    (p.play steps).1.AtRest := by
  induction steps generalizing p with
  | nil => exact h
  | cons step steps ih =>
    obtain ⟨call, compile⟩ := step
    exact ih (h.perform compile call)

/-! ## The gate -/

/-- The gate does not begin to wait again. -/
theorem gate_settle (h : p.gate ≠ .waiting) (compile : String → CompileResult) :
    (p.settle compile).1.gate ≠ .waiting := by
  have hround {q : Preview} (hq : q.gate ≠ .waiting) : (q.round compile).1.gate ≠ .waiting := by
    have hkeeps := keeps_coordinate compile q
    unfold Preview.round deliver
    dsimp only
    split
    · simp
    · rw [hkeeps.gate]
      exact hq
  exact hround (hround (hround h))

theorem gate_play (h : p.gate ≠ .waiting) (steps : List (Call × (String → CompileResult))) :
    (p.play steps).1.gate ≠ .waiting := by
  induction steps generalizing p with
  | nil => exact h
  | cons step steps ih =>
    obtain ⟨call, compile⟩ := step
    exact ih (gate_settle (gate_take (.inl h)) compile)

/-- The first report that the display is ready opens the gate, and a later one changes nothing. -/
theorem ready_of_gate (h : p.gate ≠ .waiting) : p.ready = (p, false) := by
  unfold ready
  cases hg : p.gate with
  | waiting => exact absurd hg h
  | opened => simp only [Gate.tryOpen, ← hg]
  | closed => simp only [Gate.tryOpen, ← hg]

theorem ready_of_waiting (h : p.gate = .waiting) : p.ready = ({ p with gate := .opened }, true) := by
  unfold ready
  rw [h]
  rfl

/-- A report is taken at once; if it came as a message, it is also answered. -/
theorem take_ready {call : Call} (h : call.isReady = true) (p : Preview) :
    ∃ calls answer, (answer = [] ∨ answer = [.answered p.calls (.ok ())]) ∧
      p.take call = ({ p.ready.1 with calls },
        (if p.ready.2 then [] else [.noticed .readyRepeated]) ++ answer) := by
  cases call with
  | ready => exact ⟨p.calls, [], .inl rfl, by simp [take]; rfl⟩
  | message raw =>
    have hraw : Inbound.decode raw = .ok .ready := by
      dsimp only [Call.isReady] at h
      split at h
      · assumption
      · cases h
    refine ⟨p.calls + 1, [.answered p.calls (.ok ())], .inr rfl, ?_⟩
    show p.handleMessage raw = _
    unfold handleMessage
    rw [hraw]
    rfl
  | _ => cases h

theorem AtRest.calls (h : p.AtRest) (calls : Nat) : ({ p with calls } : Preview).AtRest := by
  obtain ⟨hrun, hidle⟩ | ⟨hended, hinbox⟩ := h
  · exact .inl ⟨{ hrun with }, { hidle with }⟩
  · exact .inr ⟨{ hended with }, hinbox⟩

theorem AtRest.noticed_settle (h : p.AtRest) (compile : String → CompileResult) :
    Noticed (p.settle compile).2 := by
  obtain ⟨hrun, hidle⟩ | ⟨hended, hinbox⟩ := h
  · rw [hidle.settle hrun]
    exact noticed_nil
  · obtain ⟨_, _, notices, more, hevents⟩ := hended.settle compile
    rw [hevents, hinbox, List.filterMap_nil, List.map_nil, List.append_nil]
    exact Noticed.append ⟨notices, rfl⟩ ⟨more, rfl⟩

/-- Nothing is compiled and nothing is posted for a later report that the display is ready. -/
theorem AtRest.perform_ready (h : p.AtRest) (hgate : p.gate ≠ .waiting) {call : Call}
    (hready : call.isReady = true) (compile : String → CompileResult) :
    begun (p.perform compile call).2 = [] ∧ Actor.posts (p.perform compile call).2 = [] := by
  obtain ⟨calls, answer, hanswer, htake⟩ := take_ready hready p
  rw [ready_of_gate hgate] at htake
  have hrest := (h.calls calls).noticed_settle compile
  unfold Preview.perform
  rw [htake]
  dsimp only
  rw [begun_append, Actor.posts_append, hrest.begun, hrest.posts]
  obtain rfl | rfl := hanswer
  · exact ⟨rfl, rfl⟩
  · exact ⟨rfl, rfl⟩

end Preview

end StoryPreview
