import StoryPreview.Proofs.Preview.Awaiting
import StoryPreview.Proofs.Preview.Interleaving
/-!
Every call is answered once, whatever the order of moves: the calls that have been answered, those whose
actions wait in the queue of the actor and those that are under way to it are together all that were made
(`accounted_moves`).

A session ends with a failure of its story or when it is disposed of. What then waits in the queue is
answered at once, and no answer is an error but that of the action that the story failed, if it was one
(`Steady.clears_step`): an action refused for want of a story cannot come before such a failure, for
without a story nothing fails.
-/
namespace StoryPreview

/-- The failures of the story among events. -/
def failures (events : List Event) : List RuntimeError :=
  events.filterMap fun
    | .noticed (.sessionFailed (.runtime e)) => some e
    | _ => none

@[simp] theorem failures_append (es fs : List Event) :
    failures (es ++ fs) = failures es ++ failures fs := List.filterMap_append

namespace Session

/-! ## The end of a session -/

/-- The result of every call is that all is well, but for the call that the story failed, if it was
one. -/
def Clears (failed : Option (Nat × RuntimeError)) (results : List (Nat × Except SessionError Unit)) :
    Prop :=
  ∀ r ∈ results, r.2 = .ok () ∨ ∃ e, failed = some (r.1, e) ∧ r.2 = .error (.runtime e)

@[simp] theorem clears_nil (failed : Option (Nat × RuntimeError)) : Clears failed [] := by
  simp [Clears]

theorem Clears.cons {failed : Option (Nat × RuntimeError)}
    {results : List (Nat × Except SessionError Unit)} (h : Clears failed results) (call : Nat) :
    Clears failed ((call, .ok ()) :: results) := by
  intro r hr
  rcases List.mem_cons.mp hr with rfl | hr
  · exact .inl rfl
  · exact h r hr

/-- Actions do not end a session without a story. -/
theorem Settled.serve_of_storyless {s : Session} (h : Settled s) (hs : s.hasStory = false)
    (q : List (Action × Nat)) : (s.serve (Job.waited q)).session.disposed = false := by
  induction q generalizing s with
  | nil => exact h.active
  | cons head rest ih =>
    obtain ⟨a, call⟩ := head
    obtain ⟨hsettled, hstory⟩ := h.done_of_storyless hs a call
    have hserve := serve_cons h.active (.dispatch a call) (Job.waited rest)
    show (s.serve (.dispatch a call :: Job.waited rest)).session.disposed = false
    rw [hserve]
    exact ih hsettled hstory

/-- If actions end a session, they have succeeded before. -/
theorem Settled.clears_waited {s : Session} (h : Settled s) {q : List (Action × Nat)}
    (hend : (s.serve (Job.waited q)).session.disposed = true) :
    ∃ failed, Clears failed (s.serve (Job.waited q)).results := by
  induction q generalizing s with
  | nil => exact ⟨none, clears_nil none⟩
  | cons head rest ih =>
    obtain ⟨a, call⟩ := head
    have hserve := serve_cons h.active (.dispatch a call) (Job.waited rest)
    have hwaited : Job.waited ((a, call) :: rest) = .dispatch a call :: Job.waited rest := rfl
    cases hr : (s.dispatch a).result with
    | ok u =>
      have hdone : s.done (.dispatch a call) = (s.dispatch a).session := by
        unfold done reply
        rw [hr]
      rw [hwaited, hserve] at hend ⊢
      rw [hdone] at hend ⊢
      obtain ⟨failed, hclears⟩ := ih (h.upkeep_dispatch (.inl hr)).settled hend
      refine ⟨failed, ?_⟩
      dsimp only [resultOf]
      rw [hr]
      exact hclears.cons call
    | error e =>
      cases e with
      | noStory =>
        have hlasts := h.serve_of_storyless (h.dispatch_noStory hr).1 ((a, call) :: rest)
        exact absurd (hend.symm.trans hlasts) (by decide)
      | runtime e =>
        have hdone : (s.done (.dispatch a call)).disposed = true := by
          unfold done reply
          rw [hr]
          rfl
        rw [hwaited, hserve, serve_of_disposed hdone]
        refine ⟨some (call, e), fun r hmem => ?_⟩
        dsimp only [resultOf] at hmem
        rw [hr, List.append_nil] at hmem
        rw [List.mem_singleton.mp hmem]
        exact .inr ⟨e, rfl, rfl⟩

/-- The same of the jobs that one command gives. -/
theorem Settled.clears_jobs {s : Session} (h : Settled s) (held : Option (List (Action × Nat)))
    (c : Command) (hend : (s.serve (c.jobs held)).session.disposed = true) :
    ∃ failed, Clears failed (s.serve (c.jobs held)).results := by
  cases c with
  | dispatch a call =>
    dsimp only [Command.jobs] at hend ⊢
    split
    · rename_i hh
      rw [if_pos hh] at hend
      exact h.clears_waited (q := [(a, call)]) hend
    · exact ⟨none, clears_nil none⟩
  | hold => exact ⟨none, clears_nil none⟩
  | getState call => exact ⟨none, clears_nil none⟩
  | dispose =>
    refine ⟨none, ?_⟩
    rw [Command.jobs, serve_singleton h.active]
    exact clears_nil none
  | load result restart =>
    rw [Command.jobs, serve_cons h.active] at hend ⊢
    cases hdone : (s.done (.load result restart)).disposed with
    | true =>
      rw [serve_of_disposed hdone]
      exact ⟨none, clears_nil none⟩
    | false => exact (h.upkeep_load hdone).settled.clears_waited hend

end Session

namespace Actor

/-- A command that ends the session answers every call with it that has waited, and with an error only the
one that the story failed. -/
theorem Steady.clears_step {a : Actor} (h : a.Steady) {c : Command}
    (hend : (a.step c).1.isStopped = true) :
    ∃ failed : Option (Nat × RuntimeError), ∀ answer ∈ answers (a.step c).2,
      answer.2 = .ok () ∨
        ∃ e, failed = some (answer.1, e) ∧ answer.2 = .error (.session (.runtime e)) := by
  obtain ⟨dropped, hserves, _⟩ := serves_step h.active h.tidy c
  rw [isStopped, hserves.session] at hend
  obtain ⟨failed, hclears⟩ := h.settled.clears_jobs a.held c hend
  refine ⟨failed, fun answer hanswer => ?_⟩
  rw [hserves.answers] at hanswer
  rcases List.mem_append.mp hanswer with hanswer | hanswer
  · obtain ⟨r, hr, rfl⟩ := List.mem_map.mp hanswer
    rcases hclears r hr with hok | ⟨e, hfailed, herror⟩
    · exact .inl (by rw [answerOf, hok]; rfl)
    · exact .inr ⟨e, hfailed, by rw [answerOf, herror]; rfl⟩
  · obtain ⟨call, _, rfl⟩ := List.mem_map.mp hanswer
    exact .inl rfl

/-! ## What ends a session -/

theorem failures_apply {a : Actor} {notices : Thunk (List Notice)} {r : Reply Unit}
    (h : failures (a.apply notices r).2 ≠ []) : (a.apply notices r).1.isStopped = true := by
  have hevents : failures (eventsOf notices r) = [] := by
    simp [eventsOf, failures]
  have hfailures : failures (a.apply notices r).2 = failures (settle r).2 := by
    show failures (eventsOf notices r ++ (settle r).2) = _
    rw [failures_append, hevents, List.nil_append]
  rw [hfailures] at h
  show (settle r).1.disposed = true
  unfold settle at h ⊢
  split
  · rename_i hr
    rw [hr] at h
    exact absurd rfl h
  · rfl
  · rename_i e he hr
    rw [hr] at h
    cases e with
    | runtime e => exact absurd rfl (he e)
    | noStory => exact absurd rfl h

theorem failures_perform {a : Actor} {action : Action} {call : Nat}
    (h : failures (a.perform action call).2 ≠ []) : (a.perform action call).1.isStopped = true := by
  have hevents : failures (a.perform action call).2 =
      failures (a.apply (a.session.dispatchNotices action) (a.session.dispatch action)).2 := by
    show failures ((a.apply _ _).2 ++ [_]) = _
    rw [failures_append]
    exact List.append_nil _
  rw [hevents] at h
  exact failures_apply h

theorem failures_load {a : Actor} {result : CompileResult} {restart : Bool}
    (h : failures (a.load result restart).2 ≠ []) : (a.load result restart).1.isStopped = true := by
  unfold load at h ⊢
  cases result with
  | ok p =>
    dsimp only at h ⊢
    split at h
    · rename_i hc
      rw [if_pos hc]
      exact failures_apply h
    · rename_i hc
      rw [if_neg hc]
      exact failures_apply h
  | error errors => exact failures_apply h

theorem failures_drain {a : Actor} {q : List (Action × Nat)} (h : failures (a.drain q).2 ≠ []) :
    (a.drain q).1.isStopped = true := by
  induction q generalizing a with
  | nil => exact absurd rfl h
  | cons head rest ih =>
    obtain ⟨action, call⟩ := head
    cases ha : a.isStopped with
    | true =>
      rw [drain_of_stopped ha] at h
      exact absurd rfl h
    | false =>
      rw [drain_cons ha] at h ⊢
      dsimp only at h ⊢
      by_cases hhead : failures (a.perform action call).2 = []
      · rw [failures_append, hhead, List.nil_append] at h
        exact ih h
      · have hstopped := failures_perform hhead
        rw [drain_of_stopped hstopped]
        exact hstopped

theorem failures_obey {a : Actor} {c : Command} (h : failures (a.obey c).2 ≠ []) :
    (a.obey c).1.isStopped = true := by
  cases c with
  | dispatch action call =>
    cases hh : a.holding with
    | true =>
      rw [obey_dispatch_of_holding hh] at h
      exact absurd rfl h
    | false =>
      rw [obey_dispatch hh] at h ⊢
      exact failures_perform h
  | load result restart =>
    rw [obey_load] at h ⊢
    dsimp only at h ⊢
    by_cases hload : failures (a.load result restart).2 = []
    · rw [failures_append, hload, List.nil_append] at h
      exact failures_drain h
    · have hstopped := failures_load hload
      rw [drain_of_stopped (a := { (a.load result restart).1 with holding := false }) hstopped]
      exact hstopped
  | dispose => rfl
  | hold => exact absurd rfl h
  | getState call => exact absurd rfl h

/-- A failure of the story ends the session. -/
theorem failures_step {a : Actor} {c : Command} (h : failures (a.step c).2 ≠ []) :
    (a.step c).1.isStopped = true := by
  have hdropped (q : List (Action × Nat)) : failures (q.flatMap drop) = [] := by
    induction q with
    | nil => rfl
    | cons head rest ih => exact ih
  cases ha : a.isStopped with
  | true =>
    rw [step_of_stopped ha]
    exact ha
  | false =>
    rw [step_of_active ha] at h ⊢
    cases hobey : (a.obey c).1.isStopped with
    | true => exact (serves_release hobey).2.2
    | false =>
      rw [release_of_active hobey, List.append_nil] at h
      exact absurd (hobey.symm.trans (failures_obey h)) (by decide)

theorem isStopped_step_dispose (a : Actor) : (a.step .dispose).1.isStopped = true := by
  cases ha : a.isStopped with
  | true =>
    rw [step_of_stopped ha]
    exact ha
  | false =>
    rw [step_of_active ha]
    exact (serves_release rfl).2.2

/-- Taking one command is a step. -/
theorem run_one (a : Actor) (c : Command) : a.run [c] = a.step c := by
  rw [run_cons]
  exact Prod.ext rfl (List.append_nil _)

end Actor

namespace Preview

variable {p : Preview}

/-! ## What the coordinator sends -/

/-- The coordinator sends commands that nobody waits for, and says nothing but when a compile begins and
what its notices are. -/
structure Sends (p : Preview) (r : Preview × List Event) : Prop where
  inbox : ∃ cs, r.1.inbox = p.inbox ++ cs ∧ cs.filterMap Command.call? = []
  answers : Actor.answers r.2 = []
  posts : Actor.posts r.2 = []
  failures : failures r.2 = []

theorem sends_nothing {r : Preview × List Event} (hinbox : r.1.inbox = p.inbox)
    (hquiet : Actor.answers r.2 = [] ∧ Actor.posts r.2 = [] ∧ StoryPreview.failures r.2 = []) :
    Sends p r :=
  ⟨⟨[], hinbox.trans (List.append_nil _).symm, rfl⟩, hquiet.1, hquiet.2.1, hquiet.2.2⟩

/-- What is sent after another command. -/
theorem Sends.after {q : Preview} {r : Preview × List Event} (h : Sends q r) {c : Command}
    (hq : q.inbox = p.inbox ++ [c]) (hc : c.call? = none) : Sends p r := by
  obtain ⟨cs, hcs, hnone⟩ := h.inbox
  refine ⟨⟨c :: cs, ?_, ?_⟩, h.answers, h.posts, h.failures⟩
  · rw [hcs, hq, List.append_assoc]
    rfl
  · rw [List.filterMap_cons_none hc]
    exact hnone

theorem sends_beginCompile (compile : String → CompileResult) (p : Preview) :
    Sends p (p.beginCompile compile) := by
  unfold beginCompile
  split
  · exact sends_nothing rfl ⟨rfl, rfl, rfl⟩
  · dsimp only
    split
    · exact sends_nothing rfl ⟨rfl, rfl, rfl⟩
    · exact ⟨⟨_, rfl, rfl⟩, rfl, rfl, rfl⟩

theorem sends_look (compile : String → CompileResult) (p : Preview) : Sends p (p.look compile) := by
  have hquiet (v : Verdict) : Actor.answers (v.notices.map .noticed) = [] ∧
      Actor.posts (v.notices.map .noticed) = [] ∧ failures (v.notices.map .noticed) = [] := by
    cases v <;> exact ⟨rfl, rfl, rfl⟩
  unfold look
  dsimp only
  split
  · exact sends_nothing rfl ⟨rfl, rfl, rfl⟩
  · split
    · split
      · exact ⟨⟨_, rfl, rfl⟩, rfl, rfl, rfl⟩
      · exact (sends_beginCompile compile _).after rfl rfl
      · exact ⟨⟨_, rfl, rfl⟩, rfl, rfl, rfl⟩
    · exact sends_nothing rfl (hquiet _)

theorem sends_lookIfChanged (compile : String → CompileResult) (p : Preview) :
    Sends p (p.lookIfChanged compile) := by
  unfold lookIfChanged
  split
  · exact sends_look compile p
  · exact sends_nothing rfl ⟨rfl, rfl, rfl⟩

theorem sends_coordinate (compile : String → CompileResult) (p : Preview) :
    Sends p (p.coordinate compile) := by
  unfold coordinate
  split
  · split
    · exact sends_nothing rfl ⟨rfl, rfl, rfl⟩
    · exact sends_lookIfChanged compile p
  · split
    · exact sends_nothing rfl ⟨rfl, rfl, rfl⟩
    · exact sends_beginCompile compile p
    · exact sends_nothing rfl ⟨rfl, rfl, rfl⟩
  · split
    · exact sends_nothing rfl ⟨rfl, rfl, rfl⟩
    · split
      · exact sends_nothing rfl ⟨rfl, rfl, rfl⟩
      · exact (sends_lookIfChanged compile _).after rfl rfl
  · exact sends_nothing rfl ⟨rfl, rfl, rfl⟩

/-! ## One move -/

/-- The actor takes its next command. -/
theorem obey_step {c : Command} {cs : List Command} (h : p.inbox = c :: cs) :
    p.obey.1.actor = (p.actor.step c).1 ∧ p.obey.1.inbox = cs ∧ p.obey.1.calls = p.calls ∧
      p.obey.2 = (p.actor.step c).2 := by
  rw [obey_of_cons h, Actor.run_one]
  exact ⟨rfl, rfl, rfl, rfl⟩

theorem actor_take (p : Preview) (call : Call) : (p.take call).1.actor = p.actor := by
  have htakes := takes_take p call
  generalize (p.take call).1 = q at htakes
  cases htakes <;> rfl

/-- The actor stays as it is or takes its next command. -/
theorem actor_move (p : Preview) (m : Move) :
    (p.move m).1.actor = p.actor ∨
      ∃ c cs, m = .obey ∧ p.inbox = c :: cs ∧ (p.move m).1.actor = (p.actor.step c).1 := by
  cases m with
  | call call => exact .inl (actor_take p call)
  | coordinate compile => exact .inl (keeps_coordinate compile p).actor
  | obey =>
    cases hinbox : p.inbox with
    | nil => exact .inl (congrArg (fun r => r.1.actor) (obey_of_nil hinbox))
    | cons c cs => exact .inr ⟨c, cs, rfl, rfl, (obey_step hinbox).1⟩
  | hold held => exact .inl rfl

/-! ## Every call is answered once -/

/-- The calls that have yet to be answered. -/
def waiting (p : Preview) : List Nat :=
  p.actor.queued.map Prod.snd ++ p.inbox.filterMap Command.call?

/-- The calls that have been answered and those that wait are all that were made, each once. -/
structure Accounted (p : Preview) (events : List Event) : Prop where
  tidy : p.actor.Tidy
  calls : ((Actor.answers events).map Prod.fst ++ p.waiting).Perm (List.range p.calls)

theorem accounted_new (liveDefault : Bool) : (new liveDefault).Accounted [] :=
  ⟨fun _ => rfl, .refl _⟩

/-- The number that a call gets, if it is counted. -/
def numbered (p : Preview) (call : Call) : List Nat := if call.isCounted then [p.calls] else []

/-- A call that is counted is answered at once or sent to the actor. -/
theorem answers_take (p : Preview) (call : Call) :
    ((Actor.answers (p.take call).2).map Prod.fst ++
        (p.take call).1.inbox.filterMap Command.call?).Perm
      (p.inbox.filterMap Command.call? ++ p.numbered call) := by
  have hsent {a : Action} (h : call.action? = some a) :
      ((Actor.answers (p.take call).2).map Prod.fst ++
          (p.take call).1.inbox.filterMap Command.call?).Perm
        (p.inbox.filterMap Command.call? ++ p.numbered call) := by
    obtain ⟨htake, hnoticed⟩ := take_of_action h p
    rw [htake, hnoticed.answers, numbered, if_pos (Call.of_action h).2.2]
    dsimp only
    rw [List.filterMap_append]
    exact .refl _
  cases call with
  | newStory text => simp [take, newStory, Actor.answers, numbered, Call.isCounted]
  | edit text => simp [take, edit, Actor.answers, numbered, Call.isCounted]
  | ready =>
    have hquiet : Actor.answers (p.take .ready).2 = [] := by
      unfold take
      dsimp only
      split <;> rfl
    rw [hquiet]
    simp [take, ready, numbered, Call.isCounted]
  | dispose =>
    show (p.inbox ++ [Command.dispose]).filterMap Command.call? |>.Perm _
    rw [List.filterMap_append]
    exact .refl _
  | dispatch a => exact hsent rfl
  | message raw =>
    have hanswered {q : Preview} (hinbox : q.inbox = p.inbox) (hcalls : q.calls = p.calls)
        (result : Except PreviewError Unit) {events : List Event}
        (hevents : Actor.answers events = []) :
        ((Actor.answers (q.answered result events).2).map Prod.fst ++
            (q.answered result events).1.inbox.filterMap Command.call?).Perm
          (p.inbox.filterMap Command.call? ++ [p.calls]) := by
      unfold answered
      dsimp only
      rw [Actor.answers_append, hevents, hinbox, hcalls]
      exact List.perm_append_comm
    cases haction : (Call.message raw).action? with
    | some a => exact hsent haction
    | none =>
      have hnumber : p.numbered (.message raw) = [p.calls] := if_pos rfl
      rw [hnumber]
      dsimp only [Call.action?] at haction
      unfold take handleMessage
      dsimp only
      split
      · refine hanswered rfl rfl _ ?_
        split <;> rfl
      · rename_i hraw
        rw [hraw] at haction
        cases haction
      · exact hanswered rfl rfl _ (by simp [Actor.answers])
      · rename_i hraw
        rw [hraw] at haction
        cases haction
      · exact hanswered rfl rfl _ rfl

/-- The number that a move gives to a call. -/
def given (p : Preview) (m : Move) : List Nat := m.call?.elim [] p.numbered

theorem calls_move (p : Preview) (m : Move) :
    (p.move m).1.calls = p.calls + m.call?.elim 0 fun call => call.isCounted.toNat := by
  cases m with
  | call call => exact calls_take p call
  | coordinate compile => exact (keeps_coordinate compile p).calls
  | obey =>
    show p.obey.1.calls = p.calls
    cases hinbox : p.inbox with
    | nil => rw [obey_of_nil hinbox]
    | cons c cs => exact (obey_step hinbox).2.2.1
  | hold held => rfl

theorem range_calls_move (p : Preview) (m : Move) :
    List.range (p.move m).1.calls = List.range p.calls ++ p.given m := by
  rw [calls_move, given]
  cases m.call? with
  | none => exact (List.append_nil _).symm
  | some call =>
    dsimp only [Option.elim, numbered]
    cases call.isCounted with
    | true => exact List.range_succ
    | false => exact (List.append_nil _).symm

/-- What a move answers and what then waits is what has waited and what the move has given a number. -/
theorem waiting_move (htidy : p.actor.Tidy) (m : Move) :
    ((Actor.answers (p.move m).2).map Prod.fst ++ (p.move m).1.waiting).Perm
      (p.waiting ++ p.given m) := by
  cases m with
  | call call =>
    have htake := answers_take p call
    show ((Actor.answers (p.take call).2).map Prod.fst ++ (p.take call).1.waiting).Perm
      (p.waiting ++ p.numbered call)
    unfold waiting
    rw [actor_take, List.append_assoc]
    refine .trans ?_ (htake.append_left _)
    rw [← List.append_assoc, ← List.append_assoc]
    exact List.perm_append_comm.append_right _
  | coordinate compile =>
    have hsends := sends_coordinate compile p
    obtain ⟨cs, hcs, hnone⟩ := hsends.inbox
    show ((Actor.answers (p.coordinate compile).2).map Prod.fst ++
      (p.coordinate compile).1.waiting).Perm (p.waiting ++ [])
    unfold waiting
    rw [hsends.answers, (keeps_coordinate compile p).actor, hcs, List.filterMap_append, hnone,
      List.append_nil, List.append_nil]
    exact .refl _
  | obey =>
    show ((Actor.answers p.obey.2).map Prod.fst ++ p.obey.1.waiting).Perm (p.waiting ++ [])
    rw [List.append_nil]
    cases hinbox : p.inbox with
    | nil =>
      rw [obey_of_nil hinbox]
      exact .refl _
    | cons c cs =>
      obtain ⟨hactor, hrest, _, hevents⟩ := obey_step hinbox
      unfold waiting
      rw [hactor, hrest, hevents, hinbox, ← List.append_assoc, Actor.calls_step htidy,
        Actor.calls_cons, List.append_assoc]
  | hold held =>
    show p.waiting.Perm (p.waiting ++ [])
    rw [List.append_nil]

theorem Accounted.move {events : List Event} (h : p.Accounted events) (m : Move) :
    (p.move m).1.Accounted (events ++ (p.move m).2) := by
  constructor
  · obtain hactor | ⟨c, cs, _, _, hactor⟩ := actor_move p m
    · rw [hactor]
      exact h.tidy
    · rw [hactor]
      exact Actor.tidy_step h.tidy c
  · rw [range_calls_move, Actor.answers_append, List.map_append, List.append_assoc]
    refine .trans ((waiting_move h.tidy m).append_left _) ?_
    rw [← List.append_assoc]
    exact h.calls.append_right _

theorem Accounted.moves {events : List Event} (h : p.Accounted events) (ms : List Move) :
    (p.moves ms).1.Accounted (events ++ (p.moves ms).2) := by
  induction ms generalizing p events with
  | nil =>
    show p.Accounted (events ++ [])
    rwa [List.append_nil]
  | cons m ms ih =>
    rw [moves_cons]
    dsimp only
    rw [← List.append_assoc]
    exact ih (h.move m)

/-- In any order of moves, the calls that have been answered and those that wait are all that were made,
each once. -/
theorem accounted_moves (liveDefault : Bool) (ms : List Move) :
    ((new liveDefault).moves ms).1.Accounted ((new liveDefault).moves ms).2 :=
  (accounted_new liveDefault).moves ms

end Preview

end StoryPreview
