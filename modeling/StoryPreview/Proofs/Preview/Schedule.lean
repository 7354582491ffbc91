import StoryPreview.Preview.Actor
/-!
The actor is a queue in front of one plain session. `schedule` puts the commands that come in into the
order in which the session gets them: they keep their order, but an action that comes between a `hold`
and the next `load` comes right behind that `load`. `serve` is a plain session that is given jobs one
after another until it ends. Whatever commands come, the actor's session, the states it posts and its
answers are those of the plain session under that schedule, and every call is answered once
(`run_serves_schedule`).
-/
namespace StoryPreview

/-! ## The order of commands -/

/-- What a session is asked to do. -/
inductive Job
  | dispatch (a : Action) (call : Nat)
  | load (result : CompileResult) (restart : Bool)
  | dispose

/-- The jobs of actions that have waited. -/
def Job.waited (q : List (Action × Nat)) : List Job :=
  q.map fun (action, call) => .dispatch action call

namespace Command

/-- The jobs that a command gives the session. Within a hold, `held` are the actions that wait for its
end. -/
def jobs (held : Option (List (Action × Nat))) : Command → List Job
  | .dispatch a call => if held.isNone then [.dispatch a call] else []
  | .load result restart => .load result restart :: Job.waited (held.getD [])
  | .dispose => [.dispose]
  | .hold | .getState _ => []

/-- What waits after a command. -/
def waiting (held : Option (List (Action × Nat))) : Command → Option (List (Action × Nat))
  | .dispatch a call => held.map (· ++ [(a, call)])
  | .hold => some (held.getD [])
  | .load .. => none
  | .getState _ | .dispose => held

/-- The jobs of commands, in the order in which the session is given them. Actions that wait when no
more commands come are no jobs. -/
def schedule (held : Option (List (Action × Nat))) : List Command → List Job
  | [] => []
  | c :: cs => c.jobs held ++ schedule (c.waiting held) cs

/-- The call that waits for an answer to a command, if it is an action. -/
def call? : Command → Option Nat
  | .dispatch _ call => some call
  | _ => none

end Command

namespace Session

/-! ## A plain session -/

/-- What a session does for a job. A compiled story begins a new session if that is asked for or if
there was no story; otherwise it takes the place of the old one. The errors of a failed compile are
recorded. -/
def reply (s : Session) : Job → Reply Unit
  | .dispatch a _ => s.dispatch a
  | .load (.ok p) restart => if restart || !s.hasStory then s.begin p else s.replace p
  | .load (.error errors) _ => s.dispatch (.recordErrors (errors.map .ofCompileError))
  | .dispose => s.dispose

/-- The session after a job. A failure of its story ends it. -/
def done (s : Session) (t : Job) : Session :=
  match (s.reply t).result with
  | .error (.runtime _) => (s.reply t).session.dispose.session
  | _ => (s.reply t).session

/-- How jobs went: the session after them, the states shown, and the results of the calls among them. -/
structure Course where
  session : Session
  shown : List State
  results : List (Nat × Except SessionError Unit)

/-- The result of a job, if a call waits for it. -/
def resultOf (s : Session) : Job → List (Nat × Except SessionError Unit)
  | .dispatch a call => [(call, (s.dispatch a).result)]
  | _ => []

/-- Gives a session jobs one after another. Once it has been disposed of, it takes no more. -/
def serve (s : Session) : List Job → Course
  | [] => ⟨s, [], []⟩
  | t :: ts =>
    if s.disposed then ⟨s, [], []⟩
    else
      let c := (s.done t).serve ts
      ⟨c.session, (s.reply t).shown ++ c.shown, s.resultOf t ++ c.results⟩

theorem serve_singleton {s : Session} (h : s.disposed = false) (t : Job) :
    s.serve [t] = ⟨s.done t, (s.reply t).shown, s.resultOf t⟩ := by
  rw [serve, if_neg (by simp [h])]
  simp [serve]

theorem serve_of_disposed {s : Session} (h : s.disposed = true) (ts : List Job) :
    s.serve ts = ⟨s, [], []⟩ := by
  cases ts with
  | nil => rfl
  | cons t ts => rw [serve, if_pos h]

theorem serve_cons {s : Session} (h : s.disposed = false) (t : Job) (ts : List Job) :
    s.serve (t :: ts) =
      ⟨((s.done t).serve ts).session, (s.reply t).shown ++ ((s.done t).serve ts).shown,
        s.resultOf t ++ ((s.done t).serve ts).results⟩ := by
  rw [serve, if_neg (by simp [h])]

theorem serve_append (s : Session) (ts us : List Job) :
    s.serve (ts ++ us) =
      ⟨((s.serve ts).session.serve us).session,
        (s.serve ts).shown ++ ((s.serve ts).session.serve us).shown,
        (s.serve ts).results ++ ((s.serve ts).session.serve us).results⟩ := by
  induction ts generalizing s with
  | nil => rfl
  | cons t ts ih =>
    cases h : s.disposed with
    | true =>
      rw [serve_of_disposed h, serve_of_disposed h]
      exact (serve_of_disposed h us).symm ▸ rfl
    | false =>
      rw [List.cons_append, serve_cons h, serve_cons h, ih]
      simp only [List.append_assoc]

end Session

namespace Actor

/-! ## Events -/

/-- The messages posted among events. -/
def posts (events : List Event) : List Outbound :=
  events.filterMap fun
    | .posted m => some m
    | _ => none

/-- The answers among events. -/
def answers (events : List Event) : List (Nat × Except PreviewError Unit) :=
  events.filterMap fun
    | .answered call result => some (call, result)
    | _ => none

/-- The answer that a result gives. -/
def answerOf (r : Nat × Except SessionError Unit) : Nat × Except PreviewError Unit :=
  (r.1, r.2.mapError .session)

/-- The answer to a call whose action was not applied. -/
def unapplied (call : Nat) : Nat × Except PreviewError Unit := (call, .ok ())

@[simp] theorem map_fst_unapplied (calls : List Nat) :
    (calls.map unapplied).map Prod.fst = calls := by
  simp [unapplied, Function.comp_def]

@[simp] theorem posts_append (es fs : List Event) : posts (es ++ fs) = posts es ++ posts fs :=
  List.filterMap_append

@[simp] theorem answers_append (es fs : List Event) :
    answers (es ++ fs) = answers es ++ answers fs := List.filterMap_append

/-! ## One operation -/

theorem run_cons (a : Actor) (c : Command) (cs : List Command) :
    a.run (c :: cs) = (((a.step c).1.run cs).1, (a.step c).2 ++ ((a.step c).1.run cs).2) := rfl

theorem posts_eventsOf (notices : Thunk (List Notice)) (r : Reply Unit) :
    posts (eventsOf notices r) = r.shown.map .updateState := by
  show posts (r.shown.map fun s => .posted (.updateState s)) = _
  induction r.shown with
  | nil => rfl
  | cons s states ih => exact congrArg (Outbound.updateState s :: ·) ih

theorem answers_eventsOf (notices : Thunk (List Notice)) (r : Reply Unit) :
    answers (eventsOf notices r) = [] := by
  simp [eventsOf, answers]

/-- What is said about a failure is neither a post nor an answer. -/
theorem quiet_settle (r : Reply Unit) : posts (settle r).2 = [] ∧ answers (settle r).2 = [] := by
  unfold settle
  split
  · exact ⟨rfl, rfl⟩
  · constructor
    · simp [posts]
    · simp [answers]
  · exact ⟨rfl, rfl⟩

/-- A failure of the story ends the actor's session as it ends the plain one. -/
theorem session_settle (s : Session) (t : Job) : (settle (s.reply t)).1 = s.done t := by
  unfold settle Session.done
  cases (s.reply t).result with
  | ok u => rfl
  | error e =>
    cases e with
    | runtime e => rfl
    | noStory => rfl

theorem apply_reply (a : Actor) (notices : Thunk (List Notice)) (t : Job) :
    (a.apply notices (a.session.reply t)).1 = { a with session := a.session.done t } := by
  unfold apply
  rw [← session_settle]

theorem posts_apply (a : Actor) (notices : Thunk (List Notice)) (r : Reply Unit) :
    posts (a.apply notices r).2 = r.shown.map .updateState := by
  show posts (eventsOf notices r ++ (settle r).2) = _
  rw [posts_append, posts_eventsOf, (quiet_settle r).1, List.append_nil]

theorem answers_apply (a : Actor) (notices : Thunk (List Notice)) (r : Reply Unit) :
    answers (a.apply notices r).2 = [] := by
  show answers (eventsOf notices r ++ (settle r).2) = _
  rw [answers_append, answers_eventsOf, (quiet_settle r).2, List.append_nil]

/-- The actor does a job: its session, its posts and its answer are those of the plain session. -/
structure Does (a : Actor) (t : Job) (r : Actor × List Event) : Prop where
  actor : r.1 = { a with session := a.session.done t }
  posts : posts r.2 = (a.session.reply t).shown.map .updateState
  answers : answers r.2 = (a.session.resultOf t).map answerOf

theorem does_perform (a : Actor) (action : Action) (call : Nat) :
    Does a (.dispatch action call) (a.perform action call) where
  actor := apply_reply a (a.session.dispatchNotices action) (.dispatch action call)
  posts := by
    show posts ((a.apply _ _).2 ++ [_]) = _
    rw [posts_append, posts_apply]
    exact List.append_nil _
  answers := by
    show answers ((a.apply _ _).2 ++ [_]) = _
    rw [answers_append, answers_apply]
    rfl

/-- A load is a begin, a replacement or a record of errors; nobody waits for its result. -/
theorem does_load (a : Actor) (result : CompileResult) (restart : Bool) :
    Does a (.load result restart) (a.load result restart) := by
  have happly : ∃ notices,
      a.load result restart = a.apply notices (a.session.reply (.load result restart)) := by
    unfold load Session.reply
    cases result with
    | ok p =>
      dsimp only
      split
      · exact ⟨_, rfl⟩
      · exact ⟨_, rfl⟩
    | error errors => exact ⟨_, rfl⟩
  obtain ⟨notices, h⟩ := happly
  rw [h]
  exact ⟨apply_reply a notices _, posts_apply a notices _, answers_apply a notices _⟩

theorem Does.session {a : Actor} {t : Job} {r : Actor × List Event} (h : Does a t r) :
    r.1.session = a.session.done t := by
  rw [h.actor]

/-! ## The queue -/

/-- The actor serves jobs: its session, its posts and its answers are those of the plain session, and
then it answers calls whose actions it does not apply. -/
structure Serves (a : Actor) (ts : List Job) (dropped : List Nat) (r : Actor × List Event) :
    Prop where
  session : r.1.session = (a.session.serve ts).session
  posts : posts r.2 = (a.session.serve ts).shown.map .updateState
  answers : answers r.2 = (a.session.serve ts).results.map answerOf ++ dropped.map unapplied

theorem Does.serves {a : Actor} {t : Job} {r : Actor × List Event} (h : Does a t r)
    (ha : a.isStopped = false) : Serves a [t] [] r := by
  have hserve := Session.serve_singleton ha t
  constructor
  · rw [hserve]
    exact h.session
  · rw [hserve]
    exact h.posts
  · rw [hserve, h.answers]
    simp

/-- One after the other. What was not applied comes last, for nothing is applied after it. -/
theorem Serves.append {a : Actor} {ts us : List Job} {dropped more : List Nat}
    {r r' : Actor × List Event} (h : Serves a ts dropped r) (h' : Serves r.1 us more r')
    (hdropped : r.1.isStopped = false → dropped = []) :
    Serves a (ts ++ us) (dropped ++ more) (r'.1, r.2 ++ r'.2) := by
  have hserve := Session.serve_append a.session ts us
  rw [← h.session] at hserve
  constructor
  · rw [hserve]
    exact h'.session
  · rw [hserve, posts_append, h.posts, h'.posts, List.map_append]
  · rw [hserve, answers_append, h.answers, h'.answers]
    cases hstopped : r.1.isStopped with
    | true => simp [Session.serve_of_disposed hstopped]
    | false => simp [hdropped hstopped]

theorem serves_of_stopped {a : Actor} (h : a.isStopped = true) (ts : List Job) :
    Serves a ts [] (a, []) := by
  constructor <;> rw [Session.serve_of_disposed h] <;> rfl

theorem drain_of_stopped {a : Actor} (h : a.isStopped = true) (q : List (Action × Nat)) :
    a.drain q = ({ a with queued := q }, []) := by
  cases q with
  | nil => rfl
  | cons head rest => rw [drain, if_pos h]

theorem drain_cons {a : Actor} (h : a.isStopped = false) (action : Action) (call : Nat)
    (rest : List (Action × Nat)) :
    a.drain ((action, call) :: rest) =
      (((a.perform action call).1.drain rest).1,
        (a.perform action call).2 ++ ((a.perform action call).1.drain rest).2) := by
  rw [drain, if_neg (by simp [h])]

theorem serves_drain (a : Actor) (q : List (Action × Nat)) :
    Serves a (Job.waited q) [] (a.drain q) := by
  induction q generalizing a with
  | nil => exact ⟨rfl, rfl, rfl⟩
  | cons head rest ih =>
    obtain ⟨action, call⟩ := head
    cases h : a.isStopped with
    | true =>
      rw [drain_of_stopped h]
      have hserves := serves_of_stopped h (Job.waited ((action, call) :: rest))
      exact ⟨hserves.session, hserves.posts, hserves.answers⟩
    | false =>
      rw [drain_cons h]
      exact ((does_perform a action call).serves h).append (ih _) fun _ => rfl

theorem holding_drain (a : Actor) (q : List (Action × Nat)) :
    (a.drain q).1.holding = a.holding := by
  induction q generalizing a with
  | nil => rfl
  | cons head rest ih =>
    obtain ⟨action, call⟩ := head
    cases h : a.isStopped with
    | true => rw [drain_of_stopped h]
    | false =>
      rw [drain_cons h, ih, (does_perform a action call).actor]

/-- What is drained is answered or stays in the queue, in order. -/
theorem calls_drain (a : Actor) (q : List (Action × Nat)) :
    (answers (a.drain q).2).map Prod.fst ++ (a.drain q).1.queued.map Prod.snd =
      q.map Prod.snd := by
  induction q generalizing a with
  | nil => rfl
  | cons head rest ih =>
    obtain ⟨action, call⟩ := head
    cases h : a.isStopped with
    | true =>
      rw [drain_of_stopped h]
      rfl
    | false =>
      rw [drain_cons h, answers_append, (does_perform a action call).answers]
      exact congrArg (call :: ·) (ih _)

/-- It stays there only if the session ends. -/
theorem queued_drain (a : Actor) (q : List (Action × Nat))
    (h : (a.drain q).1.isStopped = false) : (a.drain q).1.queued = [] := by
  induction q generalizing a with
  | nil => rfl
  | cons head rest ih =>
    obtain ⟨action, call⟩ := head
    cases ha : a.isStopped with
    | true =>
      rw [drain_of_stopped ha] at h
      exact absurd (ha.symm.trans h) (by decide)
    | false =>
      rw [drain_cons ha] at h ⊢
      exact ih _ h

/-! ## One command -/

/-- What waits for the end of a hold. -/
def held (a : Actor) : Option (List (Action × Nat)) := if a.holding then some a.queued else none

/-- Outside of a hold, and after the end of the session, nothing waits. -/
def Tidy (a : Actor) : Prop := a.holding = false ∨ a.isStopped = true → a.queued = []

theorem step_of_stopped {a : Actor} (h : a.isStopped = true) (c : Command) :
    a.step c = (a, c.call?.toList.map fun call => .answered call (.ok ())) := by
  unfold step
  rw [if_pos h]
  cases c with
  | dispatch action call => rfl
  | _ => rfl

theorem step_of_active {a : Actor} (h : a.isStopped = false) (c : Command) :
    a.step c = ((a.obey c).1.release.1, (a.obey c).2 ++ (a.obey c).1.release.2) := by
  unfold step
  rw [if_neg (by simp [h])]

theorem obey_dispatch {a : Actor} (h : a.holding = false) (action : Action) (call : Nat) :
    a.obey (.dispatch action call) = a.perform action call := by
  rw [obey, if_neg (by simp [h])]

theorem obey_dispatch_of_holding {a : Actor} (h : a.holding = true) (action : Action)
    (call : Nat) :
    a.obey (.dispatch action call) =
      ({ a with queued := a.queued ++ [(action, call)] }, [.noticed (.actionQueued action.kind)]) := by
  rw [obey, if_pos h]

theorem held_of_holding {a : Actor} (h : a.holding = true) : a.held = some a.queued := if_pos h

theorem held_of_not_holding {a : Actor} (h : a.holding = false) : a.held = none :=
  if_neg (by simp [h])

/-- Outside of a hold the queue is empty, so what waits is the queue in either case. -/
theorem Tidy.getD_held {a : Actor} (h : a.Tidy) : a.held.getD [] = a.queued := by
  cases hh : a.holding with
  | true => rw [held_of_holding hh, Option.getD_some]
  | false => rw [held_of_not_holding hh, Option.getD_none, h (.inl hh)]

theorem obey_load (a : Actor) (result : CompileResult) (restart : Bool) :
    a.obey (.load result restart) =
      (({ (a.load result restart).1 with holding := false }.drain a.queued).1,
        (a.load result restart).2 ++
          ({ (a.load result restart).1 with holding := false }.drain a.queued).2) := by
  have hqueued : (a.load result restart).1.queued = a.queued := by
    rw [(does_load a result restart).actor]
  rw [← hqueued]
  rfl

theorem serves_obey {a : Actor} (ha : a.isStopped = false) (htidy : a.Tidy) (c : Command) :
    Serves a (c.jobs a.held) [] (a.obey c) := by
  cases c with
  | dispatch action call =>
    cases hh : a.holding with
    | true =>
      rw [obey_dispatch_of_holding hh, held_of_holding hh]
      exact ⟨rfl, rfl, rfl⟩
    | false =>
      rw [obey_dispatch hh, held_of_not_holding hh]
      exact (does_perform a action call).serves ha
  | hold => exact ⟨rfl, rfl, rfl⟩
  | load result restart =>
    rw [obey_load, Command.jobs, htidy.getD_held]
    have hdrain := serves_drain { (a.load result restart).1 with holding := false } a.queued
    exact ((does_load a result restart).serves ha).append ⟨hdrain.session, hdrain.posts,
      hdrain.answers⟩ fun _ => rfl
  | getState call => exact ⟨rfl, rfl, rfl⟩
  | dispose =>
    have hserve := Session.serve_singleton ha .dispose
    constructor
    · exact congrArg Session.Course.session hserve.symm
    · show posts (a.session.disposeNotices.map .noticed) = _
      rw [Command.jobs, hserve]
      simp [posts, Session.reply, Session.dispose, Session.unchanged]
    · show answers (a.session.disposeNotices.map .noticed) = _
      rw [Command.jobs, hserve]
      simp [answers, Session.resultOf]

/-- What waits after a command, unless it ends the session. -/
theorem held_obey {a : Actor} (htidy : a.Tidy) (c : Command)
    (ha : (a.obey c).1.isStopped = false) : (a.obey c).1.held = c.waiting a.held := by
  cases c with
  | dispatch action call =>
    cases hh : a.holding with
    | true =>
      rw [obey_dispatch_of_holding hh, held_of_holding hh]
      exact held_of_holding hh
    | false =>
      rw [obey_dispatch hh, (does_perform a action call).actor, held_of_not_holding hh]
      exact held_of_not_holding hh
  | hold =>
    show some a.queued = some (a.held.getD [])
    rw [htidy.getD_held]
  | load result restart =>
    rw [obey_load, held, holding_drain]
    rfl
  | getState call => rfl
  | dispose => cases ha

theorem calls_obey {a : Actor} (htidy : a.Tidy) (c : Command) :
    (answers (a.obey c).2).map Prod.fst ++ (a.obey c).1.queued.map Prod.snd =
      a.queued.map Prod.snd ++ c.call?.toList := by
  cases c with
  | dispatch action call =>
    cases hh : a.holding with
    | true =>
      rw [obey_dispatch_of_holding hh]
      simp [answers, Command.call?]
    | false =>
      have hdoes := does_perform a action call
      rw [obey_dispatch hh, hdoes.answers, hdoes.actor, htidy (.inl hh)]
      rfl
  | hold => exact (List.append_nil _).symm
  | load result restart =>
    rw [obey_load, answers_append, (does_load a result restart).answers]
    exact (calls_drain _ a.queued).trans (List.append_nil _).symm
  | getState call => exact (List.append_nil _).symm
  | dispose => simp [obey, answers, Command.call?]

theorem tidy_obey {a : Actor} (htidy : a.Tidy) (c : Command)
    (ha : (a.obey c).1.isStopped = false) (hh : (a.obey c).1.holding = false) :
    (a.obey c).1.queued = [] := by
  cases c with
  | dispatch action call =>
    cases hholding : a.holding with
    | true =>
      rw [obey_dispatch_of_holding hholding] at hh
      exact absurd (hholding.symm.trans hh) (by decide)
    | false =>
      rw [obey_dispatch hholding, (does_perform a action call).actor]
      exact htidy (.inl hholding)
  | hold => cases hh
  | load result restart =>
    rw [obey_load] at ha ⊢
    exact queued_drain _ a.queued ha
  | getState call => exact htidy (.inl hh)
  | dispose => cases ha

theorem release_of_active {a : Actor} (h : a.isStopped = false) : a.release = (a, []) := by
  rw [release, if_neg (by simp [h])]

/-- What is dropped is answered, and no state is posted. -/
theorem quiet_drop (q : List (Action × Nat)) : posts (q.flatMap drop) = [] ∧
    answers (q.flatMap drop) = (q.map Prod.snd).map unapplied := by
  induction q with
  | nil => exact ⟨rfl, rfl⟩
  | cons head rest ih =>
    constructor
    · exact ih.1
    · exact congrArg (unapplied head.2 :: ·) ih.2

/-- When the session has ended, the queue is answered without being applied. -/
theorem serves_release {a : Actor} (h : a.isStopped = true) :
    Serves a [] (a.queued.map Prod.snd) a.release ∧ a.release.1.queued = [] ∧
      a.release.1.isStopped = true := by
  have hrelease : a.release =
      ({ a with queued := [] }, a.queued.flatMap drop ++ [.noticed .actorStopped]) := by
    rw [release, if_pos h]
  rw [hrelease]
  refine ⟨⟨rfl, ?_, ?_⟩, rfl, h⟩
  · rw [posts_append, (quiet_drop a.queued).1]
    rfl
  · rw [answers_append, (quiet_drop a.queued).2]
    exact List.append_nil _

/-- One command: the jobs it gives are served, and only if the session ends are calls answered whose
actions were not applied. What waits then is what the schedule says. -/
theorem serves_step {a : Actor} (ha : a.isStopped = false) (htidy : a.Tidy) (c : Command) :
    ∃ dropped, Serves a (c.jobs a.held) dropped (a.step c) ∧
      ((a.step c).1.isStopped = false → dropped = [] ∧ (a.step c).1.held = c.waiting a.held) := by
  have hobey := serves_obey ha htidy c
  rw [step_of_active ha]
  cases h : (a.obey c).1.isStopped with
  | true =>
    obtain ⟨hrelease, _, hstopped⟩ := serves_release h
    have hserves := hobey.append hrelease fun _ => rfl
    rw [List.append_nil] at hserves
    exact ⟨_, hserves, fun hactive => absurd (hstopped.symm.trans hactive) (by decide)⟩
  | false =>
    rw [release_of_active h]
    refine ⟨[], ?_, fun _ => ⟨rfl, held_obey htidy c h⟩⟩
    rwa [List.append_nil]

theorem tidy_step {a : Actor} (htidy : a.Tidy) (c : Command) : (a.step c).1.Tidy := by
  cases ha : a.isStopped with
  | true =>
    rw [step_of_stopped ha]
    exact htidy
  | false =>
    rw [step_of_active ha]
    cases h : (a.obey c).1.isStopped with
    | true => exact fun _ => (serves_release h).2.1
    | false =>
      rw [release_of_active h]
      rintro (hh | hstopped)
      · exact tidy_obey htidy c h hh
      · exact absurd (h.symm.trans hstopped) (by decide)

/-- Every call is answered or stays in the queue, in order. -/
theorem calls_step {a : Actor} (htidy : a.Tidy) (c : Command) :
    (answers (a.step c).2).map Prod.fst ++ (a.step c).1.queued.map Prod.snd =
      a.queued.map Prod.snd ++ c.call?.toList := by
  cases ha : a.isStopped with
  | true =>
    rw [step_of_stopped ha, htidy (.inr ha)]
    cases c with
    | dispatch action call => rfl
    | _ => rfl
  | false =>
    rw [step_of_active ha, ← calls_obey htidy c, answers_append, List.map_append,
      List.append_assoc]
    congr 1
    cases h : (a.obey c).1.isStopped with
    | true =>
      obtain ⟨hrelease, hqueued, _⟩ := serves_release h
      rw [hrelease.answers, hqueued, List.map_append, map_fst_unapplied]
      exact List.append_nil _
    | false =>
      rw [release_of_active h]
      rfl

/-! ## All commands -/

theorem calls_cons (c : Command) (cs : List Command) :
    (c :: cs).filterMap Command.call? = c.call?.toList ++ cs.filterMap Command.call? := by
  cases hc : c.call? with
  | none => exact List.filterMap_cons_none hc
  | some call => exact List.filterMap_cons_some hc

/-- An actor whose session has ended answers every action without applying it. -/
theorem serves_run_of_stopped {a : Actor} (ha : a.isStopped = true) (ts : List Job)
    (cs : List Command) : Serves a ts (cs.filterMap Command.call?) (a.run cs) := by
  induction cs with
  | nil => exact serves_of_stopped ha ts
  | cons c cs ih =>
    have hanswer : Serves a [] c.call?.toList
        (a, c.call?.toList.map fun call => .answered call (.ok ())) := by
      cases c.call? with
      | none => exact ⟨rfl, rfl, rfl⟩
      | some call => exact ⟨rfl, rfl, rfl⟩
    rw [run_cons, step_of_stopped ha, calls_cons]
    exact hanswer.append ih fun h => absurd (ha.symm.trans h) (by decide)

theorem serves_run {a : Actor} (htidy : a.Tidy) (cs : List Command) :
    ∃ dropped, Serves a (Command.schedule a.held cs) dropped (a.run cs) := by
  induction cs generalizing a with
  | nil => exact ⟨[], rfl, rfl, rfl⟩
  | cons c cs ih =>
    cases ha : a.isStopped with
    | true => exact ⟨_, serves_run_of_stopped ha _ (c :: cs)⟩
    | false =>
      obtain ⟨dropped, hstep, hactive⟩ := serves_step ha htidy c
      rw [run_cons]
      cases h : (a.step c).1.isStopped with
      | true =>
        have hrest := serves_run_of_stopped h (Command.schedule (c.waiting a.held) cs) cs
        exact ⟨_, hstep.append hrest fun hno => absurd (h.symm.trans hno) (by decide)⟩
      | false =>
        obtain ⟨hnone, hheld⟩ := hactive h
        obtain ⟨more, hrest⟩ := ih (tidy_step htidy c)
        rw [hheld] at hrest
        exact ⟨_, hstep.append hrest fun _ => hnone⟩

theorem tidy_run {a : Actor} (htidy : a.Tidy) (cs : List Command) : (a.run cs).1.Tidy := by
  induction cs generalizing a with
  | nil => exact htidy
  | cons c cs ih => exact ih (tidy_step htidy c)

theorem calls_run {a : Actor} (htidy : a.Tidy) (cs : List Command) :
    (answers (a.run cs).2).map Prod.fst ++ (a.run cs).1.queued.map Prod.snd =
      a.queued.map Prod.snd ++ cs.filterMap Command.call? := by
  induction cs generalizing a with
  | nil => exact (List.append_nil _).symm
  | cons c cs ih =>
    rw [run_cons, answers_append, List.map_append, List.append_assoc, ih (tidy_step htidy c),
      ← List.append_assoc, calls_step htidy c, calls_cons, List.append_assoc]

/-- Whatever commands come, the actor's session, its posts and its answers are those of a plain session
under the schedule of the commands; the answers after those of the plain session are to actions that
were not applied. Every action is answered once, in the order of the commands, and outside of a hold
the queue is empty. -/
theorem run_serves_schedule (liveDefault : Bool) (cs : List Command) :
    let actor := ((Actor.new liveDefault).run cs).1
    let events := ((Actor.new liveDefault).run cs).2 ++ actor.close
    let plain := (Session.new liveDefault).serve (Command.schedule none cs)
    actor.session = plain.session ∧
      posts events = plain.shown.map .updateState ∧
      (∃ dropped : List Nat, answers events = plain.results.map answerOf ++ dropped.map unapplied) ∧
      (answers events).map Prod.fst = cs.filterMap Command.call? ∧
      (actor.holding = false → actor.queued = []) := by
  intro actor events plain
  have htidy : (Actor.new liveDefault).Tidy := fun _ => rfl
  obtain ⟨dropped, hserves⟩ := serves_run htidy cs
  have hposts : posts actor.close = [] := by
    unfold close
    rw [posts_append, (quiet_drop actor.queued).1]
    split <;> rfl
  have hanswers : answers actor.close = (actor.queued.map Prod.snd).map unapplied := by
    unfold close
    rw [answers_append, (quiet_drop actor.queued).2]
    split <;> exact List.append_nil _
  refine ⟨hserves.session, ?_, ⟨dropped ++ actor.queued.map Prod.snd, ?_⟩, ?_, ?_⟩
  · rw [posts_append, hposts, List.append_nil]
    exact hserves.posts
  · rw [answers_append, hanswers, hserves.answers, List.map_append, List.append_assoc]
    rfl
  · rw [answers_append, hanswers, List.map_append, map_fst_unapplied]
    exact calls_run htidy cs
  · exact fun hh => tidy_run htidy cs (.inl hh)

end Actor

end StoryPreview
