import StoryPreview.Proofs.Preview.Rest
/-!
Before the display is ready. Until then a preview is `Awaiting`: nothing is compiled, the session has no
story, and from the first text on every action waits in the queue of the actor. `Awaiting.waits` says so
of one call, `Awaiting.play` of calls one after another.
-/
namespace StoryPreview

namespace Call

/-- The action that a call sends to the session. -/
def action? : Call → Option Action
  | .dispatch a => some a
  | .message raw =>
    match Inbound.decode raw with
    | .ok (.action a) => some a
    | .error (.unknownAction kind) => some (.recordErrors [.unknownAction kind])
    | _ => none
  | _ => none

/-- Whether a call is one of those that are answered, and counted. -/
def isCounted : Call → Bool
  | .dispatch _ | .message _ => true
  | _ => false

/-- The actions sent since the first text was handed over, with the numbers of their calls. The first of
the calls has number `n`; `handed` says whether a text was handed over before. -/
def pending (handed : Bool) (n : Nat) : List Call → List (Action × Nat)
  | [] => []
  | call :: calls =>
    (if handed then call.action?.toList.map (·, n) else []) ++
      pending (handed || call.text?.isSome) (n + call.isCounted.toNat) calls

/-- A call that hands over a text is of no other kind. -/
theorem of_text {call : Call} {text : String} (h : call.text? = some text) :
    call.isReady = false ∧ call ≠ .dispose ∧ call.isCounted = false ∧ call.action? = none := by
  cases call with
  | newStory text => exact ⟨rfl, by simp, rfl, rfl⟩
  | edit text => exact ⟨rfl, by simp, rfl, rfl⟩
  | _ => cases h

/-- Nor is one that sends an action. -/
theorem of_action {call : Call} {a : Action} (h : call.action? = some a) :
    call.isReady = false ∧ call ≠ .dispose ∧ call.isCounted = true := by
  cases call with
  | dispatch a => exact ⟨rfl, by simp, rfl⟩
  | message raw =>
    refine ⟨?_, by simp, rfl⟩
    dsimp only [action?] at h
    unfold isReady
    dsimp only
    split
    · rename_i hraw
      rw [hraw] at h
      cases h
    · rfl
  | _ => cases h

/-- Calls are numbered in order. -/
theorem le_of_mem_pending {handed : Bool} {n : Nat} {calls : List Call} {d : Action × Nat}
    (h : d ∈ pending handed n calls) : n ≤ d.2 := by
  induction calls generalizing handed n with
  | nil => cases h
  | cons call calls ih =>
    rw [pending, List.mem_append] at h
    rcases h with h | h
    · split at h
      · obtain ⟨a, _, rfl⟩ := List.mem_map.mp h
        exact Nat.le_refl n
      · cases h
    · have hle := ih h
      omega

end Call

/-! ## The actor before the display is ready -/

namespace Actor

theorem run_singleton {a : Actor} (h : a.isStopped = false) {c : Command}
    (hc : (a.obey c).1.isStopped = false) : a.run [c] = a.obey c := by
  rw [run_cons, step_of_active h, release_of_active hc]
  simp [run]

theorem run_hold {a : Actor} (h : a.isStopped = false) :
    a.run [.hold] = ({ a with holding := true }, []) := run_singleton h h

theorem run_dispatch_of_holding {a : Actor} (h : a.isStopped = false) (hh : a.holding = true)
    (action : Action) (call : Nat) :
    a.run [.dispatch action call] =
      ({ a with queued := a.queued ++ [(action, call)] }, [.noticed (.actionQueued action.kind)]) := by
  have hobey := obey_dispatch_of_holding hh action call
  rw [run_singleton h (by rw [hobey]; exact h), hobey]

/-- Without a story an action is performed at once, and the session lasts. -/
theorem Steady.run_dispatch_of_storyless {a : Actor} (h : a.Steady) (hh : a.holding = false)
    (hs : a.session.hasStory = false) (action : Action) (call : Nat) :
    (a.run [.dispatch action call]).1.isStopped = false ∧
      (a.run [.dispatch action call]).1.session.hasStory = false ∧
      (a.run [.dispatch action call]).1.holding = false ∧
      (a.run [.dispatch action call]).1.queued = a.queued := by
  obtain ⟨hsettled, hstory⟩ := h.settled.done_of_storyless hs action call
  have hobey : (a.obey (.dispatch action call)).1 =
      { a with session := a.session.done (.dispatch action call) } := by
    rw [obey_dispatch hh, (does_perform a action call).actor]
  have hactive : (a.obey (.dispatch action call)).1.isStopped = false := by
    rw [hobey]
    exact hsettled.active
  rw [run_singleton h.active hactive, hobey]
  exact ⟨hsettled.active, hstory, hh, rfl⟩

end Actor

namespace Preview

variable {compile : String → CompileResult} {p : Preview} {call : Call}

/-! ## Calls before the display is ready -/

theorem take_of_text {text : String} (h : call.text? = some text) (p : Preview) :
    (p.take call).1 =
        { p with source := some ⟨text, p.epoch + call.isNewStory.toNat⟩, sourceChanged := true } ∧
      Noticed (p.take call).2 := by
  cases call with
  | newStory t =>
    obtain rfl : t = text := Option.some.inj h
    exact ⟨rfl, [.storyInitialized _], rfl⟩
  | edit t =>
    obtain rfl : t = text := Option.some.inj h
    exact ⟨rfl, noticed_nil⟩
  | _ => cases h

theorem take_of_action {a : Action} (h : call.action? = some a) (p : Preview) :
    (p.take call).1 =
        { p with inbox := p.inbox ++ [.dispatch a p.calls], calls := p.calls + 1 } ∧
      Noticed (p.take call).2 := by
  have hnoticed (b : Action) : Noticed (p.dispatch b).2 := by
    unfold dispatch
    dsimp only
    split
    · exact ⟨[.dispatchIgnored], rfl⟩
    · exact noticed_nil
  cases call with
  | dispatch b =>
    obtain rfl : b = a := Option.some.inj h
    exact ⟨rfl, hnoticed b⟩
  | message raw =>
    show (p.handleMessage raw).1 = _ ∧ Noticed (p.handleMessage raw).2
    dsimp only [Call.action?] at h
    unfold handleMessage
    split at h
    · rename_i b hraw
      obtain rfl : b = a := Option.some.inj h
      rw [hraw]
      exact ⟨rfl, hnoticed b⟩
    · rename_i kind hraw
      obtain rfl : Action.recordErrors [.unknownAction kind] = a := Option.some.inj h
      rw [hraw]
      exact ⟨rfl, Noticed.append ⟨[.unknownAction kind], rfl⟩ (hnoticed _)⟩
    · cases h
  | _ => cases h

/-- Any other call is answered at once. -/
theorem take_of_neither (htext : call.text? = none) (haction : call.action? = none)
    (hready : call.isReady = false) (hdispose : call ≠ .dispose) (p : Preview) :
    call.isCounted = true ∧ (p.take call).1 = { p with calls := p.calls + 1 } ∧
      (Actor.answers (p.take call).2).map Prod.fst = [p.calls] := by
  have hanswered (result : Except PreviewError Unit) (events : List Event)
      (hevents : Actor.answers events = []) :
      (Actor.answers (p.answered result events).2).map Prod.fst = [p.calls] := by
    unfold answered
    dsimp only
    rw [Actor.answers_append, hevents]
    rfl
  cases call with
  | message raw =>
    show _ ∧ (p.handleMessage raw).1 = _ ∧
      (Actor.answers (p.handleMessage raw).2).map Prod.fst = [p.calls]
    dsimp only [Call.action?, Call.isReady] at haction hready
    unfold handleMessage
    split
    · rename_i hraw
      rw [hraw] at hready
      cases hready
    · rename_i a hraw
      rw [hraw] at haction
      cases haction
    · exact ⟨rfl, rfl, hanswered _ _ (by simp [Actor.answers])⟩
    · rename_i kind hraw
      rw [hraw] at haction
      cases haction
    · exact ⟨rfl, rfl, hanswered _ _ rfl⟩
  | dispatch a => cases haction
  | ready => cases hready
  | dispose => exact absurd rfl hdispose
  | newStory text => cases htext
  | edit text => cases htext

theorem calls_take (p : Preview) (call : Call) :
    (p.take call).1.calls = p.calls + call.isCounted.toNat := by
  cases call with
  | message raw =>
    show (p.handleMessage raw).1.calls = p.calls + 1
    unfold handleMessage
    split <;> rfl
  | _ => rfl

/-! ## Before the display is ready -/

/-- A preview at rest whose display is not ready. Once a text has been handed over, a compile is announced
and the actor holds actions back. -/
structure Awaiting (p : Preview) : Prop where
  running : p.Running
  idle : p.Idle
  gate : p.gate = .waiting
  compiled : p.compiled = none
  loaded : p.loadedEpoch = none
  story : p.actor.session.hasStory = false
  announced : p.source.isSome = true → p.phase = .awaitingReady ∧ p.actor.holding = true
  unannounced : p.source.isSome = false → p.phase = .watching ∧ p.actor.holding = false

theorem awaiting_new (liveDefault : Bool) : (new liveDefault).Awaiting where
  running := running_new liveDefault
  idle := idle_new liveDefault
  gate := rfl
  compiled := rfl
  loaded := rfl
  story := rfl
  announced := by simp [new]
  unannounced := fun _ => ⟨rfl, rfl⟩

/-- The first text is announced to the actor, which holds actions back from then on. -/
theorem Awaiting.round_first (h : p.Awaiting) {q : Preview} {s : Source}
    (hq : q = { p with source := some s, sourceChanged := true }) (hrun : q.Running)
    (hs : p.source.isSome = false) (compile : String → CompileResult) :
    q.round compile =
      ({ q with
        sourceChanged := false, liveChanged := false, phase := .awaitingReady
        actor := { p.actor with holding := true } }, []) := by
  have hphase : q.phase = .watching := by
    rw [hq]
    exact (h.unannounced hs).1
  have hgate : q.gate = .waiting := by
    rw [hq]
    exact h.gate
  have hactor : q.actor = p.actor := by rw [hq]
  have hinbox : q.inbox = [] := by
    rw [hq]
    exact h.idle.inbox
  have hturn := hrun.turn compile
  have hhold := Actor.run_hold h.running.actor.active
  unfold Preview.round
  generalize q.coordinate compile = r at hturn
  cases hturn with
  | rest _ hv =>
    have hverdict : verdict q.compiled q.live s = .compile := by
      rw [hq]
      dsimp only
      rw [h.compiled]
      rfl
    exact absurd hverdict (hv s (by rw [hq]))
  | wait hno _ => cases hphase.symm.trans hno
  | announce =>
    dsimp only
    rw [deliver_of_active]
    · dsimp only
      rw [hinbox, hactor, List.nil_append, hhold]
      rfl
    · unfold deliver
      dsimp only
      rw [hinbox, hactor, List.nil_append, hhold]
      exact h.running.actor.active
  | compile hno => cases hgate.symm.trans hno

/-! ### Only the actor moves -/

/-- The actor takes its commands, and nothing else happens. -/
structure Stays (p : Preview) (r : Preview × List Event) : Prop where
  actor : r.1.actor = (p.actor.run p.inbox).1
  inbox : r.1.inbox = []
  gate : r.1.gate = p.gate
  phase : r.1.phase = p.phase
  source : r.1.source = p.source
  compiled : r.1.compiled = p.compiled
  loaded : r.1.loadedEpoch = p.loadedEpoch
  calls : r.1.calls = p.calls
  begun : begun r.2 = []
  answers : Actor.answers r.2 = Actor.answers (p.actor.run p.inbox).2

theorem Stays.trans {r r' : Preview × List Event} (h : Stays p r) (h' : Stays r.1 r') :
    Stays p (r'.1, r.2 ++ r'.2) where
  actor := by rw [h'.actor, h.inbox, h.actor]; rfl
  inbox := h'.inbox
  gate := h'.gate.trans h.gate
  phase := h'.phase.trans h.phase
  source := h'.source.trans h.source
  compiled := h'.compiled.trans h.compiled
  loaded := h'.loaded.trans h.loaded
  calls := h'.calls.trans h.calls
  begun := by rw [begun_append, h.begun, h'.begun]; rfl
  answers := by
    rw [Actor.answers_append, h.answers, h'.answers, h.inbox]
    exact List.append_nil _

/-- The display is not ready, and the coordinator has nothing to announce. -/
structure Biding (p : Preview) : Prop extends p.Running where
  unready : p.gate = .waiting
  announced : p.phase = .watching → p.source = none

theorem Biding.round (h : p.Biding) (compile : String → CompileResult)
    (ha : (p.actor.run p.inbox).1.isStopped = false) :
    Stays p (p.round compile) ∧ (p.round compile).1.Biding := by
  have hstays : Stays p (p.round compile) ∧ (p.round compile).1.Running := by
    have hturn := h.turn compile
    have hlooked := h.looked hturn
    unfold Preview.round
    generalize p.coordinate compile = r at hturn hlooked
    cases hturn with
    | @rest notices hphase _ =>
      have hnoticed : Noticed (notices.map .noticed) := ⟨notices, rfl⟩
      have hdeliver := deliver_of_active
        (p := { p with sourceChanged := false, liveChanged := false }) ha
      refine ⟨?_, (hlooked.deliver ha).1⟩
      dsimp only
      rw [hdeliver]
      refine ⟨rfl, rfl, rfl, rfl, rfl, rfl, rfl, rfl, ?_, ?_⟩
      · rw [begun_append, hnoticed.begun, Actor.begun_run]
        rfl
      · rw [Actor.answers_append, hnoticed.answers]
        rfl
    | wait =>
      refine ⟨?_, (hlooked.deliver ha).1⟩
      dsimp only
      rw [deliver_of_active ha]
      exact ⟨rfl, rfl, rfl, rfl, rfl, rfl, rfl, rfl, Actor.begun_run _ _, rfl⟩
    | announce hphase _ hs _ => cases (h.announced hphase).symm.trans hs
    | compile hno => cases h.unready.symm.trans hno
  obtain ⟨hstays, hrun⟩ := hstays
  refine ⟨hstays, { hrun with unready := hstays.gate.trans h.unready, announced := fun hphase => ?_ }⟩
  exact hstays.source.trans (h.announced (hstays.phase.symm.trans hphase))

theorem Biding.settle (h : p.Biding) (compile : String → CompileResult)
    (ha : (p.actor.run p.inbox).1.isStopped = false) :
    Stays p (p.settle compile) ∧ (p.settle compile).1.Running ∧ (p.settle compile).1.Idle := by
  obtain ⟨hstays₁, h₁⟩ := h.round compile ha
  -- From the second round on there is no command for the actor to take.
  obtain ⟨hstays₂, h₂⟩ := h₁.round compile (by rw [hstays₁.inbox]; exact h₁.actor.active)
  obtain ⟨hstays₃, h₃⟩ := h₂.round compile (by rw [hstays₂.inbox]; exact h₂.actor.active)
  exact ⟨(hstays₁.trans hstays₂).trans hstays₃, h.toRunning.settle compile h₃.actor.active⟩

/-! ### One call -/

/-- What a call leaves alone, unless it is a report of the display or the last call. -/
theorem take_frame (hready : call.isReady = false) (hdispose : call ≠ .dispose) (p : Preview) :
    ∃ source sourceChanged inbox calls,
      (p.take call).1 = { p with source, sourceChanged, inbox, calls } := by
  have htakes := takes_take p call
  generalize (p.take call).1 = q at htakes
  cases htakes with
  | source _ _ | dispatch _ _ | answer _ _ => exact ⟨_, _, _, _, rfl⟩
  | ready _ hno => cases hready.symm.trans hno
  | dispose => exact absurd rfl hdispose

/-- Unless the call hands over the first text, only the actor moves. -/
theorem Awaiting.settle_take (h : p.Awaiting) (hready : call.isReady = false)
    (hdispose : call ≠ .dispose) (hsource : (p.take call).1.source.isSome = p.source.isSome)
    (ha : (p.actor.run (p.take call).1.inbox).1.isStopped = false)
    (hholding : (p.actor.run (p.take call).1.inbox).1.holding = p.actor.holding)
    (hstory : (p.actor.run (p.take call).1.inbox).1.session.hasStory = false)
    (compile : String → CompileResult) :
    Stays (p.take call).1 ((p.take call).1.settle compile) ∧
      ((p.take call).1.settle compile).1.Awaiting := by
  have htake := h.running.take h.idle (takes_take p call) hdispose
  obtain ⟨source, sourceChanged, inbox, calls, hframe⟩ := take_frame hready hdispose p
  rw [hframe] at hsource ha hholding hstory htake ⊢
  dsimp only at hsource ha hholding hstory
  have hbiding : ({ p with source, sourceChanged, inbox, calls } : Preview).Biding :=
    { htake with
      unready := h.gate
      announced := fun hphase => by
        cases hs : source with
        | none => rfl
        | some s =>
          rw [hs] at hsource
          cases (h.announced hsource.symm).1.symm.trans hphase }
  obtain ⟨hstays, hrun, hidle⟩ := hbiding.settle compile ha
  refine ⟨hstays, ?_⟩
  exact {
    running := hrun
    idle := hidle
    gate := hstays.gate.trans h.gate
    compiled := hstays.compiled.trans h.compiled
    loaded := hstays.loaded.trans h.loaded
    story := by rw [hstays.actor]; exact hstory
    announced := fun hs => by
      rw [hstays.source, hsource] at hs
      rw [hstays.phase, hstays.actor, hholding]
      exact h.announced hs
    unannounced := fun hs => by
      rw [hstays.source, hsource] at hs
      rw [hstays.phase, hstays.actor, hholding]
      exact h.unannounced hs }

/-- What a call leaves of such a preview, and what it brings about. -/
structure Waits (p : Preview) (call : Call) (r : Preview × List Event) : Prop where
  awaiting : r.1.Awaiting
  source : r.1.source.isSome = (p.source.isSome || call.text?.isSome)
  calls : r.1.calls = p.calls + call.isCounted.toNat
  queued : r.1.actor.queued =
    p.actor.queued ++ if p.source.isSome then call.action?.toList.map (·, p.calls) else []
  begun : begun r.2 = []
  answers : ∀ n ∈ (Actor.answers r.2).map Prod.fst,
    n = p.calls ∧ call.isCounted = true ∧ (p.source.isSome = true → call.action? = none)

theorem isSome_take (p : Preview) (call : Call) :
    (p.take call).1.source.isSome = (p.source.isSome || call.text?.isSome) := by
  have htext := congrArg Option.isSome (source_take p call).2
  rw [Option.isSome_map] at htext
  rw [htext, Option.isSome_or, Option.isSome_map, Bool.or_comm]

/-- The first text is announced. -/
theorem Awaiting.waits_first (h : p.Awaiting) {text : String} (htext : call.text? = some text)
    (hs : p.source.isSome = false) (compile : String → CompileResult) :
    Waits p call (p.perform compile call) := by
  obtain ⟨htake, hnoticed⟩ := take_of_text htext p
  obtain ⟨_, hdispose, _, _⟩ := Call.of_text htext
  have hrun := h.running.take h.idle (takes_take p call) hdispose
  have hround := h.round_first htake hrun hs compile
  have hnext := hrun.round compile (by rw [hround]; exact h.running.actor.active)
  rw [hround] at hnext
  have hsettle := settle_of_round hround hnext.1
    { hnext.2 with seen := fun hno => by cases hno }
  have hsource := isSome_take p call
  unfold Preview.perform
  dsimp only
  rw [hsettle, List.append_nil]
  exact {
    awaiting := {
      running := hnext.1
      idle := { hnext.2 with seen := fun hno => by cases hno }
      gate := by rw [htake]; exact h.gate
      compiled := by rw [htake]; exact h.compiled
      loaded := by rw [htake]; exact h.loaded
      story := h.story
      announced := fun _ => ⟨rfl, rfl⟩
      unannounced := fun hno => by
        rw [htake] at hno
        cases hno }
    source := hsource
    calls := calls_take p call
    queued := by rw [hs]; exact (List.append_nil _).symm
    begun := hnoticed.begun
    answers := by simp [hnoticed.answers] }

/-- A call that only the actor may have to see to. -/
theorem Awaiting.waits_of_stays (h : p.Awaiting) (hready : call.isReady = false)
    (hdispose : call ≠ .dispose) (hsource : (p.take call).1.source.isSome = p.source.isSome)
    {cs : List Command} (hsent : (p.take call).1.inbox = cs)
    (ha : (p.actor.run cs).1.isStopped = false)
    (hholding : (p.actor.run cs).1.holding = p.actor.holding)
    (hstory : (p.actor.run cs).1.session.hasStory = false)
    (hqueued : (p.actor.run cs).1.queued =
      p.actor.queued ++ if p.source.isSome then call.action?.toList.map (·, p.calls) else [])
    (hanswers : ∀ n ∈ (Actor.answers ((p.take call).2 ++ (p.actor.run cs).2)).map Prod.fst,
      n = p.calls ∧ call.isCounted = true ∧ (p.source.isSome = true → call.action? = none))
    (compile : String → CompileResult) : Waits p call (p.perform compile call) := by
  subst hsent
  obtain ⟨hstays, hawaiting⟩ := h.settle_take hready hdispose hsource ha hholding hstory compile
  have hactor : (p.take call).1.actor = p.actor := by
    obtain ⟨_, _, _, _, hframe⟩ := take_frame hready hdispose p
    rw [hframe]
  exact {
    awaiting := hawaiting
    source := (congrArg Option.isSome hstays.source).trans (isSome_take p call)
    calls := hstays.calls.trans (calls_take p call)
    queued := by
      show ((p.take call).1.settle compile).1.actor.queued = _
      rw [hstays.actor, hactor, hqueued]
    begun := by
      show begun ((p.take call).2 ++ ((p.take call).1.settle compile).2) = []
      rw [begun_append, begun_take, hstays.begun]
      rfl
    answers := by
      show ∀ n ∈ (Actor.answers ((p.take call).2 ++ ((p.take call).1.settle compile).2)).map
        Prod.fst, _
      rw [Actor.answers_append, hstays.answers, hactor, ← Actor.answers_append]
      exact hanswers }

/-- A later text takes the place of the one that is announced. -/
theorem Awaiting.waits_later (h : p.Awaiting) {text : String} (htext : call.text? = some text)
    (hs : p.source.isSome = true) (compile : String → CompileResult) :
    Waits p call (p.perform compile call) := by
  obtain ⟨htake, hnoticed⟩ := take_of_text htext p
  obtain ⟨hready, hdispose, _, haction⟩ := Call.of_text htext
  have hsent : (p.take call).1.inbox = [] := by
    rw [htake]
    exact h.idle.inbox
  refine h.waits_of_stays hready hdispose ?_ hsent h.running.actor.active rfl h.story ?_ ?_ compile
  · rw [htake, hs]
    rfl
  · rw [haction, hs]
    exact (List.append_nil _).symm
  · rw [Actor.answers_append, hnoticed.answers]
    simp [Actor.run, Actor.answers]

/-- Once a text has been handed over, an action waits in the queue. -/
theorem Awaiting.waits_queued (h : p.Awaiting) {a : Action} (haction : call.action? = some a)
    (hs : p.source.isSome = true) (compile : String → CompileResult) :
    Waits p call (p.perform compile call) := by
  obtain ⟨htake, hnoticed⟩ := take_of_action haction p
  obtain ⟨hready, hdispose, _⟩ := Call.of_action haction
  obtain ⟨_, hholding⟩ := h.announced hs
  have hrun := Actor.run_dispatch_of_holding h.running.actor.active hholding a p.calls
  have hsent : (p.take call).1.inbox = [.dispatch a p.calls] := by
    rw [htake, h.idle.inbox]
    rfl
  refine h.waits_of_stays hready hdispose ?_ hsent ?_ ?_ ?_ ?_ ?_ compile
  · rw [htake]
  · rw [hrun]
    exact h.running.actor.active
  · rw [hrun]
  · rw [hrun]
    exact h.story
  · rw [hrun, hs, haction]
    rfl
  · rw [hrun, Actor.answers_append, hnoticed.answers]
    simp [Actor.answers]

/-- Before that it is performed at once. -/
theorem Awaiting.waits_performed (h : p.Awaiting) {a : Action} (haction : call.action? = some a)
    (hs : p.source.isSome = false) (compile : String → CompileResult) :
    Waits p call (p.perform compile call) := by
  obtain ⟨htake, hnoticed⟩ := take_of_action haction p
  obtain ⟨hready, hdispose, hcounted⟩ := Call.of_action haction
  obtain ⟨_, hholding⟩ := h.unannounced hs
  obtain ⟨hlasts, hstory, hfree, hqueued⟩ :=
    h.running.actor.run_dispatch_of_storyless hholding h.story a p.calls
  have hanswers := Actor.calls_run h.running.actor.tidy [.dispatch a p.calls]
  rw [hqueued, h.running.actor.tidy (.inl hholding), List.map_nil, List.append_nil] at hanswers
  have hsent : (p.take call).1.inbox = [.dispatch a p.calls] := by
    rw [htake, h.idle.inbox]
    rfl
  refine h.waits_of_stays hready hdispose ?_ hsent hlasts (hfree.trans hholding.symm) hstory ?_ ?_
    compile
  · rw [htake]
  · rw [hqueued, hs]
    exact (List.append_nil _).symm
  · intro n hn
    rw [Actor.answers_append, hnoticed.answers, List.nil_append, hanswers] at hn
    exact ⟨List.mem_singleton.mp hn, hcounted, fun hno => by cases hs.symm.trans hno⟩

/-- Any other call is answered at once. -/
theorem Awaiting.waits_answered (h : p.Awaiting) (htext : call.text? = none)
    (haction : call.action? = none) (hready : call.isReady = false) (hdispose : call ≠ .dispose)
    (compile : String → CompileResult) : Waits p call (p.perform compile call) := by
  obtain ⟨hcounted, htake, hanswers⟩ := take_of_neither htext haction hready hdispose p
  have hsent : (p.take call).1.inbox = [] := by
    rw [htake]
    exact h.idle.inbox
  refine h.waits_of_stays hready hdispose ?_ hsent h.running.actor.active rfl h.story ?_ ?_ compile
  · rw [htake]
  · rw [haction]
    cases p.source <;> exact (List.append_nil _).symm
  · intro n hn
    rw [Actor.run, List.append_nil, hanswers] at hn
    exact ⟨List.mem_singleton.mp hn, hcounted, fun _ => haction⟩

/-- Until the display is ready, a call leaves a preview that awaits it. -/
theorem Awaiting.waits (h : p.Awaiting) (hready : call.isReady = false) (hdispose : call ≠ .dispose)
    (compile : String → CompileResult) : Waits p call (p.perform compile call) := by
  cases htext : call.text? with
  | some text =>
    cases hs : p.source.isSome with
    | false => exact h.waits_first htext hs compile
    | true => exact h.waits_later htext hs compile
  | none =>
    cases haction : call.action? with
    | none => exact h.waits_answered htext haction hready hdispose compile
    | some a =>
      cases hs : p.source.isSome with
      | true => exact h.waits_queued haction hs compile
      | false => exact h.waits_performed haction hs compile

/-! ### Calls one after another -/

/-- Actions that are pending wait in the queue in order, and their calls are not answered. -/
theorem Awaiting.play (h : p.Awaiting) {steps : List (Call × (String → CompileResult))}
    (hsteps : ∀ step ∈ steps, step.1.isReady = false ∧ step.1 ≠ .dispose) :
    let r := p.play steps
    let pending := Call.pending p.source.isSome p.calls (steps.map Prod.fst)
    let answered := (Actor.answers r.2).map Prod.fst
    r.1.Awaiting ∧ begun r.2 = [] ∧ r.1.actor.queued = p.actor.queued ++ pending ∧
      (∀ d ∈ pending, d.2 ∉ answered) ∧ ∀ n ∈ answered, p.calls ≤ n := by
  induction steps generalizing p with
  | nil =>
    refine ⟨h, rfl, (List.append_nil _).symm, ?_, ?_⟩
    · simp [Call.pending]
    · simp [Preview.play, Actor.answers]
  | cons step steps ih =>
    obtain ⟨call, compile⟩ := step
    obtain ⟨hready, hdispose⟩ := hsteps _ List.mem_cons_self
    have hwaits := h.waits hready hdispose compile
    obtain ⟨hawaiting, hbegun, hqueued, hunanswered, hnumbers⟩ :=
      ih hwaits.awaiting fun step hmem => hsteps step (List.mem_cons_of_mem _ hmem)
    rw [hwaits.source, hwaits.calls] at hqueued hunanswered
    rw [hwaits.calls] at hnumbers
    rw [play_cons, List.map_cons]
    dsimp only
    simp only [Actor.answers_append, List.map_append, List.mem_append, Call.pending]
    refine ⟨hawaiting, ?_, ?_, ?_, ?_⟩
    · rw [begun_append, hwaits.begun, hbegun]
      rfl
    · rw [hqueued, hwaits.queued, List.append_assoc]
    · rintro d (hd | hd) (hn | hn)
      · -- An action that is put in the queue is not answered at once,
        split at hd
        · rename_i hs
          rw [(hwaits.answers _ hn).2.2 hs] at hd
          cases hd
        · cases hd
      · -- and the later calls have other numbers.
        have hge := hnumbers _ hn
        split at hd
        · obtain ⟨a, haction, rfl⟩ := List.mem_map.mp hd
          rw [(Call.of_action (Option.mem_toList.mp haction)).2.2] at hge
          simp only [Bool.toNat_true] at hge
          omega
        · cases hd
      · have hge := Call.le_of_mem_pending hd
        obtain ⟨hcall, hcounted, _⟩ := hwaits.answers _ hn
        rw [hcounted] at hge
        simp only [Bool.toNat_true] at hge
        omega
      · exact hunanswered d hd hn
    · rintro n (hn | hn)
      · exact Nat.le_of_eq (hwaits.answers n hn).1.symm
      · have hge := hnumbers n hn
        omega

end Preview

end StoryPreview
