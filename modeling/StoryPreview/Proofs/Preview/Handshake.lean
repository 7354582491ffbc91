import StoryPreview.Proofs.Preview.Awaiting
/-!
The display reports that it is ready. The first report compiles the last text; its result is loaded, and
then the actions that have waited are performed in order (`Awaiting.perform_ready`). A later report does
nothing (`handshake_of_play`).
-/
namespace StoryPreview

/-- After the result of a compile the actor takes the actions that have waited, in order, until one of
them ends the session; all their calls are answered. -/
theorem Actor.Steady.run_load_serves {a : Actor} (h : a.Steady) (result : CompileResult) (restart : Bool) :
    ∃ dropped,
      Serves a (.load result restart :: Job.waited a.queued) dropped (a.run [.load result restart]) ∧
        ((a.run [.load result restart]).1.isStopped = false → dropped = []) ∧
        (answers (a.run [.load result restart]).2).map Prod.fst = a.queued.map Prod.snd := by
  have hrun : a.run [.load result restart] = a.step (.load result restart) := by
    rw [run_cons, Actor.run, List.append_nil]
  obtain ⟨dropped, hserves, hactive⟩ := serves_step h.active h.tidy (.load result restart)
  have htidy := tidy_step h.tidy (.load result restart)
  have hcalls := calls_step h.tidy (.load result restart)
  have hqueued : (a.step (.load result restart)).1.queued = [] := by
    cases hs : (a.step (.load result restart)).1.isStopped with
    | true => exact htidy (.inr hs)
    | false =>
      have hheld : (a.step (.load result restart)).1.held = none := (hactive hs).2
      cases hh : (a.step (.load result restart)).1.holding with
      | true => cases (held_of_holding hh).symm.trans hheld
      | false => exact htidy (.inl hh)
  rw [Command.jobs, h.tidy.getD_held] at hserves
  rw [hqueued, List.map_nil, List.append_nil] at hcalls
  rw [hrun]
  exact ⟨dropped, hserves, fun hs => (hactive hs).1, hcalls.trans (List.append_nil _)⟩

namespace Preview

variable {compile : String → CompileResult} {p : Preview} {call : Call}

/-! ## The first report -/

/-- With the latest source compiled, nothing is left but notices. -/
theorem Running.noticed_round (h : p.Running) (hinbox : p.inbox = []) (hphase : p.phase = .watching)
    (hup : p.UpToDate) (compile : String → CompileResult) :
    Noticed (p.round compile).2 ∧ (p.round compile).1.actor = p.actor := by
  obtain ⟨notices, hrest⟩ := h.coordinate_of_upToDate hphase hup compile
  have hdeliver := deliver_of_nil
    (p := { p with sourceChanged := false, liveChanged := false }) hinbox h.actor.active
  unfold Preview.round
  rw [hrest]
  dsimp only
  rw [hdeliver]
  exact ⟨Noticed.append ⟨notices, rfl⟩ noticed_nil, rfl⟩

theorem Ended.noticed_round (h : p.Ended) (hinbox : p.inbox = []) (compile : String → CompileResult) :
    Noticed (p.round compile).2 ∧ (p.round compile).1.actor = p.actor := by
  obtain ⟨_, _, hactor, notices, hevents⟩ := h.round compile
  rw [hevents, hinbox]
  exact ⟨Noticed.append ⟨notices, rfl⟩ noticed_nil, hactor⟩

/-- A compile that has waited for the display: once it is ready, the latest source is compiled, and the
actor takes the result. -/
theorem Running.round_of_opened (h : p.Running) (hphase : p.phase = .awaitingReady)
    (hgate : p.gate = .opened) {s : Source} (hs : p.source = some s)
    (compile : String → CompileResult) :
    let cs := p.inbox ++ [.load (compile s.text) (p.loadedEpoch ≠ some s.epoch)]
    let r := p.round compile
    r.1.actor = (p.actor.run cs).1 ∧ r.2 = .compiling s.text s.epoch :: (p.actor.run cs).2 ∧
      r.1.inbox = [] ∧ r.1.phase = .watching ∧ r.1.UpToDate ∧
      (r.1.actor.isStopped = true → r.1.Ended) := by
  have hturn := h.turn compile
  unfold Preview.round
  generalize p.coordinate compile = r at hturn
  cases hturn with
  | rest hno _ => cases hphase.symm.trans hno
  | wait _ hno => cases hgate.symm.trans hno
  | announce hno => cases hphase.symm.trans hno
  | @compile t cs liveChanged _ ht hcause =>
    obtain ⟨hno, _⟩ | ⟨_, rfl⟩ := hcause
    · cases hphase.symm.trans hno
    · cases hs.symm.trans ht
      rw [List.append_nil]
      refine ⟨rfl, rfl, rfl, rfl, fun live t ht => ?_, fun hstopped => ?_⟩
      · cases hs.symm.trans ht
        exact verdict_self live s
      · exact ⟨hstopped, if_pos hstopped, h.held⟩

theorem Running.settle_of_opened (h : p.Running) (hphase : p.phase = .awaitingReady)
    (hgate : p.gate = .opened) {s : Source} (hs : p.source = some s)
    (compile : String → CompileResult) :
    let cs := p.inbox ++ [.load (compile s.text) (p.loadedEpoch ≠ some s.epoch)]
    (p.settle compile).1.actor = (p.actor.run cs).1 ∧
      ∃ more, Noticed more ∧
        (p.settle compile).2 = .compiling s.text s.epoch :: ((p.actor.run cs).2 ++ more) := by
  intro cs
  obtain ⟨hactor₁, hevents₁, hinbox₁, hphase₁, hup₁, hended₁⟩ :=
    h.round_of_opened hphase hgate hs compile
  -- Whether the session lasts or not, the later rounds have nothing to compile and nothing to take.
  have hlater : (Noticed ((p.round compile).1.round compile).2 ∧
      ((p.round compile).1.round compile).1.actor = (p.round compile).1.actor) ∧
      Noticed (((p.round compile).1.round compile).1.round compile).2 ∧
        (((p.round compile).1.round compile).1.round compile).1.actor =
          ((p.round compile).1.round compile).1.actor := by
    cases hstopped : (p.round compile).1.actor.isStopped with
    | true =>
      have h₁ := hended₁ hstopped
      have h₂ := h₁.round compile
      exact ⟨h₁.noticed_round hinbox₁ compile, h₂.1.noticed_round h₂.2.1 compile⟩
    | false =>
      obtain ⟨h₁, hcalm₁⟩ := h.round compile hstopped
      have hnoticed := h₁.noticed_round hinbox₁ hphase₁ hup₁ compile
      have h₂ := (h₁.round compile (by rw [hnoticed.2]; exact hstopped)).1
      have hidle : ((p.round compile).1.round compile).1.Idle :=
        h₁.round_of_upToDate hcalm₁ hphase₁ hup₁
      refine ⟨hnoticed, ?_⟩
      rw [hidle.round h₂]
      exact ⟨noticed_nil, rfl⟩
  obtain ⟨⟨hnoticed₂, hactor₂⟩, hnoticed₃, hactor₃⟩ := hlater
  refine ⟨hactor₃.trans (hactor₂.trans hactor₁), _, hnoticed₂.append hnoticed₃, ?_⟩
  show (p.round compile).2 ++ ((p.round compile).1.round compile).2 ++
    (((p.round compile).1.round compile).1.round compile).2 = _
  rw [hevents₁, List.append_assoc]
  rfl

/-- The first report compiles the latest source; its result is loaded, and then the queue is drained. -/
theorem Awaiting.perform_ready (h : p.Awaiting) (hready : call.isReady = true)
    (compile : String → CompileResult) :
    let r := p.perform compile call
    (∀ s, p.source = some s → ∃ before after dropped,
      r.2 = before ++ .compiling s.text s.epoch :: after ∧
        begun before = [] ∧ Actor.posts before = [] ∧ begun after = [] ∧
        p.actor.Serves (.load (compile s.text) true :: Job.waited p.actor.queued) dropped
          (r.1.actor, after) ∧
        (r.1.actor.isStopped = false → dropped = []) ∧
        (Actor.answers after).map Prod.fst = p.actor.queued.map Prod.snd) ∧
      (p.source = none → begun r.2 = []) ∧ r.1.AtRest ∧ r.1.gate ≠ .waiting := by
  intro r
  have hrest : p.AtRest := .inl ⟨h.running, h.idle⟩
  have hgate : r.1.gate ≠ .waiting := gate_settle (gate_take (.inr hready)) compile
  obtain ⟨calls, answer, hanswer, htake⟩ := take_ready hready p
  rw [ready_of_waiting h.gate] at htake
  have hbefore : begun answer = [] ∧ Actor.posts answer = [] := by
    obtain rfl | rfl := hanswer <;> exact ⟨rfl, rfl⟩
  have hr : r = ((Preview.settle compile { p with gate := .opened, calls }).1,
      answer ++ (Preview.settle compile { p with gate := .opened, calls }).2) := by
    show p.perform compile call = _
    unfold Preview.perform
    rw [htake]
    rfl
  have hrun : ({ p with gate := .opened, calls } : Preview).Running :=
    { h.running with gate := by simp }
  refine ⟨fun s hs => ?_, fun hs => ?_, hrest.perform compile call, hgate⟩
  · obtain ⟨hphase, hholding⟩ := h.announced (by rw [hs]; rfl)
    obtain ⟨hactor, more, hmore, hevents⟩ := hrun.settle_of_opened hphase rfl hs compile
    have hload : p.inbox ++ [.load (compile s.text) (p.loadedEpoch ≠ some s.epoch)] =
        [.load (compile s.text) true] := by
      rw [h.idle.inbox, h.loaded]
      rfl
    dsimp only at hactor hevents
    rw [hload] at hactor hevents
    obtain ⟨dropped, hserves, hdropped, hcalls⟩ :=
      h.running.actor.run_load_serves (compile s.text) true
    rw [hr]
    dsimp only
    refine ⟨answer, _, dropped, by rw [hevents], hbefore.1, hbefore.2, ?_, ?_, ?_, ?_⟩
    · rw [begun_append, Actor.begun_run, hmore.begun]
      rfl
    · rw [hactor]
      refine ⟨hserves.session, ?_, ?_⟩
      · rw [Actor.posts_append, hmore.posts, List.append_nil]
        exact hserves.posts
      · rw [Actor.answers_append, hmore.answers, List.append_nil]
        exact hserves.answers
    · rw [hactor]
      exact hdropped
    · rw [Actor.answers_append, hmore.answers, List.append_nil, hcalls]
  · have hwatching := (h.unannounced (by rw [hs]; rfl)).1
    have hidle : ({ p with gate := .opened, calls } : Preview).Idle :=
      { inbox := h.idle.inbox
        waiting := fun hno => by cases hwatching.symm.trans hno
        seen := h.idle.seen }
    rw [hr, hidle.settle hrun]
    rw [begun_append, hbefore.1]
    rfl

/-- As long as the display is not ready, nothing is compiled, there is no story, nothing is told, and no
action is answered that was sent after the first text. The first report that it is ready causes one
compile, of the last text, if there is one; its result is loaded and then the actions that have waited are
performed in order, until one of them ends the session. Every later report does nothing. -/
theorem handshake_of_play {liveDefault : Bool} {steps : List (Call × (String → CompileResult))}
    (hsteps : ∀ step ∈ steps, step.1.isReady = false ∧ step.1 ≠ .dispose) :
    let p := ((new liveDefault).play steps).1
    let events := ((new liveDefault).play steps).2
    let calls := steps.map Prod.fst
    let last := (calls.filterMap Call.text?).getLast?
    let pending := Call.pending false 0 calls
    ((∀ compile, p.round compile = (p, [])) ∧ begun events = [] ∧
      p.actor.session.hasStory = false ∧ p.actor.session.state.transcript = [] ∧
      ∀ d ∈ pending, d.2 ∉ (Actor.answers events).map Prod.fst) ∧
    p.ready = ({ p with gate := .opened }, true) ∧
    ∀ report compile, report.isReady = true →
      let r := p.perform compile report
      (∀ text, last = some text → ∃ before after dropped,
        r.2 = before ++ .compiling text (calls.countP Call.isNewStory) :: after ∧
          begun before = [] ∧ Actor.posts before = [] ∧ begun after = [] ∧
          p.actor.Serves (.load (compile text) true :: Job.waited pending) dropped
            (r.1.actor, after) ∧
          (r.1.actor.isStopped = false → dropped = []) ∧
          (Actor.answers after).map Prod.fst = pending.map Prod.snd) ∧
      (last = none → begun r.2 = []) ∧
      ∀ later, let q := (r.1.play later).1
        q.ready = (q, false) ∧ ∀ report compile, report.isReady = true →
          begun (q.perform compile report).2 = [] ∧ Actor.posts (q.perform compile report).2 = [] := by
  intro p events calls last pending
  obtain ⟨h, hbegun, hqueued, hunanswered, _⟩ := (awaiting_new liveDefault).play hsteps
  have hqueue : p.actor.queued = pending := hqueued.trans (List.nil_append _)
  obtain ⟨hepoch, hlast⟩ := (running_new liveDefault).source_play (idle_new liveDefault)
    h.running.actor.active
  have hlast : p.source.map Source.text = last := hlast.trans (Option.or_none)
  refine ⟨⟨h.idle.round h.running, hbegun, h.story,
    h.running.actor.settled.transcript_of_storyless h.story, hunanswered⟩,
    ready_of_waiting h.gate, fun report compile hready => ?_⟩
  obtain ⟨hfirst, hnone, hrest, hgate⟩ := h.perform_ready hready compile
  refine ⟨fun text htext => ?_, fun hno => hnone ?_, fun later => ?_⟩
  · rw [htext, Option.map_eq_some_iff] at hlast
    obtain ⟨s, hs, rfl⟩ := hlast
    have hcount : s.epoch = calls.countP Call.isNewStory := by
      have hs' : p.epoch = s.epoch := by
        rw [epoch, hs]
        rfl
      exact hs'.symm.trans (hepoch.trans (Nat.zero_add _))
    rw [← hcount, ← hqueue]
    exact hfirst s hs
  · rw [hno, Option.map_eq_none_iff] at hlast
    exact hlast
  · have hlater := gate_play hgate later
    exact ⟨ready_of_gate hlater, fun report compile hagain =>
      (hrest.play later).perform_ready hlater hagain compile⟩

/-- An action before there is any text, two texts, and actions that wait for the display: the last of them
is of an unknown kind. -/
def toPier : List (Call × (String → CompileResult)) :=
  [.dispatch .rewind, .edit "[NOPE]", .dispatch (.selectChoice 0), .newStory harborScript,
    .message "\x7b\"type\":\"action\",\"action\":\x7b\"kind\":\"jump\"\x7d\x7d"].map fun call =>
      (call, compileAlone)

/-- The report finds the choice waiting, and it leads to the sea. -/
theorem handshake_of_play_toPier :
    let p := ((new true).play toPier).1
    let r := p.perform compileAlone .ready
    (∀ step ∈ toPier, step.1.isReady = false ∧ step.1 ≠ .dispose) ∧
      begun ((new true).play toPier).2 = [] ∧
      r.1.actor.session.log = [.start, .selectChoice 0, .recordErrors [.unknownAction "jump"]] ∧
      ∃ before after dropped, r.2 = before ++ .compiling harborScript 1 :: after ∧
        begun before = [] ∧ Actor.posts before = [] ∧ begun after = [] ∧
        p.actor.Serves (.load (compileAlone harborScript) true ::
          Job.waited [(.selectChoice 0, 1), (.recordErrors [.unknownAction "jump"], 2)]) dropped
          (r.1.actor, after) ∧
        (r.1.actor.isStopped = false → dropped = []) ∧
        (Actor.answers after).map Prod.fst = [1, 2] := by
  have hsteps : ∀ step ∈ toPier, step.1.isReady = false ∧ step.1 ≠ .dispose := by
    intro step hstep
    simp only [toPier, List.map_cons, List.map_nil, List.mem_cons, List.not_mem_nil, or_false] at hstep
    obtain rfl | rfl | rfl | rfl | rfl := hstep <;> exact ⟨by decide +kernel, by simp⟩
  have hpending : Call.pending false 0 (toPier.map Prod.fst) =
      [(.selectChoice 0, 1), (.recordErrors [.unknownAction "jump"], 2)] := by decide +kernel
  have hlast : ((toPier.map Prod.fst).filterMap Call.text?).getLast? = some harborScript := by
    decide +kernel
  have hcount : (toPier.map Prod.fst).countP Call.isNewStory = 1 := by decide +kernel
  have hplay := @handshake_of_play true toPier hsteps
  have hfirst := (hplay.2.2 .ready compileAlone rfl).1 harborScript hlast
  rw [hpending, hcount] at hfirst
  exact ⟨hsteps, hplay.1.2.1, by decide +kernel, hfirst⟩

end Preview

end StoryPreview
