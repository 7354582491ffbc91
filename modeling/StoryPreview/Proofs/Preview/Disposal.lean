import StoryPreview.Proofs.Preview.Answers
import StoryPreview.Proofs.Preview.LiveUpdate
/-!
The end of a preview. A call of `dispose` ends the session once the actor has come to it, and a failure of
the story ends it at once (`doomed_moves`). From then on a preview is `Over`, whatever is called and in
whatever order its parties move: nothing is compiled, no state is posted, and every action is answered
without being applied (`final_of_moves`).

Only the way to a place in the script does not lead through the session. A disposed preview still answers
the requests of its display to go there, and posts nothing else (`posts_of_disposed`).
-/
namespace StoryPreview

/-! ## Requests for a place in the script -/

/-- The place that a call asks the preview to show. -/
def Call.target? : Call → Option JumpTarget
  | .message raw =>
    match Inbound.decode raw with
    | .ok (.jumpTo target) => some target
    | _ => none
  | _ => none

/-- The answer to a request for a place in a text. -/
def JumpTarget.reply (document : String) (target : JumpTarget) : Outbound :=
  match target.resolve document with
  | .ok position => .revealPosition position
  | .error e => .navigationFailed e.message

/-- The answers to the requests for places among calls, in order, each in the last text handed over. -/
def Call.replies (document : String) : List Call → List Outbound
  | [] => []
  | call :: calls =>
    (call.target?.map (JumpTarget.reply document)).toList ++
      replies (call.text?.getD document) calls

theorem Call.replies_eq_nil_iff {document : String} {calls : List Call} :
    replies document calls = [] ↔ ∀ call ∈ calls, call.target? = none := by
  induction calls generalizing document with
  | nil => simp [replies]
  | cons call calls ih => simp [replies, ih]

theorem Call.updateState_not_mem_replies (document : String) (calls : List Call) (s : State) :
    .updateState s ∉ replies document calls := by
  induction calls generalizing document with
  | nil => exact nofun
  | cons call calls ih =>
    intro hmem
    rcases List.mem_append.mp hmem with hmem | hmem
    · obtain ⟨target, _, heq⟩ := Option.map_eq_some_iff.mp (Option.mem_toList.mp hmem)
      unfold JumpTarget.reply at heq
      split at heq <;> cases heq
    · exact ih _ hmem

namespace Preview

variable {p : Preview}

/-! ## What ends a session -/

/-- Neither party can move. A compile may be held up. -/
structure Still (p : Preview) : Prop where
  inbox : p.inbox = []
  coordinator : ∀ compile, p.coordinate compile = (p, [])

/-- The session has ended, or it will when the actor comes to what it has been told. -/
def Doomed (p : Preview) : Prop := p.actor.isStopped = true ∨ .dispose ∈ p.inbox

theorem Still.stopped (h : p.Still) (hd : p.Doomed) : p.actor.isStopped = true := by
  refine hd.resolve_right fun hmem => ?_
  rw [h.inbox] at hmem
  cases hmem

theorem failures_take (p : Preview) (call : Call) : failures (p.take call).2 = [] := by
  have hdispatch (a : Action) : failures (p.dispatch a).2 = [] := by
    unfold dispatch
    dsimp only
    split <;> rfl
  cases call with
  | ready =>
    unfold take
    dsimp only
    split <;> rfl
  | dispatch a => exact hdispatch a
  | message raw =>
    unfold take handleMessage
    dsimp only
    split
    · unfold answered
      dsimp only
      split <;> rfl
    · exact hdispatch _
    · simp [answered, failures, jumpNotices]
    · exact hdispatch _
    · rfl
  | _ => rfl

/-- A call may send the actor a command, behind those that are under way. -/
theorem inbox_take (p : Preview) (call : Call) : ∃ cs, (p.take call).1.inbox = p.inbox ++ cs := by
  have htakes := takes_take p call
  generalize (p.take call).1 = q at htakes
  cases htakes with
  | source _ _ | ready _ _ | answer _ _ => exact ⟨[], (List.append_nil _).symm⟩
  | dispatch _ _ | dispose => exact ⟨_, rfl⟩

theorem Doomed.move (h : p.Doomed) (m : Move) : (p.move m).1.Doomed := by
  obtain hstopped | hmem := h
  · refine .inl ?_
    obtain hactor | ⟨c, cs, _, _, hactor⟩ := actor_move p m
    · rwa [hactor]
    · rw [hactor, Actor.step_of_stopped hstopped]
      exact hstopped
  · cases m with
    | call call =>
      obtain ⟨cs, hcs⟩ := inbox_take p call
      refine .inr ?_
      show Command.dispose ∈ (p.take call).1.inbox
      rw [hcs]
      exact List.mem_append_left _ hmem
    | coordinate compile =>
      obtain ⟨cs, hcs, _⟩ := (sends_coordinate compile p).inbox
      refine .inr ?_
      show Command.dispose ∈ (p.coordinate compile).1.inbox
      rw [hcs]
      exact List.mem_append_left _ hmem
    | obey =>
      cases hinbox : p.inbox with
      | nil =>
        rw [hinbox] at hmem
        cases hmem
      | cons c cs =>
        obtain ⟨hactor, hrest, _⟩ := obey_step hinbox
        rw [hinbox] at hmem
        rcases List.mem_cons.mp hmem with rfl | hmem
        · exact .inl (hactor ▸ Actor.isStopped_step_dispose p.actor)
        · exact .inr (hrest ▸ hmem)
    | hold held => exact .inr hmem

theorem Doomed.moves (h : p.Doomed) (ms : List Move) : (p.moves ms).1.Doomed := by
  induction ms generalizing p with
  | nil => exact h
  | cons m ms ih => exact ih (h.move m)

theorem doomed_move {m : Move} (h : m = .call .dispose ∨ failures (p.move m).2 ≠ []) :
    (p.move m).1.Doomed := by
  rcases h with rfl | h
  · exact .inr (List.mem_append_right _ (List.mem_singleton_self _))
  · cases m with
    | call call => exact absurd (failures_take p call) h
    | coordinate compile => exact absurd (sends_coordinate compile p).failures h
    | obey =>
      cases hinbox : p.inbox with
      | nil =>
        have hobey := obey_of_nil hinbox
        exact absurd (congrArg (fun r => failures r.2) hobey) h
      | cons c cs =>
        obtain ⟨hactor, _, _, hevents⟩ := obey_step hinbox
        refine .inl ?_
        show p.obey.1.actor.isStopped = true
        rw [hactor]
        refine Actor.failures_step ?_
        rwa [← hevents]
    | hold held => exact absurd rfl h

/-- A preview that has been disposed of, or whose story has failed, is at its end or about to be. -/
theorem doomed_moves {ms : List Move}
    (h : .call .dispose ∈ ms ∨ failures (p.moves ms).2 ≠ []) : (p.moves ms).1.Doomed := by
  induction ms generalizing p with
  | nil =>
    rcases h with h | h
    · cases h
    · exact absurd rfl h
  | cons m ms ih =>
    by_cases hm : m = .call .dispose ∨ failures (p.move m).2 ≠ []
    · exact (doomed_move hm).moves ms
    · rw [not_or, Classical.not_not] at hm
      refine ih (h.imp (fun hmem => ?_) fun hfail => ?_)
      · exact (List.mem_cons.mp hmem).resolve_left fun heq => hm.1 heq.symm
      · rwa [moves_cons, failures_append, hm.2, List.nil_append] at hfail

/-! ## After the end -/

/-- The session has ended, and the gate is closed. -/
structure Over (p : Preview) : Prop where
  stopped : p.actor.isStopped = true
  gate : p.gate = .closed

theorem Over.shut (h : p.Over) : p.Shut := fun _ => h.gate

/-- The coordinator has ended, or it waits for a compile that is held up. -/
def Quit (p : Preview) : Prop :=
  p.phase = .stopped ∨ ((∃ s, p.phase = .compiling s) ∧ p.held = true)

theorem Quit.coordinate (h : p.Quit) (compile : String → CompileResult) :
    p.coordinate compile = (p, []) := by
  obtain hphase | ⟨⟨s, hphase⟩, hheld⟩ := h
  · exact coordinate_of_stopped hphase compile
  · unfold Preview.coordinate
    rw [hphase]
    dsimp only
    rw [if_pos hheld]

/-- All that the coordinator then does is to end. -/
theorem Over.coordinate (h : p.Over) (compile : String → CompileResult) :
    (p.coordinate compile).1.Quit ∧ (p.coordinate compile).1.inbox = p.inbox ∧
      Noticed (p.coordinate compile).2 := by
  unfold Preview.coordinate
  split
  · rw [if_pos h.stopped]
    exact ⟨.inl rfl, rfl, _, rfl⟩
  · rw [h.gate]
    exact ⟨.inl rfl, rfl, _, rfl⟩
  · rename_i s hphase
    split
    · rename_i hheld
      exact ⟨.inr ⟨⟨s, hphase⟩, hheld⟩, rfl, noticed_nil⟩
    · rw [if_pos h.stopped]
      exact ⟨.inl rfl, rfl, _, rfl⟩
  · rename_i hphase
    exact ⟨.inl hphase, rfl, noticed_nil⟩

theorem Over.move (h : p.Over) (m : Move) : (p.move m).1.Over := by
  constructor
  · obtain hactor | ⟨c, cs, _, _, hactor⟩ := actor_move p m
    · rw [hactor]
      exact h.stopped
    · rw [hactor, Actor.step_of_stopped h.stopped]
      exact h.stopped
  · cases m with
    | call call => exact h.shut.take call ((actor_take p call).symm ▸ h.stopped)
    | coordinate compile => exact (keeps_coordinate compile p).gate.trans h.gate
    | obey =>
      show p.obey.1.gate = .closed
      cases hinbox : p.inbox with
      | nil => rw [obey_of_nil hinbox, h.gate]
      | cons c cs =>
        rw [obey_of_cons hinbox]
        dsimp only
        rw [h.gate, ite_self]
    | hold held => exact h.gate

theorem Over.moves (h : p.Over) (ms : List Move) : (p.moves ms).1.Over := by
  induction ms generalizing p with
  | nil => exact h
  | cons m ms ih => exact ih (h.move m)

/-- The answer to the next command, if it is an action. -/
theorem Over.obey (h : p.Over) {c : Command} {cs : List Command} (hinbox : p.inbox = c :: cs) :
    p.obey.1.inbox = cs ∧ p.obey.2 = c.call?.toList.map fun call => .answered call (.ok ()) := by
  obtain ⟨_, hrest, _, hevents⟩ := obey_step hinbox
  rw [Actor.step_of_stopped h.stopped] at hevents
  exact ⟨hrest, hevents⟩

theorem Over.begun_move (h : p.Over) (m : Move) : begun (p.move m).2 = [] := by
  cases m with
  | call call => exact begun_take p call
  | coordinate compile => exact (h.coordinate compile).2.2.begun
  | obey => exact begun_obey p
  | hold held => rfl

theorem Over.begun_moves (h : p.Over) (ms : List Move) : begun (p.moves ms).2 = [] := by
  induction ms generalizing p with
  | nil => rfl
  | cons m ms ih =>
    rw [moves_cons, begun_append, h.begun_move m, ih (h.move m)]
    rfl

/-- From then on everybody comes to rest. -/
theorem Over.exists_still (h : p.Over) (compile : String → CompileResult) :
    ∃ n, (p.moves (.coordinate compile :: .replicate n .obey)).1.Still := by
  obtain ⟨hquit, _⟩ := h.coordinate compile
  refine ⟨(p.coordinate compile).1.inbox.length, ?_⟩
  rw [moves_cons]
  dsimp only [Preview.move]
  rw [moves_obey (h.shut.coordinate compile)]
  have hdeliver : (p.coordinate compile).1.deliver.1.Quit := hquit
  exact ⟨rfl, hdeliver.coordinate⟩

/-! ## Answers -/

/-- An action that is under way or that a move sends is answered at once or is still under way. -/
theorem Over.answers_move (h : p.Over) (m : Move) {call : Nat}
    (hcall : call ∈ p.inbox.filterMap Command.call? ∨
      (call = p.calls ∧ (m.call?.bind Call.action?).isSome = true)) :
    (call, .ok ()) ∈ Actor.answers (p.move m).2 ∨
      call ∈ (p.move m).1.inbox.filterMap Command.call? := by
  cases m with
  | call c =>
    refine .inr ?_
    show call ∈ (p.take c).1.inbox.filterMap Command.call?
    rcases hcall with hcall | ⟨rfl, haction⟩
    · obtain ⟨cs, hcs⟩ := inbox_take p c
      rw [hcs, List.filterMap_append]
      exact List.mem_append_left _ hcall
    · obtain ⟨a, ha⟩ := Option.isSome_iff_exists.mp haction
      rw [(take_of_action ha p).1, List.filterMap_append]
      exact List.mem_append_right _ (List.mem_singleton_self _)
  | coordinate compile =>
    have hinbox := (h.coordinate compile).2.1
    refine .inr ?_
    show call ∈ (p.coordinate compile).1.inbox.filterMap Command.call?
    rw [hinbox]
    exact hcall.resolve_right fun hno => by cases hno.2
  | obey =>
    have hcall := hcall.resolve_right fun hno => by cases hno.2
    show _ ∈ Actor.answers p.obey.2 ∨ call ∈ p.obey.1.inbox.filterMap Command.call?
    cases hinbox : p.inbox with
    | nil =>
      rw [hinbox] at hcall
      cases hcall
    | cons c cs =>
      obtain ⟨hrest, hevents⟩ := h.obey hinbox
      rw [hrest, hevents]
      rw [hinbox, Actor.calls_cons] at hcall
      rcases List.mem_append.mp hcall with hcall | hcall
      · rw [Option.mem_toList] at hcall
        rw [Option.mem_def.mp hcall]
        exact .inl (List.mem_singleton_self _)
      · exact .inr hcall
  | hold held => exact .inr (hcall.resolve_right fun hno => by cases hno.2)

theorem Over.answers_moves (h : p.Over) (ms : List Move) {call : Nat}
    (hcall : call ∈ p.inbox.filterMap Command.call? ∨
      call ∈ (Call.pending true p.calls (ms.filterMap Move.call?)).map Prod.snd) :
    (call, .ok ()) ∈ Actor.answers (p.moves ms).2 ∨
      call ∈ (p.moves ms).1.inbox.filterMap Command.call? := by
  induction ms generalizing p with
  | nil => exact .inr (hcall.resolve_right nofun)
  | cons m ms ih =>
    -- A call that the move makes is sent now, or it is one of those that come later.
    have hsplit : (call ∈ p.inbox.filterMap Command.call? ∨
          (call = p.calls ∧ (m.call?.bind Call.action?).isSome = true)) ∨
        call ∈ (Call.pending true (p.move m).1.calls (ms.filterMap Move.call?)).map Prod.snd := by
      rcases hcall with hcall | hcall
      · exact .inl (.inl hcall)
      · rw [calls_move]
        cases hm : m.call? with
        | none =>
          rw [List.filterMap_cons_none hm] at hcall
          exact .inr hcall
        | some c =>
          rw [List.filterMap_cons_some hm, Call.pending, List.map_append, if_pos rfl] at hcall
          rcases List.mem_append.mp hcall with hcall | hcall
          · refine .inl (.inr ?_)
            cases ha : c.action? with
            | none =>
              rw [ha] at hcall
              cases hcall
            | some a =>
              rw [ha] at hcall
              exact ⟨List.mem_singleton.mp hcall, by simp [ha]⟩
          · exact .inr hcall
    rw [moves_cons]
    dsimp only
    rw [Actor.answers_append, List.mem_append]
    rcases hsplit with hnow | hlater
    · rcases h.answers_move m hnow with hanswered | hsent
      · exact .inl (.inl hanswered)
      · exact (ih (h.move m) (.inl hsent)).imp .inr id
    · exact (ih (h.move m) (.inr hlater)).imp .inr id

/-! ## Posts -/

theorem posts_take (p : Preview) (call : Call) :
    Actor.posts (p.take call).2 = (call.target?.map (JumpTarget.reply p.document)).toList := by
  have hdispatch (a : Action) : Actor.posts (p.dispatch a).2 = [] := by
    unfold dispatch
    dsimp only
    split <;> rfl
  cases call with
  | ready =>
    unfold take
    dsimp only
    split <;> rfl
  | dispatch a => exact hdispatch a
  | message raw =>
    show Actor.posts (p.handleMessage raw).2 = _
    unfold handleMessage Call.target?
    dsimp only
    cases Inbound.decode raw with
    | ok m =>
      cases m with
      | ready =>
        unfold answered
        dsimp only
        split <;> rfl
      | action a => exact hdispatch a
      | jumpTo target =>
        have hnotices : Actor.posts ((p.jumpNotices target).map .noticed) = [] :=
          Noticed.posts ⟨_, rfl⟩
        unfold answered
        dsimp only
        rw [Actor.posts_append, Actor.posts_append, hnotices]
        rfl
    | error e =>
      cases e with
      | unknownAction kind => exact hdispatch _
      | _ => rfl
  | _ => rfl

theorem document_take (p : Preview) (call : Call) :
    (p.take call).1.document = call.text?.getD p.document := by
  have hdocument (q : Preview) : q.document = (q.source.map Source.text).getD "" := by
    unfold document
    cases q.source <;> rfl
  rw [hdocument, (source_take p call).2, hdocument]
  cases call.text? <;> rfl

/-- Without a call nothing is posted. -/
theorem Over.posts_move (h : p.Over) {m : Move} (hm : m.call? = none) :
    Actor.posts (p.move m).2 = [] := by
  cases m with
  | call call => cases hm
  | coordinate compile => exact (h.coordinate compile).2.2.posts
  | obey =>
    show Actor.posts p.obey.2 = []
    cases hinbox : p.inbox with
    | nil =>
      rw [obey_of_nil hinbox]
      rfl
    | cons c cs =>
      rw [(h.obey hinbox).2]
      cases c.call? <;> rfl
  | hold held => rfl

/-- Nothing is posted but what is asked for of the script. -/
theorem Over.posts_moves (h : p.Over) (ms : List Move) :
    Actor.posts (p.moves ms).2 = Call.replies p.document (ms.filterMap Move.call?) := by
  induction ms generalizing p with
  | nil => rfl
  | cons m ms ih =>
    rw [moves_cons, Actor.posts_append, ih (h.move m)]
    cases hm : m.call? with
    | none =>
      have hdocument : (p.move m).1.document = p.document :=
        congrArg (Option.elim · "" Source.text) (source_move p hm)
      rw [h.posts_move hm, hdocument, List.filterMap_cons_none hm, List.nil_append]
    | some call =>
      rw [List.filterMap_cons_some hm, Call.replies]
      cases m with
      | call c =>
        cases hm
        show Actor.posts (p.take call).2 ++ Call.replies (p.take call).1.document _ = _
        rw [posts_take, document_take]
      | _ => cases hm

/-! ## Disposal -/

/-- A session that has come to its end leaves nobody waiting. -/
theorem Accounted.answers_of_end {events : List Event} (h : p.Accounted events)
    (hsteady : p.actor.Steady) {m : Move} {ms : List Move} (hover : (p.move m).1.Over)
    (hinbox : ((p.move m).1.moves ms).1.inbox = []) :
    ∃ failed : Option (Nat × RuntimeError), ∀ call < p.calls,
      call ∉ (Actor.answers events).map Prod.fst →
      (call, .ok ()) ∈ Actor.answers (p.moves (m :: ms)).2 ∨
        ∃ e, failed = some (call, e) ∧
          (call, .error (.session (.runtime e))) ∈ Actor.answers (p.moves (m :: ms)).2 := by
  obtain hactor | ⟨c, cs, rfl, hcs, hactor⟩ := actor_move p m
  · have hlasts := hsteady.active
    rw [← hactor] at hlasts
    exact absurd (hover.stopped.symm.trans hlasts) (by decide)
  · have hend : (p.actor.step c).1.isStopped = true := hactor ▸ hover.stopped
    obtain ⟨failed, hclears⟩ := hsteady.clears_step hend
    obtain ⟨_, hrest, _, hevents⟩ := obey_step hcs
    refine ⟨failed, fun call hlt hnot => ?_⟩
    have hwaits : call ∈ p.waiting := by
      have hmem := h.calls.mem_iff.mpr (List.mem_range.mpr hlt)
      exact (List.mem_append.mp hmem).resolve_left hnot
    rw [moves_cons]
    dsimp only
    rw [Actor.answers_append]
    simp only [List.mem_append]
    -- What waits is answered by the command that ends the session, or it comes later.
    have hsplit : call ∈ (Actor.answers (p.actor.step c).2).map Prod.fst ∨
        call ∈ cs.filterMap Command.call? := by
      have hcalls := Actor.calls_step hsteady.tidy c
      rw [Actor.tidy_step hsteady.tidy c (.inr hend), List.map_nil, List.append_nil] at hcalls
      rw [hcalls]
      unfold waiting at hwaits
      rwa [hcs, Actor.calls_cons, ← List.append_assoc, List.mem_append] at hwaits
    rcases hsplit with hnow | hlater
    · obtain ⟨answer, hanswer, rfl⟩ := List.mem_map.mp hnow
      have hmem : answer ∈ Actor.answers (p.move .obey).2 := by
        show answer ∈ Actor.answers p.obey.2
        rwa [hevents]
      rcases hclears answer hanswer with hok | ⟨e, hfailed, herror⟩
      · exact .inl (.inl (hok ▸ hmem))
      · exact .inr ⟨e, hfailed, .inl (herror ▸ hmem)⟩
    · have hsent : call ∈ (p.move .obey).1.inbox.filterMap Command.call? := by
        show call ∈ p.obey.1.inbox.filterMap Command.call?
        rwa [hrest]
      refine .inl (.inr ((hover.answers_moves ms (.inl hsent)).resolve_right fun hmem => ?_))
      rw [hinbox] at hmem
      cases hmem

theorem state?_eq_none_iff : p.state? = none ↔ p.actor.isStopped = true := by
  unfold state?
  split
  · rename_i hs
    exact ⟨fun _ => hs, fun _ => rfl⟩
  · rename_i hs
    exact ⟨nofun, fun h => absurd h hs⟩

theorem over_of_still {liveDefault : Bool} {before : List Move}
    (hstill : ((new liveDefault).moves before).1.Still)
    (hend : .call .dispose ∈ before ∨ failures ((new liveDefault).moves before).2 ≠ []) :
    ((new liveDefault).moves before).1.Over := by
  have hstopped := hstill.stopped (doomed_moves hend)
  exact ⟨hstopped, ((coherent_new liveDefault).moves before).shut (.inl hstopped)⟩

/-- The end of a preview is final. In any order of moves: when neither party can move after the preview was
disposed of or its story has failed, every call that waited when the session ended has been answered,
with an error at most the one that the story failed. From then on, whatever is called and in whatever
order the parties move, nothing is compiled and no state is posted, there is no state, the display is
not ready and a report that it is has no effect; and both parties come to rest, when all actions sent
have been answered without an error, and every call once. -/
theorem final_of_moves {liveDefault : Bool} {before : List Move}
    (hstill : ((new liveDefault).moves before).1.Still)
    (hend : .call .dispose ∈ before ∨ failures ((new liveDefault).moves before).2 ≠ []) :
    (∀ earlier m later, before = earlier ++ m :: later →
      let p := ((new liveDefault).moves earlier).1
      p.state? ≠ none → (p.move m).1.state? = none →
      ∃ failed : Option (Nat × RuntimeError), ∀ call < p.calls,
        call ∉ (Actor.answers ((new liveDefault).moves earlier).2).map Prod.fst →
        (call, .ok ()) ∈ Actor.answers (p.moves (m :: later)).2 ∨
          ∃ e, failed = some (call, e) ∧
            (call, .error (.session (.runtime e))) ∈ Actor.answers (p.moves (m :: later)).2) ∧
    ∀ after : List Move,
      let p := ((new liveDefault).moves before).1
      let r := p.moves after
      begun r.2 = [] ∧ (∀ s, .updateState s ∉ Actor.posts r.2) ∧
      r.1.state? = none ∧ r.1.isReady = false ∧ r.1.ready = (r.1, false) ∧
      (∀ compile, ∃ n, (r.1.moves (.coordinate compile :: .replicate n .obey)).1.Still) ∧
      (r.1.Still →
        (∀ d ∈ Call.pending true p.calls (after.filterMap Move.call?),
          (d.2, .ok ()) ∈ Actor.answers r.2) ∧
        ((Actor.answers (((new liveDefault).moves before).2 ++ r.2)).map Prod.fst).Perm
          (List.range r.1.calls)) := by
  have hover := over_of_still hstill hend
  refine ⟨?_, fun after => ?_⟩
  · rintro earlier m later rfl p hlasts hends
    have hactive : p.actor.isStopped = false :=
      Bool.not_eq_true _ ▸ fun hs => hlasts (state?_eq_none_iff.mpr hs)
    have hcoherent := (coherent_new liveDefault).moves earlier
    have hstopped := state?_eq_none_iff.mp hends
    have hended : (p.move m).1.Over := ⟨hstopped, (hcoherent.move m).shut (.inl hstopped)⟩
    have hinbox : ((p.move m).1.moves later).1.inbox = [] := by
      have hnothing := hstill.inbox
      rwa [moves_append, moves_cons] at hnothing
    exact (accounted_moves liveDefault earlier).answers_of_end (hcoherent.actor hactive).1 hended
      hinbox
  · intro p r
    have hr : r.1.Over := hover.moves after
    refine ⟨hover.begun_moves after, fun s => ?_, if_pos hr.stopped, ?_, ?_, hr.exists_still, ?_⟩
    · rw [hover.posts_moves after]
      exact Call.updateState_not_mem_replies _ _ s
    · rw [isReady, hr.gate]
      rfl
    · exact ready_of_gate (by rw [hr.gate]; decide)
    · intro hrest
      have haccounted := (accounted_moves liveDefault before).moves after
      have hwaiting : r.1.waiting = [] := by
        unfold waiting
        rw [haccounted.tidy (.inr hr.stopped), hrest.inbox]
        rfl
      refine ⟨fun d hd => ?_, ?_⟩
      · refine (hover.answers_moves after (.inr (List.mem_map_of_mem hd))).resolve_right fun hmem => ?_
        rw [hrest.inbox] at hmem
        cases hmem
      · have hcalls := haccounted.calls
        rwa [hwaiting, List.append_nil] at hcalls

theorem still_of_stopped (hphase : p.phase = .stopped) (hinbox : p.inbox.isEmpty = true) : p.Still :=
  ⟨List.isEmpty_iff.mp hinbox, coordinate_of_stopped hphase⟩

/-- The story of the roundabout, whatever the text, with a budget that does not take its reader round. -/
def spin (_ : String) : CompileResult := .ok (.ofStory .roundabout 4)

/-- A story is announced, and three actions wait for it, of which the second goes round; a fourth is under
way when it has been compiled. -/
def toSquall : List Move :=
  [.call (.newStory "A fork."), .coordinate spin, .obey,
    .call (.dispatch (.toggleLiveUpdate false)), .call (.dispatch (.selectChoice 0)),
    .call (.dispatch (.selectChoice 1)), .obey, .obey, .obey,
    .call .ready, .coordinate spin, .call (.dispatch .start)]

/-- The actor takes the story, on which the second action fails, and then the fourth action. -/
def throughSquall : List Move := [.obey, .obey, .coordinate spin]

/-- Another story, a report that the display is ready, and another action. -/
def pastSquall : List Move :=
  [.call (.newStory "A harbor."), .call .ready, .coordinate spin, .call (.dispatch .start), .obey]

theorem final_of_moves_squall :
    let p := ((new true).moves (toSquall ++ throughSquall)).1
    let r := p.moves pastSquall
    p.Still ∧ failures ((new true).moves (toSquall ++ throughSquall)).2 = [.stepLimit 4] ∧
      Actor.answers ((new true).moves toSquall).2 = [] ∧
      (∃ failed : Option (Nat × RuntimeError), ∀ call < 4,
        (call, .ok ()) ∈ Actor.answers (((new true).moves toSquall).1.moves throughSquall).2 ∨
          ∃ e, failed = some (call, e) ∧ (call, .error (.session (.runtime e))) ∈
            Actor.answers (((new true).moves toSquall).1.moves throughSquall).2) ∧
      (Actor.answers ((new true).moves (toSquall ++ throughSquall)).2).map
          (fun answer => (answer.1, answer.2.isOk)) =
        [(0, true), (1, false), (2, true), (3, true)] ∧
      begun r.2 = [] ∧ r.1.state? = none ∧ r.1.ready = (r.1, false) ∧
      (4, .ok ()) ∈ Actor.answers r.2 := by
  intro p r
  have hp : p.phase = .stopped ∧ p.inbox.isEmpty = true ∧ r.1.phase = .stopped ∧
      r.1.inbox.isEmpty = true := by decide +kernel
  obtain ⟨hphase, hempty, hphase', hempty'⟩ := hp
  have hfailures : failures ((new true).moves (toSquall ++ throughSquall)).2 = [.stepLimit 4] := by
    decide +kernel
  have hbefore : Actor.answers ((new true).moves toSquall).2 = [] :=
    List.eq_nil_of_length_eq_zero (by decide +kernel)
  have hstill : p.Still := still_of_stopped hphase hempty
  obtain ⟨hwaited, hafter⟩ := final_of_moves hstill (.inr (by rw [hfailures]; exact nofun))
  have hcalls := hwaited toSquall .obey [.obey, .coordinate spin] rfl (by decide +kernel)
    (by decide +kernel)
  obtain ⟨hbegun, _, hstate, _, hready, _, hanswers⟩ := hafter pastSquall
  refine ⟨hstill, hfailures, hbefore, ?_, by decide +kernel, hbegun, hstate, hready, ?_⟩
  · obtain ⟨failed, hcalls⟩ := hcalls
    refine ⟨failed, fun call hlt => hcalls call hlt ?_⟩
    rw [hbefore]
    exact nofun
  · exact (hanswers (still_of_stopped hphase' hempty')).1 (.start, 4) (by decide +kernel)

/-! ## Silence -/

/-- A disposed preview posts nothing of itself. In any order of moves: what it posts from the time on when
neither party can move are the answers to the requests of its display for places in the script, each in
the last text handed over until then. So it is silent exactly if there are no such requests. -/
theorem posts_of_disposed {liveDefault : Bool} {before : List Move} (hdispose : .call .dispose ∈ before)
    (hstill : ((new liveDefault).moves before).1.Still) (after : List Move) :
    let p := ((new liveDefault).moves before).1
    let calls := after.filterMap Move.call?
    Actor.posts (p.moves after).2 = Call.replies p.document calls ∧
      (Actor.posts (p.moves after).2 = [] ↔ ∀ call ∈ calls, call.target? = none) := by
  intro p calls
  have hposts := (over_of_still hstill (.inl hdispose)).posts_moves after
  exact ⟨hposts, by rw [hposts]; exact Call.replies_eq_nil_iff⟩

/-- A story is handed over, and the preview disposed of. -/
def toHarbor : List Move :=
  [.call (.newStory "A harbor."), .call .dispose, .coordinate compileAlone, .obey, .obey]

/-- The display asks for the second line. -/
def secondLine : Call := .message "\x7b\"type\":\"jumpTo\",\"target\":\x7b\"line\":2\x7d\x7d"

theorem still_toHarbor : ((new true).moves toHarbor).1.Still := by
  have hrest : ((new true).moves toHarbor).1.phase = .stopped ∧
      ((new true).moves toHarbor).1.inbox.isEmpty = true := by decide +kernel
  exact still_of_stopped hrest.1 hrest.2

/-- The line is looked for in the new text, and nothing is posted for the text itself nor for the action
that comes with it. -/
theorem posts_of_disposed_toHarbor :
    .call .dispose ∈ toHarbor ∧ ((new true).moves toHarbor).1.Still ∧
      Actor.posts (((new true).moves toHarbor).1.moves
        [.call secondLine, .call (.edit "A harbor.\nA quay."), .coordinate compileAlone,
          .call (.dispatch .start), .obey, .call secondLine]).2 =
        [.navigationFailed "line 2 is outside the document (1 lines)", .revealPosition ⟨2, 1⟩] := by
  have hdispose : .call .dispose ∈ toHarbor := by simp [toHarbor]
  refine ⟨hdispose, still_toHarbor, ?_⟩
  rw [(posts_of_disposed hdispose still_toHarbor _).1]
  decide +kernel

/-- So a disposed preview is not always silent. -/
theorem not_forall_posts_of_disposed :
    ¬ ∀ (before after : List Move), .call .dispose ∈ before → ((new true).moves before).1.Still →
      .call .dispose ∉ after → Actor.posts (((new true).moves before).1.moves after).2 = [] := by
  intro h
  have hsilent := h toHarbor [.call secondLine] (by simp [toHarbor]) still_toHarbor (by simp [secondLine])
  revert hsilent
  decide +kernel

end Preview

end StoryPreview
