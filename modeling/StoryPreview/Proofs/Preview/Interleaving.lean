import StoryPreview.Proofs.Preview.Rest
/-!
Moves of a preview in any order. A call need not wait until the parties are at rest, and they need not take
turns: the coordinator runs until it has to wait, the actor takes one command at a time, and a compile may
last as long as it likes. The inbox has room for any number of commands. Calls after each of which both
come to rest are one such order (`exists_moves_play`).

Whatever the order, `Coherent` ties what the coordinator remembers to the compiles that have begun, and the
flag that it watches to the one of the session.
-/
namespace StoryPreview

/-- What can happen next. -/
inductive Move
  | call (c : Call)
  /-- The coordinator runs until it has to wait. -/
  | coordinate (compile : String → CompileResult)
  /-- The actor takes its next command. -/
  | obey
  /-- From now on a compile takes long, or it does not. -/
  | hold (held : Bool)

/-- The call that is made with a move. -/
def Move.call? : Move → Option Call
  | .call c => some c
  | _ => none

namespace Preview

/-- Lets the actor take its next command. -/
def obey (p : Preview) : Preview × List Event :=
  match p.inbox with
  | [] => (p, [])
  | c :: cs =>
    let (q, events) := { p with inbox := [c] }.deliver
    ({ q with inbox := cs }, events)

def move (p : Preview) : Move → Preview × List Event
  | .call c => p.take c
  | .coordinate compile => p.coordinate compile
  | .obey => p.obey
  | .hold held => ({ p with held }, [])

def moves (p : Preview) : List Move → Preview × List Event
  | [] => (p, [])
  | m :: ms =>
    let (p, events) := p.move m
    let (p, more) := p.moves ms
    (p, events ++ more)

/-- Neither party can move, and no compile is under way. -/
structure Rests (p : Preview) : Prop where
  inbox : p.inbox = []
  held : p.held = false
  coordinator : ∀ compile, p.coordinate compile = (p, [])

variable {compile : String → CompileResult} {p : Preview}

theorem Idle.rests (hi : p.Idle) (h : p.Running) : p.Rests := ⟨hi.inbox, h.held, hi.coordinate h⟩

theorem moves_cons (p : Preview) (m : Move) (ms : List Move) :
    p.moves (m :: ms) =
      (((p.move m).1.moves ms).1, (p.move m).2 ++ ((p.move m).1.moves ms).2) := rfl

theorem moves_append (p : Preview) (ms ns : List Move) :
    p.moves (ms ++ ns) =
      (((p.moves ms).1.moves ns).1, (p.moves ms).2 ++ ((p.moves ms).1.moves ns).2) := by
  induction ms generalizing p with
  | nil => rfl
  | cons m ms ih => rw [List.cons_append, moves_cons, moves_cons, ih, List.append_assoc]

/-! ## The moves of a run -/

/-- Once the session has ended, nobody waits for the display any more. -/
def Shut (p : Preview) : Prop := p.actor.isStopped = true → p.gate = .closed

theorem shut_deliver (p : Preview) : p.deliver.1.Shut := fun h => if_pos h

theorem Shut.take (h : p.Shut) (call : Call) : (p.take call).1.Shut := by
  have htakes := takes_take p call
  generalize (p.take call).1 = q at htakes
  cases htakes with
  | ready _ _ => exact fun hs => by rw [h hs]; rfl
  | dispose => exact fun _ => rfl
  | source _ _ | dispatch _ _ | answer _ _ => exact h

theorem Shut.coordinate (h : p.Shut) (compile : String → CompileResult) :
    (p.coordinate compile).1.Shut := by
  have hkeeps := keeps_coordinate compile p
  intro hs
  rw [hkeeps.actor] at hs
  rw [hkeeps.gate]
  exact h hs

theorem watchLive_append (live changed : Bool) (es fs : List Event) :
    watchLive live changed (es ++ fs) =
      watchLive (watchLive live changed es).1 (watchLive live changed es).2 fs := by
  induction es generalizing live changed with
  | nil => rfl
  | cons e es ih =>
    cases e with
    | posted m =>
      cases m with
      | updateState s => exact ih _ _
      | _ => exact ih _ _
    | _ => exact ih _ _

theorem obey_of_nil (h : p.inbox = []) : p.obey = (p, []) := by
  unfold obey
  rw [h]

theorem obey_of_cons {c : Command} {cs : List Command} (h : p.inbox = c :: cs) :
    p.obey =
      ({ p with
        actor := (p.actor.run [c]).1
        inbox := cs
        live := (watchLive p.live p.liveChanged (p.actor.run [c]).2).1
        liveChanged := (watchLive p.live p.liveChanged (p.actor.run [c]).2).2
        gate := if (p.actor.run [c]).1.isStopped then .closed else p.gate },
        (p.actor.run [c]).2) := by
  unfold obey
  rw [h]
  rfl

/-- The actor takes all its commands as it takes one after another. -/
theorem deliver_of_cons {c : Command} {cs : List Command} (h : p.inbox = c :: cs) :
    p.deliver = (p.obey.1.deliver.1, p.obey.2 ++ p.obey.1.deliver.2) := by
  have hrun : p.actor.run (c :: cs) =
      (((p.actor.run [c]).1.run cs).1, (p.actor.run [c]).2 ++ ((p.actor.run [c]).1.run cs).2) :=
    Actor.run_append p.actor [c] cs
  rw [obey_of_cons h]
  unfold deliver
  dsimp only
  rw [h, hrun]
  dsimp only
  rw [watchLive_append]
  have hgate : (if ((p.actor.run [c]).1.run cs).1.isStopped = true then Gate.closed else p.gate) =
      if ((p.actor.run [c]).1.run cs).1.isStopped = true then Gate.closed
      else if (p.actor.run [c]).1.isStopped = true then Gate.closed else p.gate := by
    by_cases hs : ((p.actor.run [c]).1.run cs).1.isStopped = true
    · rw [if_pos hs, if_pos hs]
    · have hactive := Actor.active_of_run (Bool.not_eq_true _ ▸ hs)
      rw [if_neg hs, if_neg hs, if_neg (by simp [hactive])]
  rw [← hgate]

theorem moves_obey (h : p.Shut) : p.moves (.replicate p.inbox.length .obey) = p.deliver := by
  generalize hcs : p.inbox = cs
  induction cs generalizing p with
  | nil =>
    have hgate : (if p.actor.isStopped = true then Gate.closed else p.gate) = p.gate := by
      by_cases hs : p.actor.isStopped = true
      · rw [if_pos hs, h hs]
      · rw [if_neg hs]
    show (p, []) = p.deliver
    unfold deliver
    rw [hcs]
    dsimp only [Actor.run, watchLive]
    rw [hgate, ← hcs]
  | cons c cs ih =>
    rw [List.length_cons, List.replicate_succ, moves_cons]
    have hobey : (p.move .obey).1.inbox = cs := by
      show p.obey.1.inbox = cs
      rw [obey_of_cons hcs]
    have hshut : (p.move .obey).1.Shut := by
      show p.obey.1.Shut
      rw [obey_of_cons hcs]
      exact fun hs => if_pos hs
    rw [ih hshut hobey, deliver_of_cons hcs]
    rfl

theorem Shut.moves_round (h : p.Shut) (compile : String → CompileResult) :
    ∃ ms : List Move, p.moves ms = p.round compile ∧ ms.filterMap Move.call? = [] := by
  refine ⟨.coordinate compile :: .replicate (p.coordinate compile).1.inbox.length .obey, ?_, ?_⟩
  · rw [moves_cons]
    dsimp only [move]
    rw [moves_obey (h.coordinate compile)]
    rfl
  · simp [Move.call?]

theorem Shut.moves_settle (h : p.Shut) (compile : String → CompileResult) :
    ∃ ms : List Move, p.moves ms = p.settle compile ∧ ms.filterMap Move.call? = [] := by
  obtain ⟨first, hfirst, hnone₁⟩ := h.moves_round compile
  obtain ⟨second, hsecond, hnone₂⟩ := (shut_deliver (p.coordinate compile).1).moves_round compile
  obtain ⟨third, hthird, hnone₃⟩ :=
    (shut_deliver ((p.round compile).1.coordinate compile).1).moves_round compile
  refine ⟨first ++ second ++ third, ?_, ?_⟩
  · rw [moves_append, moves_append, hfirst]
    have hsecond : (p.round compile).1.moves second = (p.round compile).1.round compile := hsecond
    rw [hsecond]
    exact congrArg (fun r : Preview × List Event => (r.1, _ ++ r.2)) hthird
  · rw [List.filterMap_append, List.filterMap_append, hnone₁, hnone₂, hnone₃]
    rfl

theorem shut_settle (compile : String → CompileResult) (p : Preview) :
    (p.settle compile).1.Shut :=
  shut_deliver (((p.round compile).1.round compile).1.coordinate compile).1

theorem Shut.moves_play (h : p.Shut) (steps : List (Call × (String → CompileResult))) :
    ∃ ms : List Move, p.moves ms = p.play steps ∧ ms.filterMap Move.call? = steps.map Prod.fst := by
  induction steps generalizing p with
  | nil => exact ⟨[], rfl, rfl⟩
  | cons step steps ih =>
    obtain ⟨call, compile⟩ := step
    obtain ⟨ms, hms, hnone⟩ := (h.take call).moves_settle compile
    have hperform : p.perform compile call =
        (((p.take call).1.moves ms).1, (p.take call).2 ++ ((p.take call).1.moves ms).2) := by
      rw [hms]
      rfl
    have hshut : (p.perform compile call).1.Shut := by
      rw [hperform, hms]
      exact shut_settle compile (p.take call).1
    obtain ⟨rest, hrest, hcalls⟩ := ih hshut
    refine ⟨.call call :: (ms ++ rest), ?_, ?_⟩
    · rw [play_cons, ← hrest, hperform, moves_cons, moves_append, List.append_assoc]
      rfl
    · show call :: (ms ++ rest).filterMap Move.call? = _
      rw [List.filterMap_append, hnone, hcalls]
      rfl

/-- Calls after each of which both parties come to rest are one order of moves, and as long as the session
lasts it leads to a point of rest. -/
theorem exists_moves_play (liveDefault : Bool) (steps : List (Call × (String → CompileResult))) :
    ∃ ms : List Move, (new liveDefault).moves ms = (new liveDefault).play steps ∧
      ms.filterMap Move.call? = steps.map Prod.fst ∧
      (((new liveDefault).play steps).1.actor.isStopped = false →
        ((new liveDefault).play steps).1.Rests) := by
  have hshut : (new liveDefault).Shut := fun hs => by cases hs
  obtain ⟨ms, hms, hcalls⟩ := hshut.moves_play steps
  refine ⟨ms, hms, hcalls, fun ha => ?_⟩
  obtain ⟨hrun, hidle⟩ := (running_new liveDefault).play (idle_new liveDefault) ha
  exact hidle.rests hrun

/-! ## Whatever the order -/

/-- What the coordinator remembers of the sources whose compiles have begun, `bs`, and what holds of the
session as long as it lasts. -/
structure Coherent (p : Preview) (bs : List Source) : Prop where
  actor : p.actor.isStopped = false →
    p.actor.Steady ∧ p.live = p.actor.session.state.liveUpdate
  shut : p.actor.isStopped = true ∨ p.phase = .stopped → p.gate = .closed
  announced : p.phase = .awaitingReady → p.source.isSome = true
  compiled : p.phase = .watching →
    p.compiled = bs.getLast?.map fun s => ⟨s.epoch, .ofText s.text⟩
  compiling : ∀ s, p.phase = .compiling s → bs.getLast? = some s
  handed : bs ≠ [] → p.source.isSome = true
  /-- Epochs do not fall. -/
  latest : ∀ s ∈ bs, ∃ last, bs.getLast? = some last ∧ s.epoch ≤ last.epoch ∧ last.epoch ≤ p.epoch

theorem coherent_new (liveDefault : Bool) : (new liveDefault).Coherent [] where
  actor := fun _ => ⟨Actor.steady_new liveDefault, rfl⟩
  shut := fun h => by
    obtain h | h := h
    · cases h
    · cases h
  announced := fun h => by cases h
  compiled := fun _ => rfl
  compiling := fun _ h => by cases h
  handed := fun h => absurd rfl h
  latest := by simp

variable {bs : List Source}

theorem Coherent.take (h : p.Coherent bs) (call : Call) : (p.take call).1.Coherent bs := by
  have htakes := takes_take p call
  generalize (p.take call).1 = q at htakes
  cases htakes with
  | source htext hready =>
    refine { h with announced := fun _ => rfl, handed := fun _ => rfl, latest := fun s hs => ?_ }
    obtain ⟨last, hlast, hle, hepoch⟩ := h.latest s hs
    exact ⟨last, hlast, hle, Nat.le_trans hepoch (Nat.le_add_right _ _)⟩
  | ready htext hready => exact { h with shut := fun hs => by rw [h.shut hs]; rfl }
  | dispatch htext hready => exact { h with }
  | answer htext hready => exact { h with }
  | dispose => exact { h with shut := fun _ => rfl }

theorem Coherent.obey (h : p.Coherent bs) : p.obey.1.Coherent bs := by
  cases hinbox : p.inbox with
  | nil => rwa [obey_of_nil hinbox]
  | cons c cs =>
    rw [obey_of_cons hinbox]
    refine { h with actor := fun ha => ?_, shut := fun hs => ?_ }
    · obtain ⟨hsteady, hlive⟩ := h.actor (Actor.active_of_run ha)
      obtain ⟨hsteady', _, shown, hposts, hlast⟩ := hsteady.run ha
      refine ⟨hsteady', ?_⟩
      dsimp only
      rw [watchLive_fst hposts, hlive, ← hlast]
      cases shown.getLast? <;> rfl
    · dsimp only at hs ⊢
      by_cases hstopped : (p.actor.run [c]).1.isStopped = true
      · rw [if_pos hstopped]
      · rw [if_neg hstopped]
        exact h.shut (.inr (hs.resolve_left hstopped))

theorem Coherent.stop (h : p.Coherent bs) (hgate : p.gate = .closed) :
    ({ p with phase := .stopped } : Preview).Coherent bs where
  actor := h.actor
  shut := fun _ => hgate
  announced := fun hno => by cases hno
  compiled := fun hno => by cases hno
  compiling := fun _ hno => by cases hno
  handed := h.handed
  latest := h.latest

theorem Coherent.finishCompile (h : p.Coherent bs) {s : Source} (hlast : bs.getLast? = some s)
    (compile : String → CompileResult) : (finishCompile compile p s).Coherent bs where
  actor := h.actor
  shut := fun hs => h.shut (.inl (hs.resolve_right (by simp [Preview.finishCompile])))
  announced := fun hno => by cases hno
  compiled := fun _ => by rw [hlast]; rfl
  compiling := fun _ hno => by cases hno
  handed := h.handed
  latest := h.latest

/-- A compile of the latest source begins. -/
theorem Coherent.begin (h : p.Coherent bs) {s : Source} (hs : p.source = some s) :
    ({ p with phase := .compiling s } : Preview).Coherent (bs ++ [s]) where
  actor := h.actor
  shut := fun hno => h.shut (.inl (hno.resolve_right (by simp)))
  announced := fun hno => by cases hno
  compiled := fun hno => by cases hno
  compiling := fun t ht => by
    cases ht
    exact List.getLast?_concat
  handed := fun _ => by rw [hs]; rfl
  latest := fun t ht => by
    have hepoch : p.epoch = s.epoch := by
      rw [epoch, hs]
      rfl
    refine ⟨s, List.getLast?_concat, ?_, Nat.le_of_eq hepoch.symm⟩
    obtain ht | ht := List.mem_append.mp ht
    · obtain ⟨last, _, hle, hlast⟩ := h.latest t ht
      omega
    · exact Nat.le_of_eq (congrArg Source.epoch (List.mem_singleton.mp ht))

theorem Coherent.beginCompile (h : p.Coherent bs) (hs : p.source.isSome = true)
    (compile : String → CompileResult) :
    (p.beginCompile compile).1.Coherent (bs ++ begun (p.beginCompile compile).2) := by
  obtain ⟨s, hs⟩ := Option.isSome_iff_exists.mp hs
  have hbegin := h.begin hs
  rw [beginCompile_of_some hs]
  show Preview.Coherent (if p.held then _ else _) (bs ++ [s])
  split
  · exact { hbegin with }
  · have hfinish := hbegin.finishCompile List.getLast?_concat compile
    exact { hfinish with }

theorem Coherent.look (h : p.Coherent bs) (compile : String → CompileResult) :
    (p.look compile).1.Coherent (bs ++ begun (p.look compile).2) := by
  have hquiet (notices : List Notice) : bs ++ begun (notices.map .noticed) = bs := by
    rw [Noticed.begun ⟨notices, rfl⟩, List.append_nil]
  have hlooks := looks_look compile p
  generalize p.look compile = r at hlooks
  cases hlooks with
  | rest hv =>
    rw [hquiet]
    exact { h with }
  | announce hs hv hgate =>
    rw [begun_nil, List.append_nil]
    exact {
      actor := h.actor
      shut := fun hno => h.shut (.inl (hno.resolve_right (by simp)))
      announced := fun _ => by rw [hs]; rfl
      compiled := fun hno => by cases hno
      compiling := fun _ hno => by cases hno
      handed := h.handed
      latest := h.latest }
  | begin hs hv hgate =>
    have hannounced : ({ p with
        inbox := p.inbox ++ [.hold], sourceChanged := false, liveChanged := false } :
          Preview).Coherent bs := { h with }
    exact hannounced.beginCompile (by rw [hs]; rfl) compile
  | stop hs hv hgate =>
    unfold Preview.stop
    rw [hquiet]
    exact { h.stop hgate with }

theorem Coherent.lookIfChanged (h : p.Coherent bs) (compile : String → CompileResult) :
    (p.lookIfChanged compile).1.Coherent (bs ++ begun (p.lookIfChanged compile).2) := by
  unfold Preview.lookIfChanged
  split
  · exact h.look compile
  · rwa [begun_nil, List.append_nil]

theorem Coherent.coordinate (h : p.Coherent bs) (compile : String → CompileResult) :
    (p.coordinate compile).1.Coherent (bs ++ begun (p.coordinate compile).2) := by
  have hstop (hgate : p.gate = .closed) (notices : List Notice) :
      (p.stop notices).1.Coherent (bs ++ begun (p.stop notices).2) := by
    unfold Preview.stop
    rw [Noticed.begun ⟨_, rfl⟩, List.append_nil]
    exact h.stop hgate
  have hstay : (p, ([] : List Event)).1.Coherent (bs ++ begun (p, ([] : List Event)).2) := by
    rwa [begun_nil, List.append_nil]
  unfold Preview.coordinate
  split
  · split
    · rename_i hstopped
      exact hstop (h.shut (.inl hstopped)) []
    · exact h.lookIfChanged compile
  · rename_i hphase
    split
    · exact hstay
    · exact h.beginCompile (h.announced hphase) compile
    · rename_i hgate
      exact hstop hgate _
  · rename_i s hphase
    split
    · exact hstay
    · split
      · rename_i hstopped
        exact hstop (h.shut (.inl hstopped)) []
      · exact (h.finishCompile (h.compiling s hphase) compile).lookIfChanged compile
  · exact hstay

theorem begun_obey (p : Preview) : begun p.obey.2 = [] := by
  cases hinbox : p.inbox with
  | nil =>
    rw [obey_of_nil hinbox]
    rfl
  | cons c cs =>
    rw [obey_of_cons hinbox]
    exact Actor.begun_run p.actor [c]

theorem Coherent.move (h : p.Coherent bs) (m : Move) :
    (p.move m).1.Coherent (bs ++ begun (p.move m).2) := by
  cases m with
  | call call =>
    have htake := h.take call
    rw [← List.append_nil bs, ← begun_take p call] at htake
    exact htake
  | coordinate compile => exact h.coordinate compile
  | obey =>
    have hobey := h.obey
    rw [← List.append_nil bs, ← begun_obey p] at hobey
    exact hobey
  | hold held =>
    show ({ p with held } : Preview).Coherent (bs ++ [])
    rw [List.append_nil]
    exact { h with }

theorem Coherent.moves (h : p.Coherent bs) (ms : List Move) :
    (p.moves ms).1.Coherent (bs ++ begun (p.moves ms).2) := by
  induction ms generalizing p bs with
  | nil =>
    show p.Coherent (bs ++ [])
    rwa [List.append_nil]
  | cons m ms ih =>
    rw [moves_cons]
    dsimp only
    rw [begun_append, ← List.append_assoc]
    exact ih (h.move m)

/-- Only calls hand over texts. -/
theorem source_move (p : Preview) {m : Move} (h : m.call? = none) :
    (p.move m).1.source = p.source := by
  cases m with
  | call call => cases h
  | coordinate compile => exact (keeps_coordinate compile p).source
  | obey =>
    show p.obey.1.source = p.source
    cases hinbox : p.inbox with
    | nil => rw [obey_of_nil hinbox]
    | cons c cs => rw [obey_of_cons hinbox]
  | hold held => rfl

theorem source_moves (p : Preview) (ms : List Move) :
    HandedOver p (ms.filterMap Move.call?) (p.moves ms).1 := by
  induction ms generalizing p with
  | nil => exact ⟨rfl, rfl⟩
  | cons m ms ih =>
    rw [moves_cons]
    cases hcall : m.call? with
    | none =>
      have hrest := ih (p.move m).1
      have hsource := source_move p hcall
      rw [List.filterMap_cons_none hcall]
      exact ⟨by rw [hrest.epoch, epoch, hsource]; rfl, by rw [hrest.text, hsource]⟩
    | some call =>
      rw [List.filterMap_cons_some hcall]
      refine .cons ?_ (ih (p.move m).1)
      cases m with
      | call c =>
        cases hcall
        rfl
      | _ => cases hcall

end Preview

end StoryPreview
