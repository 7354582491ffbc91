import StoryPreview.Preview.Basic
import StoryPreview.Proofs.Preview.Upkeep
/-!
Runs of a preview: calls one after another, each followed by the moves of both parties until neither can
move.

`Turn` says everything that a turn of the coordinator can do. From it follows what holds as long as the
session lasts (`Running`), that a call may be followed by up to three rounds but never by a fourth
(`Running.settle`), and that the coordinator at rest has nothing left to compile.
-/
namespace StoryPreview

/-- What can be asked of a preview. -/
inductive Call
  | newStory (text : String)
  | edit (text : String)
  | ready
  | dispatch (a : Action)
  | message (raw : String)
  | dispose

namespace Call

/-- Whether a call reports that the display is ready. -/
def isReady : Call → Bool
  | .ready => true
  | .message raw =>
    match Inbound.decode raw with
    | .ok .ready => true
    | _ => false
  | _ => false

/-- The text of the script that a call hands over. -/
def text? : Call → Option String
  | .newStory text | .edit text => some text
  | _ => none

/-- Whether a call begins an epoch. -/
def isNewStory : Call → Bool
  | .newStory _ => true
  | _ => false

end Call

namespace Preview

/-- Takes a call. -/
def take (p : Preview) : Call → Preview × List Event
  | .newStory text => p.newStory text
  | .edit text => (p.edit text, [])
  | .ready => (p.ready.1, if p.ready.2 then [] else [.noticed .readyRepeated])
  | .dispatch a => p.dispatch a
  | .message raw => p.handleMessage raw
  | .dispose => p.dispose

/-- Takes a call and lets both parties run until neither can move. -/
def perform (compile : String → CompileResult) (p : Preview) (call : Call) :
    Preview × List Event :=
  let (p, events) := p.take call
  let (p, more) := p.settle compile
  (p, events ++ more)

/-- Takes calls one after another. What the compiler answers may change with every call. -/
def play (p : Preview) : List (Call × (String → CompileResult)) → Preview × List Event
  | [] => (p, [])
  | (call, compile) :: steps =>
    let (p, events) := p.perform compile call
    let (p, more) := p.play steps
    (p, events ++ more)

/-! ## The flag that is watched -/

/-- It is the one of the last state that was posted. -/
theorem watchLive_fst {events : List Event} {shown : List State}
    (h : Actor.posts events = shown.map .updateState) (live changed : Bool) :
    (watchLive live changed events).1 = (shown.getLast?.map State.liveUpdate).getD live := by
  induction events generalizing shown live changed with
  | nil =>
    obtain rfl : shown = [] := List.map_eq_nil_iff.mp h.symm
    rfl
  | cons e events ih =>
    cases e with
    | posted m =>
      obtain ⟨s, states, rfl, hm, hstates⟩ := List.map_eq_cons_iff.mp h.symm
      obtain rfl := hm
      rw [watchLive, ih hstates.symm, List.getLast?_cons]
      cases states.getLast? <;> rfl
    | _ => exact ih h live changed

/-- It cannot change back unnoticed. -/
theorem watchLive_unchanged {live changed : Bool} {events : List Event}
    (h : (watchLive live changed events).2 = false) :
    changed = false ∧ (watchLive live changed events).1 = live := by
  induction events generalizing live changed with
  | nil => exact ⟨h, rfl⟩
  | cons e events ih =>
    cases e with
    | posted m =>
      cases m with
      | updateState s =>
        obtain ⟨hchanged, hlive⟩ := ih (h : (watchLive s.liveUpdate _ events).2 = false)
        rw [Bool.or_eq_false_iff] at hchanged
        obtain rfl : s.liveUpdate = live := by simpa using hchanged.2
        exact ⟨hchanged.1, hlive⟩
      | _ => exact ih h
    | _ => exact ih h

/-! ## What holds as long as the session lasts -/

/-- The parties of a preview whose session lasts. -/
structure Sound (p : Preview) : Prop where
  actor : p.actor.Steady
  live : p.live = p.actor.session.state.liveUpdate
  gate : p.gate ≠ .closed
  phase : p.phase = .watching ∨ (p.phase = .awaitingReady ∧ p.source.isSome = true)
  held : p.held = false

/-- Unless there is something that it has not seen, the coordinator has nothing to compile. -/
structure Running (p : Preview) : Prop extends p.Sound where
  inbox : ∀ c ∈ p.inbox, ∃ a call, c = .dispatch a call
  seen : p.phase = .watching → p.sourceChanged = false → p.liveChanged = false →
    ∀ s, p.source = some s → verdict p.compiled p.live s ≠ .compile

/-- A coordinator that has had its turn has nothing to compile, or waits for the display. -/
structure Looked (p : Preview) : Prop extends p.Sound where
  seen : p.phase = .watching → ∀ s, p.source = some s → verdict p.compiled p.live s ≠ .compile
  waiting : p.phase = .awaitingReady → p.gate = .waiting

theorem running_new (liveDefault : Bool) : (new liveDefault).Running where
  actor := Actor.steady_new liveDefault
  live := rfl
  gate := by simp [new]
  phase := .inl rfl
  held := rfl
  inbox := by simp [new]
  seen := by simp [new]

/-! ## A turn of the coordinator -/

/-- Everything that a turn of the coordinator can do as long as the session lasts. -/
inductive Turn (compile : String → CompileResult) (p : Preview) : Preview × List Event → Prop
  /-- It has nothing to compile. -/
  | rest {notices : List Notice} (hphase : p.phase = .watching)
      (hv : ∀ s, p.source = some s → verdict p.compiled p.live s ≠ .compile) :
      Turn compile p ({ p with sourceChanged := false, liveChanged := false }, notices.map .noticed)
  /-- It goes on waiting for the display. -/
  | wait (hphase : p.phase = .awaitingReady) (hgate : p.gate = .waiting) : Turn compile p (p, [])
  /-- It announces a compile and waits for the display. -/
  | announce {s : Source} (hphase : p.phase = .watching) (hgate : p.gate = .waiting)
      (hs : p.source = some s) (hv : verdict p.compiled p.live s = .compile) :
      Turn compile p
        ({ p with
          sourceChanged := false, liveChanged := false, inbox := p.inbox ++ [.hold],
          phase := .awaitingReady }, [])
  /-- It compiles the latest source, which it announces if it has not yet done so. -/
  | compile {s : Source} {cs : List Command} {liveChanged : Bool} (hgate : p.gate = .opened)
      (hs : p.source = some s)
      (hcause : (p.phase = .watching ∧ verdict p.compiled p.live s = .compile ∧ cs = [.hold]) ∨
        (p.phase = .awaitingReady ∧ cs = [])) :
      Turn compile p
        (finishCompile compile
          { p with inbox := p.inbox ++ cs, sourceChanged := false, liveChanged := liveChanged } s,
          [.compiling s.text s.epoch])

variable {compile : String → CompileResult} {p : Preview}

theorem eq_of_seen (hs : p.sourceChanged = false) (hl : p.liveChanged = false) :
    ({ p with sourceChanged := false, liveChanged := false } : Preview) = p := by
  cases p
  simp_all

/-- Everything that a look at the latest source can come to. -/
inductive Looks (compile : String → CompileResult) (p : Preview) : Preview × List Event → Prop
  /-- There is nothing to compile. -/
  | rest {notices : List Notice}
      (hv : ∀ s, p.source = some s → verdict p.compiled p.live s ≠ .compile) :
      Looks compile p ({ p with sourceChanged := false, liveChanged := false }, notices.map .noticed)
  | announce {s : Source} (hs : p.source = some s) (hv : verdict p.compiled p.live s = .compile)
      (hgate : p.gate = .waiting) :
      Looks compile p
        ({ p with
          sourceChanged := false, liveChanged := false, inbox := p.inbox ++ [.hold],
          phase := .awaitingReady }, [])
  | begin {s : Source} (hs : p.source = some s) (hv : verdict p.compiled p.live s = .compile)
      (hgate : p.gate = .opened) :
      Looks compile p
        (beginCompile compile
          { p with inbox := p.inbox ++ [.hold], sourceChanged := false, liveChanged := false })
  | stop {s : Source} (hs : p.source = some s) (hv : verdict p.compiled p.live s = .compile)
      (hgate : p.gate = .closed) :
      Looks compile p
        (stop { p with inbox := p.inbox ++ [.hold], sourceChanged := false, liveChanged := false }
          [.displayNeverReady])

theorem looks_look (compile : String → CompileResult) (p : Preview) :
    Looks compile p (p.look compile) := by
  unfold look
  dsimp only
  split
  · rename_i hs
    exact @Looks.rest compile p [] (by simp [hs])
  · rename_i s hs
    split
    · rename_i hv
      split
      · rename_i hgate
        exact .announce hs hv hgate
      · rename_i hgate
        exact .begin hs hv hgate
      · rename_i hgate
        exact .stop hs hv hgate
    · rename_i hv
      refine .rest fun t ht => ?_
      cases hs.symm.trans ht
      exact hv

theorem beginCompile_of_some {s : Source} (hs : p.source = some s)
    (compile : String → CompileResult) :
    p.beginCompile compile =
      (if p.held then { p with sourceChanged := false, phase := .compiling s }
        else finishCompile compile { p with sourceChanged := false } s,
        [.compiling s.text s.epoch]) := by
  unfold beginCompile
  split
  · rename_i hnone
    cases hs.symm.trans hnone
  · rename_i t ht
    cases hs.symm.trans ht
    rfl

theorem beginCompile_eq {s : Source} (hs : p.source = some s) (hheld : p.held = false)
    (compile : String → CompileResult) :
    p.beginCompile compile =
      (finishCompile compile { p with sourceChanged := false } s, [.compiling s.text s.epoch]) := by
  rw [beginCompile_of_some hs, if_neg (by simp [hheld])]

theorem coordinate_of_watching (hphase : p.phase = .watching) (ha : p.actor.isStopped = false)
    (compile : String → CompileResult) : p.coordinate compile = p.lookIfChanged compile := by
  unfold coordinate
  rw [hphase]
  dsimp only
  rw [if_neg (by simp [ha])]

theorem lookIfChanged_of_seen (hs : p.sourceChanged = false) (hl : p.liveChanged = false)
    (compile : String → CompileResult) : p.lookIfChanged compile = (p, []) := by
  rw [lookIfChanged, if_neg (by simp [hs, hl])]

theorem Running.turn_look (h : p.Running) (hphase : p.phase = .watching)
    (compile : String → CompileResult) : Turn compile p (p.look compile) := by
  have hlooks := looks_look compile p
  generalize p.look compile = r at hlooks
  cases hlooks with
  | rest hv => exact .rest hphase hv
  | announce hs hv hgate => exact .announce hphase hgate hs hv
  | begin hs hv hgate =>
    have hbegin := beginCompile_eq (p := { p with
      inbox := p.inbox ++ [.hold], sourceChanged := false, liveChanged := false }) hs h.held compile
    rw [hbegin]
    exact .compile hgate hs (.inl ⟨hphase, hv, rfl⟩)
  | stop hs hv hgate => exact absurd hgate h.gate

theorem Running.turn (h : p.Running) (compile : String → CompileResult) :
    Turn compile p (p.coordinate compile) := by
  obtain hphase | ⟨hphase, hsource⟩ := h.phase
  · rw [coordinate_of_watching hphase h.actor.active, lookIfChanged]
    cases hchanged : p.sourceChanged || p.liveChanged with
    | false =>
      obtain ⟨hs, hl⟩ := Bool.or_eq_false_iff.mp hchanged
      have hrest := @Turn.rest compile p [] hphase (h.seen hphase hs hl)
      rwa [eq_of_seen hs hl] at hrest
    | true => exact h.turn_look hphase compile
  · unfold coordinate
    rw [hphase]
    dsimp only
    split
    · rename_i hgate
      exact .wait hphase hgate
    · rename_i hgate
      obtain ⟨s, hs⟩ := Option.isSome_iff_exists.mp hsource
      have hbegin := @Turn.compile compile p s [] p.liveChanged hgate hs (.inr ⟨hphase, rfl⟩)
      rw [List.append_nil] at hbegin
      rwa [beginCompile_eq hs h.held]
    · rename_i hgate
      exact absurd hgate h.gate

/-- What was compiled last need not be compiled again, whatever the flag. -/
theorem verdict_self (live : Bool) (s : Source) :
    verdict (some ⟨s.epoch, .ofText s.text⟩) live s ≠ .compile := by
  cases live <;> simp [verdict]

theorem Running.looked (h : p.Running) {r : Preview × List Event} (hturn : Turn compile p r) :
    r.1.Looked := by
  cases hturn with
  | rest hphase hv =>
    exact { actor := h.actor, live := h.live, gate := h.gate, phase := .inl hphase, held := h.held
            seen := fun _ => hv
            waiting := fun hno => by cases hphase.symm.trans hno }
  | wait hphase hgate =>
    exact { h.toSound with
            seen := fun hno => by cases hphase.symm.trans hno
            waiting := fun _ => hgate }
  | announce hphase hgate hs hv =>
    exact { actor := h.actor, live := h.live, gate := h.gate
            phase := .inr ⟨rfl, by simp [hs]⟩, held := h.held
            seen := fun hno => by cases hno
            waiting := fun _ => hgate }
  | @compile s cs liveChanged hgate hs hcause =>
    exact { actor := h.actor, live := h.live, gate := h.gate, phase := .inl rfl, held := h.held
            seen := fun _ t ht => by
              cases hs.symm.trans ht
              exact verdict_self p.live s
            waiting := fun hno => by cases hno }

/-! ## A round -/

/-- No command is under way, and the coordinator waits for the display only if it is not ready. -/
structure Calm (p : Preview) : Prop where
  inbox : p.inbox = []
  waiting : p.phase = .awaitingReady → p.gate = .waiting

/-- Neither party can move. -/
structure Idle (p : Preview) : Prop extends p.Calm where
  seen : p.phase = .watching → p.sourceChanged = false ∧ p.liveChanged = false

theorem deliver_of_active (ha : p.deliver.1.actor.isStopped = false) :
    p.deliver =
      ({ p with
        actor := (p.actor.run p.inbox).1
        inbox := []
        live := (watchLive p.live p.liveChanged (p.actor.run p.inbox).2).1
        liveChanged := (watchLive p.live p.liveChanged (p.actor.run p.inbox).2).2 },
        (p.actor.run p.inbox).2) := by
  have hactive : ¬(p.actor.run p.inbox).1.isStopped = true := by
    rw [Bool.not_eq_true]
    exact ha
  unfold deliver
  dsimp only
  rw [if_neg hactive]

/-- The actor takes its commands and the flag that is watched follows. A change of the flag is something
to look at. -/
theorem Looked.deliver (h : p.Looked) (ha : p.deliver.1.actor.isStopped = false) :
    p.deliver.1.Running ∧ p.deliver.1.Calm := by
  obtain ⟨hsteady, _, shown, hposts, hlast⟩ := h.actor.run ha
  have hlive : (watchLive p.live p.liveChanged (p.actor.run p.inbox).2).1 =
      (p.actor.run p.inbox).1.session.state.liveUpdate := by
    rw [watchLive_fst hposts, h.live, ← hlast]
    cases shown.getLast? <;> rfl
  rw [deliver_of_active ha]
  constructor
  · exact { actor := hsteady, live := hlive, gate := h.gate, phase := h.phase, held := h.held
            inbox := by simp
            seen := fun hphase _ hunchanged s hs => by
              -- An unchanged flag is the one that the coordinator has looked at.
              dsimp only at hunchanged ⊢
              rw [(watchLive_unchanged hunchanged).2]
              exact h.seen hphase s hs }
  · exact ⟨rfl, h.waiting⟩

/-- A round leaves a preview that can go on. -/
theorem Running.round (h : p.Running) (compile : String → CompileResult)
    (ha : (p.round compile).1.actor.isStopped = false) :
    (p.round compile).1.Running ∧ (p.round compile).1.Calm :=
  (h.looked (h.turn compile)).deliver ha

theorem deliver_of_nil (h : p.inbox = []) (ha : p.actor.isStopped = false) :
    p.deliver = (p, []) := by
  have hactive : p.deliver.1.actor.isStopped = false := by
    unfold deliver
    rw [h]
    exact ha
  rw [deliver_of_active hactive, h]
  simp only [Actor.run, watchLive, ← h]

theorem Idle.coordinate (hi : p.Idle) (h : p.Running) (compile : String → CompileResult) :
    p.coordinate compile = (p, []) := by
  obtain hphase | ⟨hphase, _⟩ := h.phase
  · obtain ⟨hs, hl⟩ := hi.seen hphase
    rw [coordinate_of_watching hphase h.actor.active, lookIfChanged_of_seen hs hl]
  · unfold Preview.coordinate
    rw [hphase]
    dsimp only
    rw [hi.waiting hphase]

/-- A preview at rest stays at rest. -/
theorem Idle.round (hi : p.Idle) (h : p.Running) (compile : String → CompileResult) :
    p.round compile = (p, []) := by
  unfold Preview.round
  rw [hi.coordinate h]
  dsimp only
  rw [deliver_of_nil hi.inbox h.actor.active]
  rfl

/-! ## Until neither can move -/

/-- The latest source is the one compiled last. -/
def UpToDate (p : Preview) : Prop :=
  ∀ live s, p.source = some s → verdict p.compiled live s ≠ .compile

/-- A turn that compiles nothing and sends nothing leads to rest. -/
theorem idle_deliver {q : Preview} (h : q.Looked) (hinbox : q.inbox = [])
    (hseen : q.phase = .watching → q.sourceChanged = false ∧ q.liveChanged = false) :
    q.deliver.1.Idle := by
  rw [deliver_of_nil hinbox h.actor.active]
  exact { inbox := hinbox, waiting := h.waiting, seen := hseen }

/-- Once no command is under way, a round leads to rest or compiles the latest source. -/
theorem Running.round_of_calm (h : p.Running) (hcalm : p.Calm)
    (ha : (p.round compile).1.actor.isStopped = false) :
    (p.round compile).1.Idle ∨
      ((p.round compile).1.phase = .watching ∧ (p.round compile).1.UpToDate) := by
  have hturn := h.turn compile
  have hlooked := h.looked hturn
  unfold Preview.round at ha ⊢
  dsimp only at ha ⊢
  generalize p.coordinate compile = r at ha hturn hlooked
  cases hturn with
  | rest hphase hv => exact .inl (idle_deliver hlooked hcalm.inbox fun _ => ⟨rfl, rfl⟩)
  | wait hphase hgate =>
    exact .inl (idle_deliver hlooked hcalm.inbox fun hno => by cases hphase.symm.trans hno)
  | announce hphase hgate hs hv =>
    refine .inl { (hlooked.deliver ha).2 with seen := fun hno => ?_ }
    rw [deliver_of_active ha] at hno
    cases hno
  | @compile s cs liveChanged hgate hs hcause =>
    refine .inr ?_
    rw [deliver_of_active ha]
    refine ⟨rfl, fun live t ht => ?_⟩
    cases hs.symm.trans ht
    exact verdict_self live s

/-- With the latest source compiled, a turn changes nothing but what the coordinator has seen. -/
theorem Running.coordinate_of_upToDate (h : p.Running) (hphase : p.phase = .watching)
    (hup : p.UpToDate) (compile : String → CompileResult) :
    ∃ notices : List Notice, p.coordinate compile =
      ({ p with sourceChanged := false, liveChanged := false }, notices.map .noticed) := by
  have hturn := h.turn compile
  generalize p.coordinate compile = r at hturn
  cases hturn with
  | rest hphase hv => exact ⟨_, rfl⟩
  | wait hno hgate => cases hphase.symm.trans hno
  | announce _ hgate hs hv => exact absurd hv (hup p.live _ hs)
  | compile hgate hs hcause =>
    obtain ⟨_, hv, _⟩ | ⟨hno, _⟩ := hcause
    · exact absurd hv (hup p.live _ hs)
    · cases hphase.symm.trans hno

/-- With the latest source compiled, a round leads to rest. -/
theorem Running.round_of_upToDate (h : p.Running) (hcalm : p.Calm) (hphase : p.phase = .watching)
    (hup : p.UpToDate) : (p.round compile).1.Idle := by
  obtain ⟨notices, hrest⟩ := h.coordinate_of_upToDate hphase hup compile
  have hdeliver := deliver_of_nil
    (p := { p with sourceChanged := false, liveChanged := false }) hcalm.inbox h.actor.active
  unfold Preview.round
  rw [hrest]
  dsimp only
  rw [hdeliver]
  exact { inbox := hcalm.inbox, waiting := hcalm.waiting, seen := fun _ => ⟨rfl, rfl⟩ }

/-! ## The end of the session -/

/-- What a turn of the coordinator leaves alone. -/
structure Keeps (p q : Preview) : Prop where
  actor : q.actor = p.actor
  gate : q.gate = p.gate
  source : q.source = p.source
  held : q.held = p.held
  live : q.live = p.live
  calls : q.calls = p.calls

theorem keeps_beginCompile (compile : String → CompileResult) (p : Preview) :
    Keeps p (p.beginCompile compile).1 := by
  unfold beginCompile
  split
  · exact ⟨rfl, rfl, rfl, rfl, rfl, rfl⟩
  · dsimp only
    split <;> exact ⟨rfl, rfl, rfl, rfl, rfl, rfl⟩

theorem keeps_lookIfChanged (compile : String → CompileResult) (p : Preview) :
    Keeps p (p.lookIfChanged compile).1 := by
  unfold lookIfChanged
  split
  · have hlooks := looks_look compile p
    generalize p.look compile = r at hlooks
    cases hlooks with
    | rest _ | announce _ _ _ | stop _ _ _ => exact ⟨rfl, rfl, rfl, rfl, rfl, rfl⟩
    | begin hs hv hgate =>
      have hbegin := keeps_beginCompile compile { p with
        inbox := p.inbox ++ [.hold], sourceChanged := false, liveChanged := false }
      exact ⟨hbegin.actor, hbegin.gate, hbegin.source, hbegin.held, hbegin.live, hbegin.calls⟩
  · exact ⟨rfl, rfl, rfl, rfl, rfl, rfl⟩

theorem keeps_coordinate (compile : String → CompileResult) (p : Preview) :
    Keeps p (p.coordinate compile).1 := by
  unfold coordinate
  split
  · split
    · exact ⟨rfl, rfl, rfl, rfl, rfl, rfl⟩
    · exact keeps_lookIfChanged compile p
  · split
    · exact ⟨rfl, rfl, rfl, rfl, rfl, rfl⟩
    · exact keeps_beginCompile compile p
    · exact ⟨rfl, rfl, rfl, rfl, rfl, rfl⟩
  · split
    · exact ⟨rfl, rfl, rfl, rfl, rfl, rfl⟩
    · split
      · exact ⟨rfl, rfl, rfl, rfl, rfl, rfl⟩
      · rename_i source _ _ _
        have hlook := keeps_lookIfChanged compile (finishCompile compile p source)
        exact ⟨hlook.actor, hlook.gate, hlook.source, hlook.held, hlook.live, hlook.calls⟩
  · exact ⟨rfl, rfl, rfl, rfl, rfl, rfl⟩

theorem actor_round (compile : String → CompileResult) (p : Preview) :
    (p.round compile).1.actor = (p.actor.run (p.coordinate compile).1.inbox).1 := by
  rw [← (keeps_coordinate compile p).actor]
  rfl

/-- An actor that has stopped has stopped for good. -/
theorem isStopped_round (h : p.actor.isStopped = true) (compile : String → CompileResult) :
    (p.round compile).1.actor.isStopped = true := by
  rw [actor_round, Actor.isStopped, Actor.session_run_of_stopped h]
  exact h

theorem active_of_round (h : (p.round compile).1.actor.isStopped = false) :
    p.actor.isStopped = false := by
  cases hp : p.actor.isStopped with
  | false => rfl
  | true => rw [isStopped_round hp] at h; cases h

/-- If the session lasts until neither party can move, it lasts through each of the rounds. -/
theorem Running.rounds (h : p.Running) {compile : String → CompileResult}
    (ha : (p.settle compile).1.actor.isStopped = false) :
    (p.round compile).1.actor.isStopped = false ∧ (p.round compile).1.Running ∧
      ((p.round compile).1.round compile).1.actor.isStopped = false ∧
      ((p.round compile).1.round compile).1.Running := by
  have ha₂ : ((p.round compile).1.round compile).1.actor.isStopped = false := active_of_round ha
  have ha₁ := active_of_round ha₂
  have h₁ := (h.round compile ha₁).1
  exact ⟨ha₁, h₁, ha₂, (h₁.round compile ha₂).1⟩

theorem Running.settle (h : p.Running) (compile : String → CompileResult)
    (ha : (p.settle compile).1.actor.isStopped = false) :
    (p.settle compile).1.Running ∧ (p.settle compile).1.Idle := by
  obtain ⟨ha₁, h₁, ha₂, h₂⟩ := h.rounds ha
  refine ⟨(h₂.round compile ha).1, ?_⟩
  -- The first round sees to the command of the call, the second may compile what is left, and the
  -- third sees to the flag that the result has brought.
  show (((p.round compile).1.round compile).1.round compile).1.Idle
  obtain hidle | ⟨hphase, hup⟩ := h₁.round_of_calm (h.round compile ha₁).2 ha₂
  · rw [hidle.round h₂]
    exact hidle
  · exact h₂.round_of_upToDate (h₁.round compile ha₂).2 hphase hup

/-- Neither the gate nor the source is moved by a round. -/
theorem Running.frame_round (h : p.Running) (compile : String → CompileResult)
    (ha : (p.round compile).1.actor.isStopped = false) :
    (p.round compile).1.gate = p.gate ∧ (p.round compile).1.source = p.source := by
  have hturn := h.turn compile
  unfold Preview.round at ha ⊢
  dsimp only at ha ⊢
  rw [deliver_of_active ha]
  generalize p.coordinate compile = r at hturn
  cases hturn <;> exact ⟨rfl, rfl⟩

theorem Running.frame_settle (h : p.Running) (compile : String → CompileResult)
    (ha : (p.settle compile).1.actor.isStopped = false) :
    (p.settle compile).1.gate = p.gate ∧ (p.settle compile).1.source = p.source := by
  obtain ⟨ha₁, h₁, ha₂, h₂⟩ := h.rounds ha
  obtain ⟨hgate₁, hsource₁⟩ := h.frame_round compile ha₁
  obtain ⟨hgate₂, hsource₂⟩ := h₁.frame_round compile ha₂
  obtain ⟨hgate₃, hsource₃⟩ := h₂.frame_round compile ha
  exact ⟨hgate₃.trans (hgate₂.trans hgate₁), hsource₃.trans (hsource₂.trans hsource₁)⟩

/-! ## Calls -/

/-- The epoch of the latest source. -/
def epoch (p : Preview) : Nat := p.source.elim 0 Source.epoch

/-- Everything that taking a call can do. -/
inductive Takes (p : Preview) : Call → Preview → Prop
  /-- A text is handed over. -/
  | source {call : Call} {text : String} (htext : call.text? = some text)
      (hready : call.isReady = false) :
      Takes p call
        { p with source := some ⟨text, p.epoch + call.isNewStory.toNat⟩, sourceChanged := true }
  /-- The display is ready. -/
  | ready {call : Call} {calls : Nat} (htext : call.text? = none) (hready : call.isReady = true) :
      Takes p call { p with gate := p.gate.tryOpen.1, calls := calls }
  /-- An action is sent to the session. -/
  | dispatch {call : Call} {a : Action} (htext : call.text? = none) (hready : call.isReady = false) :
      Takes p call
        { p with inbox := p.inbox ++ [.dispatch a p.calls], calls := p.calls + 1 }
  /-- The call is answered at once. -/
  | answer {call : Call} (htext : call.text? = none) (hready : call.isReady = false) :
      Takes p call { p with calls := p.calls + 1 }
  | dispose : Takes p .dispose { p with gate := .closed, inbox := p.inbox ++ [.dispose] }

theorem takes_take (p : Preview) (call : Call) : Takes p call (p.take call).1 := by
  cases call with
  | newStory text => exact .source rfl rfl
  | edit text => exact .source rfl rfl
  | ready => exact .ready rfl rfl
  | dispatch a => exact .dispatch rfl rfl
  | dispose => exact .dispose
  | message raw =>
    unfold take handleMessage
    dsimp only
    split
    · rename_i h
      exact .ready rfl (by simp [Call.isReady, h])
    · rename_i h
      exact .dispatch rfl (by simp [Call.isReady, h])
    · rename_i h
      exact .answer rfl (by simp [Call.isReady, h])
    · rename_i h
      exact .dispatch rfl (by simp [Call.isReady, h])
    · rename_i h
      exact .answer rfl (by simp [Call.isReady, h])

/-- Every call but the last one leaves a preview that can go on. -/
theorem Running.take {q : Preview} (h : p.Running) (hi : p.Idle) {call : Call}
    (htakes : Takes p call q) (hcall : call ≠ .dispose) : q.Running := by
  cases htakes with
  | source htext hready =>
    exact { h with
            phase := h.phase.imp_right fun hp => ⟨hp.1, rfl⟩
            seen := fun _ hs => by cases hs }
  | ready htext hready =>
    refine { h with gate := fun hno => ?_ }
    have hgate := h.gate
    cases hg : p.gate <;> simp_all [Gate.tryOpen]
  | dispatch htext hready =>
    refine { h with inbox := fun c hc => ?_ }
    rw [hi.inbox, List.nil_append] at hc
    exact ⟨_, _, List.mem_singleton.mp hc⟩
  | answer htext hready => exact { h with }
  | dispose => exact absurd rfl hcall

theorem isStopped_settle (h : p.actor.isStopped = true) (compile : String → CompileResult) :
    (p.settle compile).1.actor.isStopped = true :=
  isStopped_round (isStopped_round (isStopped_round h compile) compile) compile

/-- Disposing of a preview ends its session. -/
theorem Running.perform_dispose (h : p.Running) (hi : p.Idle) (compile : String → CompileResult) :
    (p.perform compile .dispose).1.actor.isStopped = true := by
  have hinbox : ((p.take .dispose).1.coordinate compile).1.inbox = [.dispose] := by
    have htake : (p.take .dispose).1 = { p with gate := .closed, inbox := [.dispose] } := by
      show ({ p with gate := .closed, inbox := p.inbox ++ [.dispose] } : Preview) = _
      rw [hi.inbox]
      rfl
    rw [htake]
    unfold coordinate
    dsimp only
    obtain hphase | ⟨hphase, _⟩ := h.phase
    · obtain ⟨hs, hl⟩ := hi.seen hphase
      rw [hphase]
      dsimp only
      rw [if_neg (by simp [h.actor.active]), lookIfChanged, if_neg (by simp [hs, hl])]
    · rw [hphase]
      rfl
  have hround : ((p.take .dispose).1.round compile).1.actor.isStopped = true := by
    rw [actor_round, hinbox]
    exact h.actor.isStopped_dispose
  exact isStopped_round (isStopped_round hround compile) compile

theorem active_of_perform {call : Call} (h : (p.perform compile call).1.actor.isStopped = false) :
    p.actor.isStopped = false := by
  cases hp : p.actor.isStopped with
  | false => rfl
  | true =>
    have htake : (p.take call).1.actor.isStopped = true := by
      cases hq : (p.take call).1 with
      | mk =>
        have htakes := hq ▸ takes_take p call
        cases htakes <;> exact hp
    have hsettle : (p.perform compile call).1.actor.isStopped = true := isStopped_settle htake compile
    rw [hsettle] at h
    cases h

/-- As long as the session lasts, every call leaves a preview at rest that can go on. -/
theorem Running.perform (h : p.Running) (hi : p.Idle) {call : Call}
    (ha : (p.perform compile call).1.actor.isStopped = false) :
    (p.take call).1.Running ∧ (p.perform compile call).1.Running ∧
      (p.perform compile call).1.Idle := by
  have hcall : call ≠ .dispose := by
    rintro rfl
    rw [h.perform_dispose hi] at ha
    cases ha
  have htake := h.take hi (takes_take p call) hcall
  exact ⟨htake, htake.settle compile ha⟩

/-! ## Runs -/

variable {steps : List (Call × (String → CompileResult))}

theorem play_cons (p : Preview) (call : Call) (compile : String → CompileResult) :
    p.play ((call, compile) :: steps) =
      (((p.perform compile call).1.play steps).1,
        (p.perform compile call).2 ++ ((p.perform compile call).1.play steps).2) := rfl

theorem active_of_play (h : (p.play steps).1.actor.isStopped = false) :
    p.actor.isStopped = false := by
  induction steps generalizing p with
  | nil => exact h
  | cons step steps ih =>
    obtain ⟨call, compile⟩ := step
    rw [play_cons] at h
    exact active_of_perform (ih h)

theorem Running.play (h : p.Running) (hi : p.Idle)
    (ha : (p.play steps).1.actor.isStopped = false) :
    (p.play steps).1.Running ∧ (p.play steps).1.Idle := by
  induction steps generalizing p with
  | nil => exact ⟨h, hi⟩
  | cons step steps ih =>
    obtain ⟨call, compile⟩ := step
    rw [play_cons] at ha ⊢
    obtain ⟨_, hrun, hidle⟩ := h.perform hi (active_of_play ha)
    exact ih hrun hidle ha

theorem idle_new (liveDefault : Bool) : (new liveDefault).Idle where
  inbox := rfl
  waiting := by simp [new]
  seen := fun _ => ⟨rfl, rfl⟩

/-- A report that the display is ready opens the gate, and no call makes it wait again. -/
theorem gate_take {call : Call} (h : p.gate ≠ .waiting ∨ call.isReady = true) :
    (p.take call).1.gate ≠ .waiting := by
  have htakes := takes_take p call
  generalize (p.take call).1 = q at htakes
  cases htakes with
  | ready htext hready => cases p.gate <;> simp [Gate.tryOpen]
  | dispose => simp
  | source htext hno | dispatch htext hno | answer htext hno => simpa [hno] using h

theorem Running.gate_play (h : p.Running) (hi : p.Idle)
    (ha : (p.play steps).1.actor.isStopped = false)
    (hready : p.gate ≠ .waiting ∨ ∃ step ∈ steps, step.1.isReady = true) :
    (p.play steps).1.gate ≠ .waiting := by
  induction steps generalizing p with
  | nil => exact hready.resolve_right (by simp)
  | cons step steps ih =>
    obtain ⟨call, compile⟩ := step
    rw [play_cons] at ha ⊢
    have hactive := active_of_play ha
    obtain ⟨htake, hrun, hidle⟩ := h.perform hi hactive
    have hgate : (p.perform compile call).1.gate = (p.take call).1.gate :=
      (htake.frame_settle compile hactive).1
    refine ih hrun hidle ha ?_
    rw [hgate]
    simp only [List.mem_cons, exists_eq_or_imp] at hready
    obtain hp | hcall | hrest := hready
    · exact .inl (gate_take (.inl hp))
    · exact .inl (gate_take (.inr hcall))
    · exact .inr hrest

theorem source_take (p : Preview) (call : Call) :
    (p.take call).1.epoch = p.epoch + call.isNewStory.toNat ∧
      (p.take call).1.source.map Source.text = call.text?.or (p.source.map Source.text) := by
  have hepoch (h : call.text? = none) : call.isNewStory = false := by
    cases call <;> simp_all [Call.text?, Call.isNewStory]
  have htakes := takes_take p call
  generalize (p.take call).1 = q at htakes
  cases htakes with
  | source htext hno => exact ⟨rfl, by rw [htext]; rfl⟩
  | ready htext _ | dispatch htext _ | answer htext _ =>
    rw [hepoch htext, htext]
    exact ⟨rfl, rfl⟩
  | dispose => exact ⟨rfl, rfl⟩

/-- The source after calls: the last text that they have handed over, in the epoch of as many new
stories. -/
structure HandedOver (p : Preview) (calls : List Call) (q : Preview) : Prop where
  epoch : q.epoch = p.epoch + calls.countP Call.isNewStory
  text : q.source.map Source.text =
    (calls.filterMap Call.text?).getLast?.or (p.source.map Source.text)

theorem HandedOver.cons {q r : Preview} {call : Call} {calls : List Call}
    (hsource : q.source = (p.take call).1.source) (h : HandedOver q calls r) :
    HandedOver p (call :: calls) r := by
  obtain ⟨hepoch, htext⟩ := source_take p call
  rw [Preview.epoch, ← hsource] at hepoch
  rw [← hsource] at htext
  constructor
  · rw [h.epoch, Preview.epoch, hepoch, List.countP_cons]
    cases call.isNewStory with
    | true => simp only [Bool.toNat_true, if_true]; omega
    | false => simp
  · rw [h.text, htext]
    cases hcall : call.text? with
    | none => simp [hcall]
    | some text => simp [hcall, List.getLast?_cons]

theorem Running.source_play (h : p.Running) (hi : p.Idle)
    (ha : (p.play steps).1.actor.isStopped = false) :
    HandedOver p (steps.map Prod.fst) (p.play steps).1 := by
  induction steps generalizing p with
  | nil => exact ⟨rfl, rfl⟩
  | cons step steps ih =>
    obtain ⟨call, compile⟩ := step
    rw [play_cons] at ha ⊢
    have hactive := active_of_play ha
    obtain ⟨htake, hrun, hidle⟩ := h.perform hi hactive
    exact .cons (htake.frame_settle compile hactive).2 (ih hrun hidle ha)

end Preview

end StoryPreview
