import StoryPreview.Proofs.Preview.Interleaving
/-!
Live update. While the flag is not set, edits of a story that has been compiled are held back, in whatever
order calls and moves come (`Holding.moves`). When an action sets the flag, the last text that was handed
over is compiled once, unless its fingerprint is the one of the text compiled last
(`compiles_of_live`); whether the action is a toggle or undoes one makes no difference.
-/
namespace StoryPreview

namespace Preview

variable {compile : String → CompileResult} {p : Preview} {bs : List Source} {last s : Source}

/-- The live-update flag of the session, as long as it lasts. -/
def flag? (p : Preview) : Option Bool := p.state?.map State.liveUpdate

theorem flag?_of_active (h : p.actor.isStopped = false) :
    p.flag? = some p.actor.session.state.liveUpdate := by
  unfold flag? state?
  rw [if_neg (by simp [h])]
  rfl

theorem active_of_flag? {b : Bool} (h : p.flag? = some b) : p.actor.isStopped = false := by
  cases hs : p.actor.isStopped with
  | false => rfl
  | true =>
    unfold flag? state? at h
    rw [if_pos hs] at h
    cases h

/-! ## With nothing to compile -/

/-- If there is nothing to compile, the coordinator takes note of what has changed. -/
theorem lookIfChanged_of_current (h : ∀ s, p.source = some s → verdict p.compiled p.live s ≠ .compile)
    (compile : String → CompileResult) :
    ∃ notices : List Notice, p.lookIfChanged compile =
      ({ p with sourceChanged := false, liveChanged := false }, notices.map .noticed) := by
  by_cases hchanged : (p.sourceChanged || p.liveChanged) = true
  · rw [lookIfChanged, if_pos hchanged]
    have hlooks := looks_look compile p
    generalize p.look compile = r at hlooks
    cases hlooks with
    | rest hv => exact ⟨_, rfl⟩
    | announce hs hv _ | begin hs hv _ | stop hs hv _ => exact absurd hv (h _ hs)
  · obtain ⟨hs, hl⟩ := Bool.or_eq_false_iff.mp (Bool.not_eq_true _ ▸ hchanged)
    refine ⟨[], ?_⟩
    rw [lookIfChanged_of_seen hs hl, eq_of_seen hs hl]
    rfl

/-- It ends if the session has ended. -/
theorem coordinate_of_current (hphase : p.phase = .watching)
    (h : p.actor.isStopped = false →
      ∀ s, p.source = some s → verdict p.compiled p.live s ≠ .compile)
    (compile : String → CompileResult) :
    ∃ notices : List Notice,
      (p.actor.isStopped = false ∧ p.coordinate compile =
        ({ p with sourceChanged := false, liveChanged := false }, notices.map .noticed)) ∨
      p.coordinate compile = ({ p with phase := .stopped }, notices.map .noticed) := by
  cases hs : p.actor.isStopped with
  | true =>
    unfold coordinate
    rw [hphase]
    dsimp only
    rw [if_pos hs]
    exact ⟨_, .inr rfl⟩
  | false =>
    obtain ⟨notices, hlook⟩ := lookIfChanged_of_current (h hs) compile
    rw [coordinate_of_watching hphase hs, hlook]
    exact ⟨notices, .inl ⟨rfl, rfl⟩⟩

theorem coordinate_of_stopped (hphase : p.phase = .stopped) (compile : String → CompileResult) :
    p.coordinate compile = (p, []) := by
  unfold coordinate
  rw [hphase]

/-! ## While the flag is not set -/

/-- The coordinator holds back edits of the text that was compiled last. -/
structure Holding (last : Source) (p : Preview) : Prop where
  phase : p.phase = .watching ∨ p.phase = .stopped
  compiled : p.compiled = some ⟨last.epoch, .ofText last.text⟩
  source : ∃ text, p.source = some ⟨text, last.epoch⟩
  gate : p.actor.isStopped = false → p.gate = .opened

theorem phase_lookIfChanged (hheld : p.held = false) (hphase : p.phase = .watching)
    (compile : String → CompileResult) (s : Source) :
    (p.lookIfChanged compile).1.phase ≠ .compiling s := by
  unfold lookIfChanged
  split
  · have hlooks := looks_look compile p
    generalize p.look compile = r at hlooks
    cases hlooks with
    | rest hv => simp [hphase]
    | announce hs hv hgate => simp
    | begin hs hv hgate =>
      have hbegin := beginCompile_eq (p := { p with
        inbox := p.inbox ++ [.hold], sourceChanged := false, liveChanged := false }) hs hheld compile
      rw [hbegin]
      simp [finishCompile]
    | stop hs hv hgate => simp [stop]
  · simp [hphase]

/-- At rest, with the display ready, the coordinator waits for something to change. -/
theorem Coherent.watching (h : p.Coherent bs) (hrests : p.Rests) (hgate : p.gate = .opened) :
    p.phase = .watching := by
  have hopen : ¬ p.gate = .closed := by simp [hgate]
  have hactive : ¬ p.actor.isStopped = true := fun hs => hopen (h.shut (.inl hs))
  have hrest := hrests.coordinator fun _ => .error []
  unfold Preview.coordinate at hrest
  cases hphase : p.phase with
  | watching => rfl
  | awaitingReady =>
    obtain ⟨s, hs⟩ := Option.isSome_iff_exists.mp (h.announced hphase)
    rw [hphase, hgate] at hrest
    dsimp only at hrest
    rw [beginCompile_of_some hs] at hrest
    cases congrArg Prod.snd hrest
  | compiling s =>
    rw [hphase] at hrest
    dsimp only at hrest
    rw [if_neg (by simp [hrests.held]), if_neg hactive] at hrest
    have hlook := phase_lookIfChanged (p := Preview.finishCompile (fun _ => .error []) p s) hrests.held rfl
      (fun _ => .error []) s
    rw [hrest] at hlook
    exact absurd hphase hlook
  | stopped => exact absurd (h.shut (.inr hphase)) hopen

/-- If the latest epoch has been compiled, edits of its text are held back from then on. -/
theorem Coherent.holding (h : p.Coherent bs) (hrests : p.Rests) (hgate : p.gate = .opened)
    (hcompiled : ∃ s ∈ bs, s.epoch = p.epoch) :
    ∃ last, bs.getLast? = some last ∧ p.Holding last := by
  have hphase := h.watching hrests hgate
  obtain ⟨s, hs, hepoch⟩ := hcompiled
  obtain ⟨last, hlast, hge, hle⟩ := h.latest s hs
  obtain ⟨latest, hlatest⟩ := Option.isSome_iff_exists.mp (h.handed (List.ne_nil_of_mem hs))
  have hlatestEpoch : p.epoch = latest.epoch := by
    rw [epoch, hlatest]
    rfl
  have heq : latest.epoch = last.epoch := by omega
  refine ⟨last, hlast, .inl hphase, ?_, ⟨latest.text, ?_⟩, fun _ => hgate⟩
  · rw [h.compiled hphase, hlast]
    rfl
  · rw [hlatest, ← heq]

/-- One move: nothing is compiled, and the coordinator goes on holding edits back. -/
theorem Holding.move (h : p.Holding last) (hc : p.Coherent bs) (hoff : p.flag? ≠ some true) {m : Move}
    (hm : ∀ call, m.call? = some call → call.isNewStory = false ∧ call ≠ .dispose) :
    (p.move m).1.Holding last ∧ begun (p.move m).2 = [] := by
  cases m with
  | call call =>
    obtain ⟨hsame, hlasts⟩ := hm call rfl
    refine ⟨?_, begun_take p call⟩
    show (p.take call).1.Holding last
    have htakes := takes_take p call
    generalize (p.take call).1 = q at htakes
    cases htakes with
    | @source _ text htext hready =>
      obtain ⟨old, hold⟩ := h.source
      refine { h with source := ⟨text, ?_⟩ }
      rw [hsame, epoch, hold]
      rfl
    | ready htext hready => exact { h with gate := fun ha => by rw [h.gate ha]; rfl }
    | dispatch htext hready => exact { h with }
    | answer htext hready => exact { h with }
    | dispose => exact absurd rfl hlasts
  | coordinate compile =>
    show (p.coordinate compile).1.Holding last ∧ begun (p.coordinate compile).2 = []
    obtain hphase | hphase := h.phase
    · -- The flag that the coordinator finds is the one of the session, and the epoch has not changed.
      have hverdict (ha : p.actor.isStopped = false) :
          ∀ s, p.source = some s → verdict p.compiled p.live s ≠ .compile := by
        intro s hs
        obtain ⟨text, htext⟩ := h.source
        cases htext.symm.trans hs
        have hlive : p.live = false := by
          rw [(hc.actor ha).2]
          rw [flag?_of_active ha] at hoff
          simpa using hoff
        simp [verdict, h.compiled, hlive]
      obtain ⟨notices, ⟨_, hmoved⟩ | hmoved⟩ := coordinate_of_current hphase hverdict compile
      · rw [hmoved]
        exact ⟨{ h with }, Noticed.begun ⟨notices, rfl⟩⟩
      · rw [hmoved]
        exact ⟨{ h with phase := .inr rfl }, Noticed.begun ⟨notices, rfl⟩⟩
    · rw [coordinate_of_stopped hphase]
      exact ⟨h, rfl⟩
  | obey =>
    refine ⟨?_, begun_obey p⟩
    show p.obey.1.Holding last
    cases hinbox : p.inbox with
    | nil => rwa [obey_of_nil hinbox]
    | cons c cs =>
      rw [obey_of_cons hinbox]
      refine { h with gate := fun ha => ?_ }
      dsimp only at ha ⊢
      rw [if_neg (by simp [ha])]
      exact h.gate (Actor.active_of_run ha)
  | hold held => exact ⟨{ h with }, rfl⟩

/-- Whatever moves there are, as long as the flag is not seen set nothing is compiled. -/
theorem Holding.moves (h : p.Holding last) (hc : p.Coherent bs) {ms : List Move}
    (hms : ∀ m ∈ ms, ∀ call, m.call? = some call → call.isNewStory = false ∧ call ≠ .dispose)
    (hoff : ∀ done, done <+: ms → (p.moves done).1.flag? ≠ some true) :
    (p.moves ms).1.Holding last ∧ begun (p.moves ms).2 = [] := by
  induction ms generalizing p bs with
  | nil => exact ⟨h, rfl⟩
  | cons m ms ih =>
    obtain ⟨hmove, hbegun⟩ := h.move hc (hoff [] List.nil_prefix) (hms m List.mem_cons_self)
    obtain ⟨hrest, hnone⟩ := ih hmove (hc.move m) (fun n hn => hms n (List.mem_cons_of_mem m hn))
      fun done hdone => hoff (m :: done) (List.cons_prefix_cons.mpr ⟨rfl, hdone⟩)
    rw [moves_cons]
    refine ⟨hrest, ?_⟩
    rw [begun_append, hbegun, hnone]
    rfl

/-! ## Once the flag is set -/

/-- Nothing is left to compile, whatever the flag. -/
def CaughtUp (p : Preview) : Prop := (p.phase = .watching ∧ p.UpToDate) ∨ p.phase = .stopped

theorem CaughtUp.coordinate (h : p.CaughtUp) (compile : String → CompileResult) :
    (p.coordinate compile).1.CaughtUp ∧ begun (p.coordinate compile).2 = [] := by
  obtain ⟨hphase, hup⟩ | hphase := h
  · obtain ⟨notices, ⟨_, hmoved⟩ | hmoved⟩ :=
      coordinate_of_current hphase (fun _ => hup p.live) compile
    · rw [hmoved]
      exact ⟨.inl ⟨hphase, hup⟩, Noticed.begun ⟨notices, rfl⟩⟩
    · rw [hmoved]
      exact ⟨.inr rfl, Noticed.begun ⟨notices, rfl⟩⟩
  · rw [coordinate_of_stopped hphase]
    exact ⟨.inr hphase, rfl⟩

theorem rests_of_seen (hphase : p.phase = .watching) (hactive : p.actor.isStopped = false)
    (hinbox : p.inbox = []) (hheld : p.held = false) (hs : p.sourceChanged = false)
    (hl : p.liveChanged = false) : p.Rests := by
  refine ⟨hinbox, hheld, fun compile => ?_⟩
  rw [coordinate_of_watching hphase hactive, lookIfChanged_of_seen hs hl]

/-- With no command under way, the coordinator looks once more, and that is all. -/
theorem CaughtUp.rests (h : p.CaughtUp) (hinbox : p.inbox = []) (hheld : p.held = false)
    (compile : String → CompileResult) : (p.coordinate compile).1.Rests := by
  obtain ⟨hphase, hup⟩ | hphase := h
  · obtain ⟨notices, ⟨hactive, hmoved⟩ | hmoved⟩ :=
      coordinate_of_current hphase (fun _ => hup p.live) compile
    · rw [hmoved]
      exact rests_of_seen hphase hactive hinbox hheld rfl rfl
    · rw [hmoved]
      exact ⟨hinbox, hheld, coordinate_of_stopped rfl⟩
  · rw [coordinate_of_stopped hphase]
    exact ⟨hinbox, hheld, coordinate_of_stopped hphase⟩

/-- The flag has been set, and the coordinator has not seen it yet: `last` is what was compiled last, and
`s` the latest source. -/
structure Unseen (last s : Source) (p : Preview) : Prop where
  phase : p.phase = .watching
  active : p.actor.isStopped = false
  inbox : p.inbox = []
  gate : p.gate = .opened
  live : p.live = true
  changed : p.liveChanged = true
  source : p.source = some s
  compiled : p.compiled = some ⟨last.epoch, .ofText last.text⟩
  epoch : last.epoch = s.epoch

/-- What has become of the latest source since then, and which compiles have begun. -/
inductive CatchesUp (last s : Source) (p : Preview) : List Source → Prop
  | unseen (hunseen : p.Unseen last s) : CatchesUp last s p []
  | compiling (hphase : p.phase = .compiling s) (hsource : p.source = some s)
      (hdiffers : Fingerprint.ofText last.text ≠ .ofText s.text) : CatchesUp last s p [s]
  /-- Nothing is left to compile. -/
  | done (hcaught : p.CaughtUp) :
      CatchesUp last s p (if Fingerprint.ofText last.text = .ofText s.text then [] else [s])

theorem CatchesUp.compiled (hcaught : p.CaughtUp)
    (hdiffers : Fingerprint.ofText last.text ≠ .ofText s.text) : CatchesUp last s p [s] := by
  have hdone := @CatchesUp.done last s p hcaught
  rwa [if_neg hdiffers] at hdone

/-- After a compile of the latest source nothing is left to compile. -/
theorem upToDate_finishCompile (hs : p.source = some s) (compile : String → CompileResult) :
    (finishCompile compile p s).UpToDate := by
  intro live t ht
  cases hs.symm.trans ht
  exact verdict_self live s

/-- The coordinator looks, and the display is ready. -/
theorem look_of_compile (hs : p.source = some s) (hv : verdict p.compiled p.live s = .compile)
    (hgate : p.gate = .opened) (compile : String → CompileResult) :
    p.look compile =
      beginCompile compile
        { p with inbox := p.inbox ++ [.hold], sourceChanged := false, liveChanged := false } := by
  have hlooks := looks_look compile p
  generalize p.look compile = r at hlooks
  cases hlooks with
  | rest hno => exact absurd hv (hno s hs)
  | announce _ _ hno => cases hgate.symm.trans hno
  | begin _ _ _ => rfl
  | stop _ _ hno => cases hgate.symm.trans hno

theorem coordinate_of_changed (hphase : p.phase = .watching) (hactive : p.actor.isStopped = false)
    (hchanged : p.liveChanged = true) (compile : String → CompileResult) :
    p.coordinate compile = p.look compile := by
  rw [coordinate_of_watching hphase hactive, lookIfChanged, if_pos (by simp [hchanged])]

theorem liveChanged_look (compile : String → CompileResult) (p : Preview) :
    (p.look compile).1.liveChanged = false := by
  have hlooks := looks_look compile p
  generalize p.look compile = r at hlooks
  cases hlooks with
  | rest _ | announce _ _ _ | stop _ _ _ => rfl
  | begin hs hv hgate =>
    have hbegin := beginCompile_of_some (p := { p with
      inbox := p.inbox ++ [.hold], sourceChanged := false, liveChanged := false }) hs compile
    rw [hbegin]
    dsimp only
    split <;> rfl

/-- The coordinator sees that the flag is set: it compiles the latest source, unless nothing has changed. -/
theorem Unseen.coordinate (h : p.Unseen last s) (compile : String → CompileResult) :
    CatchesUp last s (p.coordinate compile).1 (begun (p.coordinate compile).2) ∧
      (p.held = false → (p.coordinate compile).1.CaughtUp) := by
  by_cases hprint : Fingerprint.ofText last.text = .ofText s.text
  · have hup : p.UpToDate := by
      intro live t ht
      cases h.source.symm.trans ht
      rw [h.compiled, h.epoch, hprint]
      exact verdict_self live s
    have hcaught : p.CaughtUp := .inl ⟨h.phase, hup⟩
    obtain ⟨hcaught, hbegun⟩ := hcaught.coordinate compile
    have hdone := @CatchesUp.done last s _ hcaught
    rw [if_pos hprint] at hdone
    rw [hbegun]
    exact ⟨hdone, fun _ => hcaught⟩
  · have hverdict : verdict p.compiled p.live s = .compile := by
      simp [verdict, h.compiled, h.live, h.epoch, hprint]
    have hbegin := beginCompile_of_some
      (p := { p with inbox := p.inbox ++ [.hold], sourceChanged := false, liveChanged := false })
      h.source compile
    rw [coordinate_of_changed h.phase h.active h.changed, look_of_compile h.source hverdict h.gate,
      hbegin]
    cases hheld : p.held with
    | true => exact ⟨.compiling rfl h.source hprint, fun hno => by cases hno⟩
    | false =>
      have hcaught : (finishCompile compile { p with
          inbox := p.inbox ++ [.hold], sourceChanged := false, liveChanged := false } s).CaughtUp :=
        .inl ⟨rfl, upToDate_finishCompile h.source compile⟩
      exact ⟨.compiled hcaught hprint, fun _ => hcaught⟩

theorem CatchesUp.coordinate_compiling (hphase : p.phase = .compiling s) (hsource : p.source = some s)
    (hdiffers : Fingerprint.ofText last.text ≠ .ofText s.text) (compile : String → CompileResult) :
    CatchesUp last s (p.coordinate compile).1 ([s] ++ begun (p.coordinate compile).2) ∧
      (p.held = false → (p.coordinate compile).1.CaughtUp) := by
  have hup := upToDate_finishCompile hsource compile
  obtain ⟨notices, hlook⟩ :=
    lookIfChanged_of_current (hup (finishCompile compile p s).live) compile
  unfold Preview.coordinate
  rw [hphase]
  dsimp only
  cases hheld : p.held with
  | true => exact ⟨.compiling hphase hsource hdiffers, fun hno => by cases hno⟩
  | false =>
    have hdone {q : Preview} {notices : List Notice} (hcaught : q.CaughtUp) :
        CatchesUp last s q ([s] ++ begun (notices.map .noticed)) ∧ (false = false → q.CaughtUp) := by
      rw [Noticed.begun ⟨notices, rfl⟩]
      exact ⟨.compiled hcaught hdiffers, fun _ => hcaught⟩
    cases hs : p.actor.isStopped with
    | true => exact hdone (.inr rfl)
    | false =>
      rw [if_neg (by simp), if_neg (by simp), hlook]
      exact hdone (.inl ⟨rfl, hup⟩)

theorem CatchesUp.move (h : CatchesUp last s p bs) {m : Move} (hm : m.call? = none) :
    CatchesUp last s (p.move m).1 (bs ++ begun (p.move m).2) := by
  cases m with
  | call call => cases hm
  | coordinate compile =>
    show CatchesUp last s (p.coordinate compile).1 (bs ++ begun (p.coordinate compile).2)
    cases h with
    | unseen hunseen => exact (hunseen.coordinate compile).1
    | compiling hphase hsource hdiffers =>
      exact (coordinate_compiling hphase hsource hdiffers compile).1
    | done hcaught =>
      obtain ⟨hcaught, hbegun⟩ := hcaught.coordinate compile
      rw [hbegun, List.append_nil]
      exact .done hcaught
  | obey =>
    show CatchesUp last s p.obey.1 (bs ++ begun p.obey.2)
    rw [begun_obey, List.append_nil]
    cases hinbox : p.inbox with
    | nil => rwa [obey_of_nil hinbox]
    | cons c cs =>
      rw [obey_of_cons hinbox]
      cases h with
      | unseen hunseen => cases hunseen.inbox.symm.trans hinbox
      | compiling hphase hsource hdiffers => exact .compiling hphase hsource hdiffers
      | done hcaught => exact .done hcaught
  | hold held =>
    show CatchesUp last s { p with held } (bs ++ [])
    rw [List.append_nil]
    cases h with
    | unseen hunseen => exact .unseen { hunseen with }
    | compiling hphase hsource hdiffers => exact .compiling hphase hsource hdiffers
    | done hcaught => exact .done hcaught

theorem CatchesUp.moves (h : CatchesUp last s p bs) {ms : List Move}
    (hms : ∀ m ∈ ms, m.call? = none) :
    CatchesUp last s (p.moves ms).1 (bs ++ begun (p.moves ms).2) := by
  induction ms generalizing p bs with
  | nil =>
    show CatchesUp last s p (bs ++ [])
    rwa [List.append_nil]
  | cons m ms ih =>
    rw [moves_cons]
    dsimp only
    rw [begun_append, ← List.append_assoc]
    exact ih (h.move (hms m List.mem_cons_self)) fun n hn => hms n (List.mem_cons_of_mem m hn)

/-- At rest the flag has been seen, and no compile is under way. -/
theorem CatchesUp.begun_of_rests (h : CatchesUp last s p bs) (hrests : p.Rests) :
    bs = if Fingerprint.ofText last.text = .ofText s.text then [] else [s] := by
  cases h with
  | unseen hunseen =>
    -- The coordinator would look.
    have hseen := liveChanged_look (fun _ => .error []) p
    rw [← coordinate_of_changed hunseen.phase hunseen.active hunseen.changed, hrests.coordinator,
      hunseen.changed] at hseen
    cases hseen
  | compiling hphase hsource hdiffers =>
    exact (if_neg hdiffers).symm
  | done hcaught => rfl

/-- Unless the compile takes long, the coordinator catches up as soon as it runs. -/
theorem CatchesUp.caughtUp (h : CatchesUp last s p bs) (hheld : p.held = false)
    (compile : String → CompileResult) : (p.coordinate compile).1.CaughtUp := by
  cases h with
  | unseen hunseen => exact (hunseen.coordinate compile).2 hheld
  | compiling hphase hsource hdiffers =>
    exact (coordinate_compiling hphase hsource hdiffers compile).2 hheld
  | done hcaught => exact (hcaught.coordinate compile).1

/-- Both come to rest when they are allowed to run. -/
theorem CatchesUp.exists_rests (h : CatchesUp last s p bs) (hshut : p.Shut)
    (compile : String → CompileResult) :
    ∃ n, (p.moves (.hold false :: .coordinate compile ::
      (.replicate n .obey ++ [.coordinate compile]))).1.Rests := by
  have hcaught := (h.move (m := .hold false) rfl).caughtUp rfl compile
  have hshut : (Preview.coordinate compile { p with held := false }).1.Shut :=
    Shut.coordinate (p := { p with held := false }) hshut compile
  have hheld := (keeps_coordinate compile { p with held := false }).held
  refine ⟨(Preview.coordinate compile { p with held := false }).1.inbox.length, ?_⟩
  rw [moves_cons, moves_cons, moves_append]
  dsimp only [Preview.move] at hcaught ⊢
  rw [moves_obey hshut]
  exact CaughtUp.rests (p := (Preview.coordinate compile { p with held := false }).1.deliver.1)
    hcaught rfl hheld compile

/-- A command sets the flag, and the coordinator has not seen it yet. -/
theorem Holding.obey_live (h : p.Holding last) (hc : p.Coherent bs) {c : Command}
    (hinbox : p.inbox = [c]) (hoff : p.flag? ≠ some true) (hon : p.obey.1.flag? = some true)
    (hs : p.source = some s) : p.obey.1.Unseen last s := by
  have hafter := active_of_flag? hon
  have hlive : p.obey.1.live = true := by
    rw [(hc.obey.actor hafter).2]
    rw [flag?_of_active hafter] at hon
    exact Option.some.inj hon
  rw [obey_of_cons hinbox] at hafter hlive ⊢
  have hactive := Actor.active_of_run hafter
  have hbefore : p.live = false := by
    rw [(hc.actor hactive).2]
    rw [flag?_of_active hactive] at hoff
    simpa using hoff
  have hgate := h.gate hactive
  have hphase : p.phase = .watching := h.phase.resolve_right fun hstopped => by
    cases hgate.symm.trans (hc.shut (.inr hstopped))
  have hchanged : (watchLive p.live p.liveChanged (p.actor.run [c]).2).2 = true := by
    cases hunchanged : (watchLive p.live p.liveChanged (p.actor.run [c]).2).2 with
    | true => rfl
    | false =>
      have hsame := (watchLive_unchanged hunchanged).2.trans hbefore
      cases hsame.symm.trans hlive
  have hepoch : last.epoch = s.epoch := by
    obtain ⟨text, htext⟩ := h.source
    cases htext.symm.trans hs
    rfl
  exact {
    phase := hphase
    active := hafter
    inbox := rfl
    gate := (if_neg (by simp [hafter])).trans hgate
    live := hlive
    changed := hchanged
    source := hs
    compiled := h.compiled
    epoch := hepoch }

/-- In any order of moves: from a point of rest at which the display is ready and the latest epoch has been
compiled, nothing is compiled by calls that begin no epoch, as long as the live-update flag is not seen
set. The action that then sets it leads to one compile, of the last text handed over, if its fingerprint
is not the one of the text compiled last, and to none otherwise; and both parties come to rest. -/
theorem compiles_of_live {liveDefault : Bool} {before held : List Move}
    (hrests : ((new liveDefault).moves before).1.Rests)
    (hready : ((new liveDefault).moves before).1.isReady = true)
    (hcompiled : ∃ s ∈ begun ((new liveDefault).moves before).2,
      s.epoch = (before.filterMap Move.call?).countP Call.isNewStory)
    (hcalls : ∀ m ∈ held, ∀ call, m.call? = some call → call.isNewStory = false ∧ call ≠ .dispose)
    (hoff : ∀ done, done <+: held →
      (((new liveDefault).moves before).1.moves done).1.flag? ≠ some true) :
    let p := ((new liveDefault).moves before).1
    let q := (p.moves held).1
    begun (p.moves held).2 = [] ∧
      ∃ last text, (begun ((new liveDefault).moves before).2).getLast? = some last ∧
        (((before ++ held).filterMap Move.call?).filterMap Call.text?).getLast? = some text ∧
        ∀ a call, q.inbox = [.dispatch a call] → q.obey.1.flag? = some true →
          ∀ after : List Move, (∀ m ∈ after, m.call? = none) →
            let r := q.obey.1.moves after
            (r.1.Rests → begun (q.obey.2 ++ r.2) =
              if Fingerprint.ofText last.text = .ofText text then [] else [⟨text, last.epoch⟩]) ∧
            ∀ compile, ∃ n, (r.1.moves (.hold false :: .coordinate compile ::
              (.replicate n .obey ++ [.coordinate compile]))).1.Rests := by
  intro p q
  have hc : p.Coherent (begun ((new liveDefault).moves before).2) :=
    (coherent_new liveDefault).moves before
  have hsource := source_moves (new liveDefault) before
  have hgate : p.gate = .opened := by simpa [isReady, Gate.isOpen] using hready
  have hepoch : p.epoch = (before.filterMap Move.call?).countP Call.isNewStory :=
    hsource.epoch.trans (Nat.zero_add _)
  obtain ⟨last, hlast, hholding⟩ := hc.holding hrests hgate (hepoch ▸ hcompiled)
  obtain ⟨hq, hnone⟩ := hholding.moves hc hcalls hoff
  obtain ⟨text, htext⟩ := hq.source
  have hcq := hc.moves held
  have hall := (source_moves (new liveDefault) (before ++ held)).text
  rw [moves_append] at hall
  have hall : q.source.map Source.text = _ := hall.trans Option.or_none
  refine ⟨hnone, last, text, hlast, ?_, fun a call hinbox hon after hafter => ?_⟩
  · rw [← hall, htext]
    rfl
  · have hunseen := hq.obey_live hcq hinbox (hoff held (List.prefix_refl held)) hon htext
    have hr := (CatchesUp.unseen hunseen).moves hafter
    refine ⟨fun hrest => ?_, fun compile => ?_⟩
    · have hbegun := hr.begun_of_rests hrest
      rw [begun_append, begun_obey]
      exact hbegun
    · exact hr.exists_rests (fun hs => (hcq.obey.moves after).shut (.inl hs)) compile

/-- A story that has come to the sea, where live update is switched off. -/
def toDusk : List Move :=
  [.call (.newStory harborScript), .call .ready, .coordinate compileAlone, .obey, .obey,
    .call (.dispatch (.selectChoice 0)), .obey, .call (.dispatch (.toggleLiveUpdate false)), .obey,
    .coordinate compileAlone]

/-- Two edits, of which the coordinator sees the first, and a rewind past the choice and the switch. -/
def duringDusk : List Move :=
  [.call (.edit "A harbor by dusk."), .coordinate compileAlone, .call (.edit "A quay by dusk.")] ++
    [.call (.dispatch .rewind)]

/-- The compile takes long, and then the actor takes its result. -/
def untilNight : List Move :=
  [.hold true, .coordinate compileAlone, .hold false, .coordinate compileAlone, .obey, .obey,
    .coordinate compileAlone]

/-- The rewind leads to a compile of the second edit. -/
theorem compiles_of_live_duringDusk :
    let p := ((new true).moves toDusk).1
    let q := (p.moves duringDusk).1
    let r := q.obey.1.moves untilNight
    p.Rests ∧ p.isReady = true ∧ q.inbox = [.dispatch .rewind 2] ∧ q.obey.1.flag? = some true ∧
      (∀ done, done <+: duringDusk → (p.moves done).1.flag? ≠ some true) ∧
      begun (p.moves duringDusk).2 = [] ∧ r.1.Rests ∧
      begun (q.obey.2 ++ r.2) = [⟨"A quay by dusk.", 1⟩] := by
  intro p q r
  -- What can be computed of the three points in time.
  have hp : begun ((new true).moves toDusk).2 = [⟨harborScript, 1⟩] ∧ p.isReady = true ∧
      p.phase = .watching ∧ p.actor.isStopped = false ∧ p.inbox.isEmpty = true ∧ p.held = false ∧
      p.sourceChanged = false ∧ p.liveChanged = false := by decide +kernel
  have hq : q.obey.1.flag? = some true ∧ (p.moves (duringDusk.take 3)).1.inbox.isEmpty = true ∧
      (p.moves (duringDusk.take 3)).1.calls = 2 ∧
      ∀ k < 5, (p.moves (duringDusk.take k)).1.flag? ≠ some true := by decide +kernel
  have hr : r.1.phase = .watching ∧ r.1.actor.isStopped = false ∧ r.1.inbox.isEmpty = true ∧
      r.1.held = false ∧ r.1.sourceChanged = false ∧ r.1.liveChanged = false := by decide +kernel
  obtain ⟨hbegun, hready, hphase, hactive, hempty, hheld, hs, hl⟩ := hp
  obtain ⟨hon, hnext, hnumber, htakes⟩ := hq
  have hrests : p.Rests :=
    rests_of_seen hphase hactive (List.isEmpty_iff.mp hempty) hheld hs hl
  have hcompiled : ∃ s ∈ begun ((new true).moves toDusk).2,
      s.epoch = (toDusk.filterMap Move.call?).countP Call.isNewStory := by
    rw [hbegun]
    exact ⟨_, List.mem_singleton_self _, by decide +kernel⟩
  have hcalls : ∀ m ∈ duringDusk, ∀ call, m.call? = some call →
      call.isNewStory = false ∧ call ≠ .dispose := by
    simp [duringDusk, Move.call?, Call.isNewStory]
  have hoff : ∀ done, done <+: duringDusk → (p.moves done).1.flag? ≠ some true := by
    intro done hdone
    rw [List.prefix_iff_eq_take.mp hdone]
    exact htakes _ (Nat.lt_succ_of_le hdone.length_le)
  have hinbox : q.inbox = [.dispatch .rewind 2] := by
    have hsent : q.inbox = (p.moves (duringDusk.take 3)).1.inbox ++
        [.dispatch .rewind (p.moves (duringDusk.take 3)).1.calls] := by
      show (p.moves (_ ++ _)).1.inbox = _
      rw [moves_append]
      rfl
    rw [hsent, List.isEmpty_iff.mp hnext, hnumber]
    rfl
  have hrest : r.1.Rests := by
    obtain ⟨hphase, hactive, hempty, hheld, hs, hl⟩ := hr
    exact rests_of_seen hphase hactive (List.isEmpty_iff.mp hempty) hheld hs hl
  obtain ⟨hnone, last, text, hlast, htext, hthen⟩ :=
    compiles_of_live hrests hready hcompiled hcalls hoff
  have hafter : ∀ m ∈ untilNight, m.call? = none := by simp [untilNight, Move.call?]
  have hcompiles := (hthen .rewind 2 hinbox hon untilNight hafter).1 hrest
  rw [hbegun] at hlast
  cases hlast
  have hquay : text = "A quay by dusk." := by
    have hsome : some text = some "A quay by dusk." := htext.symm.trans (by decide +kernel)
    exact Option.some.inj hsome
  subst hquay
  rw [if_neg (by decide +kernel)] at hcompiles
  exact ⟨hrests, hready, hinbox, hon, hoff, hnone, hrest, hcompiles⟩

end Preview

end StoryPreview
