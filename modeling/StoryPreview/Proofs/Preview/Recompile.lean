import StoryPreview.Proofs.Preview.Run
/-!
What a preview has compiled. The history of a run pairs the sources whose compiles have begun with what
their results made of the session. As long as the session lasts, `Chronicle` ties the history to what the
coordinator remembers, round by round; at rest it says that nothing is left to compile and that the
session was begun anew for the first success of each epoch and for no other (`compilations_of_play`).
-/
namespace StoryPreview

/-! ## The history -/

/-- The result of a compile, and the session before and after the actor took it. -/
structure Load where
  result : CompileResult
  before : Session
  after : Session

/-- The results that an actor takes. -/
def Actor.loads (a : Actor) : List Command → List Load
  | [] => []
  | c :: cs =>
    let rest := (a.step c).1.loads cs
    match c with
    | .load result restart =>
      if a.isStopped then rest
      else ⟨result, a.session, (a.load result restart).1.session⟩ :: rest
    | _ => rest

/-- The sources whose compiles have begun. -/
def begun (events : List Event) : List Source :=
  events.filterMap fun
    | .compiling text epoch => some ⟨text, epoch⟩
    | _ => none

theorem begun_nil : begun [] = [] := rfl

@[simp] theorem begun_append (es fs : List Event) : begun (es ++ fs) = begun es ++ begun fs :=
  List.filterMap_append

/-- A compile: its source, and what became of it. -/
structure Compilation extends Load where
  source : Source

/-- Whether a compile was a success in an epoch. -/
def Compilation.succeedsIn (epoch : Nat) (c : Compilation) : Bool :=
  c.result.isOk && c.source.epoch == epoch

/-- The compiles are those that have begun and those whose results were taken, and each result is what
one of the compilers answers. -/
structure Records (compilers : List (String → CompileResult)) (events : List Event)
    (loads : List Load) (history : List Compilation) : Prop where
  sources : history.map Compilation.source = begun events
  loads : history.map Compilation.toLoad = loads
  answers : ∀ c ∈ history, ∃ compile ∈ compilers, c.result = compile c.source.text

theorem Records.nil {compilers : List (String → CompileResult)} {events : List Event}
    (h : begun events = []) : Records compilers events [] [] := ⟨h.symm, rfl, by simp⟩

theorem Records.append {compilers : List (String → CompileResult)} {events more : List Event}
    {loads loads' : List Load} {history new : List Compilation}
    (h : Records compilers events loads history) (h' : Records compilers more loads' new) :
    Records compilers (events ++ more) (loads ++ loads') (history ++ new) where
  sources := by rw [List.map_append, begun_append, h.sources, h'.sources]
  loads := by rw [List.map_append, h.loads, h'.loads]
  answers := fun c hc => (List.mem_append.mp hc).elim (h.answers c) (h'.answers c)

theorem Records.mono {compilers more : List (String → CompileResult)} {events : List Event}
    {loads : List Load} {history : List Compilation} (h : Records compilers events loads history)
    (hsub : compilers ⊆ more) : Records more events loads history where
  sources := h.sources
  loads := h.loads
  answers := fun c hc => by
    obtain ⟨compile, hmem, hresult⟩ := h.answers c hc
    exact ⟨compile, hsub hmem, hresult⟩

namespace Preview

/-- The results that the actor takes in a round. -/
def roundLoads (compile : String → CompileResult) (p : Preview) : List Load :=
  p.actor.loads (p.coordinate compile).1.inbox

/-- The results that the actor takes until neither party can move. -/
def settleLoads (compile : String → CompileResult) (p : Preview) : List Load :=
  let second := (p.round compile).1
  let third := (second.round compile).1
  p.roundLoads compile ++ second.roundLoads compile ++ third.roundLoads compile

/-- The results that the actor takes in the course of calls. -/
def loads (p : Preview) : List (Call × (String → CompileResult)) → List Load
  | [] => []
  | (call, compile) :: steps =>
    (p.take call).1.settleLoads compile ++ (p.perform compile call).1.loads steps

end Preview

/-- Whether a command is the result of a compile. -/
def Command.isLoad : Command → Bool
  | .load .. => true
  | _ => false

/-! ## What an actor says -/

namespace Actor

theorem begun_apply (a : Actor) (notices : Thunk (List Notice)) (r : Reply Unit) :
    begun (a.apply notices r).2 = [] := by
  have hevents : begun (eventsOf notices r) = [] := by
    simp [eventsOf, begun]
  have hsettle : begun (settle r).2 = [] := by
    unfold settle
    split
    · rfl
    · simp [begun]
    · rfl
  show begun (eventsOf notices r ++ (settle r).2) = []
  rw [begun_append, hevents, hsettle]
  rfl

theorem begun_perform (a : Actor) (action : Action) (call : Nat) :
    begun (a.perform action call).2 = [] := by
  show begun ((a.apply _ _).2 ++ [_]) = []
  rw [begun_append, begun_apply]
  rfl

theorem begun_load (a : Actor) (result : CompileResult) (restart : Bool) :
    begun (a.load result restart).2 = [] := by
  unfold load
  cases result with
  | ok p =>
    dsimp only
    split
    · exact begun_apply a _ _
    · exact begun_apply a _ _
  | error errors => exact begun_apply a _ _

theorem begun_drain (a : Actor) (q : List (Action × Nat)) : begun (a.drain q).2 = [] := by
  induction q generalizing a with
  | nil => rfl
  | cons head rest ih =>
    obtain ⟨action, call⟩ := head
    cases h : a.isStopped with
    | true =>
      rw [drain_of_stopped h]
      rfl
    | false =>
      rw [drain_cons h, begun_append, begun_perform, ih]
      rfl

theorem begun_release (a : Actor) : begun a.release.2 = [] := by
  have hdrop (q : List (Action × Nat)) : begun (q.flatMap drop) = [] := by
    induction q with
    | nil => rfl
    | cons head rest ih => exact ih
  unfold release
  split
  · rw [begun_append, hdrop]
    rfl
  · rfl

theorem begun_obey (a : Actor) (c : Command) : begun (a.obey c).2 = [] := by
  cases c with
  | dispatch action call =>
    unfold obey
    dsimp only
    split
    · rfl
    · exact begun_perform a action call
  | load result restart =>
    rw [obey_load, begun_append, begun_load, begun_drain]
    rfl
  | dispose => simp [obey, begun]
  | _ => rfl

theorem begun_step (a : Actor) (c : Command) : begun (a.step c).2 = [] := by
  cases h : a.isStopped with
  | true =>
    rw [step_of_stopped h]
    simp [begun]
  | false =>
    rw [step_of_active h, begun_append, begun_obey, begun_release]
    rfl

/-- No compile begins with the actor. -/
theorem begun_run (a : Actor) (cs : List Command) : begun (a.run cs).2 = [] := by
  induction cs generalizing a with
  | nil => rfl
  | cons c cs ih =>
    rw [run_cons, begun_append, begun_step, ih]
    rfl

/-! ## What an actor takes -/

theorem loads_append (a : Actor) (cs ds : List Command) :
    a.loads (cs ++ ds) = a.loads cs ++ (a.run cs).1.loads ds := by
  induction cs generalizing a with
  | nil => rfl
  | cons c cs ih =>
    rw [run_cons]
    cases c with
    | load result restart =>
      rw [List.cons_append, loads, loads, ih]
      dsimp only
      split <;> rfl
    | _ => exact ih _

/-- Only loads bring results. -/
theorem loads_of_none {cs : List Command} (h : ∀ c ∈ cs, c.isLoad = false) (a : Actor) :
    a.loads cs = [] := by
  induction cs generalizing a with
  | nil => rfl
  | cons c cs ih =>
    have hc := h c List.mem_cons_self
    have hcs : ∀ c ∈ cs, c.isLoad = false := fun c hmem => h c (List.mem_cons_of_mem _ hmem)
    cases c with
    | load result restart => cases hc
    | _ => exact ih hcs _

/-- What a load that leaves the session in use does to it. Whoever has been given a story keeps one. -/
theorem Steady.run_load {a : Actor} (h : a.Steady) {result : CompileResult} {restart : Bool}
    (ha : (a.run [.load result restart]).1.isStopped = false) :
    ∃ t, a.loads [.load result restart] = [⟨result, a.session, t⟩] ∧
      a.session.Takes (restart || !a.session.hasStory) t result ∧
      (result.isOk = true → (a.run [.load result restart]).1.session.hasStory = true) := by
  obtain ⟨dropped, hserves⟩ := serves_run h.tidy [.load result restart]
  have hactive : (a.run [.load result restart]).1.session.disposed = false := ha
  rw [hserves.session] at hactive ⊢
  rw [Command.schedule, Command.schedule, List.append_nil, Command.jobs,
    Session.serve_cons h.active] at hactive ⊢
  have hdone : (a.session.done (.load result restart)).disposed = false := by
    cases hd : (a.session.done (.load result restart)).disposed with
    | false => rfl
    | true =>
      -- The queue behind the load would have found the session ended.
      rw [Session.serve_of_disposed hd] at hactive
      exact hd.symm.trans hactive
  have htakes := Session.takes_load h.active hdone
  refine ⟨_, ?_, htakes, fun hok => ?_⟩
  · rw [loads, loads, if_neg (by simp [h.active]), (does_load a result restart).session]
  · refine ((h.settled.upkeep_load hdone).settled.serve hactive).story ?_
    cases result with
    | error errors => cases hok
    | ok p =>
      rw [Session.hasStory_of_blank (Session.blank_of_rebuild htakes)]
      rfl

theorem active_of_run {a : Actor} {cs : List Command} (h : (a.run cs).1.isStopped = false) :
    a.isStopped = false := by
  cases ha : a.isStopped with
  | false => rfl
  | true =>
    rw [isStopped, session_run_of_stopped ha] at h
    exact ha.symm.trans h

/-- The same of a load behind other commands. -/
theorem Steady.run_append_load {a : Actor} (h : a.Steady) {cs : List Command}
    (hcs : ∀ c ∈ cs, c.isLoad = false) {result : CompileResult} {restart : Bool}
    (ha : (a.run (cs ++ [.load result restart])).1.isStopped = false) :
    ∃ s t, a.loads (cs ++ [.load result restart]) = [⟨result, s, t⟩] ∧
      s.Takes (restart || !s.hasStory) t result ∧
      (a.session.hasStory = true → s.hasStory = true) ∧
      (result.isOk = true →
        (a.run (cs ++ [.load result restart])).1.session.hasStory = true) := by
  rw [run_append] at ha ⊢
  obtain ⟨hsteady, hstory, _⟩ := h.run (active_of_run ha)
  obtain ⟨t, hloads, htakes, hok⟩ := hsteady.run_load ha
  refine ⟨(a.run cs).1.session, t, ?_, htakes, hstory, hok⟩
  rw [loads_append, loads_of_none hcs, hloads]
  rfl

end Actor

namespace Preview

/-! ## The history of a preview -/

/-- What the coordinator remembers of the history, and what the history has made of the session. -/
structure Chronicle (p : Preview) (history : List Compilation) : Prop where
  /-- It remembers what was compiled last. -/
  compiled : p.compiled = history.getLast?.map fun c =>
    ⟨c.source.epoch, .ofText c.source.text⟩
  /-- The epoch of the story that the session runs had a success. -/
  loaded : ∀ e, p.loadedEpoch = some e →
    p.actor.session.hasStory = true ∧ e ≤ p.epoch ∧ ∃ c ∈ history, c.succeedsIn e = true
  /-- No later epoch had one. -/
  latest : ∀ e, ∀ c ∈ history, c.succeedsIn e = true → ∃ l, p.loadedEpoch = some l ∧ e ≤ l
  /-- The first success of an epoch restarts the session. -/
  taken : ∀ earlier c, earlier ++ [c] <+: history →
    c.before.Takes (!earlier.any (Compilation.succeedsIn c.source.epoch)) c.after c.result

theorem chronicle_new (liveDefault : Bool) : (new liveDefault).Chronicle [] where
  compiled := rfl
  loaded := by simp [new]
  latest := by simp
  taken := by simp

variable {compile : String → CompileResult} {p q : Preview} {history : List Compilation}

/-- A history stands as long as nothing is compiled and the session keeps its story. -/
theorem Chronicle.frame (hc : p.Chronicle history) (hcompiled : q.compiled = p.compiled)
    (hloaded : q.loadedEpoch = p.loadedEpoch) (hepoch : p.epoch ≤ q.epoch)
    (hstory : p.actor.session.hasStory = true → q.actor.session.hasStory = true) :
    q.Chronicle history where
  compiled := hcompiled.trans hc.compiled
  loaded := fun e he => by
    obtain ⟨hs, hle, hmem⟩ := hc.loaded e (hloaded ▸ he)
    exact ⟨hstory hs, Nat.le_trans hle hepoch, hmem⟩
  latest := by
    rw [hloaded]
    exact hc.latest
  taken := hc.taken

/-- The session restarts for a success if and only if it is the first of its epoch. -/
theorem Chronicle.first_iff (hc : p.Chronicle history) {s : Source} (hs : p.source = some s) :
    history.any (Compilation.succeedsIn s.epoch) = true ↔ p.loadedEpoch = some s.epoch := by
  have hepoch : p.epoch = s.epoch := by
    rw [epoch, hs]
    rfl
  rw [List.any_eq_true]
  constructor
  · rintro ⟨c, hmem, hsucceeds⟩
    obtain ⟨l, hl, hle⟩ := hc.latest _ c hmem hsucceeds
    have hge := (hc.loaded l hl).2.1
    rw [hl, Nat.le_antisymm (hepoch ▸ hge) hle]
  · intro hl
    exact (hc.loaded _ hl).2.2

/-- A compile of the latest source enters the history. -/
theorem Chronicle.append (hc : p.Chronicle history) {c : Compilation}
    (hs : p.source = some c.source) (hsource : q.source = p.source)
    (hcompiled : q.compiled = some ⟨c.source.epoch, .ofText c.source.text⟩)
    (hloaded : q.loadedEpoch = if c.result.isOk then some c.source.epoch else p.loadedEpoch)
    (hkept : p.actor.session.hasStory = true → q.actor.session.hasStory = true)
    (hgiven : c.result.isOk = true → q.actor.session.hasStory = true)
    (htakes : c.before.Takes (!history.any (Compilation.succeedsIn c.source.epoch)) c.after
      c.result) : q.Chronicle (history ++ [c]) := by
  have hepoch : p.epoch = c.source.epoch := by
    rw [epoch, hs]
    rfl
  have hepochs : q.epoch = p.epoch := by
    rw [epoch, hsource]
    rfl
  have hnew (hok : c.result.isOk = true) : q.loadedEpoch = some c.source.epoch := by
    rw [hloaded, if_pos hok]
  have hold (hno : c.result.isOk = false) : q.loadedEpoch = p.loadedEpoch := by
    rw [hloaded, if_neg (by simp [hno])]
  refine ⟨?_, fun e he => ?_, fun e d hd hsucceeds => ?_, fun earlier d hprefix => ?_⟩
  · rw [hcompiled, List.getLast?_concat]
    rfl
  · cases hok : c.result.isOk with
    | true =>
      obtain rfl : c.source.epoch = e := Option.some.inj ((hnew hok).symm.trans he)
      exact ⟨hgiven hok, by omega, c, by simp, by simp [Compilation.succeedsIn, hok]⟩
    | false =>
      obtain ⟨hstory, hle, d, hd, hsucceeds⟩ := hc.loaded e ((hold hok).symm.trans he)
      exact ⟨hkept hstory, by omega, d, List.mem_append_left _ hd, hsucceeds⟩
  · obtain hd | hd := List.mem_append.mp hd
    · obtain ⟨l, hl, hle⟩ := hc.latest e d hd hsucceeds
      cases hok : c.result.isOk with
      | true =>
        -- Epochs never fall, so no earlier success is of a later epoch than this one.
        have hl' := (hc.loaded l hl).2.1
        exact ⟨_, hnew hok, by omega⟩
      | false => exact ⟨l, (hold hok).trans hl, hle⟩
    · obtain rfl := List.mem_singleton.mp hd
      simp only [Compilation.succeedsIn, Bool.and_eq_true, beq_iff_eq] at hsucceeds
      exact ⟨_, hnew hsucceeds.1, Nat.le_of_eq hsucceeds.2.symm⟩
  · obtain heq | hprefix := List.prefix_concat_iff.mp hprefix
    · obtain ⟨rfl, rfl⟩ : earlier = history ∧ d = c := by simpa using heq
      exact htakes
    · exact hc.taken earlier d hprefix

/-! ## One round -/

/-- No result is under way before the coordinator has its turn. -/
theorem Running.isLoad_inbox (h : p.Running) : ∀ c ∈ p.inbox, c.isLoad = false := by
  intro c hc
  obtain ⟨a, call, rfl⟩ := h.inbox c hc
  rfl

/-- A load restarts the session if it is the first success of its epoch and in no other case. -/
theorem Chronicle.restarts_eq (hc : p.Chronicle history) {s : Source} (hs : p.source = some s)
    {t : Session} (ht : p.actor.session.hasStory = true → t.hasStory = true) :
    (decide (p.loadedEpoch ≠ some s.epoch) || !t.hasStory) =
      !history.any (Compilation.succeedsIn s.epoch) := by
  have hfirst := hc.first_iff hs
  cases hany : history.any (Compilation.succeedsIn s.epoch) with
  | true =>
    have hl := hfirst.mp hany
    simp [hl, ht (hc.loaded _ hl).1]
  | false =>
    have hl : p.loadedEpoch ≠ some s.epoch := fun hl => by
      rw [hfirst.mpr hl] at hany
      cases hany
    simp [hl]

/-- A round adds to the history what it compiles. -/
theorem Chronicle.round (hc : p.Chronicle history) (h : p.Running)
    (compile : String → CompileResult) (ha : (p.round compile).1.actor.isStopped = false) :
    ∃ new, Records [compile] (p.round compile).2 (p.roundLoads compile) new ∧
      (p.round compile).1.Chronicle (history ++ new) := by
  have hturn := h.turn compile
  have hactor := (keeps_coordinate compile p).actor
  unfold Preview.round roundLoads at *
  dsimp only at ha ⊢
  generalize p.coordinate compile = r at ha hturn hactor
  have hactive : (p.actor.run r.1.inbox).1.isStopped = false := hactor ▸ ha
  have hkept := (h.actor.run hactive).2.1
  have hbegun : begun (r.2 ++ (p.actor.run r.1.inbox).2) = begun r.2 := by
    rw [begun_append, Actor.begun_run, List.append_nil]
  have hhold : ∀ c ∈ [Command.hold], c.isLoad = false := by simp [Command.isLoad]
  rw [deliver_of_active ha, hactor]
  -- Whatever the turn was, if it sent no result, nothing has entered the history.
  have hquiet (hcs : ∀ c ∈ r.1.inbox, c.isLoad = false) (hnone : begun r.2 = []) :
      Records [compile] (r.2 ++ (p.actor.run r.1.inbox).2) (p.actor.loads r.1.inbox) [] := by
    rw [Actor.loads_of_none hcs]
    exact .nil (hbegun.trans hnone)
  cases hturn with
  | rest hphase hv =>
    refine ⟨[], hquiet h.isLoad_inbox (by simp [begun]), ?_⟩
    rw [List.append_nil]
    exact hc.frame rfl rfl (Nat.le_refl _) hkept
  | wait hphase hgate =>
    refine ⟨[], hquiet h.isLoad_inbox rfl, ?_⟩
    rw [List.append_nil]
    exact hc.frame rfl rfl (Nat.le_refl _) hkept
  | announce hphase hgate hs hv =>
    refine ⟨[], hquiet (List.forall_mem_append.mpr ⟨h.isLoad_inbox, hhold⟩) rfl, ?_⟩
    rw [List.append_nil]
    exact hc.frame rfl rfl (Nat.le_refl _) hkept
  | @compile s cs liveChanged hgate hs hcause =>
    have hcs : ∀ c ∈ cs, c.isLoad = false := by
      obtain ⟨_, _, rfl⟩ | ⟨_, rfl⟩ := hcause
      · exact hhold
      · simp
    obtain ⟨before, after, hloads, htakes, hstory, hgiven⟩ :=
      h.actor.run_append_load (List.forall_mem_append.mpr ⟨h.isLoad_inbox, hcs⟩) hactive
    rw [hc.restarts_eq hs hstory] at htakes
    refine ⟨[⟨⟨compile s.text, before, after⟩, s⟩], ⟨hbegun.symm, hloads.symm, by simp⟩, ?_⟩
    exact hc.append hs rfl rfl rfl hkept hgiven htakes

/-! ## All rounds and calls -/

theorem Chronicle.settle (hc : p.Chronicle history) (h : p.Running)
    (compile : String → CompileResult) (ha : (p.settle compile).1.actor.isStopped = false) :
    ∃ new, Records [compile] (p.settle compile).2 (p.settleLoads compile) new ∧
      (p.settle compile).1.Chronicle (history ++ new) := by
  obtain ⟨ha₁, h₁, ha₂, h₂⟩ := h.rounds ha
  obtain ⟨new₁, hrecords₁, hc₁⟩ := hc.round h compile ha₁
  obtain ⟨new₂, hrecords₂, hc₂⟩ := hc₁.round h₁ compile ha₂
  obtain ⟨new₃, hrecords₃, hc₃⟩ := hc₂.round h₂ compile ha
  refine ⟨new₁ ++ new₂ ++ new₃, (hrecords₁.append hrecords₂).append hrecords₃, ?_⟩
  rw [← List.append_assoc, ← List.append_assoc]
  exact hc₃

/-- A call alone begins no compile. -/
theorem begun_take (p : Preview) (call : Call) : begun (p.take call).2 = [] := by
  have hdispatch (a : Action) : begun (p.dispatch a).2 = [] := by
    unfold dispatch
    dsimp only
    split <;> rfl
  cases call with
  | ready =>
    unfold take
    dsimp only
    split <;> rfl
  | dispatch a => exact hdispatch a
  | message raw =>
    unfold take handleMessage
    dsimp only
    split
    · unfold answered
      dsimp only
      split <;> rfl
    · exact hdispatch _
    · simp [answered, begun]
    · exact hdispatch _
    · rfl
  | _ => rfl

theorem Chronicle.take (hc : p.Chronicle history) (call : Call) :
    (p.take call).1.Chronicle history := by
  have htakes := takes_take p call
  generalize (p.take call).1 = q at htakes
  cases htakes with
  | source htext hready => exact hc.frame rfl rfl (Nat.le_add_right _ _) id
  | _ => exact hc.frame rfl rfl (Nat.le_refl _) id

theorem Chronicle.perform (hc : p.Chronicle history) (h : p.Running) (hi : p.Idle) {call : Call}
    (ha : (p.perform compile call).1.actor.isStopped = false) :
    ∃ new, Records [compile] (p.perform compile call).2 ((p.take call).1.settleLoads compile) new ∧
      (p.perform compile call).1.Chronicle (history ++ new) := by
  obtain ⟨new, hrecords, hsettle⟩ :=
    (hc.take call).settle (h.perform hi ha).1 compile ha
  exact ⟨new, (Records.nil (begun_take p call)).append hrecords, hsettle⟩

theorem Chronicle.play {steps : List (Call × (String → CompileResult))}
    (hc : p.Chronicle history) (h : p.Running) (hi : p.Idle)
    (ha : (p.play steps).1.actor.isStopped = false) :
    ∃ new, Records (steps.map Prod.snd) (p.play steps).2 (p.loads steps) new ∧
      (p.play steps).1.Chronicle (history ++ new) := by
  induction steps generalizing p history with
  | nil =>
    refine ⟨[], .nil rfl, ?_⟩
    rw [List.append_nil]
    exact hc
  | cons step steps ih =>
    obtain ⟨call, compile⟩ := step
    rw [play_cons] at ha ⊢
    have hactive := active_of_play ha
    obtain ⟨_, hrun, hidle⟩ := h.perform hi hactive
    obtain ⟨new, hrecords, hperform⟩ := hc.perform h hi hactive
    obtain ⟨rest, hrest, hplay⟩ := ih hperform hrun hidle ha
    refine ⟨new ++ rest, ?_, ?_⟩
    · exact (hrecords.mono (by simp)).append (hrest.mono (by simp))
    · rw [← List.append_assoc]
      exact hplay

/-- At rest, with the display ready, the latest source is the one compiled last, but for an equal
fingerprint, or it is held up in its epoch until the live-update flag is set. -/
theorem Chronicle.last_of_idle (hc : p.Chronicle history) (h : p.Running) (hi : p.Idle)
    (hgate : p.gate ≠ .waiting) {s : Source} (hs : p.source = some s) :
    ∃ last, history.getLast? = some last ∧ last.source.epoch = s.epoch ∧
      (Fingerprint.ofText last.source.text = .ofText s.text ∨
        p.actor.session.state.liveUpdate = false) := by
  have hphase : p.phase = .watching :=
    h.phase.resolve_right fun hwait => hgate (hi.waiting hwait.1)
  have hv := h.seen hphase (hi.seen hphase).1 (hi.seen hphase).2 s hs
  rw [hc.compiled, h.live] at hv
  cases hlast : history.getLast? with
  | none =>
    rw [hlast] at hv
    exact absurd rfl hv
  | some last =>
    rw [hlast] at hv
    refine ⟨last, rfl, ?_⟩
    simp only [Option.map_some, verdict] at hv
    split at hv
    · exact absurd rfl hv
    · rename_i hepoch
      refine ⟨Decidable.not_not.mp hepoch, ?_⟩
      split at hv
      · rename_i hflag
        exact .inr (by simpa using hflag)
      · split at hv
        · rename_i hprint
          exact .inl hprint
        · exact absurd rfl hv

/-- As long as the session lasts, neither party can move after a call, and the history has every compile.
Once the display has been ready, the last text handed over is the one compiled last, but for an equal
fingerprint, or it is of the epoch compiled last and the live-update flag is not set. A success restarts
the session if it is the first of its epoch, and otherwise replays the log so far without compile errors;
a failure records its errors and changes nothing else. -/
theorem compilations_of_play {liveDefault : Bool}
    {steps : List (Call × (String → CompileResult))}
    (hready : ∃ step ∈ steps, step.1.isReady = true)
    (hactive : ((new liveDefault).play steps).1.actor.isStopped = false) :
    let p := ((new liveDefault).play steps).1
    let calls := steps.map Prod.fst
    (∀ compile, p.round compile = (p, [])) ∧ ∃ history : List Compilation,
      Records (steps.map Prod.snd) ((new liveDefault).play steps).2 ((new liveDefault).loads steps)
        history ∧
      (∀ text, (calls.filterMap Call.text?).getLast? = some text →
        ∃ last, history.getLast? = some last ∧
          last.source.epoch = calls.countP Call.isNewStory ∧
          (Fingerprint.ofText last.source.text = .ofText text ∨
            p.actor.session.state.liveUpdate = false)) ∧
      ∀ earlier c, earlier ++ [c] <+: history →
        c.before.Takes (!earlier.any (Compilation.succeedsIn c.source.epoch)) c.after c.result := by
  intro p calls
  have hnew := running_new liveDefault
  have hrest := idle_new liveDefault
  obtain ⟨hrun, hidle⟩ := hnew.play hrest hactive
  obtain ⟨history, hrecords, hc⟩ := (chronicle_new liveDefault).play hnew hrest hactive
  refine ⟨hidle.round hrun, history, hrecords, fun text htext => ?_, hc.taken⟩
  obtain ⟨hepoch, htexts⟩ := hnew.source_play hrest hactive
  rw [htext, Option.some_or, Option.map_eq_some_iff] at htexts
  obtain ⟨s, hs, rfl⟩ := htexts
  have hcount : s.epoch = calls.countP Call.isNewStory := by
    rw [epoch, hs] at hepoch
    exact hepoch.trans (Nat.zero_add _)
  rw [← hcount]
  exact hc.last_of_idle hrun hidle (hnew.gate_play hrest hactive (.inr hready)) hs

end Preview

/-! ## An example -/

/-- The compiler of scripts that include nothing. -/
def compileAlone (text : String) : CompileResult :=
  (Story.compile (.ofTexts []) text).map fun s => .ofStory s 100

def harborScript : String :=
  "A harbor.\n[BRANCH choice=sail label=sea]\n[LABEL name=sea]\nThe sea."

/-- A story, a choice, a new story that does not compile, its repair, an edit that does not compile and its
repair; then live update is switched off and the story edited once more. -/
def Preview.toQuay : List (Call × (String → CompileResult)) :=
  [.newStory harborScript, .message "\x7b\"type\":\"ready\"\x7d", .dispatch (.selectChoice 0),
    .newStory "[NOPE]", .edit "A quay.", .edit "A quay.\n[NOPE]", .edit "A quay by day.",
    .dispatch (.toggleLiveUpdate false), .edit "A quay by night."].map fun call =>
      (call, compileAlone)

/-- Five of the six texts are compiled, in two epochs. The log of the harbor is gone, and the error that the
new log held is gone with the repair. -/
theorem Preview.compilations_of_play_toQuay :
    (∃ step ∈ toQuay, step.1.isReady = true) ∧
      ((new true).play toQuay).1.actor.isStopped = false ∧
      begun ((new true).play toQuay).2 =
        [⟨harborScript, 1⟩, ⟨"[NOPE]", 2⟩, ⟨"A quay.", 2⟩, ⟨"A quay.\n[NOPE]", 2⟩,
          ⟨"A quay by day.", 2⟩] ∧
      ((new true).play (toQuay.take 6)).1.actor.session.log =
        [.start, .recordErrors [⟨.compile, "line 2: Unknown command 'NOPE'", some 2⟩]] ∧
      ((new true).play toQuay).1.actor.session.log = [.start, .toggleLiveUpdate false] ∧
      ∃ history : List Compilation,
        Records (toQuay.map Prod.snd) ((new true).play toQuay).2 ((new true).loads toQuay) history ∧
        (∃ last, history.getLast? = some last ∧ last.source.epoch = 2 ∧
          (Fingerprint.ofText last.source.text = .ofText "A quay by night." ∨
            ((new true).play toQuay).1.actor.session.state.liveUpdate = false)) ∧
        ∀ earlier c, earlier ++ [c] <+: history →
          c.before.Takes (!earlier.any (Compilation.succeedsIn c.source.epoch)) c.after c.result := by
  have hready : ∃ step ∈ toQuay, step.1.isReady = true :=
    ⟨(.message "\x7b\"type\":\"ready\"\x7d", compileAlone), by simp [toQuay], by decide +kernel⟩
  have hactive : ((new true).play toQuay).1.actor.isStopped = false := by decide +kernel
  obtain ⟨_, history, hrecords, hlast, htaken⟩ := compilations_of_play hready hactive
  exact ⟨hready, hactive, by decide +kernel, by decide +kernel, by decide +kernel, history, hrecords,
    hlast "A quay by night." rfl, htaken⟩

end StoryPreview
