import Mathlib.Logic.Basic
import StoryPreview.Proofs.Script.Origin
import StoryPreview.Proofs.Story.Extension
/-!
Compiled stories stay on course. In a story that a compile gives every target is a label that stands where
the table has it, and every branch has a choice (`closed_of_compile`). So no command leaves the story
(`OnCourse.move`), no run does (`OnCourse.advance`), and neither does a player, whatever is asked of it and
whether or not it fails (`onCourse_of_compile`).
-/
namespace StoryPreview

namespace Link

/-- A label that is found stands there. -/
theorem getElem?_of_mem_labelsFrom {n i : Nat} {nodes : List Node} {name : String}
    (h : (name, i) ∈ labelsFrom n nodes) : n ≤ i ∧ nodes[i - n]? = some (.label name) := by
  induction nodes generalizing n with
  | nil => cases h
  | cons node nodes ih =>
    have hlater (h : (name, i) ∈ labelsFrom (n + 1) nodes) :
        n ≤ i ∧ (node :: nodes)[i - n]? = some (.label name) := by
      obtain ⟨hle, hget⟩ := ih h
      have hsub : i - n = i - (n + 1) + 1 := by omega
      rw [hsub, List.getElem?_cons_succ]
      exact ⟨by omega, hget⟩
    cases node with
    | label other =>
      rcases List.mem_cons.mp h with heq | h
      · cases heq
        rw [Nat.sub_self]
        exact ⟨Nat.le_refl _, rfl⟩
      · exact hlater h
    | _ => exact hlater h

end Link

namespace Story

/-! ## Compiled stories -/

/-- A label stands at a place, and the table says so. -/
def Marked (s : Story) (label : String) (i : Nat) : Prop :=
  s.labelIndex? label = some i ∧ s.node? i = some (.label label)

/-- A story without loose ends: every target is a label in its place, and every branch has a choice. -/
structure Closed (s : Story) : Prop where
  target : ∀ {i node}, s.node? i = some node → ∀ label ∈ node.targets, ∃ j, s.Marked label j
  offers : ∀ {i node}, s.node? i = some node → node.Offers

theorem node?_of_linked {nodes : List Node} {s : Story} (h : Linked nodes s) (i : Nat) :
    s.node? i = nodes[i]? := by
  unfold node?
  rw [h.nodes_eq, List.getElem?_toArray]

theorem closed_of_compile {inc : Includes} (hinc : inc.FromTexts) {source : String} {s : Story}
    (h : Story.compile inc source = .ok s) : s.Closed := by
  obtain ⟨nodes, expanded, hparse, hexpand, hlink⟩ := compile_ok h
  have hlinked := linked_of_link hlink
  refine ⟨fun {i node} hnode label hlabel => ?_, fun {i node} hnode => ?_⟩
  · rw [node?_of_linked hlinked] at hnode
    obtain ⟨j, hj⟩ := hlinked.target node (List.mem_of_getElem? hnode) label hlabel
    refine ⟨j, hlinked.label hj, ?_⟩
    rw [node?_of_linked hlinked]
    exact (Link.getElem?_of_mem_labelsFrom hj).2
  · rw [node?_of_linked hlinked] at hnode
    exact (Includes.read_of_expand hinc hparse hexpand (List.mem_of_getElem? hnode)).offers

/-! ## One command -/

/-- The label a command sends the story to from a cursor, if it does. -/
def destination? (c : Cursor) : Node → Option String
  | .jump label => some label
  | .jumpIf var cmp value label =>
    match c.check var cmp value with
    | .ok true => some label
    | _ => none
  | _ => none

/-- A command sends the story to its destination, or lets it go on with the next command. -/
theorem move_destination (s : Story) (c : Cursor) (node : Node) :
    (∃ label ∈ node.targets, destination? c node = some label ∧ s.move c node = s.jump c label) ∨
      (destination? c node = none ∧ (s.move c node).pc = c.pc + 1) := by
  cases node with
  | jump label => exact .inl ⟨label, List.mem_singleton_self _, rfl, rfl⟩
  | jumpIf var cmp value label =>
    by_cases hcheck : c.check var cmp value = .ok true
    · refine .inl ⟨label, List.mem_singleton_self _, ?_, ?_⟩
      · rw [destination?, hcheck]
      · rw [move, hcheck]
    · refine .inr ⟨?_, ?_⟩
      · rw [destination?]
        split
        · exact absurd ‹_› hcheck
        · rfl
      · rw [move]
        split
        · exact absurd ‹_› hcheck
        · rfl
  | modify name op value =>
    refine .inr ⟨rfl, ?_⟩
    rw [move]
    split
    · rename_i c' hc
      unfold Cursor.modify at hc
      split at hc <;> cases hc
      rfl
    · rfl
  | _ => exact .inr ⟨rfl, rfl⟩

variable {s : Story} {c : Cursor} {node : Node}

theorem jump_of_marked {label : String} {i : Nat} (h : s.Marked label i) (c : Cursor) :
    s.jump c label = { c with pc := i } := by
  unfold jump
  rw [h.1]

theorem Marked.lt_size {label : String} {i : Nat} (h : s.Marked label i) : i < s.size :=
  (Array.getElem?_eq_some_iff.mp h.2).1

theorem lt_size_of_node? {i : Nat} (h : s.node? i = some node) : i < s.size :=
  (Array.getElem?_eq_some_iff.mp h).1

/-- A jump lands on its label. -/
theorem Closed.lands (hs : s.Closed) (hn : s.node? c.pc = some node) {label : String}
    (hd : destination? c node = some label) :
    ∃ i, s.Marked label i ∧ s.move c node = { c with pc := i } := by
  rcases move_destination s c node with ⟨label', hlabel, hd', hmove⟩ | ⟨hd', _⟩
  · rw [hd'] at hd
    cases hd
    obtain ⟨i, hi⟩ := hs.target hn label hlabel
    exact ⟨i, hi, hmove.trans (jump_of_marked hi c)⟩
  · rw [hd'] at hd
    cases hd

end Story

/-- A cursor that points into the story or to its end, and whose choices lead to labels. -/
structure Cursor.OnCourse (c : Cursor) (s : Story) : Prop where
  pc_le : c.pc ≤ s.size
  pending : ∀ choice ∈ c.pending, ∃ i, s.Marked choice.target i

namespace Cursor.OnCourse

open Story

variable {s : Story} {c : Cursor} {node : Node}

theorem start (s : Story) : Cursor.start.OnCourse s := ⟨Nat.zero_le _, nofun⟩

/-- No command leads off course. -/
theorem move (hs : s.Closed) (hc : c.OnCourse s) (hn : s.node? c.pc = some node) :
    (s.move c node).OnCourse s := by
  constructor
  · rcases move_destination s c node with ⟨label, hlabel, _, hmove⟩ | ⟨_, hpc⟩
    · obtain ⟨i, hi⟩ := hs.target hn label hlabel
      rw [hmove, jump_of_marked hi]
      exact Nat.le_of_lt hi.lt_size
    · rw [hpc]
      exact lt_size_of_node? hn
  · cases hstops : stops node with
    | false =>
      rw [move_pending s c hstops]
      exact hc.pending
    | true =>
      cases node with
      | branch choices =>
        exact fun choice hchoice => hs.target hn _ (List.mem_map_of_mem hchoice)
      | _ => cases hstops

end Cursor.OnCourse

namespace Story

/-! ## Runs -/

/-- The commands that a run executes within a budget, each with the cursor it is executed at. -/
def executed (s : Story) : Nat → Cursor → List (Cursor × Node)
  | 0, _ => []
  | budget + 1, c =>
    match s.node? c.pc with
    | none => []
    | some node => (c, node) :: if stops node then [] else s.executed budget (s.move c node)

theorem executed_none {s : Story} {c : Cursor} (hn : s.node? c.pc = none) (budget : Nat) :
    s.executed (budget + 1) c = [] := by
  rw [executed, hn]

theorem executed_some {s : Story} {c : Cursor} {node : Node} (hn : s.node? c.pc = some node)
    (budget : Nat) :
    s.executed (budget + 1) c =
      (c, node) :: if stops node then [] else s.executed budget (s.move c node) := by
  rw [executed, hn]

/-- A run puts out what these commands put out, and gets to where the last of them leads. -/
theorem advance_eq_executed (s : Story) (budget : Nat) (c : Cursor) (trace : List Output) :
    (s.advance budget c trace).trace =
        ((s.executed budget c).map fun e => output e.2).reverse ++ trace ∧
      (s.advance budget c trace).cursor =
        ((s.executed budget c).getLast?.map fun e => s.move e.1 e.2).getD c := by
  induction budget generalizing c trace with
  | zero => exact ⟨rfl, rfl⟩
  | succ budget ih =>
    cases hn : s.node? c.pc with
    | none =>
      rw [advance_none hn, executed_none hn]
      exact ⟨rfl, rfl⟩
    | some node =>
      rw [advance_some hn, executed_some hn]
      split
      · exact ⟨rfl, rfl⟩
      · obtain ⟨htrace, hcursor⟩ := ih (s.move c node) (output node :: trace)
        rw [htrace, hcursor, List.getLast?_cons]
        refine ⟨by simp, ?_⟩
        cases (s.executed budget (s.move c node)).getLast? <;> rfl

variable {s : Story} {c : Cursor}

/-- Every command is executed on course. -/
theorem onCourse_executed (hs : s.Closed) (hc : c.OnCourse s) {budget : Nat} {e : Cursor × Node}
    (he : e ∈ s.executed budget c) : e.1.OnCourse s ∧ s.node? e.1.pc = some e.2 := by
  induction budget generalizing c with
  | zero => cases he
  | succ budget ih =>
    cases hn : s.node? c.pc with
    | none =>
      rw [executed_none hn] at he
      cases he
    | some node =>
      rw [executed_some hn] at he
      rcases List.mem_cons.mp he with rfl | he
      · exact ⟨hc, hn⟩
      · split at he
        · cases he
        · exact ih (hc.move hs hn) he

/-- A run stays on course, also if its budget is spent. -/
theorem onCourse_run (hs : s.Closed) (hc : c.OnCourse s) (budget : Nat) :
    (s.run budget c).1.OnCourse s := by
  unfold run
  split
  · exact hc
  · show (s.advance budget c []).cursor.OnCourse s
    rw [(s.advance_eq_executed budget c []).2]
    cases hlast : (s.executed budget c).getLast? with
    | none => exact hc
    | some e =>
      obtain ⟨he, hn⟩ := onCourse_executed hs hc (List.mem_of_getLast? hlast)
      exact he.move hs hn

/-- A run that stops by itself has come to a choice or to the end. -/
theorem stopped_of_finished (hs : s.Closed) {budget : Nat} {trace : List Output}
    (hc : c.pending = []) (hf : (s.advance budget c trace).finished = true) :
    (s.advance budget c trace).cursor.pending = [] →
      s.size ≤ (s.advance budget c trace).cursor.pc := by
  induction budget generalizing c trace with
  | zero => exact fun _ => Array.getElem?_eq_none_iff.mp (Option.isNone_iff_eq_none.mp hf)
  | succ budget ih =>
    cases hn : s.node? c.pc with
    | none =>
      rw [advance_none hn]
      exact fun _ => Array.getElem?_eq_none_iff.mp hn
    | some node =>
      rw [advance_some hn] at hf ⊢
      by_cases hstops : stops node = true
      · rw [if_pos hstops]
        cases node with
        | branch choices => exact fun hnone => absurd hnone (hs.offers hn choices rfl)
        | _ => cases hstops
      · rw [if_neg hstops] at hf ⊢
        exact ih ((move_pending s c (by simpa using hstops)).trans hc) hf

/-- After a run that succeeds the story waits for a choice or is over. -/
theorem stopped_of_run (hs : s.Closed) {budget : Nat} {d : Cursor} {passage : Passage}
    (h : s.run budget c = (d, .ok passage)) (hd : d.pending = []) : s.size ≤ d.pc := by
  unfold run at h
  by_cases hw : c.isWaiting = true
  · rw [if_pos hw] at h
    cases h
    simp [Cursor.isWaiting, hd] at hw
  · rw [if_neg hw] at h
    simp only [Prod.mk.injEq] at h
    obtain ⟨rfl, hresult⟩ := h
    split at hresult
    · rename_i hf
      exact stopped_of_finished hs (by simpa [Cursor.isWaiting] using hw) hf hd
    · cases hresult

/-- Taking a choice goes to its label. -/
theorem select_of_marked {i j : Nat} {choice : Choice} (hi : c.pending[i]? = some choice)
    (hj : s.Marked choice.target j) :
    s.select c i = .ok { c with pc := j, pending := [] } := by
  unfold select
  rw [hi]
  dsimp only
  rw [hj.1]
  rfl

end Story

namespace Player

/-! ## Players -/

/-- What is asked of a player. -/
inductive Request
  /-- Begin at the beginning, or begin again. -/
  | start
  | goOn
  | choose (index : Nat)

/-- What a player answers; nothing when it begins. -/
def answer? (p : Player) : Request → Option (Except RuntimeError Passage)
  | .start => none
  | .goOn => some p.goOn.2
  | .choose i => some (p.choose i).2

/-- The player after a request. -/
def after (p : Player) : Request → Player
  | .start => p.fresh
  | .goOn => p.goOn.1
  | .choose i => (p.choose i).1

def afterAll (p : Player) (requests : List Request) : Player := requests.foldl after p

/-- The commands that a run of a player executes. -/
def running (p : Player) : List (Cursor × Node) :=
  if p.cursor.isWaiting then [] else p.story.executed p.budget p.cursor

/-- The commands that a player executes for a request. -/
def executed (p : Player) : Request → List (Cursor × Node)
  | .start => []
  | .goOn => p.running
  | .choose i =>
    match p.story.select p.cursor i with
    | .error _ => []
    | .ok cursor => { p with cursor }.running

/-- A player that stays on course with the next request. -/
structure OnCourse (p : Player) : Prop where
  pc_le : p.cursor.pc ≤ p.story.size
  /-- A choice leads to its label. -/
  choice : ∀ {i choice}, p.cursor.pending[i]? = some choice → ∃ j, p.story.Marked choice.target j ∧
    p.story.select p.cursor i = .ok { p.cursor with pc := j, pending := [] }
  /-- No command leads out of the story, and a jump leads to its label. -/
  command : ∀ request c node, (c, node) ∈ p.executed request →
    (p.story.move c node).pc ≤ p.story.size ∧ ∀ label, Story.destination? c node = some label →
      ∃ j, p.story.Marked label j ∧ p.story.move c node = { c with pc := j }
  /-- The choices that are out of range are those that are not on offer. -/
  outOfRange : ∀ i, (∃ index available, (p.choose i).2 = .error (.choiceOutOfRange index available)) ↔
    p.choices.length ≤ i
  /-- They change nothing. -/
  unmoved : ∀ i, p.choices.length ≤ i →
    p.choose i = (p, .error (.choiceOutOfRange i p.choices.length))
  /-- Once it has gone on, the player waits for a choice or is at the end. -/
  stopped : ∀ request passage, p.answer? request = some (.ok passage) →
    (p.after request).canContinue = false ∧
      Xor ((p.after request).isEnded = true) ((p.after request).choices ≠ [])

variable {p : Player}

theorem length_choices_eq (p : Player) : p.choices.length = p.cursor.pending.length := by
  unfold choices
  rw [List.length_map, List.length_zipIdx]

theorem choose_of_error {i : Nat} {e : RuntimeError} (h : p.story.select p.cursor i = .error e) :
    p.choose i = (p, .error e) := by
  unfold choose
  rw [h]

theorem choose_of_ok {i : Nat} {cursor : Cursor} (h : p.story.select p.cursor i = .ok cursor) :
    p.choose i = { p with cursor }.goOn := by
  unfold choose
  rw [h]

/-- Going on fails only for want of budget. -/
theorem goOn_ne_outOfRange (p : Player) (index available : Nat) :
    p.goOn.2 ≠ .error (.choiceOutOfRange index available) := by
  show (p.story.run p.budget p.cursor).2 ≠ _
  unfold Story.run
  split
  · exact nofun
  · dsimp only
    split <;> exact nofun

/-- After going on the player waits for a choice or is at the end. -/
theorem stopped_of_goOn (hs : p.story.Closed) {q : Player} {passage : Passage}
    (h : p.goOn = (q, .ok passage)) :
    q.canContinue = false ∧ Xor (q.isEnded = true) (q.choices ≠ []) := by
  cases hrun : p.story.run p.budget p.cursor with
  | mk d result =>
    rw [goOn, hrun] at h
    cases h
    have hchoices : ({ p with cursor := d } : Player).choices = [] ↔ d.pending = [] := by
      rw [← List.length_eq_zero_iff, length_choices_eq, List.length_eq_zero_iff]
    rw [xor_iff_iff_not]
    by_cases hd : d.pending = []
    · have hle := Story.stopped_of_run hs hrun hd
      simp [canContinue, isEnded, Cursor.isWaiting, hchoices, hd, hle]
    · simp [canContinue, isEnded, Cursor.isWaiting, hchoices, hd]

/-- The commands of a run that begins on course. -/
theorem command_of_running (hs : p.story.Closed) (hc : p.cursor.OnCourse p.story) {c : Cursor}
    {node : Node} (he : (c, node) ∈ p.running) :
    (p.story.move c node).pc ≤ p.story.size ∧ ∀ label, Story.destination? c node = some label →
      ∃ j, p.story.Marked label j ∧ p.story.move c node = { c with pc := j } := by
  unfold running at he
  split at he
  · cases he
  · obtain ⟨hon, hn⟩ := Story.onCourse_executed hs hc he
    exact ⟨(hon.move hs hn).pc_le, fun label hlabel => hs.lands hn hlabel⟩

/-- A choice on offer leads on course, and one that is not on offer is out of range. -/
theorem select_cases (hc : p.cursor.OnCourse p.story) (i : Nat) :
    (p.choices.length ≤ i ∧
        p.story.select p.cursor i = .error (.choiceOutOfRange i p.choices.length)) ∨
      (i < p.choices.length ∧
        ∃ c : Cursor, c.OnCourse p.story ∧ p.story.select p.cursor i = .ok c) := by
  rw [length_choices_eq]
  cases hi : p.cursor.pending[i]? with
  | none =>
    refine .inl ⟨List.getElem?_eq_none_iff.mp hi, ?_⟩
    unfold Story.select
    rw [hi]
  | some choice =>
    obtain ⟨j, hj⟩ := hc.pending choice (List.mem_of_getElem? hi)
    refine .inr ⟨(List.getElem?_eq_some_iff.mp hi).1, _, ⟨Nat.le_of_lt hj.lt_size, ?_⟩,
      Story.select_of_marked hi hj⟩
    exact fun _ hnone => absurd hnone List.not_mem_nil

/-- A player of a story without loose ends is on course if its cursor is. -/
theorem onCourse_of_cursor (hs : p.story.Closed) (hc : p.cursor.OnCourse p.story) :
    p.OnCourse where
  pc_le := hc.pc_le
  choice hi := by
    obtain ⟨j, hj⟩ := hc.pending _ (List.mem_of_getElem? hi)
    exact ⟨j, hj, Story.select_of_marked hi hj⟩
  command request c node he := by
    cases request with
    | start => cases he
    | goOn => exact command_of_running hs hc he
    | choose i =>
      dsimp only [executed] at he
      rcases select_cases hc i with ⟨_, hselect⟩ | ⟨_, d, hon, hselect⟩
      · rw [hselect] at he
        cases he
      · rw [hselect] at he
        exact command_of_running (p := { p with cursor := d }) hs hon he
  outOfRange i := by
    rcases select_cases hc i with ⟨hle, hselect⟩ | ⟨hlt, c, _, hselect⟩
    · rw [choose_of_error hselect]
      exact ⟨fun _ => hle, fun _ => ⟨_, _, rfl⟩⟩
    · rw [choose_of_ok hselect]
      refine ⟨fun ⟨index, available, h⟩ => ?_, fun hle => absurd hlt (Nat.not_lt.mpr hle)⟩
      exact absurd h (goOn_ne_outOfRange _ index available)
  unmoved i hle := by
    rcases select_cases hc i with ⟨_, hselect⟩ | ⟨hlt, _⟩
    · exact choose_of_error hselect
    · exact absurd hlt (Nat.not_lt.mpr hle)
  stopped request passage hanswer := by
    cases request with
    | start => cases hanswer
    | goOn => exact stopped_of_goOn hs (Prod.ext rfl (Option.some.inj hanswer))
    | choose i =>
      dsimp only [answer?, after] at hanswer ⊢
      rcases select_cases hc i with ⟨_, hselect⟩ | ⟨_, c, _, hselect⟩
      · rw [choose_of_error hselect] at hanswer
        cases hanswer
      · rw [choose_of_ok hselect] at hanswer ⊢
        exact stopped_of_goOn (p := { p with cursor := c }) hs
          (Prod.ext rfl (Option.some.inj hanswer))

/-- A request leaves the story as it is and keeps the cursor on course, also if it fails. -/
theorem cursor_after (hs : p.story.Closed) (hc : p.cursor.OnCourse p.story) (request : Request) :
    (p.after request).story = p.story ∧ (p.after request).cursor.OnCourse p.story := by
  cases request with
  | start => exact ⟨rfl, .start p.story⟩
  | goOn => exact ⟨rfl, Story.onCourse_run hs hc p.budget⟩
  | choose i =>
    dsimp only [after]
    rcases select_cases hc i with ⟨_, hselect⟩ | ⟨_, c, hon, hselect⟩
    · rw [choose_of_error hselect]
      exact ⟨rfl, hc⟩
    · rw [choose_of_ok hselect]
      exact ⟨rfl, Story.onCourse_run hs hon p.budget⟩

theorem cursor_afterAll (hs : p.story.Closed) (hc : p.cursor.OnCourse p.story)
    (requests : List Request) :
    (p.afterAll requests).story = p.story ∧
      (p.afterAll requests).cursor.OnCourse p.story := by
  induction requests generalizing p with
  | nil => exact ⟨rfl, hc⟩
  | cons request requests ih =>
    obtain ⟨hstory, hcursor⟩ := cursor_after hs hc request
    have hrest := ih (p := p.after request) (hstory ▸ hs) (hstory ▸ hcursor)
    rw [hstory] at hrest
    exact hrest

/-- Whatever is asked of a player of a compiled story, with whatever budget and whether or not it fails,
the player stays on course. -/
theorem onCourse_of_compile {inc : Includes} (hinc : inc.FromTexts) {source : String} {s : Story}
    (h : Story.compile inc source = .ok s) (budget : Nat) (requests : List Request) :
    ((ofStory s budget).afterAll requests).OnCourse := by
  have hs : (ofStory s budget).story.Closed := Story.closed_of_compile hinc h
  obtain ⟨hstory, hcursor⟩ := cursor_afterAll hs (.start s) requests
  exact onCourse_of_cursor (hstory ▸ hs) (hstory ▸ hcursor)

end Player

/-! ## An example -/

def lapTexts : List (String × String) :=
  [("lap", "[LABEL name=round]\n[MODIFY name=n op=add value=1]\n" ++
    "[JUMP_IF var=n cmp=lt value=2 label=round]")]

/-- Two laps and a way out. -/
def Story.laps : Story where
  nodes := #[.branch [⟨"round", "round"⟩, ⟨"out", "out"⟩], .label "round", .modify "n" .add "1",
    .jumpIf "n" .less "2" "round", .label "out", .say none "The end."]
  labels := .ofList [("round", 1), ("out", 4)]

/-- The budget is spent on the second lap. From there the player goes on, and is still on course. -/
theorem Player.onCourse_of_compile_laps :
    (Includes.ofTexts lapTexts).FromTexts ∧
      Story.compile (.ofTexts lapTexts) ("[BRANCH choice=round choice=out]\n" ++
        "[INCLUDE name=lap]\n[LABEL name=out]\nThe end.") = .ok .laps ∧
      ((ofStory .laps 4).after .goOn).answer? (.choose 0) = some (.error (.stepLimit 4)) ∧
      ((ofStory .laps 4).afterAll [.goOn, .choose 0]).OnCourse ∧
      ((ofStory .laps 4).afterAll [.goOn, .choose 0, .goOn, .choose 1]).OnCourse := by
  have hinc := Includes.fromTexts_ofTexts lapTexts
  have hcompile : Story.compile (.ofTexts lapTexts) ("[BRANCH choice=round choice=out]\n" ++
      "[INCLUDE name=lap]\n[LABEL name=out]\nThe end.") = .ok .laps := by rfl
  exact ⟨hinc, hcompile, by decide +kernel, onCourse_of_compile hinc hcompile 4 _,
    onCourse_of_compile hinc hcompile 4 _⟩

end StoryPreview
