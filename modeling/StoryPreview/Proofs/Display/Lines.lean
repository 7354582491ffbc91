import StoryPreview.Display.Surface
import StoryPreview.Proofs.Message.RoundTrip
import StoryPreview.Proofs.Script.Insertion
/-!
Messages as lines. Posts and the steps of the writer come in any order. At every moment the sink holds the
lines of the first messages posted and perhaps the text of the next one, whose line is not ended yet
(`Keeps`), and the rest waits in the queue. A failure leaves it at that for good (`run_of_ended`); a writer
that rests without one has written every message (`written_settle`). Since no message holds a line feed, the
lines of the text are the messages, one for one (`decode?_lines`).
-/
namespace StoryPreview

namespace Text

/-- A line without a carriage return loses its line feed and nothing else. -/
theorem stripBreak_line {r : List Char} (h : '\r' ∉ r) : stripBreak (r ++ ['\n']) = r := by
  unfold stripBreak
  rw [List.reverse_append, List.reverse_singleton, List.singleton_append]
  split
  · next q hq =>
    have hreverse : r.reverse = '\r' :: q := (List.cons_eq_cons.1 hq).2
    exact absurd (List.mem_reverse.1 (hreverse ▸ List.mem_cons_self)) h
  · next q _ hq => rw [← (List.cons_eq_cons.1 hq).2, List.reverse_reverse]
  · next hno => exact absurd rfl (hno _)

end Text

namespace JsonLines

/-- What happens: a message is posted, or the writer takes its next step. -/
inductive Move
  | post (m : Outbound)
  | work

/-- Moves one after another, with the answers of the posts. -/
def run (s : JsonLines) : List Move → JsonLines × List (Except SurfaceError Unit)
  | [] => (s, [])
  | .post m :: moves => (((s.post m).1.run moves).1, (s.post m).2 :: ((s.post m).1.run moves).2)
  | .work :: moves => s.work.run moves

/-- The messages that are posted. -/
def posted : List Move → List Outbound
  | [] => []
  | .post m :: moves => m :: posted moves
  | .work :: moves => posted moves

/-- Messages on lines of their own. -/
def text : List Outbound → String
  | [] => ""
  | m :: ms => m.encode ++ "\n" ++ text ms

theorem text_append (a b : List Outbound) : text (a ++ b) = text a ++ text b := by
  induction a with
  | nil => rw [List.nil_append, text, String.empty_append]
  | cons m a ih => rw [List.cons_append, text, ih, text, ← String.append_assoc]

theorem text_concat (ms : List Outbound) (m : Outbound) : text (ms ++ [m]) = text ms ++ m.encode ++ "\n" := by
  rw [text_append, text, text, String.append_empty, ← String.append_assoc]

/-! ## Steps of the writer -/

/-- All that a step of the writer can do. -/
inductive Works (s : JsonLines) : JsonLines → Prop
  | rests (h : s.busy = false) : Works s s
  | fails (queue : List String)
      (refused : s.sink.accepts s.written = false ∨ s.sink.flushes s.written = false) :
      Works s { s with queue, ended := true }
  | takes {t : String} {queue : List String} (hended : s.ended = false) (hstage : s.stage = .text)
      (hqueue : s.queue = t :: queue) :
      Works s { s with queue, written := s.written ++ t, stage := .lineEnd }
  | endsLine (hended : s.ended = false) (hstage : s.stage = .lineEnd) :
      Works s { s with written := s.written ++ "\n", stage := .flush }
  | flushes (hended : s.ended = false) (hstage : s.stage = .flush) : Works s { s with stage := .text }

theorem works (s : JsonLines) : Works s s.work := by
  unfold work
  split
  · next hended => exact .rests (by simp [busy, hended])
  · next hended =>
    have hended : s.ended = false := by simpa using hended
    split
    · next hstage hqueue => exact .rests (by simp [busy, hstage, hqueue])
    · next t queue hstage hqueue =>
      unfold write
      split
      · exact .takes hended hstage hqueue
      · next hrefused => exact .fails queue (.inl (by simpa using hrefused))
    · next hstage =>
      unfold write
      split
      · exact .endsLine hended hstage
      · next hrefused => exact .fails s.queue (.inl (by simpa using hrefused))
    · next hstage =>
      split
      · exact .flushes hended hstage
      · next hrefused => exact .fails s.queue (.inr (by simpa using hrefused))

/-! ## What the sink holds -/

/-- Of the messages posted, the first ones are on lines, the text of the next one may be, without the end of
its line, and as long as the writer has not failed the others wait. -/
structure Keeps (s : JsonLines) (ms written : List Outbound) (begun : Option Outbound)
    (waiting : List Outbound) : Prop where
  posted : ms = written ++ begun.toList ++ waiting
  holds : s.written = text written ++ (begun.map Outbound.encode).getD ""
  queue : s.ended = false → s.queue = waiting.map Outbound.encode
  stage : s.ended = false → (s.stage = .lineEnd ↔ begun.isSome)

variable {s : JsonLines} {ms written waiting : List Outbound} {begun : Option Outbound}

/-- Only the end of a line is written behind the text of a message. -/
theorem Keeps.begun_eq_none (h : Keeps s ms written begun waiting) (hended : s.ended = false)
    (hstage : s.stage ≠ .lineEnd) : begun = none :=
  Option.not_isSome_iff_eq_none.1 fun hsome => hstage ((h.stage hended).2 hsome)

theorem Keeps.post (h : Keeps s ms written begun waiting) (m : Outbound) :
    Keeps (s.post m).1 (ms ++ [m]) written begun (waiting ++ [m]) := by
  have hposted : ms ++ [m] = written ++ begun.toList ++ (waiting ++ [m]) := by
    rw [h.posted, List.append_assoc]
  unfold JsonLines.post
  split
  · next hended => exact ⟨hposted, h.holds, by simp [hended], by simp [hended]⟩
  · exact ⟨hposted, h.holds, fun hend => by simp [h.queue hend], h.stage⟩

/-- The writer takes a text, ends its line, flushes, or fails and leaves everything as it is. -/
theorem Keeps.work (h : Keeps s ms written begun waiting) :
    ∃ written begun waiting, Keeps s.work ms written begun waiting := by
  have hwork := works s
  generalize s.work = t at hwork
  cases hwork with
  | rests hbusy => exact ⟨written, begun, waiting, h⟩
  | fails queue refused => exact ⟨written, begun, waiting, h.posted, h.holds, nofun, nofun⟩
  | @takes t queue hended hstage hqueue =>
    have hnone : begun = none := h.begun_eq_none hended (by simp [hstage])
    have hwaiting := h.queue hended
    rw [hqueue] at hwaiting
    obtain ⟨m, rest, rfl, rfl, rfl⟩ := List.map_eq_cons_iff.1 hwaiting.symm
    refine ⟨written, some m, rest, ?_, ?_, fun _ => rfl, fun _ => by simp⟩
    · rw [h.posted, hnone]
      simp
    · have hholds := h.holds
      rw [hnone] at hholds
      simp [hholds]
  | endsLine hended hstage =>
    obtain ⟨m, rfl⟩ := Option.isSome_iff_exists.1 ((h.stage hended).1 hstage)
    refine ⟨written ++ [m], none, waiting, ?_, ?_, h.queue, fun _ => by simp⟩
    · rw [h.posted]
      simp
    · have hholds := h.holds
      simp [hholds, text_concat]
  | flushes hended hstage =>
    have hnone : begun = none := h.begun_eq_none hended (by simp [hstage])
    exact ⟨written, begun, waiting, h.posted, h.holds, h.queue, fun _ => by simp [hnone]⟩

theorem Keeps.run (h : Keeps s ms written begun waiting) (moves : List Move) :
    ∃ written begun waiting, Keeps (s.run moves).1 (ms ++ JsonLines.posted moves) written begun waiting := by
  induction moves generalizing s ms written begun waiting with
  | nil =>
    rw [JsonLines.posted, List.append_nil]
    exact ⟨written, begun, waiting, h⟩
  | cons move moves ih =>
    cases move with
    | post m =>
      have hrest := ih (h.post m)
      rwa [List.append_assoc, List.singleton_append] at hrest
    | work =>
      obtain ⟨written, begun, waiting, hwork⟩ := h.work
      exact ih hwork

theorem keeps_new (sink : Sink) : Keeps (new sink) [] [] none [] where
  posted := rfl
  holds := rfl
  queue _ := rfl
  stage _ := by simp [new]

/-- The sink holds the lines of the first messages posted, and perhaps the text of the next one. -/
theorem written_run (sink : Sink) (moves : List Move) :
    ∃ written rest, posted moves = written ++ rest ∧
      (((new sink).run moves).1.written = text written ∨
        ∃ m later, rest = m :: later ∧ ((new sink).run moves).1.written = text written ++ m.encode) := by
  obtain ⟨written, begun, waiting, h⟩ := (keeps_new sink).run moves
  have hposted := h.posted
  have hholds := h.holds
  cases begun with
  | none => exact ⟨written, waiting, by simpa using hposted, .inl (by simpa using hholds)⟩
  | some m => exact ⟨written, m :: waiting, by simpa using hposted, .inr ⟨m, waiting, rfl, hholds⟩⟩

/-! ## After a failure -/

theorem work_of_ended (h : s.ended) : s.work = s := by
  rw [work, if_pos h]

/-- After a failure nothing changes, and every post is refused. -/
theorem run_of_ended (h : s.ended) (moves : List Move) :
    s.run moves = (s, (posted moves).map fun _ => .error .closed) := by
  induction moves with
  | nil => rfl
  | cons move moves ih =>
    cases move with
    | post m =>
      have hpost : s.post m = (s, .error .closed) := by rw [post, if_pos h]
      rw [run, hpost, ih, posted, List.map_cons]
    | work => rw [run, work_of_ended h, ih, posted]

/-- A write that the sink refuses ends the writer and leaves no trace. -/
theorem work_of_refused (hbusy : s.busy) (hstage : s.stage ≠ .flush)
    (hrefused : s.sink.accepts s.written = false) : s.work.ended ∧ s.work.written = s.written := by
  have hended : s.ended = false := by
    rw [busy, Bool.and_eq_true] at hbusy
    simpa using hbusy.1
  unfold work
  rw [if_neg (by simp [hended])]
  split
  · next hstage hqueue => simp [busy, hstage, hqueue] at hbusy
  · simp [write, hrefused]
  · simp [write, hrefused]
  · next hflush => exact absurd hflush hstage

/-! ## Without a failure -/

/-- What every step of the writer keeps still holds when it rests. -/
theorem settle_induct {P : JsonLines → Prop} (hwork : ∀ s, P s → P s.work) (h : P s) :
    P s.settle := by
  fun_induction settle s with
  | case1 s hbusy ih => exact ih (hwork s h)
  | case2 s hbusy => exact h

theorem busy_settle (s : JsonLines) : s.settle.busy = false := by
  fun_induction settle s with
  | case1 s hbusy ih => exact ih
  | case2 s hbusy => simpa using hbusy

theorem Keeps.settle (h : Keeps s ms written begun waiting) :
    ∃ written begun waiting, Keeps s.settle ms written begun waiting := by
  refine settle_induct (P := fun t => ∃ written begun waiting, Keeps t ms written begun waiting) ?_
    ⟨_, _, _, h⟩
  rintro t ⟨written, begun, waiting, ht⟩
  exact ht.work

theorem ended_of_settle (h : s.settle.ended = false) : s.ended = false := by
  by_contra hended
  have hstays : s.settle.ended = true :=
    settle_induct (P := fun t => t.ended = true) (fun t ht => by rw [work_of_ended ht, ht])
      (by simpa using hended)
  simp [hstays] at h

theorem ended_of_run {moves : List Move} (h : (s.run moves).1.ended = false) :
    s.ended = false := by
  by_contra hended
  have hended : s.ended = true := by simpa using hended
  rw [run_of_ended hended] at h
  simp [hended] at h

/-- As long as the writer has not failed every post is taken. -/
theorem answers_run {moves : List Move} (h : (s.run moves).1.ended = false) :
    (s.run moves).2 = (posted moves).map fun _ => .ok () := by
  induction moves generalizing s with
  | nil => rfl
  | cons move moves ih =>
    have hended : s.ended = false := ended_of_run h
    cases move with
    | post m =>
      have hpost : (s.post m).2 = .ok () := by rw [post, if_neg (by simp [hended])]
      rw [run, ih h, hpost, posted, List.map_cons]
    | work => rw [run, ih h, posted]

/-- A writer that rests without a failure has written every message. -/
theorem written_settle (h : Keeps s ms written begun waiting) (hended : s.settle.ended = false) :
    s.settle.written = text ms := by
  obtain ⟨written, begun, waiting, hkeeps⟩ := h.settle
  obtain ⟨hstage, hqueue⟩ : s.settle.stage = .text ∧ s.settle.queue = [] := by
    simpa [busy, hended] using busy_settle s
  have hbegun : begun = none := hkeeps.begun_eq_none hended (by simp [hstage])
  have hwaiting : waiting = [] := by
    have hmap := hkeeps.queue hended
    rw [hqueue] at hmap
    exact List.map_eq_nil_iff.1 hmap.symm
  have hposted := hkeeps.posted
  have hholds := hkeeps.holds
  rw [hbegun, hwaiting, Option.toList_none, List.append_nil, List.append_nil] at hposted
  rw [hholds, hbegun, hposted]
  exact String.append_empty

theorem sink_work (s : JsonLines) : s.work.sink = s.sink := by
  have hstep := works s
  generalize s.work = t at hstep
  cases hstep <;> rfl

theorem sink_run (s : JsonLines) (moves : List Move) : (s.run moves).1.sink = s.sink := by
  induction moves generalizing s with
  | nil => rfl
  | cons move moves ih =>
    cases move with
    | post m =>
      have hpost : (s.post m).1.sink = s.sink := by
        unfold post
        split <;> rfl
      rw [run, ih, hpost]
    | work => rw [run, ih, sink_work]

/-- A sink that takes everything never fails. -/
theorem ended_of_accepts {sink : Sink} (h : ∀ held, sink.accepts held ∧ sink.flushes held)
    (moves : List Move) : ((new sink).run moves).1.settle.ended = false := by
  have hwork (s : JsonLines) (hs : s.sink = sink ∧ s.ended = false) :
      s.work.sink = sink ∧ s.work.ended = false := by
    refine ⟨(sink_work s).trans hs.1, ?_⟩
    have hstep := works s
    generalize s.work = t at hstep
    cases hstep with
    | fails queue refused => rcases refused with hno | hno <;> simp [hs.1, h] at hno
    | _ => exact hs.2
  have hrun (s : JsonLines) (hs : s.sink = sink ∧ s.ended = false) :
      (s.run moves).1.sink = sink ∧ (s.run moves).1.ended = false := by
    induction moves generalizing s with
    | nil => exact hs
    | cons move moves ih =>
      cases move with
      | post m =>
        have hpost : (s.post m).1 = { s with queue := s.queue ++ [m.encode] } := by
          rw [post, if_neg (by simp [hs.2])]
        rw [run, hpost]
        exact ih _ hs
      | work => exact ih _ (hwork s hs)
  exact (settle_induct hwork (hrun (new sink) ⟨rfl, rfl⟩)).2

/-! ## Lines -/

theorem not_mem_encode {m : Outbound} (h : m.InRange) {c : Char} (hc : c.toNat < 32) :
    c ∉ m.encode.toList := by
  intro hmem
  have hlow := Json.printable_compact (Outbound.plain_toJson h) c hmem
  omega

/-- Cut at its line feeds, the text of messages is the messages. -/
theorem pieces_text {ms : List Outbound} (h : ∀ m ∈ ms, m.InRange) :
    Text.pieces (text ms).toList = ms.map fun m => m.encode.toList ++ ['\n'] := by
  induction ms with
  | nil => rfl
  | cons m ms ih =>
    have hline : '\n' ∉ m.encode.toList := not_mem_encode (h m List.mem_cons_self) (by decide)
    have htext : (text (m :: ms)).toList = m.encode.toList ++ '\n' :: (text ms).toList := by
      simp [text, String.toList_append]
    rw [htext, Text.pieces_append_newline, Text.pieces_line hline,
      ih fun n hn => h n (List.mem_cons_of_mem m hn), List.map_cons, List.singleton_append]

/-- Each line decodes to its message. -/
theorem decode?_lines {ms : List Outbound} (h : ∀ m ∈ ms, m.InRange) :
    (Text.lines (text ms).toList).map (fun line => Outbound.decode? (String.ofList line)) = ms.map some := by
  rw [Text.lines, pieces_text h, List.map_map, List.map_map]
  refine List.map_congr_left fun m hm => ?_
  have hline : '\r' ∉ m.encode.toList := not_mem_encode (h m hm) (by decide)
  simp only [Function.comp_apply, Text.stripBreak_line hline, String.ofList_toList]
  exact Outbound.decode?_encode (h m hm)

/-- Nothing is lost between a preview and whoever reads its lines. Whatever the order of posts and steps of
the writer: a writer that comes to rest without a failure, as it does where the sink takes everything, has
written one line for each message, in the order of the posts, and each line decodes to its message. At
every moment the sink holds the lines of the first messages and perhaps the text of the next one, without
the end of its line. A write that is refused adds nothing and is the last one, and every later post is
refused. -/
theorem run_lossless (sink : Sink) (moves : List Move) (range : ∀ m ∈ posted moves, m.InRange) :
    let s := ((new sink).run moves).1
    ((∀ held, sink.accepts held ∧ sink.flushes held) → s.settle.ended = false) ∧
    (s.settle.ended = false →
      ((new sink).run moves).2 = (posted moves).map (fun _ => .ok ()) ∧
      Text.pieces s.settle.written.toList = (posted moves).map (fun m => m.encode.toList ++ ['\n']) ∧
      (Text.lines s.settle.written.toList).map (fun line => Outbound.decode? (String.ofList line)) =
        (posted moves).map some) ∧
    (∃ written rest, posted moves = written ++ rest ∧
      (s.written = text written ∨ ∃ m later, rest = m :: later ∧ s.written = text written ++ m.encode)) ∧
    (s.busy → s.stage ≠ .flush → sink.accepts s.written = false →
      s.work.ended ∧ s.work.written = s.written) ∧
    (s.ended → ∀ more, s.run more = (s, (posted more).map fun _ => .error .closed)) := by
  intro s
  refine ⟨fun h => ended_of_accepts h moves, fun hended => ?_, written_run sink moves,
    fun hbusy hstage hrefused => ?_, fun hended => run_of_ended hended⟩
  · obtain ⟨written, begun, waiting, hkeeps⟩ := (keeps_new sink).run moves
    have hwritten : s.settle.written = text (posted moves) := written_settle hkeeps hended
    rw [hwritten]
    exact ⟨answers_run (ended_of_settle hended), pieces_text range, decode?_lines range⟩
  · have hsink : s.sink = sink := sink_run (new sink) moves
    exact work_of_refused hbusy hstage (hsink ▸ hrefused)

/-! ## An example -/

/-- A message with quotes, a backslash and two line ends, and then the largest position, which is posted
while the first one is being written. -/
def overlapping : List Move :=
  [.post (.navigationFailed "not \"found\":\r\na \\ and\n"), .work, .work,
    .post (.revealPosition ⟨18446744073709551615, 18446744073709551615⟩), .work]

/-- Both messages are read back from a sink that takes everything; one that takes nothing ends the writer
before the second is posted. -/
theorem run_lossless_overlapping :
    (∀ m ∈ posted overlapping, m.InRange) ∧
    (Text.lines ((new ⟨fun _ => true, fun _ => true⟩).run overlapping).1.settle.written.toList).map
        (fun line => Outbound.decode? (String.ofList line)) =
      [some (.navigationFailed "not \"found\":\r\na \\ and\n"),
        some (.revealPosition ⟨18446744073709551615, 18446744073709551615⟩)] ∧
    ∀ m, (((new ⟨fun _ => false, fun _ => true⟩).run overlapping).1.run [.post m]).2 = [.error .closed] := by
  have hrange : ∀ m ∈ posted overlapping, m.InRange := by
    intro m hm
    rcases List.mem_cons.1 hm with rfl | hm
    · trivial
    · rw [List.mem_singleton.1 hm]
      exact ⟨by decide, by decide⟩
  obtain ⟨hends, hlines, -⟩ := run_lossless ⟨fun _ => true, fun _ => true⟩ overlapping hrange
  obtain ⟨-, -, -, -, hclosed⟩ := run_lossless ⟨fun _ => false, fun _ => true⟩ overlapping hrange
  exact ⟨hrange, (hlines (hends fun _ => ⟨rfl, rfl⟩)).2.2, fun m => by rw [hclosed rfl]; rfl⟩

end JsonLines

end StoryPreview
