import StoryPreview.Proofs.Script.Append
/-!
Scripts are read piece by piece. The number of a line shows only in a fault, and there it is the number
in the whole script: lines further down give the same items with their faults further down
(`items_shift`). Hence a script behind another that is without fault gives what it gives by itself
(`parse_append_of_ok`).
-/
namespace StoryPreview

/-- The same fault so many lines further down. -/
def LineFault.shift (k : Nat) (f : LineFault) : LineFault := { f with line := f.line + k }

namespace Script

/-- The same `SAY` so many lines further down. -/
def OpenSpeech.shift (k : Nat) (s : OpenSpeech) : OpenSpeech := { s with line := s.line + k }

/-- What a line gives that stands so many lines further down. -/
def Item.shift (k : Nat) : Item → Item := Except.mapError (LineFault.shift k)

theorem fault_shift (k : Nat) (waiting : Option OpenSpeech) :
    (waiting.map (OpenSpeech.shift k)).toList.map OpenSpeech.fault =
      (waiting.toList.map OpenSpeech.fault).map (Item.shift k) := by
  cases waiting <;> rfl

/-- Lines further down give the same items, with their faults further down. -/
theorem items_shift (k n : Nat) (waiting : Option OpenSpeech) (ls : List Line) :
    items (waiting.map (OpenSpeech.shift k)) (n + k) ls =
      (items waiting n ls).map (Item.shift k) := by
  induction ls generalizing waiting n with
  | nil => exact fault_shift k waiting
  | cons l ls ih =>
    have hnext : n + k + 1 = n + 1 + k := Nat.add_right_comm n k 1
    have hclosed : items none (n + k + 1) ls = (items none (n + 1) ls).map (Item.shift k) := by
      rw [hnext]
      exact ih (n + 1) none
    cases l with
    | skipped =>
      rw [items, items, hnext]
      exact ih (n + 1) waiting
    | narration text =>
      have hspeaker : (waiting.map (OpenSpeech.shift k)).bind OpenSpeech.speaker =
          waiting.bind OpenSpeech.speaker := by
        cases waiting <;> rfl
      rw [items, items, hspeaker, hclosed]
      rfl
    | unterminated =>
      rw [items, items, fault_shift, hclosed, List.map_append]
      rfl
    | command content trailing =>
      rw [items, items, fault_shift, List.map_append]
      congr 1
      split
      · rw [hclosed]
        rfl
      · rename_i speaker _
        rw [hnext]
        exact ih (n + 1) (some ⟨n, speaker⟩)
      · rw [hclosed]
        rfl

/-! ## Values and errors -/

theorem gather_mapError {ε δ α : Type} (f : ε → δ) (xs : List (Except ε α)) :
    gather (xs.map (Except.mapError f)) = (gather xs).mapError (List.map f) := by
  induction xs with
  | nil => rfl
  | cons x xs ih =>
    rw [List.map_cons]
    cases x with
    | ok a =>
      show gather (.ok a :: xs.map (Except.mapError f)) = _
      rw [gather, gather, ih]
      cases gather xs <;> rfl
    | error e =>
      show gather (.error (f e) :: xs.map (Except.mapError f)) = _
      rw [gather, gather, ih]
      cases gather xs <;> rfl

theorem gather_map_ok_append {ε α : Type} (as : List α) (xs : List (Except ε α)) :
    gather (as.map .ok ++ xs) = (gather xs).map (as ++ ·) := by
  induction as with
  | nil =>
    rw [List.map_nil, List.nil_append]
    cases gather xs <;> rfl
  | cons a as ih =>
    rw [List.map_cons, List.cons_append, gather, ih]
    cases gather xs <;> rfl

/-- Where lines stand does not matter to lines without a fault. -/
theorem items_ok_shift {k n : Nat} {ls : List Line} {nodes : List Node} :
    items none (n + k) ls = nodes.map .ok ↔ items none n ls = nodes.map .ok := by
  have hshift := items_shift k n none ls
  rw [Option.map_none] at hshift
  have hgather : gather ((items none n ls).map (Item.shift k)) =
      (gather (items none n ls)).mapError (List.map (LineFault.shift k)) := gather_mapError _ _
  rw [hshift, ← gather_ok, ← gather_ok, hgather]
  cases gather (items none n ls) with
  | ok nodes => exact Iff.rfl
  | error faults => exact ⟨nofun, nofun⟩

/-! ## Scripts -/

/-- A script that is empty or ends with a line feed, and has no fault, may stand before any other. The
commands of the other come behind its own, and the faults of the other are the same but for the
numbers of their lines, which count from the beginning of the whole. -/
theorem parse_append_of_ok {a : String} {na : List Node}
    (ha : a = "" ∨ ∃ lines, a = lines ++ "\n") (hparse : parse a = .ok na) (b : String) :
    (∀ nb, parse b = .ok nb → parse (a ++ b) = .ok (na ++ nb)) ∧
      ∀ faults, parse b = .error faults →
        parse (a ++ b) =
          .error (faults.map (LineFault.shift (Text.lines a.toList).length)) := by
  have hsplit : parse (a ++ b) =
      ((parse b).mapError (List.map (LineFault.shift (Text.lines a.toList).length))).map
        (na ++ ·) := by
    have hshift := items_shift (Text.lines a.toList).length 1 none
      ((Text.lines b.toList).map Line.ofText)
    rw [Option.map_none] at hshift
    rw [parse_append (Text.endsLine_toList ha) hparse b, gather_map_ok_append, hshift]
    exact congrArg (Except.map (na ++ ·)) (gather_mapError _ _)
  constructor
  · intro nb hb
    rw [hsplit, hb]
    rfl
  · intro faults hb
    rw [hsplit, hb]
    rfl

/-- A first part with a `SAY` whose text stands below a comment. Behind it a line without end is
narration, and a `SAY` that finds no text and a command that nobody knows are faults. -/
theorem parse_append_of_ok_say :
    parse "[SAY speaker=A]\n# a comment\nHello.\r\n" = .ok [.say (some "A") "Hello."] ∧
      parse "Bye." = .ok [.say none "Bye."] ∧
      parse "[SAY]\n[LABEL name=x]\n[NOPE]" =
        .error [⟨1, .missingText⟩, ⟨3, .unknownCommand "NOPE"⟩] ∧
      parse ("[SAY speaker=A]\n# a comment\nHello.\r\n" ++ "Bye.") =
        .ok [.say (some "A") "Hello.", .say none "Bye."] ∧
      parse ("[SAY speaker=A]\n# a comment\nHello.\r\n" ++ "[SAY]\n[LABEL name=x]\n[NOPE]") =
        .error [⟨4, .missingText⟩, ⟨6, .unknownCommand "NOPE"⟩] := by
  have hfirst : parse "[SAY speaker=A]\n# a comment\nHello.\r\n" =
      .ok [.say (some "A") "Hello."] := by rfl
  have hlast : parse "Bye." = .ok [.say none "Bye."] := by rfl
  have hfaulty : parse "[SAY]\n[LABEL name=x]\n[NOPE]" =
      .error [⟨1, .missingText⟩, ⟨3, .unknownCommand "NOPE"⟩] := by rfl
  have hends : "[SAY speaker=A]\n# a comment\nHello.\r\n" =
      "[SAY speaker=A]\n# a comment\nHello.\r" ++ "\n" := by rfl
  exact ⟨hfirst, hlast, hfaulty, (parse_append_of_ok (.inr ⟨_, hends⟩) hfirst _).1 _ hlast,
    (parse_append_of_ok (.inr ⟨_, hends⟩) hfirst _).2 _ hfaulty⟩

end Script

end StoryPreview
