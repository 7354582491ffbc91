/-!
Lines of a text. A line ends with a line feed, which may have one carriage return before it; the
text after the last line feed is a line of its own when there is any.
-/
namespace StoryPreview.Text

/-- The text cut after every line feed; no piece is empty. -/
def pieces (cs : List Char) : List (List Char) :=
  cs.foldr
    (fun c ps =>
      if c = '\n' then ['\n'] :: ps
      else match ps with
        | [] => [[c]]
        | p :: ps => (c :: p) :: ps)
    []

/-- A piece without the line feed it ends with and one carriage return before that. -/
def stripBreak (p : List Char) : List Char :=
  match p.reverse with
  | '\n' :: '\r' :: r => r.reverse
  | '\n' :: r => r.reverse
  | _ => p

/-- The lines of a text, without what ended them. -/
def lines (cs : List Char) : List (List Char) := (pieces cs).map stripBreak

/-- Cutting loses nothing. -/
theorem flatten_pieces (cs : List Char) : (pieces cs).flatten = cs := by
  induction cs with
  | nil => rfl
  | cons c cs ih =>
    unfold pieces at ih ⊢
    rw [List.foldr_cons]
    split
    · rename_i h; simp [h, ih]
    · split
      · rename_i h; rw [h] at ih; simp_all
      · rename_i h; rw [h] at ih; simp_all

end StoryPreview.Text
