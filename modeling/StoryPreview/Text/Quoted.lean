import StoryPreview.Text.Visible
/-!
Quoted text: a text between double quotes in which every character that would not show is written
as an escape.
-/
namespace StoryPreview.Text

/-- One character inside quotes: the quote and the backslash are escaped, the usual control
characters have short names, and anything else that would not show is given by its number. -/
def quoteChar (c : Char) : List Char :=
  if c = '"' then ['\\', '"']
  else if c = '\\' then ['\\', '\\']
  else if c = '\n' then ['\\', 'n']
  else if c = '\r' then ['\\', 'r']
  else if c = '\t' then ['\\', 't']
  else if c.toNat = 0 then ['\\', '0']
  else if isVisible c then [c]
  else ['\\', 'u', '{'] ++ Nat.toDigits 16 c.toNat ++ ['}']

/-- The text in double quotes, escaped. -/
def quoted (s : String) : String :=
  String.ofList ('"' :: s.toList.flatMap quoteChar ++ ['"'])

end StoryPreview.Text
