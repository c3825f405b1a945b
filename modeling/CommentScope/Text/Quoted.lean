import CommentScope.Text.Hex
import CommentScope.Text.Printable

/-!
# Text in quotes

A text is put into single quotes, or into double quotes if it has single quotes in it and no double
ones. Backslashes and the quote around the text are escaped, and so are characters that cannot be
printed: by a letter, or by their number in two, four or eight hexadecimal digits.
-/

namespace CommentScope.Text.Quoted

/-- A character between quotes of the given kind. -/
def escaped (quote c : Char) : List Char :=
  if c = quote ∨ c = '\\' then ['\\', c]
  else if c = '\t' then ['\\', 't']
  else if c = '\n' then ['\\', 'n']
  else if c = '\r' then ['\\', 'r']
  else if isPrintable c then [c]
  else if c.toNat < 0x100 then '\\' :: 'x' :: hexDigits 2 c.toNat
  else if c.toNat < 0x10000 then '\\' :: 'u' :: hexDigits 4 c.toNat
  else '\\' :: 'U' :: hexDigits 8 c.toNat

/-- The quote to put around a text. -/
def quoteFor (s : String) : Char :=
  if s.toList.contains '\'' && !s.toList.contains '"' then '"' else '\''

/-- A text in quotes. -/
def quote (s : String) : String :=
  let q := quoteFor s
  String.ofList (q :: (s.toList.flatMap (escaped q) ++ [q]))

end CommentScope.Text.Quoted
