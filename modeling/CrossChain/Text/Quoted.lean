import CrossChain.Text.Printable

/-!
# Quoted text

A quoted text can be shown on one line and taken apart again.  It stands in single quotes, or in
double quotes when it holds a single quote and no double quote.  The quote in use and the backslash
are escaped by a backslash, and so are the three common controls; whatever else has no visible form
is written as its number in hexadecimal.
-/

namespace CrossChain

namespace Text

/-- The quote that stands around a quoted text. -/
def quoteMark (s : Text) : CodePoint :=
  if s.contains 39 && !s.contains 34 then 34 else 39

/-- A code point as it stands inside quotes of the given kind. -/
def escaped (mark c : CodePoint) : Text :=
  if c = mark ∨ c = 92 then [92, c]
  else if c = 9 then text "\\t"
  else if c = 10 then text "\\n"
  else if c = 13 then text "\\r"
  else if c.isPrintable then [c]
  else if c.val < 0x100 then text "\\x" ++ hexOfWidth 2 c.val
  else if c.val < 0x10000 then text "\\u" ++ hexOfWidth 4 c.val
  else text "\\U" ++ hexOfWidth 8 c.val

/-- The text in quotes. -/
def quoted (s : Text) : Text :=
  let mark := s.quoteMark
  mark :: s.flatMap (escaped mark) ++ [mark]

end Text

end CrossChain
