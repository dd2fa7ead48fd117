import Ecdsa.Text
import Ecdsa.Text.Printable

/-!
# Quoted text

A text that stands inside a message is put between quotes, single ones where possible. What would
end it early or leave no mark is escaped, so the quoted form of a text is one visible line that shows
every code point.
-/

namespace Ecdsa

namespace CodePoint

/-- The quote that texts stand between if nothing speaks against it. -/
def singleQuote : CodePoint :=
  0x27

/-- The quote for a text that holds single quotes. -/
def doubleQuote : CodePoint :=
  0x22

/-- The mark that escapes start with. -/
def backslash : CodePoint :=
  0x5c

/-- A code point as it is; a surrogate is no character. -/
def plain (c : CodePoint) : String :=
  String.singleton (Char.ofNat c.val)

/-- A code point as it stands between the given quotes. -/
def inside (quote c : CodePoint) : String :=
  if c = quote ∨ c = backslash then backslash.plain ++ c.plain
  else if c = 0x09 then "\\t"
  else if c = 0x0a then "\\n"
  else if c = 0x0d then "\\r"
  else if isHidden c.val then c.escape
  else c.plain

end CodePoint

namespace Text

/-- The quote for a text: the double one for a text that holds single quotes and no double ones. -/
def quote (t : Text) : CodePoint :=
  if CodePoint.singleQuote ∈ t ∧ CodePoint.doubleQuote ∉ t then CodePoint.doubleQuote
  else CodePoint.singleQuote

/-- A text between quotes, on one line. -/
def quoted (t : Text) : String :=
  t.quote.plain ++ String.join (t.map (CodePoint.inside t.quote)) ++ t.quote.plain

end Text

end Ecdsa
