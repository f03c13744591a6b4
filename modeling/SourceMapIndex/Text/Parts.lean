/-!
# Parts of a text

A text with a separator in it has parts between the occurrences of the separator; a blank
text has none. A text of one blank part would be blank, so that list of parts alone cannot
be told from no parts.

## Main definitions

- `Text.parts` — the parts of a text
- `Text.join` — the text of given parts
-/

namespace SourceMapIndex

namespace Text

/-- The parts of a text between the occurrences of `separator`; a blank text has none. -/
def parts (separator : Char) (text : String) : List String :=
  if text.isEmpty then [] else (text.toList.splitOn separator).map String.ofList

/-- The text whose parts between the occurrences of `separator` are the given ones. -/
def join (separator : Char) (parts : List String) : String :=
  (String.singleton separator).intercalate parts

/-- A separator at the end is followed by a blank part. -/
example : parts ',' "a,,b," = ["a", "", "b", ""] := by cbv

/-- A blank text has no parts. -/
example : parts ',' "" = [] := by cbv

end Text

end SourceMapIndex
