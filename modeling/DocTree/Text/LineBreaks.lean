import DocTree.Text.Lines
import DocTree.Text.Utf8
set_option autoImplicit false

/-!
# LineBreaks: line breaks that Markdown keeps

Markdown joins neighbouring lines into one paragraph and ends the paragraph at a
blank line.  `hardBreaks` writes the lines of a text so that neither happens: a
line that another one follows gets a hard break, and a blank one becomes a lone
backslash.  `capNewlines` shortens long runs of newlines beforehand.
-/

namespace DocTree.Text

/-- The longest run of newlines that `capNewlines` leaves. -/
def longestRun : Nat := 2

/-- What a text is searched for before its newlines are counted: three newlines. -/
def longRun : Bytes := [newline, newline, newline]

/-- What is written behind a line that another line follows. -/
def hardBreak : Bytes := [32, 32, newline]

/-- What is written for a blank line that another line follows. -/
def blankLineMark : Bytes := [92, newline]

/-! ## Runs of newlines -/

/-- `longRun` occurs somewhere. -/
def hasLongRun : Bytes → Bool
  | [] => false
  | b :: bs => longRun.isPrefixOf (b :: bs) || hasLongRun bs

/-- Drops every newline that has `longestRun` newlines immediately before it; `run`
newlines stand immediately before the text. -/
def capFrom (run : Nat) : Bytes → Bytes
  | [] => []
  | b :: bs =>
    if b = newline then
      if longestRun < run + 1 then capFrom (run + 1) bs else b :: capFrom (run + 1) bs
    else b :: capFrom 0 bs

/-- Shortens every run of three or more newlines to two.  A text without such a
run is left as it is. -/
def capNewlines (x : Bytes) : Bytes := if hasLongRun x then capFrom 0 x else x

/-! ## Lines -/

/-- A line that another line follows, as it is written. -/
def writeInnerLine (l : Bytes) : Bytes :=
  if (trim l).isEmpty then blankLineMark else trim l ++ hardBreak

/-- Writes lines one after another; the last one is only trimmed. -/
def writeLines : List Bytes → Bytes
  | [] => []
  | [l] => trim l
  | l :: ls => writeInnerLine l ++ writeLines ls

/-- Writes every line break of a text so that Markdown keeps it. -/
def hardBreaks (x : Bytes) : Bytes := writeLines (lines x)

/-- Writes a text so that Markdown keeps its lines, after shortening its runs of
newlines.  Bytes that are no text, should there be any, are replaced. -/
def writeMultiline (s : String) : String :=
  let written := hardBreaks (capNewlines (encode s.toList))
  match decode? written with
  | some cs => String.ofList cs
  | none => String.ofList (decodeReplacing written)

end DocTree.Text
