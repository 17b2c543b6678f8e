set_option autoImplicit false

/-!
# Char: the classes of characters that HTML knows

All of them are classes of ASCII characters, and so is the folding of case.
-/

namespace DocTree.Html

/-- White space of the markup. -/
def isSpace (c : Char) : Bool := c == ' ' || c == '\t' || c == '\n' || c == '\x0c' || c == '\r'

def isLetter (c : Char) : Bool := c.isAlpha

def isAlphanumeric (c : Char) : Bool := c.isAlphanum

/-- The character that stands for one that cannot be shown. -/
def replacement : Char := Char.ofNat 0xFFFD

/-- The mark that may stand at the beginning of a text to show its byte order. -/
def byteOrderMark : Char := Char.ofNat 0xFEFF

/-- A character as it is kept in names and contents, where NUL has no place. -/
def keep (c : Char) : Char := if c = '\x00' then replacement else c

/-- Characters as they are kept in names, in lower case. -/
def keepName (cs : List Char) : String := String.ofList (cs.map fun c => keep c.toLower)

/-- Characters as they are kept in contents. -/
def keepText (cs : List Char) : String := String.ofList (cs.map keep)

/-- A text in lower case. -/
def lower (s : String) : String := String.ofList (s.toList.map Char.toLower)

/-- Writes every line end as one newline. -/
def unifyLineEnds : List Char → List Char
  | [] => []
  | '\r' :: '\n' :: cs => '\n' :: unifyLineEnds cs
  | c :: cs => (if c = '\r' then '\n' else c) :: unifyLineEnds cs

/-- The characters behind `word`, if the text begins with it in any case. -/
def afterWord? : (word : List Char) → (cs : List Char) → Option (List Char)
  | [], cs => some cs
  | _ :: _, [] => none
  | w :: word, c :: cs => if c.toLower = w.toLower then afterWord? word cs else none

theorem length_dropWhile_le (p : Char → Bool) (cs : List Char) :
    (cs.dropWhile p).length ≤ cs.length :=
  (List.dropWhile_suffix p).length_le

end DocTree.Html
