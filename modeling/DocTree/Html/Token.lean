import DocTree.Html.Reference
import DocTree.Node
set_option autoImplicit false

/-!
# Token: the pieces of markup

A text of markup is a sequence of tokens.  Which token comes next depends on how
the text at this place is to be read, and that is decided by what has been built
from the tokens before it.
-/

namespace DocTree.Html

/-- A start tag.  No two attributes have the same name. -/
structure Tag where
  name : String
  attrs : List Attr
  selfClosing : Bool
  deriving DecidableEq, Repr, Inhabited

namespace Tag

/-- A tag without attributes. -/
def bare (name : String) : Tag := ⟨name, [], false⟩

/-- The value of the first attribute with this name. -/
def attr? (tag : Tag) (name : String) : Option String :=
  (tag.attrs.find? fun a => a.name = .plain name).map Attr.value

/-- The tags have the same name and the same attributes, in any order. -/
def agrees (a b : Tag) : Bool := a.name == b.name && a.attrs.isPerm b.attrs

end Tag

/-- A declaration of the type of the document. -/
structure Doctype where
  name : Option String
  publicId : Option String
  systemId : Option String
  /-- The declaration is so broken that old layout rules apply. -/
  broken : Bool
  deriving DecidableEq, Repr, Inhabited

/-- A piece of markup.  Characters come as runs of white space and runs without any. -/
inductive Token where
  | startTag (tag : Tag)
  | endTag (name : String)
  | doctype (doctype : Doctype)
  | comment (content : String)
  | space (content : String)
  | text (content : String)
  /-- The character NUL, where it is not replaced at once. -/
  | nul
  /-- A mistake that leaves no other token. -/
  | mistake
  | ending
  deriving DecidableEq, Repr, Inhabited

/-- How text is to be read. -/
inductive Content where
  /-- Markup with tags and references. -/
  | markup
  /-- References, but no tag other than the end tag `name`. -/
  | escapable (name : String)
  /-- Characters up to the end tag `name`. -/
  | raw (name : String)
  /-- Characters of a script up to its end tag. -/
  | script
  /-- Characters up to the end. -/
  | plain
  deriving DecidableEq, Repr, Inhabited

/-! ## Characters as tokens -/

/-- Runs of white space and of other characters. -/
def runs (cs : List Char) : List Token :=
  (cs.splitBy fun a b => isSpace a == isSpace b).map fun run =>
    if run.all isSpace then .space (String.ofList run) else .text (String.ofList run)

/-- The tokens of characters in which NUL has a meaning of its own. -/
def markupRuns : List Resolved → List Token := fun rs => go rs []
where
  /-- `before` holds the characters of the unfinished run in reverse. -/
  go : List Resolved → (before : List Char) → List Token
    | [], before => runs before.reverse
    | .plain c :: rs, before =>
      if c = '\x00' then runs before.reverse ++ .nul :: go rs [] else go rs (c :: before)
    | .referred c :: rs, before => go rs (c :: before)
    | .mistake :: rs, before => runs before.reverse ++ .mistake :: go rs []

/-- The tokens of characters in which NUL is replaced. -/
def contentRuns (rs : List Resolved) : List Token :=
  markupRuns (rs.map fun
    | .plain c => .plain (keep c)
    | r => r)

end DocTree.Html
