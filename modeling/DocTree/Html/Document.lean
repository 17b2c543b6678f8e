import DocTree.Html.Construction.Rules
import DocTree.Html.Token.Reader
set_option autoImplicit false

/-!
# Document: reading HTML

Whatever is wrong with the markup is mended by rules, so that every text gives a
document, but for one fault: what an element says about the encoding must not end
before it has named one.
-/

namespace DocTree.Html

/-- What was read: the tree and the mode that its document type asks for. -/
structure Document where
  tree : Tree
  mode : DocumentMode

namespace Document

/-- A text without the byte order mark at its beginning. -/
def withoutMark (cs : List Char) : List Char :=
  match cs with
  | c :: rest => if c = byteOrderMark then rest else cs
  | [] => []

/-- Reads a text to its end, in at most `steps` steps.  After a pause, reading begins
anew, and so does the handling of a byte order mark. -/
def readFrom : (steps : Nat) → (cs : List Char) → Build Unit
  | 0, _ => return
  | _ + 1, [] => Build.take .ending
  | steps + 1, cs => do
    let c ← get
    let (tokens, rest) := readTokens c.content c.inForeign cs
    Build.takeAll tokens
    let c ← get
    match c.halt with
    | none => readFrom steps rest
    | some (.broken _) => return
    | some .pause =>
      set { c with halt := none }
      readFrom steps (if c.options.discardMark then withoutMark rest else rest)

/-- Reads a document, or answers why that is not possible.  Every step takes at least
one character, so there are no more steps than characters before the end. -/
def read (options : Options) (html : String) : Except ReadFault Document :=
  let cs := html.toList
  let cs := unifyLineEnds (if options.discardMark then withoutMark cs else cs)
  let c := ((readFrom (cs.length + 1) cs).run (.start options)).2
  match c.halt with
  | some (.broken fault) => .error fault
  | _ => .ok ⟨c.tree, c.documentMode⟩

/-- The report that a document of this many bytes was read. -/
def report (d : Document) (html : String) : Event := .parsed html.utf8ByteSize d.mode

end Document

end DocTree.Html
