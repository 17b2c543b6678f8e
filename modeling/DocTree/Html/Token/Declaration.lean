import DocTree.Html.Token
set_option autoImplicit false

/-!
# Declarations: comments and document types

What begins with `<!` is a comment, a document type, or a mistake that is kept as
a comment up to the next `>`.
-/

namespace DocTree.Html

/-! ## Comments -/

/-- How much of the end of a comment has been read. -/
inductive CommentEnd where
  /-- Nothing of the comment has been read. -/
  | fresh
  /-- Only one dash has been read. -/
  | freshDash
  | inside
  | dash
  | dashes
  /-- Two dashes and an exclamation mark have been read. -/
  | bang
  deriving DecidableEq, Repr

/-- One character of a comment: the characters that now belong to its content and
how much of its end has been read, or that the comment is complete. -/
def CommentEnd.step : CommentEnd → Char → Option (List Char × CommentEnd)
  | .fresh, c =>
    if c = '>' then none else if c = '-' then some ([], .freshDash) else some ([c], .inside)
  | .freshDash, c =>
    if c = '>' then none else if c = '-' then some ([], .dashes) else some (['-', c], .inside)
  | .inside, c => if c = '-' then some ([], .dash) else some ([c], .inside)
  | .dash, c => if c = '-' then some ([], .dashes) else some (['-', c], .inside)
  | .dashes, c =>
    if c = '>' then none
    else if c = '!' then some ([], .bang)
    else if c = '-' then some (['-'], .dashes)
    else some (['-', '-', c], .inside)
  | .bang, c =>
    if c = '>' then none
    else if c = '-' then some (['-', '-', '!'], .dash)
    else some (['-', '-', '!', c], .inside)

/-- Reads a comment behind its opening: its content and the text behind it. -/
def readComment (state : CommentEnd) : List Char → List Char × List Char
  | [] => ([], [])
  | c :: cs =>
    match state.step c with
    | none => ([], cs)
    | some (kept, next) =>
      let read := readComment next cs
      (kept ++ read.1, read.2)

/-- A mistake that is kept as a comment, and the text behind it. -/
def readBogus (cs : List Char) : Token × List Char :=
  (.comment (keepText (cs.takeWhile (· != '>'))), (cs.dropWhile (· != '>')).tail)

/-! ## Document types -/

namespace Doctype

/-- The text behind the `>` that ends a declaration. -/
def skip (cs : List Char) : List Char := (cs.dropWhile (· != '>')).tail

/-- A quoted identifier behind its opening quote: the identifier, whether its
closing quote was found, and the text behind it. -/
def readQuoted (quote : Char) (cs : List Char) : String × Bool × List Char :=
  let ends (c : Char) : Bool := c == quote || c == '>'
  let id := keepText (cs.takeWhile (!ends ·))
  match cs.dropWhile (!ends ·) with
  | [] => (id, false, [])
  | c :: rest => if c = quote then (id, true, rest) else (id, false, c :: rest)

/-- Reads a declaration in which a system identifier may come next. -/
def readSystem (d : Doctype) (required : Bool) (cs : List Char) : Doctype × List Char :=
  match cs.dropWhile isSpace with
  | [] => ({ d with broken := true }, [])
  | c :: rest =>
    if c = '>' then ({ d with broken := d.broken || required }, rest)
    else if c = '"' ∨ c = '\'' then
      let (id, closed, behind) := readQuoted c rest
      let d := { d with systemId := some id }
      if !closed then ({ d with broken := true }, skip behind)
      else
        match behind.dropWhile isSpace with
        | [] => ({ d with broken := true }, [])
        | behind => (d, skip behind)
    else ({ d with broken := true }, skip (c :: rest))

/-- Reads a declaration in which a public identifier has to come next. -/
def readPublic (d : Doctype) (cs : List Char) : Doctype × List Char :=
  match cs.dropWhile isSpace with
  | [] => ({ d with broken := true }, [])
  | c :: rest =>
    if c = '"' ∨ c = '\'' then
      let (id, closed, behind) := readQuoted c rest
      let d := { d with publicId := some id }
      if !closed then ({ d with broken := true }, skip behind) else readSystem d false behind
    else ({ d with broken := true }, skip (c :: rest))

/-- Reads a declaration behind the word that announces it. -/
def read (cs : List Char) : Doctype × List Char :=
  match cs.dropWhile isSpace with
  | [] => (⟨none, none, none, true⟩, [])
  | '>' :: rest => (⟨none, none, none, true⟩, rest)
  | cs =>
    let ends (c : Char) : Bool := isSpace c || c == '>'
    let name := keepName (cs.takeWhile (!ends ·))
    let d : Doctype := ⟨some name, none, none, false⟩
    match (cs.dropWhile (!ends ·)).dropWhile isSpace with
    | [] => ({ d with broken := true }, [])
    | '>' :: rest => (d, rest)
    | rest =>
      match afterWord? "public".toList rest, afterWord? "system".toList rest with
      | some behind, _ => readPublic d behind
      | none, some behind => readSystem d true behind
      | none, none => ({ d with broken := true }, skip rest)

end Doctype

end DocTree.Html
