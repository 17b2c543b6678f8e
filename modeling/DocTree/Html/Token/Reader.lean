import DocTree.Html.Token.Declaration
import DocTree.Html.Token.Raw
set_option autoImplicit false

/-!
# Reader: the next tokens of a text

`readTokens` reads from the beginning of a text that is not empty.  It answers at
least one token or passes over at least one character, so that repeating it comes
to the end of the text.
-/

namespace DocTree.Html

/-! ## Markup -/

/-- Reads characters marked as such in foreign content, behind their opening. -/
def readMarked (cs : List Char) : List Token × List Char := go [] cs
where
  /-- `before` holds the characters read so far in reverse. -/
  go (before : List Resolved) : List Char → List Token × List Char
    | [] => (markupRuns before.reverse, [])
    | ']' :: ']' :: '>' :: cs => (markupRuns before.reverse, cs)
    | c :: cs => go (.plain c :: before) cs

/-- Reads what begins with `<!`. -/
def readDeclaration (foreign : Bool) (cs : List Char) : List Token × List Char :=
  match cs with
  | '-' :: '-' :: rest =>
    let (content, behind) := readComment .fresh rest
    ([.comment (keepText content)], behind)
  | _ =>
    match afterWord? "doctype".toList cs with
    | some rest =>
      let (doctype, behind) := Doctype.read rest
      ([.doctype doctype], behind)
    | none =>
      if foreign && "[CDATA[".toList.isPrefixOf cs then readMarked (cs.drop 7)
      else
        let (token, behind) := readBogus cs
        ([token], behind)

/-- Reads what begins with `</`. -/
def readEnd (cs : List Char) : List Token × List Char :=
  match cs with
  | [] => (runs ['<', '/'], [])
  | c :: rest =>
    if c = '>' then ([.mistake], rest)
    else if isLetter c then
      match readTag cs with
      | none => ([], [])
      | some (tag, behind) => ([.endTag tag.name], behind)
    else
      let (token, behind) := readBogus cs
      ([token], behind)

/-- Reads what begins with `<`. -/
def readMarkup (foreign : Bool) (cs : List Char) : List Token × List Char :=
  match cs with
  | [] => (runs ['<'], [])
  | c :: rest =>
    if c = '!' then readDeclaration foreign rest
    else if c = '/' then readEnd rest
    else if c = '?' then
      let (token, behind) := readBogus cs
      ([token], behind)
    else if isLetter c then
      match readTag cs with
      | none => ([], [])
      | some (tag, behind) => ([.startTag tag], behind)
    else (runs ['<'], cs)

/-! ## All kinds of content -/

/-- Characters as they stand. -/
def asTheyStand (cs : List Char) : List Resolved := cs.map .plain

/-- The end tag behind a cut, and the text behind it. -/
def readCutTag (name : String) : Option (List Char) → List Token × List Char
  | none => ([], [])
  | some rest =>
    match readAttrs [] rest with
    | none => ([], [])
    | some (_, _, behind) => ([.endTag name], behind)

/-- Reads tokens from the beginning of a text.  `foreign` tells whether it stands in
an element of another language than HTML. -/
def readTokens (content : Content) (foreign : Bool) (cs : List Char) : List Token × List Char :=
  match content with
  | .markup =>
    match cs with
    | '<' :: rest => readMarkup foreign rest
    | _ => (markupRuns (resolve (cs.takeWhile (· != '<'))), cs.dropWhile (· != '<'))
  | .escapable name =>
    let (text, behind) := cutAtEndTag name cs
    let (tokens, rest) := readCutTag name behind
    (contentRuns (resolve text) ++ tokens, rest)
  | .raw name =>
    let (text, behind) := cutAtEndTag name cs
    let (tokens, rest) := readCutTag name behind
    (contentRuns (asTheyStand text) ++ tokens, rest)
  | .script =>
    let (text, behind) := cutScript .visible cs
    let (tokens, rest) := readCutTag "script" behind
    (contentRuns (asTheyStand text) ++ tokens, rest)
  | .plain => (contentRuns (asTheyStand cs), [])

end DocTree.Html
