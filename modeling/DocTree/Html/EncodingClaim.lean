import DocTree.Html.Token
set_option autoImplicit false

/-!
# EncodingClaim: what a document says about its own encoding

An element of the head may name the encoding of the document: in its attribute
`charset`, or inside the value of its attribute `content` when `http-equiv` tells
that this is a content type.  A reader that meets a name looks at the text behind
the element anew.  A value that ends where the name should begin cannot be read.
-/

namespace DocTree.Html

/-- What an element says about the encoding of its document. -/
inductive EncodingClaim where
  /-- Nothing. -/
  | silent
  | named (encoding : String)
  /-- The word that announces a name is the last thing that is said. -/
  | unfinished
  deriving DecidableEq, Repr, Inhabited

namespace EncodingClaim

/-- The word that announces a name. -/
def word : List Char := "charset".toList

/-- The claim made by the text behind the equals sign.  A name in quotes ends with its
quote, without which there is no claim; any other name ends with white space or a
semicolon. -/
def ofValue (cs : List Char) : EncodingClaim :=
  match cs.dropWhile isSpace with
  | [] => .silent
  | c :: rest =>
    if c = '"' ∨ c = '\'' then
      if rest.contains c then .named (String.ofList (rest.takeWhile (· != c))) else .silent
    else .named (String.ofList ((c :: rest).takeWhile fun d => !isSpace d && d != ';'))

/-- The claim made by a description of content: the first of its announcing words that
an equals sign follows counts. -/
def ofContent : List Char → EncodingClaim
  | [] => .silent
  | c :: cs =>
    match afterWord? word (c :: cs) with
    | none => ofContent cs
    | some behind =>
      match behind.dropWhile isSpace with
      | [] => .unfinished
      | '=' :: value => ofValue value
      | _ => ofContent cs

/-- The claim made by the attributes of an element. -/
def ofTag (tag : Tag) : EncodingClaim :=
  match tag.attr? "charset" with
  | some encoding => .named encoding
  | none =>
    if (tag.attr? "http-equiv").any fun kind => lower kind == "content-type" then
      match tag.attr? "content" with
      | some content => ofContent content.toList
      | none => .silent
    else .silent

end EncodingClaim

end DocTree.Html
