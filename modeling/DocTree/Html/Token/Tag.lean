import DocTree.Html.Token
set_option autoImplicit false

/-!
# Tags and their attributes

A tag is read from behind its first character to the `>` that ends it.  If the
text ends first there is no tag.  Attributes may be separated by slashes; only a
slash immediately before the `>` closes the tag by itself.
-/

namespace DocTree.Html

/-- Ends the name of a tag. -/
def endsTagName (c : Char) : Bool := isSpace c || c == '/' || c == '>'

/-- Ends the name of an attribute. -/
def endsAttrName (c : Char) : Bool := endsTagName c || c == '='

/-- Ends a value that is not quoted. -/
def endsBareValue (c : Char) : Bool := isSpace c || c == '>'

/-- Adds an attribute behind the others; of two with the same name the first counts. -/
def addAttr (attrs : List Attr) (name value : String) : List Attr :=
  if attrs.any fun a => a.name.name == name then attrs else attrs ++ [⟨.plain name, value⟩]

/-- The value of an attribute behind the equals sign, as it is written, and the text
behind it.  The text may end inside quotes; then there is no value. -/
def readValue (cs : List Char) : Option (List Char × List Char) :=
  match cs.dropWhile isSpace with
  | [] => none
  | c :: rest =>
    if c = '"' ∨ c = '\'' then
      match rest.dropWhile (· != c) with
      | [] => none
      | _ :: behind => some (rest.takeWhile (· != c), behind)
    else
      some ((c :: rest).takeWhile (!endsBareValue ·), (c :: rest).dropWhile (!endsBareValue ·))

theorem length_readValue {cs written behind : List Char}
    (h : readValue cs = some (written, behind)) : behind.length ≤ cs.length := by
  have hle := length_dropWhile_le isSpace cs
  unfold readValue at h
  split at h
  · cases h
  · next c rest heq =>
    rw [heq] at hle
    split at h
    · split at h
      · cases h
      · next d behind' heq' =>
        have hle' := length_dropWhile_le (· != c) rest
        rw [heq'] at hle'
        cases h
        simp only [List.length_cons] at hle hle' ⊢
        omega
    · cases h
      have hle' := length_dropWhile_le (!endsBareValue ·) (c :: rest)
      omega

/-- Reads attributes up to the end of the tag: all attributes, whether the tag
closes itself, and the text behind the tag. -/
def readAttrs (attrs : List Attr) (cs : List Char) : Option (List Attr × Bool × List Char) :=
  match cs with
  | [] => none
  | '>' :: rest => some (attrs, false, rest)
  | '/' :: '>' :: rest => some (attrs, true, rest)
  | c :: rest =>
    if isSpace c || c == '/' then readAttrs attrs rest
    else
      let name := keepName (c :: rest.takeWhile (!endsAttrName ·))
      match _h : (rest.dropWhile (!endsAttrName ·)).dropWhile isSpace with
      | '=' :: value =>
        match _hv : readValue value with
        | none => none
        | some (written, behind) =>
          readAttrs (addAttr attrs name (attributeValue written)) behind
      | behind => readAttrs (addAttr attrs name "") behind
  termination_by cs.length
  decreasing_by
    all_goals
      simp only [List.length_cons]
    · omega
    · have h1 := length_dropWhile_le (!endsAttrName ·) rest
      have h2 := length_dropWhile_le isSpace (rest.dropWhile (!endsAttrName ·))
      have h3 := length_readValue _hv
      rw [_h] at h2
      simp only [List.length_cons] at h2
      omega
    · have h1 := length_dropWhile_le (!endsAttrName ·) rest
      have h2 := length_dropWhile_le isSpace (rest.dropWhile (!endsAttrName ·))
      rw [_h] at h2
      omega

/-- Reads a tag from its name on. -/
def readTag (cs : List Char) : Option (Tag × List Char) :=
  let name := keepName (cs.takeWhile (!endsTagName ·))
  (readAttrs [] (cs.dropWhile (!endsTagName ·))).map fun (attrs, selfClosing, rest) =>
    (⟨name, attrs, selfClosing⟩, rest)

end DocTree.Html
