import DocTree.Html.Token.Tag
set_option autoImplicit false

/-!
# Raw: text in which only one end tag counts

Inside some elements everything is text up to the end tag of the element.  A
script may hide its own end tag in a comment: between `<!--` and `-->`, a further
start tag of a script makes the next end tag part of the text.
-/

namespace DocTree.Html

/-- The text behind the name, if `cs` is `/` and the name of this end tag. -/
def afterEndName? (name : String) : List Char → Option (List Char)
  | '/' :: cs =>
    match afterWord? name.toList cs with
    | some (c :: rest) => if endsTagName c then some (c :: rest) else none
    | _ => none
  | _ => none

/-- Cuts at the first end tag: the text before it, and the text behind its name if
there is one. -/
def cutAtEndTag (name : String) : List Char → List Char × Option (List Char)
  | [] => ([], none)
  | c :: cs =>
    match if c = '<' then afterEndName? name cs else none with
    | some rest => ([], some rest)
    | none =>
      let read := cutAtEndTag name cs
      (c :: read.1, read.2)

/-! ## Scripts -/

/-- A place in a script, by what hides an end tag there. -/
inductive ScriptPlace where
  /-- Nothing hides it. -/
  | visible
  /-- Some characters of `<!--` have been read. -/
  | opening (read : Nat)
  /-- In a comment, behind this many dashes. -/
  | comment (dashes : Nat)
  /-- In a comment, behind a `<`. -/
  | commentLess
  /-- In a comment, in the name of a start tag. -/
  | commentName (read : List Char)
  /-- In a script in a comment, behind this many dashes. -/
  | inner (dashes : Nat)
  /-- In a script in a comment, behind a `<`. -/
  | innerLess
  /-- In a script in a comment, in the name of an end tag. -/
  | innerName (read : List Char)
  deriving DecidableEq, Repr

namespace ScriptPlace

/-- An end tag may stand here. -/
def admitsEnd : ScriptPlace → Bool
  | .visible | .opening _ | .comment _ | .commentLess | .commentName _ => true
  | _ => false

def isScriptName (reversed : List Char) : Bool := reversed.reverse == "script".toList

def stepVisible (c : Char) : ScriptPlace := if c = '<' then .opening 1 else .visible

def stepComment (dashes : Nat) (c : Char) : ScriptPlace :=
  if c = '-' then .comment (min 2 (dashes + 1))
  else if c = '<' then .commentLess
  else if c = '>' ∧ dashes = 2 then .visible
  else .comment 0

def stepInner (dashes : Nat) (c : Char) : ScriptPlace :=
  if c = '-' then .inner (min 2 (dashes + 1))
  else if c = '<' then .innerLess
  else if c = '>' ∧ dashes = 2 then .visible
  else .inner 0

/-- What one more character of the script changes. -/
def step : ScriptPlace → Char → ScriptPlace
  | .visible, c => stepVisible c
  | .opening 1, c => if c = '!' then .opening 2 else stepVisible c
  | .opening 2, c => if c = '-' then .opening 3 else stepVisible c
  | .opening _, c => if c = '-' then .comment 2 else stepVisible c
  | .comment dashes, c => stepComment dashes c
  | .commentLess, c =>
    if c = '/' then .comment 0
    else if isLetter c then .commentName [c.toLower]
    else stepComment 0 c
  | .commentName read, c =>
    if endsTagName c then (if isScriptName read then .inner 0 else .comment 0)
    else if isLetter c then .commentName (c.toLower :: read)
    else stepComment 0 c
  | .inner dashes, c => stepInner dashes c
  | .innerLess, c => if c = '/' then .innerName [] else stepInner 0 c
  | .innerName read, c =>
    if endsTagName c then (if isScriptName read then .comment 0 else .inner 0)
    else if isLetter c then .innerName (c.toLower :: read)
    else stepInner 0 c

end ScriptPlace

/-- Cuts a script at its end tag. -/
def cutScript (place : ScriptPlace) : List Char → List Char × Option (List Char)
  | [] => ([], none)
  | c :: cs =>
    match if c = '<' ∧ place.admitsEnd then afterEndName? "script" cs else none with
    | some rest => ([], some rest)
    | none =>
      let read := cutScript (place.step c) cs
      (c :: read.1, read.2)

end DocTree.Html
