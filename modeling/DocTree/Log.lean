import DocTree.Node
set_option autoImplicit false

/-!
# Log: what the passes report

Reports are kept as events, in the order in which they happened, and get their
words only when they are written out.
-/

namespace DocTree

/-- Which layout rules a document asks for by its type. -/
inductive DocumentMode where
  /-- Those of the standard. -/
  | standards
  /-- Those of the standard with a few exceptions. -/
  | nearStandards
  /-- Those of programs older than the standard. -/
  | legacy
  deriving DecidableEq, Repr, Inhabited

namespace DocumentMode

def label : DocumentMode → String
  | .standards => "NoQuirks"
  | .nearStandards => "LimitedQuirks"
  | .legacy => "Quirks"

end DocumentMode

/-- One report. -/
inductive Event where
  /-- A child of a list went into an item of that list. -/
  | moved (node list item : NodeId)
  /-- A pass over the lists came to its end. -/
  | regrouped (lists moved created : Nat)
  /-- A reader of markup met a mistake. -/
  | markupError (words : String)
  /-- A document was read. -/
  | parsed (bytes : Nat) (mode : DocumentMode)
  deriving DecidableEq, Repr

namespace Event

/-- Reports of single steps are finer than reports of whole passes. -/
inductive Level where
  | trace
  | debug
  deriving DecidableEq, Repr

def Level.label : Level → String
  | .trace => "TRACE"
  | .debug => "DEBUG"

def level : Event → Level
  | .regrouped _ _ _ => .debug
  | _ => .trace

def message : Event → String
  | .moved node list item =>
    "moved node " ++ node.label ++ " of list " ++ list.label ++ " into item " ++ item.label
  | .regrouped lists strays items =>
    "normalized " ++ toString lists ++ " lists: moved " ++ toString strays ++ " nodes, created " ++
      toString items ++ " list items"
  | .markupError words => "html parse error: " ++ words
  | .parsed bytes mode => "parsed " ++ toString bytes ++ " bytes of html in " ++ mode.label ++ " mode"

/-- A report as one line of a log. -/
def line (e : Event) : String := e.level.label ++ " " ++ e.message

end Event

/-- Reports, the oldest first. -/
abbrev Log := Array Event

end DocTree
