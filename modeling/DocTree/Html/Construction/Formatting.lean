import DocTree.Html.Construction.State
set_option autoImplicit false

/-!
# Formatting: elements that cut across blocks

Markup may open a formatting element in one block and close it in another.  The
elements are then closed and opened again block by block, so that the tree nests
although the tags do not.
-/

namespace DocTree.Html

namespace Construction

/-- The entries behind the last barrier, the latest first. -/
def recentFormatting (c : Construction) : List Formatting :=
  c.formatting.takeWhile fun f => !f.isBarrier

/-- The entry needs no opening: it is a barrier, or its element is open. -/
def isSettled (c : Construction) (f : Formatting) : Bool :=
  match f with
  | .barrier => true
  | .element id _ => c.openElements.contains id

end Construction

/-- The list without its earliest entry that satisfies `p`; the latest comes first. -/
def dropEarliest (p : Formatting → Bool) (fs : List Formatting) : List Formatting :=
  (fs.reverse.eraseP p).reverse

namespace Build

/-- Ends the part of the list that the last barrier began. -/
def clearFormatting : Build Unit :=
  modify fun c =>
    { c with formatting := (c.formatting.dropWhile fun f => !f.isBarrier).tail }

def addBarrier : Build Unit := modify fun c => { c with formatting := .barrier :: c.formatting }

/-- Takes an element out of the list. -/
def dropFormatting (id : NodeId) : Build Unit :=
  modify fun c => { c with formatting := c.formatting.eraseP (Formatting.isOf id) }

/-- Opens elements again; the earliest comes first, and so do the answers. -/
def reopenAll : List Formatting → Build (List Formatting)
  | [] => return []
  | .barrier :: fs => reopenAll fs
  | .element _ tag :: fs => do
    let id ← openTag tag
    return .element id tag :: (← reopenAll fs)

/-- Opens all formatting elements again that content at this place is to stand in. -/
def reopenFormatting : Build Unit := do
  let unsettled ← ask fun c => c.formatting.takeWhile fun f => !c.isSettled f
  let fresh ← reopenAll unsettled.reverse
  modify fun c =>
    { c with formatting := fresh.reverse ++ c.formatting.drop unsettled.length }

/-- Opens a formatting element.  Of the same tag at most three are kept in the list. -/
def openFormatting (tag : Tag) : Build Unit := do
  let same (f : Formatting) : Bool :=
    match f with
    | .barrier => false
    | .element _ old => tag.agrees old
  modify fun c =>
    let recent := c.recentFormatting
    if 3 ≤ recent.countP same then
      { c with formatting := dropEarliest same recent ++ c.formatting.drop recent.length }
    else c
  let id ← openTag tag
  modify fun c => { c with formatting := .element id tag :: c.formatting }

/-! ## End tags -/

/-- The open elements that an end tag without rules of its own leaves: those outside
the nearest element of this name, unless a special element is nearer. -/
def afterEndTag? (c : Construction) (name : String) : List NodeId → Option (List NodeId)
  | [] => none
  | id :: outer =>
    if (c.nameOf id).isHtml [name] then some outer
    else if (c.nameOf id).isHtml special then none
    else afterEndTag? c name outer

/-- An end tag without rules of its own. -/
def endOrdinary (name : String) : Build Unit :=
  modify fun c =>
    match afterEndTag? c name c.openElements with
    | none => c
    | some outer => { c with openElements := outer }

/-! ## Formatting elements that are cut by a block -/

/-- What happens to the elements between a formatting element and the block that
cuts it. -/
structure Chain where
  /-- The node that the next one takes in. -/
  last : NodeId
  /-- The elements that stay open, in reverse. -/
  kept : List NodeId
  /-- The element behind which the formatting element will stand in the list. -/
  mark : Option NodeId

/-- Goes through the elements between the block and the formatting element, from the
inside out.  Those of the first three that are formatting elements themselves are
made again and take in what is inside them; all others are closed. -/
def rebuildChain (block : NodeId) : (count : Nat) → List NodeId → Chain → Build Chain
  | _, [], chain => return chain
  | count, id :: outer, chain => do
    let entry ← ask fun c => c.formatting.find? (Formatting.isOf id)
    match entry with
    | some (.element _ tag) =>
      if count < 3 then
        let fresh ← create (.element (.html tag.name) tag.attrs)
        modify fun c =>
          { c with
            openElements := c.openElements.map fun x => if x = id then fresh else x
            formatting := c.formatting.map fun f =>
              if f.isOf id then .element fresh tag else f }
        edit (Edit.detach chain.last)
        edit (Edit.append fresh chain.last)
        let mark := if chain.last = block then some fresh else chain.mark
        rebuildChain block (count + 1) outer ⟨fresh, fresh :: chain.kept, mark⟩
      else
        dropFormatting id
        close id
        rebuildChain block (count + 1) outer chain
    | _ =>
      close id
      rebuildChain block (count + 1) outer chain

/-- Puts `fresh` into the list in place of `old`: immediately behind `mark`, or where
`old` stands if there is no mark. -/
def replaceFormatting (old : NodeId) (fresh : Formatting) (mark : Option NodeId)
    (fs : List Formatting) : List Formatting :=
  match mark with
  | none => fs.map fun f => if f.isOf old then fresh else f
  | some mark =>
    (fs.flatMap fun f => if f.isOf mark then [fresh, f] else [f]).eraseP (Formatting.isOf old)

/-- One round of closing the formatting element `name`.  Answers whether another
round may find more to do. -/
def cutRound (name : String) : Build Bool := do
  let c ← get
  match c.recentFormatting.find? (Formatting.isNamed name) with
  | some (.element id tag) =>
    if !c.openElements.contains id then
      dropFormatting id
      return false
    if !c.inScope endsScope (· == id) then
      return false
    let inner := c.openElements.takeWhile (· != id)
    let outer := (c.openElements.dropWhile (· != id)).tail
    -- The special element nearest to the formatting element is the block that cuts it.
    match inner.reverse.find? fun x => (c.nameOf x).isHtml special with
    | none =>
      set { c with openElements := outer }
      dropFormatting id
      return false
    | some block =>
      let innermost := inner.takeWhile (· != block)
      let between := (inner.dropWhile (· != block)).tail
      let chain ← rebuildChain block 0 between ⟨block, [], none⟩
      edit (Edit.detach chain.last)
      placeFor (outer.headD .root) (.node chain.last)
      let fresh ← create (.element (.html tag.name) tag.attrs)
      edit (Edit.moveChildren block fresh)
      edit (Edit.append block fresh)
      modify fun c =>
        { c with
          formatting := replaceFormatting id (.element fresh tag) chain.mark c.formatting
          openElements := innermost ++ [fresh, block] ++ chain.kept.reverse ++ outer }
      return true
  | _ =>
    endOrdinary name
    return false

/-- At most `rounds` rounds of closing the formatting element `name`. -/
def cutRounds (name : String) : (rounds : Nat) → Build Unit
  | 0 => return
  | rounds + 1 => do
    if ← cutRound name then cutRounds name rounds

/-- Closes the formatting element `name`, and makes it again inside every block that
it was cut by. -/
def endFormatting (name : String) : Build Unit := do
  let (plain : Bool) ← ask fun c =>
    c.currentIs [name] && !c.formatting.any (Formatting.isOf c.current)
  if plain then pop else cutRounds name 8

/-- An anchor ends the anchor that is still open. -/
def endOpenAnchor : Build Unit := do
  let anchor ← ask fun c =>
    c.recentFormatting.findSome? fun f => f.id?.filter fun id => (c.nameOf id).isHtml ["a"]
  match anchor with
  | none => return
  | some id =>
    endFormatting "a"
    dropFormatting id
    close id

end Build

end DocTree.Html
