import DocTree.Proofs.TextPlacement
set_option autoImplicit false

/-!
# Attributes: what an element has and what it is given

An element that is given attributes keeps its own and gets, behind them, those whose full name is
new (`Attr.fill_eq_append_missing`).  Nothing that can be asked for takes an attribute away again,
moves it or changes its value (`Call.bears_afterAll`), so that attributes of the same names that
are given to the element at any later time change nothing (`fillAttrs_fills`).
-/

namespace DocTree

open DocTree.Tree

/-! ## Lists of attributes -/

namespace Attr

variable {attrs more : List Attr} {a : Attr} {name : QName}

/-- Those of `more`, in their order, whose full name occurs neither in `attrs` nor before them. -/
def missing (attrs more : List Attr) : List Attr :=
  (more.zipIdx.filter fun e => (attrs ++ more.take e.2).all fun b => b.name != e.1.name).map
    Prod.fst

theorem all_name_ne_iff (attrs : List Attr) (name : QName) :
    (attrs.all fun b => b.name != name) = true ↔ name ∉ attrs.map Attr.name := by
  simp

/-- Each element of a list is looked at with its place; behind the first one the places are those
of the rest, shifted by one. -/
theorem map_fst_filter_zipIdx_cons {α : Type} (p : α × Nat → Bool) (x : α) (xs : List α) :
    ((x :: xs).zipIdx.filter p).map Prod.fst = (if p (x, 0) then [x] else []) ++
      (xs.zipIdx.filter fun e => p (e.1, e.2 + 1)).map Prod.fst := by
  rw [List.zipIdx_cons, List.zipIdx_succ, List.filter_cons, List.filter_map]
  split <;> simp [Function.comp_def]

@[simp] theorem missing_nil (attrs : List Attr) : missing attrs [] = [] := rfl

/-- The first attribute is missing if its name is new, and then its name is no longer new for the
others. -/
theorem missing_cons (attrs : List Attr) (a : Attr) (more : List Attr) :
    missing attrs (a :: more) = if a.name ∈ attrs.map Attr.name then missing attrs more
      else a :: missing (attrs ++ [a]) more := by
  unfold missing
  rw [map_fst_filter_zipIdx_cons]
  simp only [List.take_zero, List.append_nil, List.take_succ_cons, all_name_ne_iff, ite_not]
  split
  · next hold =>
    -- whatever has the name of `a` has that of an attribute before it
    rw [List.nil_append]
    congr 1
    refine List.filter_congr fun e _ => ?_
    rw [Bool.eq_iff_iff, all_name_ne_iff, all_name_ne_iff]
    grind
  · simp only [List.append_assoc, List.singleton_append]

theorem fill_cons (attrs : List Attr) (a : Attr) (more : List Attr) :
    fill attrs (a :: more) = if a.name ∈ attrs.map Attr.name then fill attrs more
      else fill (attrs ++ [a]) more := by
  have hhas : (attrs.any fun b => b.name == a.name) = true ↔ a.name ∈ attrs.map Attr.name := by
    simp
  rw [fill]
  simp only [hhas]

/-- What is filled in are the attributes that are missing. -/
theorem fill_eq_append_missing (attrs more : List Attr) :
    fill attrs more = attrs ++ missing attrs more := by
  induction more generalizing attrs with
  | nil => rw [fill_nil, missing_nil, List.append_nil]
  | cons a more ih =>
    rw [fill_cons, missing_cons]
    split
    · exact ih attrs
    · rw [ih, List.append_assoc, List.singleton_append]

/-- Every name that is given is there in the end. -/
theorem mem_names_append_missing_iff :
    name ∈ (attrs ++ missing attrs more).map Attr.name ↔
      name ∈ (attrs ++ more).map Attr.name := by
  induction more generalizing attrs with
  | nil => rw [missing_nil]
  | cons a more ih =>
    rw [missing_cons]
    split
    · rw [ih]
      grind
    · rw [← List.singleton_append, ← List.append_assoc, ih, List.append_assoc,
        List.singleton_append]

/-- No name is there twice in the end if none was before. -/
theorem nodup_names_append_missing (h : (attrs.map Attr.name).Nodup) :
    ((attrs ++ missing attrs more).map Attr.name).Nodup := by
  induction more generalizing attrs with
  | nil => rwa [missing_nil, List.append_nil]
  | cons a more ih =>
    rw [missing_cons]
    split
    · exact ih h
    · next hnew =>
      have hone : ((attrs ++ [a]).map Attr.name).Nodup := by
        rw [List.map_append, List.map_singleton, ← List.concat_eq_append]
        exact h.concat hnew
      rw [← List.singleton_append, ← List.append_assoc]
      exact ih hone

/-- Attributes whose names are all there already are not filled in. -/
theorem fill_eq_self (h : ∀ a ∈ more, a.name ∈ attrs.map Attr.name) : fill attrs more = attrs := by
  induction more with
  | nil => exact fill_nil attrs
  | cons a more ih =>
    rw [fill_cons, if_pos (h a List.mem_cons_self)]
    exact ih fun b hb => h b (List.mem_cons_of_mem _ hb)

end Attr

/-! ## The attributes of one element -/

namespace Tree

variable {t : Tree} {id : NodeId} {name : QName} {attrs more later : List Attr}

@[simp] theorem payload?_fillAttrs (t : Tree) (id : NodeId) (more : List Attr) (x : NodeId) :
    (t.fillAttrs id more).payload? x =
      if id = x then (t.payload? x).map (Payload.fillAttrs more) else t.payload? x :=
  payload?_modify t id (Payload.fillAttrs more) x

/-- `id` is an element of this name, and `attrs` are the first of its attributes. -/
def Bears (t : Tree) (id : NodeId) (name : QName) (attrs : List Attr) : Prop :=
  ∃ rest, t.payload? id = some (.element name (attrs ++ rest))

theorem Bears.fillAttrs (h : t.Bears id name attrs) (x : NodeId) (more : List Attr) :
    (t.fillAttrs x more).Bears id name attrs := by
  obtain ⟨rest, hpayload⟩ := h
  unfold Bears
  rw [payload?_fillAttrs, hpayload]
  split
  · refine ⟨rest ++ Attr.missing (attrs ++ rest) more, ?_⟩
    rw [Option.map_some, Payload.fillAttrs, Attr.fill_eq_append_missing, List.append_assoc]
  · exact ⟨rest, rfl⟩

/-- An element is given nothing by attributes whose names it has. -/
theorem Bears.fillAttrs_eq_self (h : t.Bears id name attrs)
    (hnames : ∀ a ∈ later, a.name ∈ attrs.map Attr.name) : t.fillAttrs id later = t := by
  obtain ⟨rest, hpayload⟩ := h
  apply modify_eq_self
  intro n hn
  rw [payload?, hn, Option.map_some, Option.some.injEq] at hpayload
  have hfill : Attr.fill (attrs ++ rest) later = attrs ++ rest := by
    refine Attr.fill_eq_self fun a ha => ?_
    rw [List.map_append]
    exact List.mem_append_left _ (hnames a ha)
  rw [hpayload, Payload.fillAttrs, hfill, ← hpayload]

/-- What is no element has no attributes to be filled. -/
theorem fillAttrs_of_not_isElement (h : t.isElement id = false) (more : List Attr) :
    t.fillAttrs id more = t := by
  apply modify_eq_self
  intro n hn
  have hkind : n.payload.isElement = false := by
    rwa [isElement, payload?, hn] at h
  have hkeep : n.payload.fillAttrs more = n.payload := by
    cases hpayload : n.payload <;> rw [hpayload] at hkind <;> first | rfl | cases hkind
  rw [hkeep]

end Tree

/-! ## What no edit changes -/

/-- The node `id` has this payload. -/
def Tree.Says (id : NodeId) (payload : Payload) (t : Tree) : Prop := t.payload? id = some payload

namespace Edit

/-- Whether it comes to its end or is stopped, the edit changes no payload but those of texts. -/
def Spares {α : Type} (e : Edit α) : Prop :=
  ∀ id payload, payload.isText = false →
    Upholds (Says id payload) (Says id payload) e fun _ => Says id payload

theorem relinks_spares : Relinks fun _ e => Spares e where
  look := fun x id payload _ => (Upholds.look x).weaken (fun _ h => h) fun _ _ h => h.1
  relink := by
    intro x g hg id payload _ t ht
    have hkeep : (t.modify x g).payload? id = t.payload? id := by
      apply (Rewrites.modify t x g).payload?_eq
      intro m
      split
      · exact hg m
      · rfl
    rcases Nat.lt_or_ge x.index t.size with hx | hx
    · rw [change_eq_ok hx]
      exact hkeep.trans ht
    · rw [change_eq_error hx]
      exact ht
  create := by
    intro payload' id payload _ t ht
    have hold := index_lt_of_payload? ht
    rw [create_apply]
    exact ((payload?_create t payload' id).trans (if_neg (Nat.ne_of_lt hold))).trans ht
  pure := fun a id payload _ => Upholds.pure a fun _ h => h
  bind := fun he hf id payload hkind => (he id payload hkind).bind fun a => hf a id payload hkind

variable {id x p sib : NodeId} {payload : Payload} {old content : String}

/-- Writing into a text changes no node of another kind. -/
theorem says_extendText (hkind : payload.isText = false) (x : NodeId) (old new : String) :
    Upholds (Says id payload) (fun t => Says id payload t ∧ t.text? x = some old)
      (extendText x old new) fun _ => Says id payload := by
  rintro t ⟨ht, htext⟩
  have hne : x ≠ id := by
    rintro rfl
    rw [text?, ht, Option.bind_some] at htext
    rw [payload.isText_eq_isSome_text?, htext] at hkind
    cases hkind
  rw [extendText_eq_ok htext]
  exact ((payload?_modify t x (fun _ => .text (old ++ new)) id).trans (if_neg hne)).trans ht

theorem spares_appendText (p : NodeId) (content : String) : Spares (appendText p content) := by
  intro id payload hkind
  have hK := relinks_spares
  have hadd := (hK.bind (hK.create (.text content)) fun c => hK.append p c) id payload hkind
  apply (hK.look p id payload hkind).bind
  intro m
  split
  · exact hadd
  · next last _ =>
    apply (Upholds.look last).bind
    intro k
    split
    · next old hold =>
      refine (says_extendText hkind last old content).weaken (fun t h => ⟨h.1, ?_⟩) fun _ _ h => h
      rw [text?, payload?, h.2, Option.map_some, hold]
      rfl
    · exact hadd.weaken (fun _ h => h.1) fun _ _ h => h

theorem spares_placeLast (p : NodeId) (piece : Piece) : Spares (placeLast p piece) := by
  cases piece with
  | node c => exact relinks_spares.append p c
  | text content => exact spares_appendText p content

theorem spares_placeBefore (sib : NodeId) (piece : Piece) : Spares (placeBefore sib piece) := by
  cases piece with
  | node c => exact relinks_spares.insertBefore sib c
  | text content =>
    intro id payload hkind
    have hK := relinks_spares
    apply Upholds.get.bind
    intro t
    split
    · next prev old hbefore =>
      refine (says_extendText hkind prev old content).weaken ?_ fun _ _ h => h
      rintro s ⟨hs, rfl⟩
      exact ⟨hs, text?_of_textBefore? hbefore⟩
    · have hadd := hK.bind (hK.create (.text content)) fun c => hK.insertBefore sib c
      exact (hadd id payload hkind).weaken (fun _ h => h.1) fun _ _ h => h

theorem spares_place (piece : Piece) (spot : Spot) : Spares (place piece spot) := by
  cases spot with
  | last p => exact spares_placeLast p piece
  | before sib => exact spares_placeBefore sib piece
  | beside element fallback =>
    intro id payload hkind
    apply Upholds.get.bind
    intro t
    split
    · exact (spares_placeBefore element piece id payload hkind).weaken (fun _ h => h.1)
        fun _ _ h => h
    · exact (spares_placeLast fallback piece id payload hkind).weaken (fun _ h => h.1)
        fun _ _ h => h

theorem spares_appendAll (p : NodeId) (ids : List NodeId) : Spares (appendAll p ids) := by
  induction ids with
  | nil => exact relinks_spares.pure ()
  | cons c ids ih => exact relinks_spares.bind (relinks_spares.append p c) fun _ => ih

theorem spares_moveChildren (x p : NodeId) : Spares (moveChildren x p) := by
  intro id payload hkind
  apply Upholds.get.bind
  intro t
  exact (spares_appendAll p (t.children x) id payload hkind).weaken (fun _ h => h.1) fun _ _ h => h

end Edit

/-! ## What regrouping keeps -/

section Regroup

variable {P : Tree → Prop} (hcreate : ∀ payload, Upholds P P (Edit.create payload) fun _ => P)
  (happend : ∀ p c, Upholds P P (Edit.append p c) fun _ => P)
  (hinsert : ∀ sib c, Upholds P P (Edit.insertBefore sib c) fun _ => P)

include hcreate happend hinsert

theorem Upholds.gatherStrays (list : NodeId) (item : Option NodeId) (children : List NodeId) :
    Upholds (fun s => P s.1) (fun s => P s.1) (DocTree.gatherStrays list item children)
      fun _ s => P s.1 := by
  have hitem : ∀ child item, Upholds (fun s : Tree × Log × Tally => P s.1) (fun s => P s.1)
      (itemFor child item) fun _ s => P s.1 := by
    intro child item
    cases item with
    | some i => exact Upholds.pure i fun _ h => h
    | none =>
      refine (hcreate _).edit.bind fun i => (hinsert child i).edit.bind fun _ => ?_
      exact (Upholds.note _).bind fun _ => Upholds.pure i fun _ h => h
  induction children generalizing item with
  | nil => exact Upholds.pure () fun _ h => h
  | cons child children ih =>
    apply Upholds.tree.bind
    intro t
    split
    · exact (ih (some child)).weaken (fun _ h => h.1) fun _ _ h => h
    · refine ((hitem child item).weaken (fun _ h => h.1) fun _ _ h => h).bind fun i => ?_
      refine (happend i child).edit.bind fun _ => (Upholds.note _).bind fun _ => ih (some i)

/-- What is kept when nodes are made, appended and put before others is kept by regrouping. -/
theorem Upholds.regroupLists :
    Upholds (fun s => P s.1) (fun s => P s.1) DocTree.regroupLists fun _ s => P s.1 := by
  have hlist : ∀ id, Upholds (fun s => P s.1) (fun s => P s.1) (regroupList id)
      fun _ s => P s.1 := by
    intro id
    apply Upholds.tree.bind
    intro t
    split
    · refine ((Upholds.note _).weaken (fun _ h => h.1) fun _ _ h => h).bind fun _ => ?_
      apply Upholds.tree.bind
      intro u
      exact (Upholds.gatherStrays hcreate happend hinsert id none (u.children id)).weaken
        (fun _ h => h.1) fun _ _ h => h
    · exact Upholds.pure () fun _ h => h.1
  apply Upholds.tree.bind
  intro t
  split
  · exact Upholds.throw _ fun s hs => hs.1
  · have hwalk := Upholds.withState (σ := Log) Tally.zero (Upholds.walk hlist .root)
    exact (hwalk.weaken (fun _ h => h.1) fun _ _ h => h).bind fun _ => Upholds.note _

end Regroup

/-! ## All calls -/

namespace Call

variable {c : Call} {id : NodeId} {name : QName} {attrs : List Attr} {s : Tree × Log}

/-- Only giving attributes changes the payload of a node that is no text. -/
theorem says_pass {payload : Payload} (hkind : payload.isText = false)
    (hc : ∀ x more, c ≠ .fillAttrs x more) :
    Upholds (fun s => Says id payload s.1) (fun s => Says id payload s.1) c.pass
      fun _ s => Says id payload s.1 := by
  have hK := Edit.relinks_spares
  have hedit : ∀ {e : Edit Unit}, e.Spares →
      Upholds (fun s : Tree × Log => Says id payload s.1) (fun s => Says id payload s.1)
        (Pass.edit e) fun _ s => Says id payload s.1 :=
    fun he => (he id payload hkind).edit
  have hmake : ∀ payload' : Payload,
      Upholds (fun s : Tree × Log => Says id payload s.1) (fun s => Says id payload s.1)
        (do let _ ← Pass.edit (Edit.create payload')) fun _ s => Says id payload s.1 :=
    fun payload' => (hK.create payload' id payload hkind).edit.bind
      fun _ => Upholds.pure () fun _ h => h
  cases c with
  | createElement _ _ | createHtml _ | createText _ | createComment _ | createDoctype _ _ _ =>
    exact hmake _
  | append p child => exact hedit (hK.append p child)
  | insertBefore sib child => exact hedit (hK.insertBefore sib child)
  | detach child => exact hedit (hK.detach child)
  | appendText p content => exact hedit (Edit.spares_appendText p content)
  | place piece spot => exact hedit (Edit.spares_place piece spot)
  | appendDoctype n publicId systemId =>
    exact hedit (hK.bind (hK.create _) fun child => hK.append .root child)
  | fillAttrs x more => exact absurd rfl (hc x more)
  | moveChildren x p => exact hedit (Edit.spares_moveChildren x p)
  | regroupLists =>
    exact Upholds.regroupLists (fun payload' => hK.create payload' id payload hkind)
      (fun p child => hK.append p child id payload hkind)
      fun sib child => hK.insertBefore sib child id payload hkind

/-- No call takes an attribute away, moves it or changes its value. -/
theorem bears_after (c : Call) (h : s.1.Bears id name attrs) :
    (c.after s).1.Bears id name attrs := by
  have hkeep : (∀ x more, c ≠ .fillAttrs x more) → (c.after s).1.Bears id name attrs := by
    intro hc
    obtain ⟨rest, hsays⟩ := h
    have hkind : (Payload.element name (attrs ++ rest)).isText = false := rfl
    have hpass := says_pass hkind hc s hsays
    refine ⟨rest, ?_⟩
    unfold after
    cases hrun : c.pass s <;> rw [hrun] at hpass <;> exact hpass
  cases c with
  | fillAttrs x more => exact h.fillAttrs x more
  | _ => exact hkeep fun _ _ heq => by cases heq

theorem bears_afterAll (calls : List Call) (h : s.1.Bears id name attrs) :
    (afterAll s calls).1.Bears id name attrs := by
  induction calls generalizing s with
  | nil => exact h
  | cons c calls ih => exact ih (c.bears_after h)

end Call

/-- An element that is given attributes has its own ones as before and behind them, in their order,
those whose full name neither it nor an earlier one has; so if its names were distinct they still
are.  Whatever is asked for afterwards, attributes whose names it had or was given change nothing.
A node that is no element is given nothing, and no link and no other node changes. -/
theorem fillAttrs_fills (t : Tree) (id : NodeId) (more : List Attr) :
    (∀ name attrs, t.payload? id = some (.element name attrs) →
      (t.fillAttrs id more).payload? id =
        some (.element name (attrs ++ Attr.missing attrs more)) ∧
      ((attrs.map Attr.name).Nodup →
        ((attrs ++ Attr.missing attrs more).map Attr.name).Nodup) ∧
      ∀ (log : Log) (calls : List Call) (u : Tree × Log),
        Call.afterAll (t.fillAttrs id more, log) calls = u →
        ∀ later : List Attr, (∀ a ∈ later, a.name ∈ (attrs ++ more).map Attr.name) →
          u.1.fillAttrs id later = u.1) ∧
    (t.isElement id = false → t.fillAttrs id more = t) ∧
    t.SameLinks (t.fillAttrs id more) ∧ (t.fillAttrs id more).size = t.size ∧
    ∀ x, x ≠ id → (t.fillAttrs id more).node? x = t.node? x := by
  refine ⟨fun name attrs hpayload => ?_, fun h => fillAttrs_of_not_isElement h more,
    .modify t id (Payload.fillAttrs more), size_modify t id _, fun x hx => ?_⟩
  · have hfilled : (t.fillAttrs id more).payload? id =
        some (.element name (attrs ++ Attr.missing attrs more)) := by
      rw [payload?_fillAttrs, if_pos rfl, hpayload, Option.map_some, Payload.fillAttrs,
        Attr.fill_eq_append_missing]
    refine ⟨hfilled, Attr.nodup_names_append_missing, ?_⟩
    rintro log calls u rfl later hlater
    have hbears : (t.fillAttrs id more).Bears id name (attrs ++ Attr.missing attrs more) :=
      ⟨[], by rw [hfilled, List.append_nil]⟩
    refine Bears.fillAttrs_eq_self (Call.bears_afterAll calls hbears) fun a ha => ?_
    exact Attr.mem_names_append_missing_iff.2 (hlater a ha)
  · exact (node?_modify t id _ x).trans (if_neg (Ne.symm hx))

/-- A paragraph that has one attribute. -/
def paragraphRow : Tree :=
  (Tree.new.create (.element (.html "p") [⟨.plain "class", "a"⟩])).2

/-- Attributes for it: one whose name it has, two of one name, and one whose name differs from
its own in the namespace only. -/
def paragraphAttrs : List Attr :=
  [⟨.plain "class", "b"⟩, ⟨.plain "id", "c"⟩, ⟨.plain "id", "d"⟩,
    ⟨⟨none, QName.svgSpace, "class"⟩, "e"⟩]

theorem fillAttrs_fills_paragraph :
    (paragraphRow.fillAttrs (.ofNat 1) paragraphAttrs).payload? (.ofNat 1) =
      some (.element (.html "p") [⟨.plain "class", "a"⟩, ⟨.plain "id", "c"⟩,
        ⟨⟨none, QName.svgSpace, "class"⟩, "e"⟩]) ∧
    (∀ (log : Log) (calls : List Call),
      let u := Call.afterAll (paragraphRow.fillAttrs (.ofNat 1) paragraphAttrs, log) calls
      u.1.fillAttrs (.ofNat 1) paragraphAttrs.reverse = u.1) ∧
    paragraphRow.fillAttrs .root paragraphAttrs = paragraphRow := by
  obtain ⟨hfilled, -⟩ := fillAttrs_fills paragraphRow (.ofNat 1) paragraphAttrs
  obtain ⟨hpayload, -, hlater⟩ := hfilled (.html "p") [⟨.plain "class", "a"⟩] rfl
  refine ⟨hpayload, fun log calls => ?_, ?_⟩
  · refine hlater log calls _ rfl paragraphAttrs.reverse fun a ha => ?_
    rw [List.map_append]
    exact List.mem_append_right _ (List.mem_map_of_mem (List.mem_reverse.1 ha))
  · exact (fillAttrs_fills paragraphRow .root paragraphAttrs).2.1 rfl

end DocTree
