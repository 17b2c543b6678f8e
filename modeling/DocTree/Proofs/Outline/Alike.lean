import DocTree.Edit
import DocTree.Proofs.Defects
import DocTree.Proofs.Outline.Lines
set_option autoImplicit false

/-!
# Alike: outlines tell trees apart

An outline lists the nodes of a subtree in document order with their depths, and the depths
tell the shape: what belongs below a node is what follows it at a greater depth
(`alike_of_faces_eq`).  So two outlines are equal exactly if the subtrees have the same shape
and tell the same of nodes at the same place (`outline_eq_iff_alike`).
-/

namespace DocTree

namespace Rose

mutual

/-- The payloads of a tree in document order, each with its depth; the root is at `depth`. -/
def entries (depth : Nat) : Rose → List (Nat × Payload)
  | node _ payload kids => (depth, payload) :: entriesAll (depth + 1) kids

/-- The payloads of several trees, one tree after another, whose roots are at `depth`. -/
def entriesAll (depth : Nat) : List Rose → List (Nat × Payload)
  | [] => []
  | r :: rs => r.entries depth ++ entriesAll depth rs

end

@[simp] theorem entries_node (depth : Nat) (id : NodeId) (payload : Payload) (kids : List Rose) :
    (node id payload kids).entries depth = (depth, payload) :: entriesAll (depth + 1) kids := rfl

theorem entriesAll_eq_flatMap (depth : Nat) (rs : List Rose) :
    entriesAll depth rs = rs.flatMap (entries depth) := by
  induction rs with
  | nil => rfl
  | cons r rs ih => rw [entriesAll, ih, List.flatMap_cons]

/-- What an outline tells of a tree. -/
def faces (depth : Nat) (r : Rose) : List (Nat × Face) := (r.entries depth).map entryFace

/-- What an outline tells of several trees. -/
def facesAll (depth : Nat) (rs : List Rose) : List (Nat × Face) :=
  (entriesAll depth rs).map entryFace

@[simp] theorem faces_node (depth : Nat) (id : NodeId) (payload : Payload) (kids : List Rose) :
    (node id payload kids).faces depth = (depth, payload.face) :: facesAll (depth + 1) kids :=
  rfl

@[simp] theorem facesAll_nil (depth : Nat) : facesAll depth [] = [] := rfl

@[simp] theorem facesAll_cons (depth : Nat) (r : Rose) (rs : List Rose) :
    facesAll depth (r :: rs) = r.faces depth ++ facesAll depth rs := List.map_append

/-- The roots come first. -/
theorem exists_head?_facesAll (depth : Nat) (r : Rose) (rs : List Rose)
    (xs : List (Nat × Face)) : ∃ e ∈ (facesAll depth (r :: rs) ++ xs).head?, e.1 = depth := by
  cases r with
  | node id payload kids => exact ⟨(depth, payload.face), rfl, rfl⟩

theorem head?_facesAll_le {depth : Nat} (rs : List Rose) {xs : List (Nat × Face)}
    (hx : ∀ e ∈ xs.head?, e.1 ≤ depth) :
    ∀ e ∈ (facesAll depth rs ++ xs).head?, e.1 ≤ depth := by
  cases rs with
  | nil => exact hx
  | cons r rs =>
    intro e he
    obtain ⟨f, hf, hdepth⟩ := exists_head?_facesAll depth r rs xs
    rw [Option.some.inj (he.symm.trans hf), hdepth]

end Rose

namespace Tree

variable {t u : Tree} {r s : Rose}

/-! ## Outlines of held trees -/

/-- Reading a held tree with its depths lists what is in it. -/
theorem Holds.entries_eq (h : t.Holds r) {levels : Nat} (hlevels : r.ids.length ≤ levels)
    (depth : Nat) : t.entries levels depth r.id = r.entries depth := by
  induction r using Rose.induct generalizing levels depth with
  | node id payload kids ih =>
    rw [Rose.ids_node, List.length_cons] at hlevels
    obtain ⟨levels, rfl⟩ : ∃ k, levels = k + 1 := ⟨levels - 1, by omega⟩
    obtain ⟨n, hn, hpayload⟩ := Option.map_eq_some_iff.1 h.payload?
    have hchildren : t.children id = kids.map Rose.id := h.hasKids.children_eq
    have hbelow : ∀ k ∈ kids, t.entries levels (depth + 1) k.id = k.entries (depth + 1) := by
      intro k hk
      apply ih k hk (h.kid k hk)
      have := (Rose.ids_sublist_idsAll hk).length_le
      omega
    change t.entries (levels + 1) depth id = _
    simp only [Tree.entries, hn, hpayload, hchildren, List.flatMap_map, Rose.entries_node,
      Rose.entriesAll_eq_flatMap]
    rw [List.flatMap_congr hbelow]

/-- Every entry shows the payload of a node of the tree. -/
theorem Holds.exists_of_mem_entries (h : t.Holds r) {depth : Nat} {e : Nat × Payload}
    (he : e ∈ r.entries depth) : ∃ x ∈ r.ids, t.payload? x = some e.2 := by
  induction r using Rose.induct generalizing depth with
  | node id payload kids ih =>
    rw [Rose.entries_node, List.mem_cons, Rose.entriesAll_eq_flatMap, List.mem_flatMap] at he
    rcases he with rfl | ⟨k, hk, he⟩
    · exact ⟨id, List.mem_cons_self, h.payload?⟩
    · obtain ⟨x, hx, hpayload⟩ := ih k hk (h.kid k hk) he
      exact ⟨x, List.mem_cons_of_mem _ (Rose.mem_idsAll.2 ⟨k, hk, hx⟩), hpayload⟩

/-- What hangs below an attached node is a held tree, and the outline shows its entries. -/
theorem exists_outline_eq {a : NodeId} (hlinks : t.defect? = none)
    (ha : a ∈ t.descendants .root) :
    ∃ r, r.id = a ∧ t.Holds r ∧ t.descendants a = r.ids ∧
      t.outline a = String.join ((r.entries 0).map fun e => outlineLine e.1 e.2) := by
  obtain ⟨d, hd, hnodup, hroot⟩ := defect?_eq_none_iff_holds.1 hlinks
  rw [← hroot, hd.descendants_eq hnodup] at ha
  obtain ⟨r, rfl, hr, hsub⟩ := hd.exists_holds_of_mem ha
  have hdistinct := hnodup.sublist hsub
  refine ⟨r, rfl, hr, hr.descendants_eq hdistinct, ?_⟩
  rw [outline, hr.entries_eq (hr.length_ids_le hdistinct)]

/-! ## Equal shapes -/

/-- The subtree at `a` in `t` and that at `b` in `u` have the same shape, and nodes at the
same place in them tell the same in an outline. -/
inductive Alike (t u : Tree) : NodeId → NodeId → Prop where
  | node {a b : NodeId} {p q : Payload} (hp : t.payload? a = some p) (hq : u.payload? b = some q)
    (hface : p.face = q.face) (hkids : List.Forall₂ (Alike t u) (t.children a) (u.children b)) :
    Alike t u a b

/-! ## Depths tell the shape -/

theorem facesAll_eq_of_forall₂ {depth : Nat} {ks ks' : List Rose}
    (hks : ∀ k ∈ ks, ∀ s, u.Holds s → t.Alike u k.id s.id → k.faces depth = s.faces depth)
    (hks' : ∀ k ∈ ks', u.Holds k)
    (h : List.Forall₂ (t.Alike u) (ks.map Rose.id) (ks'.map Rose.id)) :
    Rose.facesAll depth ks = Rose.facesAll depth ks' := by
  induction ks generalizing ks' with
  | nil =>
    cases ks' with
    | nil => rfl
    | cons k' ks' => cases h
  | cons k ks ih =>
    cases ks' with
    | nil => cases h
    | cons k' ks' =>
      obtain ⟨hk, hrest⟩ := List.forall₂_cons.1 h
      rw [Rose.facesAll_cons, Rose.facesAll_cons,
        hks k List.mem_cons_self k' (hks' k' List.mem_cons_self) hk,
        ih (fun c hc => hks c (List.mem_cons_of_mem _ hc))
          (fun c hc => hks' c (List.mem_cons_of_mem _ hc)) hrest]

/-- The same is told of trees that are alike. -/
theorem faces_eq_of_alike (hr : t.Holds r) (hs : u.Holds s) (h : t.Alike u r.id s.id)
    (depth : Nat) : r.faces depth = s.faces depth := by
  induction r using Rose.induct generalizing s depth with
  | node id payload kids ih =>
    cases s with
    | node id' payload' kids' =>
      obtain ⟨hp, hq, hface, hkids⟩ := h
      obtain rfl := Option.some.inj (hr.payload?.symm.trans hp)
      obtain rfl := Option.some.inj (hs.payload?.symm.trans hq)
      change List.Forall₂ (t.Alike u) (t.children id) (u.children id') at hkids
      rw [hr.hasKids.children_eq, hs.hasKids.children_eq] at hkids
      rw [Rose.faces_node, Rose.faces_node, hface, facesAll_eq_of_forall₂
        (fun k hk s hs h => ih k hk (hr.kid k hk) hs h (depth + 1)) hs.kid hkids]

/-- What is told of a list of trees ends where the depth is less than that of their roots, if
what is told of each of them ends where the depth is no greater than that of its root. -/
theorem forall₂_alike_of_faces_eq {depth : Nat} {ks ks' : List Rose}
    (hks : ∀ k ∈ ks, ∀ s, u.Holds s → ∀ xs ys : List (Nat × Face),
      (∀ e ∈ xs.head?, e.1 ≤ depth) → (∀ e ∈ ys.head?, e.1 ≤ depth) →
      k.faces depth ++ xs = s.faces depth ++ ys → t.Alike u k.id s.id ∧ xs = ys)
    (hks' : ∀ k ∈ ks', u.Holds k) {xs ys : List (Nat × Face)} (hx : ∀ e ∈ xs.head?, e.1 < depth)
    (hy : ∀ e ∈ ys.head?, e.1 < depth)
    (h : Rose.facesAll depth ks ++ xs = Rose.facesAll depth ks' ++ ys) :
    List.Forall₂ (t.Alike u) (ks.map Rose.id) (ks'.map Rose.id) ∧ xs = ys := by
  induction ks generalizing ks' with
  | nil =>
    cases ks' with
    | nil => exact ⟨.nil, h⟩
    | cons k' ks' =>
      -- the other side begins with a root, which is too deep to follow
      rw [Rose.facesAll_nil, List.nil_append] at h
      obtain ⟨e, he, hdepth⟩ := Rose.exists_head?_facesAll depth k' ks' ys
      rw [← h] at he
      exact absurd (hx e he) (by omega)
  | cons k ks ih =>
    cases ks' with
    | nil =>
      rw [Rose.facesAll_nil, List.nil_append] at h
      obtain ⟨e, he, hdepth⟩ := Rose.exists_head?_facesAll depth k ks xs
      rw [h] at he
      exact absurd (hy e he) (by omega)
    | cons k' ks' =>
      rw [Rose.facesAll_cons, Rose.facesAll_cons, List.append_assoc, List.append_assoc] at h
      obtain ⟨hk, hrest⟩ := hks k List.mem_cons_self k' (hks' k' List.mem_cons_self) _ _
        (Rose.head?_facesAll_le ks fun e he => Nat.le_of_lt (hx e he))
        (Rose.head?_facesAll_le ks' fun e he => Nat.le_of_lt (hy e he)) h
      obtain ⟨hall, hxy⟩ := ih (fun c hc => hks c (List.mem_cons_of_mem _ hc))
        (fun c hc => hks' c (List.mem_cons_of_mem _ hc)) hrest
      exact ⟨.cons hk hall, hxy⟩

/-- What is told of a tree ends where the depth is no greater than that of its root, and trees
of which the same is told are alike. -/
theorem alike_of_faces_eq (hr : t.Holds r) (hs : u.Holds s) {depth : Nat}
    {xs ys : List (Nat × Face)} (hx : ∀ e ∈ xs.head?, e.1 ≤ depth)
    (hy : ∀ e ∈ ys.head?, e.1 ≤ depth) (h : r.faces depth ++ xs = s.faces depth ++ ys) :
    t.Alike u r.id s.id ∧ xs = ys := by
  induction r using Rose.induct generalizing s depth xs ys with
  | node id payload kids ih =>
    cases s with
    | node id' payload' kids' =>
      rw [Rose.faces_node, Rose.faces_node, List.cons_append, List.cons_append] at h
      obtain ⟨hroot, hbelow⟩ := List.cons.inj h
      obtain ⟨hkids, hxy⟩ := forall₂_alike_of_faces_eq
        (fun k hk s hs xs ys hx hy h => ih k hk (hr.kid k hk) hs hx hy h) hs.kid
        (fun e he => Nat.lt_succ_of_le (hx e he)) (fun e he => Nat.lt_succ_of_le (hy e he)) hbelow
      rw [← hr.hasKids.children_eq, ← hs.hasKids.children_eq] at hkids
      exact ⟨.node hr.payload? hs.payload? (Prod.mk.inj hroot).2 hkids, hxy⟩

/-! ## Outlines -/

/-- Two attached nodes have the same outline exactly if their subtrees have the same shape and
nodes at the same place in them are of one kind and have the same local name, characters or
name, provided that the names an outline shows as they are can be told from the rest. -/
theorem outline_eq_iff_alike {t u : Tree} {a b : NodeId} (ht : t.defect? = none)
    (hu : u.defect? = none) (ha : a ∈ t.descendants .root) (hb : b ∈ u.descendants .root)
    (hlegible : ∀ x ∈ t.descendants a, ∀ p ∈ t.payload? x, p.Legible)
    (hlegible' : ∀ x ∈ u.descendants b, ∀ p ∈ u.payload? x, p.Legible) :
    t.outline a = u.outline b ↔ t.Alike u a b := by
  obtain ⟨r, rfl, hr, hids, hout⟩ := exists_outline_eq ht ha
  obtain ⟨s, rfl, hs, hids', hout'⟩ := exists_outline_eq hu hb
  rw [hids] at hlegible
  rw [hids'] at hlegible'
  rw [hout, hout']
  constructor
  · intro h
    have hfaces : r.faces 0 = s.faces 0 := faces_eq_of_join_eq
      (fun e he => by
        obtain ⟨x, hx, hpayload⟩ := hr.exists_of_mem_entries he
        exact hlegible x hx _ hpayload)
      (fun e he => by
        obtain ⟨x, hx, hpayload⟩ := hs.exists_of_mem_entries he
        exact hlegible' x hx _ hpayload) h
    have hends : ∀ e ∈ ([] : List (Nat × Face)).head?, e.1 ≤ 0 := by simp
    have hwhole : r.faces 0 ++ [] = s.faces 0 ++ [] := by rw [hfaces]
    exact (alike_of_faces_eq hr hs hends hends hwhole).1
  · exact fun h => join_eq_of_faces_eq (faces_eq_of_alike hr hs h 0)

/-- A paragraph whose text looks like lines of an outline, and a document type. -/
def speaking : Tree := Edit.leave (do
  let p ← Edit.createHtml "p"
  Edit.append .root p
  Edit.append p (← Edit.createText "a\"\n├─b")
  Edit.append .root (← Edit.createDoctype "html" "" "")) Tree.new

/-- The same with other numbers, in another namespace, with an attribute and with
identifiers. -/
def renumbered : Tree := Edit.leave (do
  let doctype ← Edit.createDoctype "html" "public" "system"
  let text ← Edit.createText "a\"\n├─b"
  let p ← Edit.createElement ⟨none, QName.svgSpace, "p"⟩ [⟨.plain "id", "1"⟩]
  Edit.append p text
  Edit.append .root p
  Edit.append .root doctype) Tree.new

theorem outline_eq_iff_alike_renumbered :
    speaking.defect? = none ∧ renumbered.defect? = none ∧
      .root ∈ speaking.descendants .root ∧ .root ∈ renumbered.descendants .root ∧
      (∀ x ∈ speaking.descendants .root, ∀ p ∈ speaking.payload? x, p.Legible) ∧
      (∀ x ∈ renumbered.descendants .root, ∀ p ∈ renumbered.payload? x, p.Legible) ∧
      speaking.outline .root = renumbered.outline .root ∧
      speaking.Alike renumbered .root .root := by
  have hlinks : speaking.defect? = none ∧ renumbered.defect? = none := by decide +kernel
  have hroot : .root ∈ speaking.descendants .root ∧ .root ∈ renumbered.descendants .root := by
    decide +kernel
  have hlegible : (∀ x ∈ speaking.descendants .root, ∀ p ∈ speaking.payload? x, p.Legible) ∧
      ∀ x ∈ renumbered.descendants .root, ∀ p ∈ renumbered.payload? x, p.Legible := by
    decide +kernel
  have hout : speaking.outline .root = renumbered.outline .root := by decide +kernel
  exact ⟨hlinks.1, hlinks.2, hroot.1, hroot.2, hlegible.1, hlegible.2, hout,
    (outline_eq_iff_alike hlinks.1 hlinks.2 hroot.1 hroot.2 hlegible.1 hlegible.2).1 hout⟩

end Tree

end DocTree
