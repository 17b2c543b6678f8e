import DocTree.Outline
import DocTree.Proofs.Text.Quoted
set_option autoImplicit false

/-!
# Lines: what a line of an outline tells

The bars of a line end where its branch begins, and a label ends with the line, so a line
tells the depth of its node and its label (`lineChars_inj`).  A label tells the kind of the
payload and the name or the characters that it shows, unless a name that is shown as it is
looks like something else (`face_eq_of_label_eq`).  So an outline is known line by line
(`faces_eq_of_join_eq`).
-/

namespace DocTree

/-! ## Labels -/

/-- What an outline tells of a payload. -/
inductive Face where
  | document
  | element (name : String)
  | text (content : String)
  | comment (content : String)
  | doctype (name : String)
  deriving DecidableEq, Repr

namespace Payload

/-- The kind of a payload, with the local name of an element, the characters of a text or a
comment, or the name of a document type. -/
def face : Payload → Face
  | .document => .document
  | .element name _ => .element name.name
  | .text content => .text content
  | .comment content => .comment content
  | .doctype name _ _ => .doctype name

/-- The names that a label shows as they are stay on one line, and that of an element does not
begin as the labels of all other kinds do. -/
def Legible : Payload → Prop
  | .element name _ => '\n' ∉ name.name.toList ∧ name.name.toList.head? ≠ some '#'
  | .doctype name _ _ => '\n' ∉ name.toList
  | _ => True

instance : DecidablePred Legible
  | .document => isTrue trivial
  | .element name _ =>
    inferInstanceAs (Decidable ('\n' ∉ name.name.toList ∧ name.name.toList.head? ≠ some '#'))
  | .text _ => isTrue trivial
  | .comment _ => isTrue trivial
  | .doctype name _ _ => inferInstanceAs (Decidable ('\n' ∉ name.toList))

variable {p q : Payload}

theorem label_eq_of_face_eq (h : p.face = q.face) : p.label = q.label := by
  cases p <;> cases q <;> simp_all [face, label]

/-- The first character of a label tells whether it is the name of an element, and the first
five tell the other kinds apart. -/
theorem face_eq_of_label_eq (hp : p.Legible) (hq : q.Legible) (h : p.label = q.label) :
    p.face = q.face := by
  have hhead : p.label.toList.head? = q.label.toList.head? := by rw [h]
  have htake : p.label.toList.take 5 = q.label.toList.take 5 := by rw [h]
  cases p <;> cases q <;> simp [label] at hhead htake <;>
    simp_all [face, label, Legible, Text.quote_injective.eq_iff]

theorem newline_not_mem_label (h : p.Legible) : '\n' ∉ p.label.toList := by
  cases p with
  | document => decide
  | element name attrs => exact h.1
  | text content => simp [label, Text.newline_not_mem_quote]
  | comment content => simp [label, Text.newline_not_mem_quote]
  | doctype name publicId systemId => simpa [label, Legible] using h

end Payload

/-! ## One line -/

/-- The characters of a line without the newline at its end. -/
def lineChars (depth : Nat) (payload : Payload) : List Char :=
  (List.replicate depth ['│', ' ']).flatten ++ '├' :: '─' :: payload.label.toList

variable {d e : Nat} {p q : Payload}

theorem toList_outlineLine (depth : Nat) (payload : Payload) :
    (outlineLine depth payload).toList = lineChars depth payload ++ ['\n'] := by
  simp [outlineLine, indent, lineChars, List.flatMap_replicate]

theorem lineChars_succ (depth : Nat) (payload : Payload) :
    lineChars (depth + 1) payload = '│' :: ' ' :: lineChars depth payload := by
  simp [lineChars, List.replicate_succ]

theorem lineChars_inj (h : lineChars d p = lineChars e q) : d = e ∧ p.label = q.label := by
  induction d generalizing e with
  | zero =>
    cases e with
    | zero =>
      have hlabel := (List.cons.inj (List.cons.inj h).2).2
      exact ⟨rfl, String.toList_inj.1 hlabel⟩
    | succ e =>
      rw [lineChars_succ] at h
      exact absurd (List.cons.inj h).1 (by decide)
  | succ d ih =>
    rw [lineChars_succ] at h
    cases e with
    | zero => exact absurd (List.cons.inj h).1 (by decide)
    | succ e =>
      rw [lineChars_succ] at h
      obtain ⟨rfl, hlabel⟩ := ih (List.cons.inj (List.cons.inj h).2).2
      exact ⟨rfl, hlabel⟩

theorem newline_not_mem_lineChars (d : Nat) (h : p.Legible) : '\n' ∉ lineChars d p := by
  induction d with
  | zero =>
    have hlabel := Payload.newline_not_mem_label h
    simpa [lineChars] using hlabel
  | succ d ih =>
    rw [lineChars_succ]
    simpa using ih

/-! ## All lines -/

/-- What the line of an entry tells. -/
def entryFace (e : Nat × Payload) : Nat × Face := (e.1, e.2.face)

theorem outlineLine_eq_of_entryFace_eq {e f : Nat × Payload} (h : entryFace e = entryFace f) :
    outlineLine e.1 e.2 = outlineLine f.1 f.2 := by
  obtain ⟨hdepth, hface⟩ := Prod.mk.inj h
  rw [outlineLine, outlineLine, hdepth, Payload.label_eq_of_face_eq hface]

theorem join_eq_of_faces_eq {es fs : List (Nat × Payload)}
    (h : es.map entryFace = fs.map entryFace) :
    String.join (es.map fun e => outlineLine e.1 e.2) =
      String.join (fs.map fun e => outlineLine e.1 e.2) := by
  induction es generalizing fs with
  | nil => rw [List.map_eq_nil_iff.1 h.symm]
  | cons e es ih =>
    cases fs with
    | nil => cases h
    | cons f fs =>
      obtain ⟨hef, hrest⟩ := List.cons.inj h
      simp only [List.map_cons, String.join_cons]
      rw [outlineLine_eq_of_entryFace_eq hef, ih hrest]

/-- An outline tells what its lines tell. -/
theorem faces_eq_of_join_eq {es fs : List (Nat × Payload)} (hes : ∀ e ∈ es, e.2.Legible)
    (hfs : ∀ f ∈ fs, f.2.Legible)
    (h : String.join (es.map fun e => outlineLine e.1 e.2) =
      String.join (fs.map fun e => outlineLine e.1 e.2)) :
    es.map entryFace = fs.map entryFace := by
  replace h := congrArg String.toList h
  simp only [String.toList_join, List.flatMap_map, toList_outlineLine] at h
  induction es generalizing fs with
  | nil =>
    cases fs with
    | nil => rfl
    | cons f fs => simp at h
  | cons e es ih =>
    cases fs with
    | nil => simp at h
    | cons f fs =>
      have he := hes e List.mem_cons_self
      have hf := hfs f List.mem_cons_self
      simp only [List.flatMap_cons, List.append_assoc, List.singleton_append] at h
      obtain ⟨hline, hrest⟩ := Text.append_cons_inj (newline_not_mem_lineChars e.1 he)
        (newline_not_mem_lineChars f.1 hf) h
      obtain ⟨hdepth, hlabel⟩ := lineChars_inj hline
      have hface := Payload.face_eq_of_label_eq he hf hlabel
      rw [List.map_cons, List.map_cons, entryFace, entryFace, hdepth, hface,
        ih (fun e h => hes e (List.mem_cons_of_mem _ h))
          (fun f h => hfs f (List.mem_cons_of_mem _ h)) hrest]

end DocTree
