import DocTree.Proofs.Text.Breaks
import DocTree.Proofs.Text.Decoded
import DocTree.Proofs.Text.Newlines
set_option autoImplicit false

/-!
# Encoded: what the passes leave of the characters

A byte below 128 cuts what is read of any bytes in two, and the passes take out and put in
no others: newlines, spaces, tabs and backslashes at the ends of lines.  So what is read
apart from these, the absence of characters included, stays as it was
(`content_capNewlines`, `content_hardBreaks`).  The bytes that are written are those of a
text exactly if those before were (`isEncoded_written_iff`), and `writeMultiline` has nothing
to replace.
-/

namespace DocTree.Text

variable {l x y : Bytes} {b : UInt8}

/-! ## What stands between the ends of lines -/

/-- What was read is neither a space, a tab, a newline nor a backslash. -/
def isContent (c : Option Char) : Bool :=
  !(isBlankPart c || c == some '\n' || c == some '\\')

/-- What is read of bytes apart from spaces, tabs, newlines and backslashes. -/
def content (x : Bytes) : List (Option Char) := (decodeParts x).filter isContent

@[simp] theorem content_nil : content [] = [] := rfl

@[simp] theorem content_encode (cs : List Char) :
    content (encode cs) = (cs.filter fun c => isContent (some c)).map some := by
  rw [content, decodeParts_encode, List.filter_map]
  rfl

/-- The absence of a character counts as content. -/
theorem isEncoded_iff_content : IsEncoded x ↔ none ∉ content x := by
  rw [isEncoded_iff, content, List.mem_filter]
  exact not_congr (and_iff_left rfl).symm

/-! ## Taking out bytes -/

theorem content_append_cons (hb : b.toNat < 128)
    (hout : isContent (some (Char.ofNat b.toNat)) = false) (x y : Bytes) :
    content (x ++ b :: y) = content x ++ content y := by
  rw [content, decodeParts, decodeFrom_append_cons (by simp) hb, List.filter_append,
    List.filter_cons_of_neg (by simp [hout])]
  rfl

theorem content_append_newline (x y : Bytes) :
    content (x ++ 10 :: y) = content x ++ content y :=
  content_append_cons (by decide) (by decide) x y

theorem content_append_blank_cons (hb : isBlank b = true) (x y : Bytes) :
    content (x ++ b :: y) = content x ++ content y := by
  apply content_append_cons (toNat_lt_of_isBlank hb)
  rw [isContent, isBlankPart_of_isBlank hb]
  rfl

@[simp] theorem content_newline_cons (x : Bytes) : content (10 :: x) = content x := by
  rw [← List.nil_append (10 :: x), content_append_newline, content_nil, List.nil_append]

theorem content_blanks_append (hx : ∀ b ∈ x, isBlank b = true) (y : Bytes) :
    content (x ++ y) = content y := by
  induction x with
  | nil => rfl
  | cons b bs ih =>
    rw [List.cons_append, ← List.nil_append (b :: _),
      content_append_blank_cons (hx b List.mem_cons_self), content_nil, List.nil_append,
      ih fun c hc => hx c (List.mem_cons_of_mem _ hc)]

theorem content_eq_nil (hx : ∀ b ∈ x, isBlank b = true) : content x = [] := by
  rw [← List.append_nil x, content_blanks_append hx, content_nil]

theorem content_append_blanks (hy : ∀ b ∈ y, isBlank b = true) (x : Bytes) :
    content (x ++ y) = content x := by
  cases y with
  | nil => rw [List.append_nil]
  | cons b bs =>
    rw [content_append_blank_cons (hy b List.mem_cons_self),
      content_eq_nil fun c hc => hy c (List.mem_cons_of_mem _ hc), List.append_nil]

/-! ## What the passes keep -/

@[simp] theorem content_trim (l : Bytes) : content (trim l) = content l := by
  obtain ⟨p, q, hl, hp, hq⟩ := exists_eq_append_trim l
  have hcontent := congrArg content hl
  rw [content_append_blanks hq, content_blanks_append hp] at hcontent
  exact hcontent.symm

@[simp] theorem content_writtenLine (l : Bytes) : content (writtenLine l) = content l := by
  rw [← content_trim l, writtenLine]
  split
  · next h =>
    rw [List.isEmpty_iff.1 h]
    rfl
  · exact content_append_blanks (by simp [isBlank]) _

@[simp] theorem content_hardBreaks (x : Bytes) : content (hardBreaks x) = content x := by
  induction x using lineInduct with
  | last l hl => rw [hardBreaks_of_not_mem hl, content_trim]
  | line l x hl ih =>
    rw [hardBreaks_append_newline hl, content_append_newline, content_append_newline,
      content_writtenLine, ih]

@[simp] theorem content_capFrom (run : Nat) (x : Bytes) : content (capFrom run x) = content x := by
  induction x using lineInduct generalizing run with
  | last l hl => rw [capFrom_of_not_mem hl]
  | line l x hl ih =>
    by_cases hempty : l = []
    · subst hempty
      rw [List.nil_append, capFrom_newline, content_newline_cons]
      split
      · rw [content_newline_cons, ih]
      · exact ih _
    · rw [capFrom_append_newline hl hempty, content_append_newline, content_append_newline, ih]

@[simp] theorem content_capNewlines (x : Bytes) : content (capNewlines x) = content x := by
  rw [capNewlines_eq, content_capFrom]

/-! ## Texts -/

theorem isEncoded_hardBreaks_iff : IsEncoded (hardBreaks x) ↔ IsEncoded x := by
  rw [isEncoded_iff_content, isEncoded_iff_content, content_hardBreaks]

theorem isEncoded_capNewlines_iff : IsEncoded (capNewlines x) ↔ IsEncoded x := by
  rw [isEncoded_iff_content, isEncoded_iff_content, content_capNewlines]

/-- The bytes that are written for a text are read in full. -/
theorem decode?_written (s : String) :
    decode? (hardBreaks (capNewlines (encode s.toList))) = some (writeMultiline s).toList := by
  obtain ⟨cs, hcs⟩ : IsEncoded (hardBreaks (capNewlines (encode s.toList))) :=
    isEncoded_hardBreaks_iff.2 (isEncoded_capNewlines_iff.2 ⟨s.toList, rfl⟩)
  simp only [writeMultiline, hcs, decode?_encode, String.toList_ofList]

/-- The bytes that are written are those of a text, and nothing is replaced. -/
theorem encode_writeMultiline (s : String) :
    encode (writeMultiline s).toList = hardBreaks (capNewlines (encode s.toList)) :=
  (decode?_eq_some_iff.1 (decode?_written s)).symm

/-- A text keeps its characters in their order, spaces, tabs, newlines and backslashes
aside. -/
theorem filter_writeMultiline (s : String) :
    ((writeMultiline s).toList.filter fun c => isContent (some c)) =
      s.toList.filter fun c => isContent (some c) := by
  apply List.map_injective_iff.2 (Option.some_injective Char)
  rw [← content_encode, encode_writeMultiline, content_hardBreaks, content_capNewlines,
    content_encode]

theorem count_writeMultiline {c : Char} (hc : isContent (some c) = true) (s : String) :
    (writeMultiline s).toList.count c = s.toList.count c := by
  have hcount : ∀ cs : List Char,
      (cs.filter fun c => isContent (some c)).count c = cs.count c := fun _ =>
    List.count_filter hc
  rw [← hcount, filter_writeMultiline, hcount]

/-- Each pass makes the bytes of a text of the bytes of a text and of no others.  So what is
written for a text is what the passes make of its bytes, and no character is replaced. -/
theorem isEncoded_written_iff :
    (∀ x, IsEncoded (capNewlines x) ↔ IsEncoded x) ∧
    (∀ x, IsEncoded (hardBreaks x) ↔ IsEncoded x) ∧
    ∀ s : String,
      decode? (hardBreaks (capNewlines (encode s.toList))) = some (writeMultiline s).toList ∧
      encode (writeMultiline s).toList = hardBreaks (capNewlines (encode s.toList)) ∧
      (writeMultiline s).toList.count '\uFFFD' = s.toList.count '\uFFFD' :=
  ⟨fun _ => isEncoded_capNewlines_iff, fun _ => isEncoded_hardBreaks_iff, fun s =>
    ⟨decode?_written s, encode_writeMultiline s, count_writeMultiline (by decide) s⟩⟩

end DocTree.Text
