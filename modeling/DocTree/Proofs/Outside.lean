import DocTree.Proofs.ChildLists
set_option autoImplicit false

/-!
# Outside: calls with numbers outside the row

An edit looks a number up only when it comes to it, so a number outside the row may stop it
between two writes.  In a well linked row it is never stopped halfway through taking a node out
or splicing one in: what is left is the row as it was, or with one node taken out of its place,
or with one new text that stands nowhere (`Tree.Interrupted`).  All of these are well linked, so
calls with any numbers keep rows well linked (`sound_afterAll`) and leave no broken link behind
(`interrupted_of_outside`).
-/

namespace DocTree

open DocTree.Tree

/-! ## Where an edit is stopped -/

namespace Edit

variable {t u : Tree} {c p sib : NodeId}

theorem detach_eq_error (h : t.size ≤ c.index) : detach c t = .error .outside t := by
  simp [detach, look_eq_error h]

theorem append_eq_error_of_child (h : t.size ≤ c.index) : append p c t = .error .outside t := by
  simp [append, detach_eq_error h]

theorem append_eq_error_of_parent (hu : detach c t = .ok () u) (h : u.size ≤ p.index) :
    append p c t = .error .outside u := by
  simp [append, hu, look_eq_error h]

theorem insertBefore_eq_error_of_child (hne : sib ≠ c) (h : t.size ≤ c.index) :
    insertBefore sib c t = .error .outside t := by
  simp [insertBefore, hne, detach_eq_error h]

theorem insertBefore_eq_error_of_sibling (hne : sib ≠ c) (hu : detach c t = .ok () u)
    (h : u.size ≤ sib.index) : insertBefore sib c t = .error .outside u := by
  simp [insertBefore, hne, hu, look_eq_error h]

theorem appendText_eq_error (h : t.size ≤ p.index) (content : String) :
    appendText p content t = .error .outside t := by
  simp [appendText, look_eq_error h]

end Edit

/-! ## What is left behind -/

/-- `u` is what is left of `t` by a call that is stopped, where `taken` is the node that the call
takes out first and `made` the payload of the node that it makes first. -/
inductive Tree.Interrupted (t : Tree) (taken : Option NodeId) (made : Option Payload) :
    Tree → Prop where
  | untouched : t.Interrupted taken made t
  /-- The node is taken out as by `detach`, and this is all. -/
  | taken {c : NodeId} {u : Tree} (hc : taken = some c) (hin : c.index < t.size)
    (hrun : Edit.detach c t = .ok () u) (hout : t.TakenOut c u) : t.Interrupted taken made u
  /-- The node is made, and it stands nowhere. -/
  | made {payload : Payload} (hmade : made = some payload) :
    t.Interrupted taken made (t.create payload).2

/-- The edit comes to its end in a row as `ended` says, or a number outside the row stops it and
it leaves behind what `left` says. -/
inductive Edit.Outcome (e : Edit Unit) (t : Tree) (ended left : Tree → Prop) : Prop where
  | ends {u : Tree} (hrun : e t = .ok () u) (hended : ended u)
  | stops {u : Tree} (hrun : e t = .error .outside u) (hleft : left u)

namespace Edit.Outcome

variable {e e' : Edit Unit} {t u : Tree} {ended ended' left : Tree → Prop}

theorem of_eq (h : e t = e' t) (he : e'.Outcome t ended left) : e.Outcome t ended left := by
  cases he with
  | ends hrun hended => exact .ends (h.trans hrun) hended
  | stops hrun hleft => exact .stops (h.trans hrun) hleft

theorem imp (he : e.Outcome t ended left) (h : ∀ u, ended u → ended' u) :
    e.Outcome t ended' left := by
  cases he with
  | ends hrun hended => exact .ends hrun (h _ hended)
  | stops hrun hleft => exact .stops hrun hleft

theorem ended_of_eq_ok (he : e.Outcome t ended left) (hrun : e t = .ok () u) : ended u := by
  cases he with
  | ends hrun' hended =>
    cases hrun'.symm.trans hrun
    exact hended
  | stops hrun' _ => cases hrun'.symm.trans hrun

end Edit.Outcome

theorem Tree.WellLinked.create {t : Tree} (h : t.WellLinked) (payload : Payload) :
    (t.create payload).2.WellLinked := h.of_sameLinks (.create t payload)

theorem Tree.Interrupted.wellLinked {t u : Tree} {taken : Option NodeId} {made : Option Payload}
    (hu : t.Interrupted taken made u) (h : t.WellLinked) : u.WellLinked := by
  cases hu with
  | untouched => exact h
  | taken _ _ _ hout => exact h.takenOut hout
  | made _ => exact h.create _

/-! ## The edits that move nodes -/

namespace Tree.WellLinked

variable {t : Tree} {c p sib : NodeId}

theorem detach_outcome (h : t.WellLinked) (c : NodeId) :
    Edit.Outcome (Edit.detach c) t (t.Shifted c) (t.Interrupted none none) := by
  rcases Nat.lt_or_ge c.index t.size with hc | hc
  · obtain ⟨u, hrun, hu⟩ := h.exists_takenOut hc
    exact .ends hrun (.takenOut hu)
  · exact .stops (Edit.detach_eq_error hc) .untouched

theorem append_outcome (h : t.WellLinked) (p c : NodeId) :
    Edit.Outcome (Edit.append p c) t (t.Shifted c) (t.Interrupted (some c) none) := by
  rcases Nat.lt_or_ge c.index t.size with hc | hc
  · rcases Nat.lt_or_ge p.index t.size with hp | hp
    · obtain ⟨u, hrun, hu⟩ := h.exists_append_shifted hp hc
      exact .ends hrun hu
    · obtain ⟨u, hdetach, hout⟩ := h.exists_takenOut hc
      rw [← hout.size] at hp
      exact .stops (Edit.append_eq_error_of_parent hdetach hp) (.taken rfl hc hdetach hout)
  · exact .stops (Edit.append_eq_error_of_child hc) .untouched

theorem insertBefore_outcome (h : t.WellLinked) (sib c : NodeId) :
    Edit.Outcome (Edit.insertBefore sib c) t (t.Shifted c) (t.Interrupted (some c) none) := by
  by_cases hne : sib = c
  · subst hne
    exact .ends (Edit.insertBefore_self t sib) .stays
  · rcases Nat.lt_or_ge c.index t.size with hc | hc
    · rcases Nat.lt_or_ge sib.index t.size with hsib | hsib
      · obtain ⟨u, hrun, hu⟩ := h.exists_insertBefore_shifted hsib hc
        exact .ends hrun hu
      · obtain ⟨u, hdetach, hout⟩ := h.exists_takenOut hc
        rw [← hout.size] at hsib
        exact .stops (Edit.insertBefore_eq_error_of_sibling hne hdetach hsib)
          (.taken rfl hc hdetach hout)
    · exact .stops (Edit.insertBefore_eq_error_of_child hne hc) .untouched

/-- Only the first append can be stopped: if the new parent is in the row, none is. -/
theorem moveChildren_outcome (h : t.WellLinked) {id p : NodeId}
    (hout : t.size ≤ id.index ∨ t.size ≤ p.index) :
    Edit.Outcome (Edit.moveChildren id p) t Tree.WellLinked
      (t.Interrupted (t.firstChild? id) none) := by
  have hmove : Edit.moveChildren id p t = Edit.appendAll p (t.children id) t := rfl
  cases hks : t.children id with
  | nil =>
    rw [hks] at hmove
    exact .ends hmove h
  | cons k ks =>
    have hk : k ∈ t.children id := hks ▸ List.mem_cons_self
    have hfirst : t.firstChild? id = some k := by
      rw [(h.kids id).first, hks, List.head?_cons]
    have hp : t.size ≤ p.index :=
      hout.resolve_left (Nat.not_le.2 ((h.kids id).parent_index_lt hk))
    obtain ⟨u, hdetach, hu⟩ := h.exists_takenOut ((h.kids id).index_lt hk)
    have hstop := Edit.append_eq_error_of_parent hdetach (hu.size ▸ hp)
    rw [hks] at hmove
    refine .stops (hmove.trans ?_) (.taken hfirst ((h.kids id).index_lt hk) hdetach hu)
    simp [Edit.appendAll, hstop]

end Tree.WellLinked

/-! ## Texts -/

namespace Edit

variable {t : Tree} {p sib : NodeId}

/-- A text is put in its place in two steps: the second finds a row that holds it already. -/
theorem placeBefore_text_of_none (h : textBefore? t sib = none) (content : String) :
    placeBefore sib (.text content) t =
      insertBefore sib (t.create (.text content)).1 (t.create (.text content)).2 := by
  simp [placeBefore, h, createText]

theorem placeBefore_text_of_some {prev : NodeId} {old : String}
    (h : textBefore? t sib = some (prev, old)) (content : String) :
    placeBefore sib (.text content) t = extendText prev old content t := by
  simp [placeBefore, h]

theorem text?_of_textBefore? {prev : NodeId} {old : String}
    (h : textBefore? t sib = some (prev, old)) : t.text? prev = some old := by
  obtain ⟨id, -, hid⟩ := Option.bind_eq_some_iff.1 h
  obtain ⟨content, htext, heq⟩ := Option.map_eq_some_iff.1 hid
  obtain ⟨rfl, rfl⟩ := Prod.mk.inj heq
  exact htext

/-- Before a node that stands nowhere there is no text. -/
theorem textBefore?_eq_none_of_loose (h : t.Loose sib) : textBefore? t sib = none := by
  rw [textBefore?, h.prev, Option.bind_none]

/-- Characters are put behind those of the last child if that is a text. -/
theorem appendText_of_text {last : NodeId} {old : String} (hlast : t.lastChild? p = some last)
    (htext : t.text? last = some old) (content : String) :
    appendText p content t = extendText last old content t := by
  obtain ⟨m, hm, hl⟩ := Option.bind_eq_some_iff.1 hlast
  obtain ⟨payload, hpayload, hold⟩ := Option.bind_eq_some_iff.1 htext
  obtain ⟨k, hk, rfl⟩ := Option.map_eq_some_iff.1 hpayload
  cases hkind : k.payload with
  | text old' =>
    obtain rfl : old' = old := by simpa [hkind, Payload.text?] using hold
    simp [appendText, look_eq_ok hm, hl, look_eq_ok hk, hkind]
  | _ => simp [hkind, Payload.text?] at hold

/-- Else a text is made for them and appended. -/
theorem appendText_of_not_text (hp : p.index < t.size) (hlast : ∀ c, t.lastChild? p = some c →
      c.index < t.size ∧ t.text? c = none) (content : String) :
    appendText p content t =
      append p (t.create (.text content)).1 (t.create (.text content)).2 := by
  obtain ⟨m, hm⟩ := exists_node?_iff.2 hp
  cases hl : m.lastChild with
  | none => simp [appendText, look_eq_ok hm, hl, createText]
  | some last =>
    obtain ⟨hin, htext⟩ := hlast last (by rw [lastChild?, hm, Option.bind_some, hl])
    obtain ⟨k, hk⟩ := exists_node?_iff.2 hin
    cases hkind : k.payload with
    | text old => simp [text?, payload?, hk, hkind, Payload.text?] at htext
    | _ =>
      simp [appendText, look_eq_ok hm, hl, look_eq_ok hk, hkind, createText]

/-- Appending a text either extends the last child or makes a node and appends it. -/
theorem appendText_cases (hp : p.index < t.size) (hlast : ∀ c, t.lastChild? p = some c →
      c.index < t.size) (content : String) :
    (∃ last old, t.text? last = some old ∧
      appendText p content t = extendText last old content t) ∨
    appendText p content t =
      append p (t.create (.text content)).1 (t.create (.text content)).2 := by
  by_cases hend : ∃ last old, t.lastChild? p = some last ∧ t.text? last = some old
  · obtain ⟨last, old, hl, htext⟩ := hend
    exact Or.inl ⟨last, old, htext, appendText_of_text hl htext content⟩
  · refine Or.inr (appendText_of_not_text hp (fun c hc => ⟨hlast c hc, ?_⟩) content)
    cases htext : t.text? c with
    | none => rfl
    | some old => exact absurd ⟨c, old, hc, htext⟩ hend

theorem place_beside_of_parent?_eq_none {element : NodeId} (h : t.parent? element = none)
    (piece : Piece) (fallback : NodeId) :
    place piece (.beside element fallback) t = placeLast fallback piece t := by
  simp [place, h]

theorem place_beside_of_parent? {element : NodeId} (h : t.parent? element = some p)
    (piece : Piece) (fallback : NodeId) :
    place piece (.beside element fallback) t = placeBefore element piece t := by
  simp [place, h]

end Edit

namespace Tree.WellLinked

variable {t : Tree} {p sib : NodeId}

theorem exists_extendText_wellLinked (h : t.WellLinked) {id : NodeId} {old : String}
    (htext : t.text? id = some old) (new : String) :
    ∃ u, Edit.extendText id old new t = .ok () u ∧ u.WellLinked := by
  obtain ⟨payload, hpayload, -⟩ := Option.bind_eq_some_iff.1 htext
  exact ⟨_, Edit.change_eq_ok (index_lt_of_payload? hpayload) _,
    h.of_sameLinks (.modify t id fun _ => .text (old ++ new))⟩

theorem exists_placeBefore_text_wellLinked (h : t.WellLinked) (hsize : t.size < NodeId.bound)
    (hsib : sib.index < t.size) (content : String) :
    ∃ u, Edit.placeBefore sib (.text content) t = .ok () u ∧ u.WellLinked := by
  cases hbefore : Edit.textBefore? t sib with
  | some found =>
    rw [Edit.placeBefore_text_of_some hbefore]
    exact h.exists_extendText_wellLinked (Edit.text?_of_textBefore? hbefore) content
  | none =>
    rw [Edit.placeBefore_text_of_none hbefore]
    obtain ⟨u, hrun, hu⟩ := (h.create (.text content)).exists_insertBefore_shifted
      (index_lt_create hsize _ (Or.inl hsib)) (index_lt_create hsize _ (Or.inr rfl))
    exact ⟨u, hrun, (h.create _).shifted hu⟩

/-- Before a number outside the row a text is made and then put nowhere, unless that number
becomes its own. -/
theorem placeBefore_text_outcome (h : t.WellLinked) (hsize : t.size < NodeId.bound)
    (hsib : t.size ≤ sib.index) (content : String) :
    Edit.Outcome (Edit.placeBefore sib (.text content)) t Tree.WellLinked
      (t.Interrupted none (some (.text content))) := by
  have hnone := Edit.textBefore?_eq_none_of_loose (.of_size_le hsib)
  have hrun := Edit.placeBefore_text_of_none hnone content
  have hlinked := h.create (.text content)
  by_cases hown : sib = (t.create (.text content)).1
  · rw [← hown] at hrun
    exact .ends (hrun.trans (Edit.insertBefore_self _ _)) hlinked
  · have hnew := index_lt_create hsize (.text content) (Or.inr rfl)
    have hloose := loose_create hsize (.text content)
    have hout : (t.create (.text content)).2.size ≤ sib.index := by
      have hne : sib.index ≠ t.size := fun heq =>
        hown (NodeId.index_inj.1 (heq.trans (index_create hsize _).symm))
      rw [size_create]
      omega
    exact .stops (hrun.trans (Edit.insertBefore_eq_error_of_sibling hown
      (Edit.detach_eq_ok_of_loose hloose hnew) hout)) (.made rfl)

theorem appendText_outcome (h : t.WellLinked) (hsize : t.size < NodeId.bound) (p : NodeId)
    (content : String) :
    Edit.Outcome (Edit.appendText p content) t Tree.WellLinked (t.Interrupted none none) := by
  rcases Nat.lt_or_ge p.index t.size with hp | hp
  · rcases Edit.appendText_cases hp (fun _ => h.index_lt_of_lastChild?) content with
      ⟨last, old, htext, hrun⟩ | hrun
    · obtain ⟨u, hu, hlinked⟩ := h.exists_extendText_wellLinked htext content
      exact .ends (hrun.trans hu) hlinked
    · obtain ⟨u, hu, hshifted⟩ := (h.create (.text content)).exists_append_shifted
        (index_lt_create hsize _ (Or.inl hp)) (index_lt_create hsize _ (Or.inr rfl))
      exact .ends (hrun.trans hu) ((h.create _).shifted hshifted)
  · exact .stops (Edit.appendText_eq_error hp content) .untouched

end Tree.WellLinked

/-! ## All calls -/

namespace Call

/-- The node that a call takes out of its place before it does anything else. -/
def taken (t : Tree) : Call → Option NodeId
  | append _ child => some child
  | insertBefore _ id => some id
  | place piece _ => piece.ids.head?
  | moveChildren id _ => t.firstChild? id
  | _ => none

/-- The payload of the node that a call makes before it looks up where it is put. -/
def made : Call → Option Payload
  | place (.text content) (.before _) => some (.text content)
  | _ => none

/-- What a series of calls leaves behind, each made on what the one before it left. -/
def afterAll (s : Tree × Log) (calls : List Call) : Tree × Log :=
  calls.foldl (fun s c => c.after s) s

/-- A call comes to its end in a well linked row, or a number outside the row stops it before
it has reported anything. -/
inductive Outcome (c : Call) (s : Tree × Log) : Prop where
  | ends {u : Tree} (hrun : c.pass s = .ok () (u, s.2)) (hlinked : u.WellLinked)
  | stops {u : Tree} (hrun : c.pass s = .error .outside (u, s.2))
    (hleft : s.1.Interrupted (c.taken s.1) c.made u)

end Call

theorem Tree.WellLinked.place_outcome {t : Tree} (h : t.WellLinked) (hsize : t.size < NodeId.bound)
    (piece : Piece) (spot : Spot) :
    Edit.Outcome (Edit.place piece spot) t Tree.WellLinked
      (t.Interrupted (Call.taken t (.place piece spot)) (Call.made (.place piece spot))) := by
  have hlast : ∀ p,
      Edit.Outcome (Edit.placeLast p piece) t Tree.WellLinked
        (t.Interrupted piece.ids.head? none) := by
    intro p
    cases piece with
    | node c => exact (h.append_outcome p c).imp fun _ => h.shifted
    | text content => exact h.appendText_outcome hsize p content
  cases spot with
  | last p =>
    cases piece <;> exact hlast p
  | before sib =>
    cases piece with
    | node c => exact (h.insertBefore_outcome sib c).imp fun _ => h.shifted
    | text content =>
      rcases Nat.lt_or_ge sib.index t.size with hsib | hsib
      · obtain ⟨u, hrun, hu⟩ := h.exists_placeBefore_text_wellLinked hsize hsib content
        exact .ends hrun hu
      · exact h.placeBefore_text_outcome hsize hsib content
  | beside element fallback =>
    cases hparent : t.parent? element with
    | none =>
      apply Edit.Outcome.of_eq (Edit.place_beside_of_parent?_eq_none hparent piece fallback)
      cases piece <;> exact hlast fallback
    | some q =>
      apply Edit.Outcome.of_eq (Edit.place_beside_of_parent? hparent piece fallback)
      cases piece with
      | node c => exact (h.insertBefore_outcome element c).imp fun _ => h.shifted
      | text content =>
        obtain ⟨u, hrun, hu⟩ := h.exists_placeBefore_text_wellLinked hsize
          (index_lt_of_parent? hparent) content
        exact .ends hrun hu

namespace Call

/-- An edit of the row reports nothing. -/
theorem Outcome.of_edit {c : Call} {e : Edit Unit} {s : Tree × Log} (hpass : c.pass = Pass.edit e)
    (h : e.Outcome s.1 Tree.WellLinked (s.1.Interrupted (c.taken s.1) c.made)) :
    c.Outcome s := by
  cases h with
  | ends hrun hlinked => exact .ends (by rw [hpass, Pass.edit, hrun]) hlinked
  | stops hrun hleft => exact .stops (by rw [hpass, Pass.edit, hrun]) hleft

theorem outcome_of_outside {c : Call} {s : Tree × Log} (h : s.1.WellLinked)
    (hout : ∃ i ∈ c.ids, s.1.size ≤ i.index) : c.Outcome s := by
  obtain ⟨i, hi, hout⟩ := hout
  have hsize : s.1.size < NodeId.bound := Nat.lt_of_le_of_lt hout i.index_lt
  cases c with
  | append p child => exact .of_edit rfl ((h.append_outcome p child).imp fun _ => h.shifted)
  | insertBefore sib id =>
    exact .of_edit rfl ((h.insertBefore_outcome sib id).imp fun _ => h.shifted)
  | detach id => exact .of_edit rfl ((h.detach_outcome id).imp fun _ => h.shifted)
  | appendText p content => exact .of_edit rfl (h.appendText_outcome hsize p content)
  | place piece spot => exact .of_edit rfl (h.place_outcome hsize piece spot)
  | moveChildren id p =>
    have hids : i = id ∨ i = p := by simpa [ids] using hi
    refine .of_edit rfl (h.moveChildren_outcome ?_)
    rcases hids with rfl | rfl
    · exact Or.inl hout
    · exact Or.inr hout
  | fillAttrs id more => exact .ends rfl (h.of_sameLinks (.modify s.1 id (Payload.fillAttrs more)))
  | _ => simp [ids] at hi

/-- A call keeps well linked rows well linked, whatever numbers it names. -/
theorem sound_after_any (c : Call) {s : Tree × Log} (hs : Sound False s.1) :
    Sound False (c.after s).1 := by
  by_cases hids : ∀ i ∈ c.ids, i.index < s.1.size
  · exact c.sound_after (fun h => h.elim) hs hids
  · obtain ⟨i, hmem, hi⟩ : ∃ i ∈ c.ids, s.1.size ≤ i.index := by simpa using hids
    have hlinked : s.1.WellLinked := (hs (Nat.le_trans hi (Nat.le_of_lt i.index_lt))).linked
    have hafter : (c.after s).1.WellLinked := by
      unfold after
      cases outcome_of_outside hlinked ⟨i, hmem, hi⟩ with
      | ends hrun hu => rwa [hrun]
      | stops hrun hleft =>
        rw [hrun]
        exact hleft.wellLinked hlinked
    exact fun _ => ⟨hafter, fun h => h.elim⟩

theorem sound_afterAll (calls : List Call) {s : Tree × Log} (hs : Sound False s.1) :
    Sound False (afterAll s calls).1 := by
  induction calls generalizing s with
  | nil => exact hs
  | cons c calls ih => exact ih (c.sound_after_any hs)

/-- Whatever calls were made on a new tree, a call that names a number outside the row and is
stopped there leaves the row as it was, or with the node it takes out first taken out cleanly,
or with the text it makes first standing nowhere, and it reports nothing.  No link is broken
then, nor after any further calls. -/
theorem interrupted_of_outside (calls : List Call) (log : Log) (s u : Tree × Log)
    (hs : afterAll (Tree.new, log) calls = s) (c : Call) (fault : Fault)
    (hout : ∃ i ∈ c.ids, s.1.size ≤ i.index) (hrun : c.pass s = .error fault u) :
    fault = .outside ∧ u.2 = s.2 ∧ s.1.Interrupted (c.taken s.1) c.made u.1 ∧
    ∀ more : List Call, (afterAll u more).1.size ≤ NodeId.bound →
      (afterAll u more).1.defect? = none ∨
        (afterAll u more).1.defect? = some (.repeated .root) := by
  have hsize : s.1.size ≤ NodeId.bound := by
    obtain ⟨i, -, hi⟩ := hout
    exact Nat.le_trans hi (Nat.le_of_lt i.index_lt)
  have hsound : Sound False s.1 := hs ▸ sound_afterAll calls sound_new
  cases outcome_of_outside (hsound hsize).linked hout with
  | ends hends _ =>
    rw [hends] at hrun
    cases hrun
  | stops hstops hleft =>
    rw [hstops] at hrun
    cases hrun
    refine ⟨rfl, rfl, hleft, fun more hmore => ?_⟩
    have hlinked : WellLinked _ := hleft.wellLinked (hsound hsize).linked
    have hu := (sound_afterAll more (s := (_, s.2)) fun _ => ⟨hlinked, fun h => h.elim⟩) hmore
    exact hu.linked.defect?_eq_none_or_repeated.imp_right And.left

/-- The only element of the document is moved to a node that does not exist, and back. -/
theorem interrupted_of_outside_parent :
    ∃ s u : Tree × Log, afterAll (Tree.new, #[]) [.createHtml "div", .append .root (.ofNat 1)] = s ∧
      (append (.ofNat 9) (.ofNat 1)).pass s = .error .outside u ∧
      s.1.Interrupted (some (.ofNat 1)) none u.1 ∧ u.1.children .root = [] ∧
      ((afterAll u [.append .root (.ofNat 1)]).1.defect? = none ∨
        (afterAll u [.append .root (.ofNat 1)]).1.defect? = some (.repeated .root)) := by
  let s := afterAll (Tree.new, #[]) [.createHtml "div", .append .root (.ofNat 1)]
  let u := (append (.ofNat 9) (.ofNat 1)).after s
  have hrun : (append (.ofNat 9) (.ofNat 1)).pass s = .error .outside u := rfl
  obtain ⟨-, -, hleft, hlinks⟩ := interrupted_of_outside _ #[] s u rfl _ _
    ⟨.ofNat 9, List.mem_cons_self, by decide +kernel⟩ hrun
  exact ⟨s, u, rfl, hrun, hleft, by decide +kernel, hlinks _ (by decide +kernel)⟩

end Call

end DocTree
