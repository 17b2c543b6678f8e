import DocTree.Proofs.Regroup.Pass
set_option autoImplicit false

/-!
# Outcome: which documents are refused

Regrouping the lists of a document fails exactly if its links have a defect, and then
nothing was changed.  In every other document the walk comes to its end behind the last
attached node, whatever the nodes that are not attached are linked to, and leaves links
without a defect.
-/

namespace DocTree

open DocTree.Tree

/-- A document with a defect is refused with that defect and stays as it is.  Every other
document is walked through to the end, and the links it is left with have no defect. -/
theorem regroupLists_outcome (t : Tree) (log : Log) :
    (∀ d, t.defect? = some d →
      regroupLists (t, log) = .error (.malformed d) (t, log) ∧
        (Fault.malformed d).message? =
          some ("normalize_lists called on a malformed tree: " ++ d.message)) ∧
    (t.defect? = none → t.size + t.headlessLists ≤ NodeId.bound →
      ∃ u log' c,
        walkFrom regroupList walkLimit 0 [.root] (t, log, Tally.zero) = .ok [] (u, log', c) ∧
        regroupLists (t, log) = .ok () (u, log'.push c.report) ∧ u.defect? = none) := by
  refine ⟨fun d hd => ⟨regroupLists_eq_error hd log, rfl⟩, fun hlinks hroom => ?_⟩
  obtain ⟨T, h, hnodup, hroot⟩ := defect?_eq_none_iff_holds.1 hlinks
  obtain ⟨u, hwalk, hu⟩ := exists_walkFrom_root h hroot hnodup hroom
  have hpassed := Passed.of_regrouped h hroot hnodup hroom hu
  exact ⟨u, _, _, hwalk (log, Tally.zero), regroupLists_eq_ok hlinks (hwalk (log, Tally.zero)),
    hpassed.defect?_eq_none⟩

/-- A document whose list holds two texts that follow each other in a circle. -/
def Tree.ringed : Tree where
  nodes := #[
    ⟨.document, none, some (.ofNat 1), some (.ofNat 1), none, none⟩,
    ⟨.element (.html "ul") [], some .root, some (.ofNat 2), some (.ofNat 3), none, none⟩,
    ⟨.text "a", some (.ofNat 1), none, none, none, some (.ofNat 3)⟩,
    ⟨.text "b", some (.ofNat 1), none, none, some (.ofNat 2), some (.ofNat 2)⟩]
  nodes_nonempty := by decide

theorem regroupLists_outcome_ringed :
    regroupLists (ringed, #[]) = .error (.malformed (.brokenSiblings (.ofNat 2))) (ringed, #[]) ∧
      ∃ u log', regroupLists (itemless, #[]) = .ok () (u, log') ∧ u.defect? = none := by
  refine ⟨((regroupLists_outcome ringed #[]).1 _ (by decide +kernel)).1, ?_⟩
  obtain ⟨u, log', c, -, hrun, hu⟩ :=
    (regroupLists_outcome itemless #[]).2 (by decide +kernel) (by decide +kernel)
  exact ⟨u, _, hrun, hu⟩

end DocTree
