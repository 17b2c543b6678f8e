import DocTree.Edit.Placement
import DocTree.Html.Document
import DocTree.Lists
import DocTree.Outline
import DocTree.Sketch
import DocTree.Text.LineBreaks
import DocTree.Proofs.Kids
import DocTree.Proofs.Moves
import DocTree.Proofs.WellLinked
import DocTree.Proofs.Upholds
import DocTree.Proofs.Safe
import DocTree.Proofs.Defects
import DocTree.Proofs.Findings
import DocTree.Proofs.Runs
import DocTree.Proofs.Regroup.Numbering
import DocTree.Proofs.Regroup.Containers
import DocTree.Proofs.Changes
import DocTree.Proofs.Regroup.Shape
import DocTree.Proofs.Regroup.OneList
import DocTree.Proofs.Regroup.Walk
import DocTree.Proofs.Regroup.Pass
import DocTree.Proofs.Examination
import DocTree.Proofs.Regroup.Outcome
import DocTree.Proofs.Regroup.Families
import DocTree.Proofs.Regroup.Frame
import DocTree.Proofs.Regroup.Account
import DocTree.Proofs.Text.Breaks
import DocTree.Proofs.Text.Encoded
import DocTree.Proofs.Text.Newlines
import DocTree.Proofs.Text.BlankRuns
import DocTree.Proofs.Text.Paragraph
import DocTree.Proofs.Text.Capped
import DocTree.Proofs.Outline.Alike
import DocTree.Proofs.ChildLists
import DocTree.Proofs.Outside
import DocTree.Proofs.Walked
import DocTree.Proofs.Repaired
import DocTree.Proofs.Mutations
import DocTree.Proofs.Revisited
import DocTree.Proofs.Outline.Lines
import DocTree.Proofs.Sequence
import DocTree.Proofs.Upward
import DocTree.Proofs.TextPlacement
import DocTree.Proofs.TextsApart
import DocTree.Proofs.TextChunks
import DocTree.Proofs.Adoption
import DocTree.Proofs.Attributes
