import ShapeTyping.Attrs.Basic
import ShapeTyping.Attrs.Json
import ShapeTyping.Binary64.Basic
import ShapeTyping.Binary64.Shortest
import ShapeTyping.Binary64.Text
import ShapeTyping.Construction
import ShapeTyping.DataType.Basic
import ShapeTyping.DataType.Text
import ShapeTyping.Digest
import ShapeTyping.Extent.Basic
import ShapeTyping.Extent.Check
import ShapeTyping.Extent.Text
import ShapeTyping.Json.Literal
import ShapeTyping.Json.Reader
import ShapeTyping.Json.Token
import ShapeTyping.Json.Value
import ShapeTyping.Kind
import ShapeTyping.Paint
import ShapeTyping.Relation.Rule
import ShapeTyping.Relation.Solver
import ShapeTyping.Session.Command
import ShapeTyping.Session.Eval
import ShapeTyping.Session.Item
import ShapeTyping.Session.Log
import ShapeTyping.Session.Run
import ShapeTyping.Session.Term
import ShapeTyping.Substitution
import ShapeTyping.Supply
import ShapeTyping.Text.Numeral
import ShapeTyping.Text.Printable
import ShapeTyping.Text.Quoted
import ShapeTyping.Text.Word
import ShapeTyping.Ty.Basic
import ShapeTyping.Ty.Equality
import ShapeTyping.Ty.Fold
import ShapeTyping.Ty.Register
import ShapeTyping.Ty.Text
import ShapeTyping.Ty.Visitor
import ShapeTyping.Proofs.Ty.Parts
import ShapeTyping.Proofs.Ty.Replacement
import ShapeTyping.Proofs.Ty.Label
import ShapeTyping.Proofs.Ty.Memory
import ShapeTyping.Proofs.Ty.Essence
import ShapeTyping.Proofs.Ty.Fold
import ShapeTyping.Proofs.Substitution.Acyclic
import ShapeTyping.Proofs.Substitution.Chain
import ShapeTyping.Proofs.Substitution.Unbounded
import ShapeTyping.Proofs.Substitution.Binder
import ShapeTyping.Proofs.Substitution.NormalForm
import ShapeTyping.Proofs.Substitution.Recursion
import ShapeTyping.Proofs.Substitution.Sharing
import ShapeTyping.Proofs.Substitution.Locality
import ShapeTyping.Proofs.Substitution.Extension
import ShapeTyping.Proofs.Substitution.Rewriting
import ShapeTyping.Proofs.Session.Ledger
import ShapeTyping.Proofs.Session.Registration
import ShapeTyping.Proofs.Session.Construction
import ShapeTyping.Proofs.Session.Rewriting
import ShapeTyping.Proofs.Session.Evaluation
import ShapeTyping.Proofs.Session.Invariant
import ShapeTyping.Proofs.Ty.CopyOnWrite
import ShapeTyping.Proofs.Ty.Digest
import ShapeTyping.Proofs.Construction.Obtained
import ShapeTyping.Proofs.Construction.Drafts
import ShapeTyping.Proofs.DataType.RoundTrip
import ShapeTyping.Proofs.DataType.Text
import ShapeTyping.Proofs.Extent.Text
import ShapeTyping.Proofs.Ty.Text
import ShapeTyping.Proofs.Ty.Visits
import ShapeTyping.Proofs.Ty.NodeNames
import ShapeTyping.Proofs.Ty.Colors
import ShapeTyping.Proofs.Session.Text
import ShapeTyping.Proofs.Session.History
import ShapeTyping.Proofs.DataType.Spelling
import ShapeTyping.Proofs.DataType.Grammar
import ShapeTyping.Proofs.Extent.Dimension
import ShapeTyping.Proofs.Extent.Size
import ShapeTyping.Proofs.Extent.Typing
import ShapeTyping.Proofs.Extent.Fault
import ShapeTyping.Proofs.Extent.Unambiguous
import ShapeTyping.Proofs.Json.Document
import ShapeTyping.Proofs.Json.Reading
import ShapeTyping.Proofs.Attrs.Json
import ShapeTyping.Proofs.Attrs.History
