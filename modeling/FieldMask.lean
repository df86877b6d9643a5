import FieldMask.Response
import FieldMask.Mask.Text
import FieldMask.Mask.Definition
import FieldMask.Request
import FieldMask.Config.Yaml
import FieldMask.Proofs.Nodes
import FieldMask.Proofs.Outcome
import FieldMask.Proofs.Grammar
import FieldMask.Proofs.Lexing
import FieldMask.Proofs.Spelling
import FieldMask.Proofs.RoundTrip
import FieldMask.Proofs.Filtering
import FieldMask.Proofs.Admission
import FieldMask.Proofs.Dumping
import FieldMask.Proofs.Agreement
import FieldMask.Proofs.Succession
import FieldMask.Proofs.Meet
import FieldMask.Proofs.Exposure
import FieldMask.Proofs.Completion
import FieldMask.Proofs.Targets
import FieldMask.Proofs.Misfit
import FieldMask.Proofs.Relevance
import FieldMask.Proofs.Conformance
import FieldMask.Proofs.Noninterference
import FieldMask.Proofs.Wildcard
import FieldMask.Proofs.Transport
import FieldMask.Proofs.Narrowing
import FieldMask.Proofs.Blame
import FieldMask.Proofs.Composition
import FieldMask.Proofs.SkipPolicy
import FieldMask.Proofs.Definitions
import FieldMask.Proofs.Frame
import FieldMask.Proofs.Layout
import FieldMask.Proofs.MemberOrder
import FieldMask.Proofs.Interchange
