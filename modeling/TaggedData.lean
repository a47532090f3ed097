import TaggedData.Main
import TaggedData.Lifting
import TaggedData.Record.Lens
import TaggedData.Union.Diagnostic
import TaggedData.Value.Equality
import TaggedData.Proofs.Basic
import TaggedData.Proofs.Definitions
import TaggedData.Proofs.Matching
import TaggedData.Proofs.Conformance
import TaggedData.Proofs.History
import TaggedData.Proofs.Provenance
import TaggedData.Proofs.RecordShape
import TaggedData.Proofs.Reading
import TaggedData.Proofs.Registry
import TaggedData.Proofs.SchemaRun
import TaggedData.Proofs.Registration
import TaggedData.Proofs.Descriptors
import TaggedData.Proofs.Erasure
import TaggedData.Proofs.Extension
import TaggedData.Proofs.FieldMatching
import TaggedData.Proofs.Equality
import TaggedData.Proofs.Constructors
import TaggedData.Proofs.Positions
import TaggedData.Proofs.Representation
import TaggedData.Proofs.Checking
import TaggedData.Proofs.NameOrder
import TaggedData.Proofs.ShapeLaw
import TaggedData.Proofs.Blame
import TaggedData.Proofs.KeyOrder
import TaggedData.Proofs.Looking
import TaggedData.Proofs.FileSystems
import TaggedData.Proofs.FileEffects
import TaggedData.Proofs.Focus
import TaggedData.Proofs.PlainLifting
import TaggedData.Proofs.Reordering
import TaggedData.Proofs.ExactValues
import TaggedData.Proofs.UnionDescriptors
import TaggedData.Proofs.Arities
import TaggedData.Proofs.Redefinition
import TaggedData.Proofs.CaseBlame
import TaggedData.Proofs.EqualityLaws
import TaggedData.Proofs.JsonView
import TaggedData.Proofs.ReportedNames
import TaggedData.Proofs.LineDocuments
import TaggedData.Proofs.EqualTexts
import TaggedData.Proofs.NumberTexts
import TaggedData.Proofs.RecordDescriptors
