import MockSchema.Main
import MockSchema.Session
import MockSchema.Proofs.ParserSound
import MockSchema.Proofs.ParserComplete
import MockSchema.Proofs.ParserExact
import MockSchema.Proofs.TreeDepth
import MockSchema.Proofs.DeepText
import MockSchema.Proofs.Expansion
import MockSchema.Proofs.HelperCycle
import MockSchema.Proofs.Termination
import MockSchema.Proofs.Validation
import MockSchema.Proofs.Confinement
import MockSchema.Proofs.RowByRow
import MockSchema.Proofs.SharedCache
import MockSchema.Proofs.FailurePath
import MockSchema.Proofs.KeyOrder
import MockSchema.Proofs.Turns
import MockSchema.Proofs.SessionIsolation
import MockSchema.Proofs.StructuralFailure
import MockSchema.Proofs.ResultShape
import MockSchema.Proofs.RoundTrip
import MockSchema.Proofs.RowName
import MockSchema.Proofs.ResourcePath
import MockSchema.Proofs.Answers
import MockSchema.Proofs.Pages
import MockSchema.Proofs.Comparison
import MockSchema.Proofs.Extremes
import MockSchema.Proofs.RowOrder
import MockSchema.Proofs.Scoping
import MockSchema.Proofs.Positions
import MockSchema.Proofs.Indexing
import MockSchema.Proofs.IntegerDivision
import MockSchema.Proofs.IntegerPower
import MockSchema.Proofs.EscapeGrammar
import MockSchema.Proofs.Juxtaposition
import MockSchema.Proofs.Siblings
import MockSchema.Proofs.ComparisonChain
import MockSchema.Proofs.Renaming
import MockSchema.Proofs.Splicing
import MockSchema.Proofs.Batches
import MockSchema.Proofs.Pointers
import MockSchema.Proofs.Rotation
import MockSchema.Proofs.Offsets
