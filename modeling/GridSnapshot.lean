import GridSnapshot.FileTree.Edit
import GridSnapshot.Hex
import GridSnapshot.RunProfile
import GridSnapshot.SnapshotReader
import GridSnapshot.Proofs.Cells
import GridSnapshot.Proofs.Outcome
import GridSnapshot.Proofs.OwnedSpan
import GridSnapshot.Proofs.Placing
import GridSnapshot.Proofs.PlacedRun
import GridSnapshot.Proofs.NumberedNames
import GridSnapshot.Proofs.Ownership
import GridSnapshot.Proofs.Consistency
import GridSnapshot.Proofs.AtomicPlacing
import GridSnapshot.Proofs.DecodedBlock
import GridSnapshot.Proofs.SettledPlan
import GridSnapshot.Proofs.DecodedPlan
import GridSnapshot.Proofs.Coverage
import GridSnapshot.Proofs.PlannedDirectories
import GridSnapshot.Proofs.CachedAnswers
import GridSnapshot.Proofs.FileAnswers
import GridSnapshot.Proofs.RecordWords
import GridSnapshot.Proofs.PersistentRecords
import GridSnapshot.Proofs.SnapshotFile
import GridSnapshot.Proofs.RunParts
import GridSnapshot.Proofs.TextBytes
import GridSnapshot.Proofs.TextLines
import GridSnapshot.Proofs.DimensionText
import GridSnapshot.Proofs.ParameterText
import GridSnapshot.Proofs.Paths
import GridSnapshot.Proofs.TreeGrowth
import GridSnapshot.Proofs.LaidOutTree
import GridSnapshot.Proofs.RunFiles
import GridSnapshot.Proofs.WrittenRun
import GridSnapshot.Proofs.WrittenPlan
import GridSnapshot.Proofs.NaturalTotality
import GridSnapshot.Proofs.DiscoveredNumbers
import GridSnapshot.Proofs.RoundTrip
import GridSnapshot.Proofs.PoolRuns
import GridSnapshot.Proofs.PoolProgress
import GridSnapshot.Proofs.SinkCalls
import GridSnapshot.Proofs.RecordStreams
import GridSnapshot.Proofs.ThermodynamicRequest
import GridSnapshot.Proofs.DerivationOrder
import GridSnapshot.Proofs.PressureRoutes
import GridSnapshot.Proofs.StencilAgreement
import GridSnapshot.Proofs.CellDifferences
import GridSnapshot.Proofs.CheckedStencils
import GridSnapshot.Proofs.DivergenceFree
import GridSnapshot.Proofs.PlaneCurls
import GridSnapshot.Proofs.StretchedCurls
import GridSnapshot.Proofs.InteriorBox
import GridSnapshot.Proofs.PartDerivation
import GridSnapshot.Proofs.GlobalField
import GridSnapshot.Proofs.SingleRead
import GridSnapshot.Proofs.RecordDefects
import GridSnapshot.Proofs.BlockGrammar
import GridSnapshot.Proofs.GridGrammar
import GridSnapshot.Proofs.CacheLookups
import GridSnapshot.Proofs.CacheCoherence
import GridSnapshot.Proofs.NumberedGroups
import GridSnapshot.Proofs.Trimming
import GridSnapshot.Proofs.SoundSnapshots
import GridSnapshot.Proofs.SnapshotEdits
import GridSnapshot.Proofs.ReadExtents
import GridSnapshot.Proofs.DerivationSteps
import GridSnapshot.Proofs.DerivationFrame
import GridSnapshot.Proofs.DerivationReport
import GridSnapshot.Proofs.FailureRecords
import GridSnapshot.Proofs.TrimmedArrays
import GridSnapshot.Proofs.TrimmedDerivation
import GridSnapshot.Proofs.IndexText
import GridSnapshot.Proofs.FileWrites
import GridSnapshot.Proofs.DeclaredMetadata
import GridSnapshot.Proofs.ElementCast
import GridSnapshot.Proofs.CastReading
import GridSnapshot.Proofs.ContainerContents
import GridSnapshot.Proofs.PersistentPairs
import GridSnapshot.Proofs.PolynomialCurls
import GridSnapshot.Proofs.ContainerAgreement
import GridSnapshot.Proofs.PolynomialLines
import GridSnapshot.Proofs.SlotFilling
import GridSnapshot.Proofs.UnstartedRuns
import GridSnapshot.Proofs.EntropyInversion
import GridSnapshot.Proofs.NamelistGrammar
import GridSnapshot.Proofs.Prerequisites
import GridSnapshot.Proofs.CacheCounters
