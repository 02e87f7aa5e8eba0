import Defuse.Main
import Defuse.Disk.FileSystem
import Defuse.Proofs.PoolFormat
import Defuse.Proofs.TextRoundTrip
import Defuse.Proofs.ClassFormat
import Defuse.Proofs.CodeFormat
import Defuse.Proofs.PoolGrowth
import Defuse.Proofs.StackTyping
import Defuse.Proofs.GeneratedBodies
import Defuse.Proofs.Verification
import Defuse.Proofs.Replacement
import Defuse.Proofs.Readability
import Defuse.Proofs.Frame
import Defuse.Proofs.SourceText
import Defuse.Proofs.Relocation
import Defuse.Proofs.JoinedSources
import Defuse.Proofs.Stub
import Defuse.Proofs.Repatching
import Defuse.Proofs.RoundTrip
import Defuse.Proofs.Building
import Defuse.Proofs.FileTable
import Defuse.Proofs.DiskSteps
import Defuse.Proofs.RunSteps
import Defuse.Proofs.RunSafety
import Defuse.Proofs.Grammar
import Defuse.Proofs.Recognition
import Defuse.Proofs.ViablePrefixes
import Defuse.Proofs.Gaps
import Defuse.Proofs.Digits
import Defuse.Proofs.RunHistory
import Defuse.Proofs.StreamRoundTrip
import Defuse.Proofs.Substitution
import Defuse.Proofs.NameRoundTrip
import Defuse.Proofs.ArchiveRoundTrip
import Defuse.Proofs.RunReport
import Defuse.Proofs.Rebuilding
import Defuse.Proofs.RunAgain
import Defuse.Proofs.Descriptors
import Defuse.Proofs.Interning
import Defuse.Proofs.PoolInvariant
import Defuse.Proofs.Execution
import Defuse.Proofs.LoadedValues
import Defuse.Proofs.ReturnedValues
import Defuse.Proofs.Recompiling
import Defuse.Proofs.ShortestForms
import Defuse.Proofs.Completion
import Defuse.Proofs.Truncation
import Defuse.Proofs.Writability
import Defuse.Proofs.PatchErrors
import Defuse.Proofs.MethodNames
import Defuse.Proofs.DeclaredSize
import Defuse.Proofs.QuotedLiterals
import Defuse.Proofs.Lexemes
import Defuse.Proofs.Positions
import Defuse.Proofs.IntegerLiterals
import Defuse.Proofs.CodeUnits
import Defuse.Proofs.Concatenation
import Defuse.Proofs.WholeNumbers
import Defuse.Proofs.PlusSigns
import Defuse.Proofs.Paths
import Defuse.Proofs.BackupNames
import Defuse.Proofs.StackSlots
import Defuse.Proofs.ByteDescriptors
