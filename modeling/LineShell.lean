import LineShell.Command.Described
import LineShell.Main
import LineShell.Proofs.Actions
import LineShell.Proofs.BuiltinEffects
import LineShell.Proofs.CommandEffects
import LineShell.Proofs.Reading
import LineShell.Proofs.HistoryStore
import LineShell.Proofs.HistoryRuns
import LineShell.Proofs.LineEffects
import LineShell.Proofs.Runs
import LineShell.Proofs.ReplayBounds
import LineShell.Proofs.ReplayableEntries
import LineShell.Proofs.PlainText
import LineShell.Proofs.Decomposition
import LineShell.Proofs.LastRedirection
import LineShell.Proofs.WrittenTargets
import LineShell.Proofs.ReplayFaithful
import LineShell.Proofs.MalformedLines
import LineShell.Proofs.FailedBuiltins
import LineShell.Proofs.RecordedLines
import LineShell.Proofs.SessionFrames
import LineShell.Proofs.OutputFrames
import LineShell.Proofs.CommandOutputs
import LineShell.Proofs.RedirectedConsole
import LineShell.Proofs.References
import LineShell.Proofs.LineParts
import LineShell.Proofs.LineStructure
import LineShell.Proofs.RespelledBlanks
import LineShell.Proofs.LocalVariables
import LineShell.Proofs.CommandStatuses
import LineShell.Proofs.ProcessRuns
import LineShell.Proofs.SparedFiles
import LineShell.Proofs.FileLines
import LineShell.Proofs.ScriptRuns
import LineShell.Proofs.KeptStatuses
import LineShell.Proofs.Encoding
import LineShell.Proofs.BatchRuns
import LineShell.Proofs.JoinedPaths
import LineShell.Proofs.ProgramSearch
import LineShell.Proofs.OpenedTargets
import LineShell.Proofs.SearchPathFlag
import LineShell.Proofs.CombinedTarget
import LineShell.Proofs.SinglePass
import LineShell.Proofs.AssignedNames
import LineShell.Proofs.Operands
import LineShell.Proofs.ResidualWords
import LineShell.Proofs.JoinedLines
import LineShell.Proofs.CommentedLines
import LineShell.Proofs.SearchOrder
import LineShell.Proofs.PathWalks
import LineShell.Proofs.ChangedDirectory
import LineShell.Proofs.AssignmentOrder
import LineShell.Proofs.Numerals
import LineShell.Proofs.NumericOperands
import LineShell.Redirection.ByteScan
import LineShell.Proofs.EncodedScan
import LineShell.Proofs.ByteBoundaries
import LineShell.Proofs.ScannedBytes
