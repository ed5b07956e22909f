import StackWords.Bindings
import StackWords.CommandLine.Options
import StackWords.CommandLine.Program
import StackWords.Console.Command
import StackWords.Console.Completion
import StackWords.Console.Dialogue
import StackWords.Console.Highlight
import StackWords.Console.Pipe
import StackWords.Console.Style
import StackWords.Console.Turn
import StackWords.Context
import StackWords.Declaration
import StackWords.Dictionary
import StackWords.Directory
import StackWords.Error
import StackWords.Execution
import StackWords.Execution.Limit
import StackWords.Features
import StackWords.Inspect
import StackWords.Main
import StackWords.Outcome
import StackWords.Routine
import StackWords.Sequence
import StackWords.Session
import StackWords.Stack
import StackWords.Standard
import StackWords.Standard.Binding
import StackWords.Standard.Quotation
import StackWords.Standard.Shuffle
import StackWords.Text.Blank
import StackWords.Text.Cluster
import StackWords.Text.ClusterRole
import StackWords.Text.Decimal
import StackWords.Text.Extender
import StackWords.Text.Fields
import StackWords.Text.Quoted
import StackWords.Text.Ranges
import StackWords.Text.Unprintable
import StackWords.Token
import StackWords.Value
import StackWords.Vocabulary
import StackWords.Word
import StackWords.Proofs.Ending
import StackWords.Proofs.Simulation
import StackWords.Proofs.Acceptance
import StackWords.Proofs.Coupled
import StackWords.Proofs.Sequencing
import StackWords.Proofs.Frozen
import StackWords.Proofs.Tracing
import StackWords.Proofs.History
import StackWords.Proofs.OutputSettings
import StackWords.Proofs.UserErrors
import StackWords.Proofs.Extension
import StackWords.Proofs.Gate
import StackWords.Proofs.Nesting
import StackWords.Proofs.Cutting
import StackWords.Proofs.Layout
import StackWords.Proofs.BalancedText
import StackWords.Proofs.Atoms
import StackWords.Proofs.Spelling
import StackWords.Proofs.Results
import StackWords.Proofs.Inlining
import StackWords.Proofs.Rounds
import StackWords.Proofs.Mapping
import StackWords.Proofs.Joining
import StackWords.Proofs.Transparency
import StackWords.Proofs.Frames
import StackWords.Proofs.Wrapping
import StackWords.Proofs.Dispatch
import StackWords.Proofs.Violations
import StackWords.Proofs.Unfinished
import StackWords.Proofs.Dependencies
import StackWords.Proofs.Turning
import StackWords.Proofs.Rotations
import StackWords.Proofs.Collecting
import StackWords.Proofs.Arguments
import StackWords.Proofs.Capturing
import StackWords.Proofs.Proposals
import StackWords.Proofs.Shown
import StackWords.Proofs.Termination
import StackWords.Proofs.Resemblance
import StackWords.Proofs.Identities
