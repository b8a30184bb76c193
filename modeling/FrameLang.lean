import FrameLang.CommandLine
import FrameLang.Demonstration
import FrameLang.Main
import FrameLang.Prompt
import FrameLang.Session
import FrameLang.Proofs.Opening
import FrameLang.Proofs.Restoration
import FrameLang.Proofs.Registration
import FrameLang.Proofs.Termination
import FrameLang.Proofs.Recursion
import FrameLang.Proofs.Agreement
import FrameLang.Proofs.Outcomes
import FrameLang.Proofs.CallLimit
import FrameLang.Proofs.Grammar
import FrameLang.Proofs.GrammarSound
import FrameLang.Proofs.GrammarComplete
import FrameLang.Proofs.Lexing
import FrameLang.Proofs.Spans
import FrameLang.Proofs.Cutting
import FrameLang.Proofs.NodeText
import FrameLang.Proofs.Programs
import FrameLang.Proofs.Rounding
import FrameLang.Proofs.Shortest
import FrameLang.Proofs.NumberText
import FrameLang.Proofs.Printing
import FrameLang.Proofs.RoundTrip
import FrameLang.Proofs.Placement
import FrameLang.Proofs.ProgramState
import FrameLang.Proofs.Limits
import FrameLang.Proofs.LongestMatch
import FrameLang.Proofs.SpanErasure
import FrameLang.Proofs.Visibility
import FrameLang.Proofs.Diagnostics
import FrameLang.Proofs.Descriptions
import FrameLang.Proofs.LowerFrames
import FrameLang.Proofs.Correspondence
import FrameLang.Proofs.Joining
import FrameLang.Proofs.Layouts
import FrameLang.Proofs.CommandOutcome
import FrameLang.Proofs.ScopeResults
import FrameLang.Proofs.ArgumentScope
import FrameLang.Proofs.Conversation
import FrameLang.Proofs.NestedVariables
import FrameLang.Proofs.Separators
import FrameLang.Proofs.Truncation
import FrameLang.Proofs.TruncatedPrograms
import FrameLang.Proofs.Watched
import FrameLang.Proofs.Extension
import FrameLang.Proofs.Loops
import FrameLang.Proofs.Progress
import FrameLang.Proofs.TokenPhrases
import FrameLang.Proofs.ViablePrefixes
import FrameLang.Proofs.JsonNumbers
import FrameLang.Proofs.JsonStrings
import FrameLang.Proofs.ConfigText
