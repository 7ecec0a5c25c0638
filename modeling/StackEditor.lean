import StackEditor.Anchor.Gate
import StackEditor.Config
import StackEditor.Execution.Delivery
import StackEditor.Execution.Scripted
import StackEditor.Execution.Traced
import StackEditor.Session
import StackEditor.Surface.Recording
import StackEditor.Proofs.Analysis.Composition
import StackEditor.Proofs.Analysis.Dataset
import StackEditor.Proofs.Analysis.Grammar
import StackEditor.Proofs.Analysis.Options
import StackEditor.Proofs.Analysis.Partners
import StackEditor.Proofs.Analysis.Scopes
import StackEditor.Proofs.Analysis.TopGroups
import StackEditor.Proofs.Anchor.Characters
import StackEditor.Proofs.Anchor.Counting
import StackEditor.Proofs.Anchor.Order
import StackEditor.Proofs.Anchor.Undo
import StackEditor.Proofs.Breakpoint.Notices
import StackEditor.Proofs.Breakpoint.Refusal
import StackEditor.Proofs.Config.Overrides
import StackEditor.Proofs.Execution.Outcomes
import StackEditor.Proofs.Execution.Queue
import StackEditor.Proofs.Execution.Runs
import StackEditor.Proofs.Execution.Scripted
import StackEditor.Proofs.Execution.Tasks
import StackEditor.Proofs.Execution.Unsorted
import StackEditor.Proofs.Execution.Wakeups
import StackEditor.Proofs.Lexeme.LongestMatch
import StackEditor.Proofs.Lexeme.Printing
import StackEditor.Proofs.Serial.Session
import StackEditor.Proofs.Session.Mirror
import StackEditor.Proofs.Session.Pauses
import StackEditor.Proofs.Session.Toggling
import StackEditor.Proofs.Session.Walk
import StackEditor.Proofs.Session.WhiteSpace
