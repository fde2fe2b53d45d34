import Quill.Main
import Quill.Proofs.Builtins.Arguments
import Quill.Proofs.Builtins.Lines
import Quill.Proofs.Builtins.Lists
import Quill.Proofs.Builtins.Reading
import Quill.Proofs.Chronicle.Agreement
import Quill.Proofs.Chronicle.Basic
import Quill.Proofs.Chronicle.Behaviour
import Quill.Proofs.Chronicle.Conduct
import Quill.Proofs.Chronicle.Evaluation
import Quill.Proofs.Chronicle.Program
import Quill.Proofs.Chronicle.Steps
import Quill.Proofs.Control.Confined
import Quill.Proofs.Control.Exits
import Quill.Proofs.Execution.Basic
import Quill.Proofs.Execution.Program
import Quill.Proofs.Execution.Regimes
import Quill.Proofs.Execution.Settling
import Quill.Proofs.Execution.Termination
import Quill.Proofs.Foundations.Evaluation
import Quill.Proofs.Foundations.Reachable
import Quill.Proofs.Foundations.Steps
import Quill.Proofs.Foundations.Walks
import Quill.Proofs.Grafting.Basic
import Quill.Proofs.Grafting.Program
import Quill.Proofs.Grafting.Scripts
import Quill.Proofs.Grafting.Shift
import Quill.Proofs.Grafting.Steps
import Quill.Proofs.Instances.Members
import Quill.Proofs.Instances.Origins
import Quill.Proofs.Instances.Reached
import Quill.Proofs.Instances.References
import Quill.Proofs.Instances.Tracks
import Quill.Proofs.Isolation.Constants
import Quill.Proofs.Isolation.Globals
import Quill.Proofs.Isolation.Lawful
import Quill.Proofs.Isolation.Program
import Quill.Proofs.Isolation.Scripts
import Quill.Proofs.Isolation.Sealed
import Quill.Proofs.Isolation.Steps
import Quill.Proofs.Lexing.Cutting
import Quill.Proofs.Lexing.Excerpts
import Quill.Proofs.Lexing.Joining
import Quill.Proofs.Lexing.Patterns
import Quill.Proofs.Lexing.Placing
import Quill.Proofs.Lexing.Rendering
import Quill.Proofs.Lexing.Scanning
import Quill.Proofs.Lexing.Spelling
import Quill.Proofs.Limits.Depth
import Quill.Proofs.Limits.Unnoticed
import Quill.Proofs.Loops.Progression
import Quill.Proofs.Scoping.Builtins
import Quill.Proofs.Scoping.Callers
import Quill.Proofs.Scoping.Failing
import Quill.Proofs.Scoping.Inclusions
import Quill.Proofs.Scoping.Linked
import Quill.Proofs.Scoping.Outline
import Quill.Proofs.Scoping.Parameters
import Quill.Proofs.Scoping.Program
import Quill.Proofs.Scoping.Simulation
import Quill.Proofs.Scoping.Steps
import Quill.Proofs.Scoping.Untraced
import Quill.Proofs.Scoping.Writes
import Quill.Proofs.Source.Lines
import Quill.Proofs.Source.Positions
import Quill.Proofs.Source.Underlines
import Quill.Proofs.Store.Chains
import Quill.Proofs.Store.Entries
import Quill.Proofs.Store.Histories
import Quill.Proofs.Store.Lookup
import Quill.Proofs.Store.Scopes
import Quill.Proofs.Store.Tables
import Quill.Proofs.Syntax.Accuracy
import Quill.Proofs.Syntax.Alone
import Quill.Proofs.Syntax.BareReturns
import Quill.Proofs.Syntax.Completeness
import Quill.Proofs.Syntax.Completions
import Quill.Proofs.Syntax.Constructs
import Quill.Proofs.Syntax.Decisions
import Quill.Proofs.Syntax.Erasing
import Quill.Proofs.Syntax.Essence
import Quill.Proofs.Syntax.Extents
import Quill.Proofs.Syntax.Iteration
import Quill.Proofs.Syntax.Joining
import Quill.Proofs.Syntax.Layout
import Quill.Proofs.Syntax.Nesting
import Quill.Proofs.Syntax.Places
import Quill.Proofs.Syntax.Prefixes
import Quill.Proofs.Syntax.Printing
import Quill.Proofs.Syntax.Progress
import Quill.Proofs.Syntax.Readers
import Quill.Proofs.Syntax.Reading
import Quill.Proofs.Syntax.Relocation
import Quill.Proofs.Syntax.Reparsing
import Quill.Proofs.Syntax.Respanning
import Quill.Proofs.Syntax.ReturnCounts
import Quill.Proofs.Syntax.RoundTrip
import Quill.Proofs.Syntax.RuleDecisions
import Quill.Proofs.Syntax.RuleProgress
import Quill.Proofs.Syntax.Separators
import Quill.Proofs.Syntax.Soundness
import Quill.Proofs.Syntax.Tails
import Quill.Proofs.Syntax.Words
import Quill.Proofs.Tracebacks.Agreement
import Quill.Proofs.Tracebacks.Basic
import Quill.Proofs.Tracebacks.Evaluation
import Quill.Proofs.Tracebacks.Exceptions
import Quill.Proofs.Tracebacks.Program
import Quill.Proofs.Tracebacks.Provenance
import Quill.Proofs.Tracebacks.Sessions
import Quill.Proofs.Tracebacks.Standing
import Quill.Proofs.Tracebacks.Steps
import Quill.Proofs.Transcript.Basic
import Quill.Proofs.Transcript.Plain
import Quill.Proofs.Transcript.Program
import Quill.Proofs.Values.Bodies
import Quill.Proofs.Values.Changes
import Quill.Proofs.Values.Comparison
import Quill.Proofs.Values.Integers
import Quill.Proofs.Values.Operators
import Quill.Proofs.Values.Repetition
import Quill.Proofs.Values.RoundTrip
import Quill.Proofs.Values.Writing
