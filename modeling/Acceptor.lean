import Acceptor.Files.Definition
import Acceptor.Main
import Acceptor.Session.Instruction
import Acceptor.Proofs.Text.Lines
import Acceptor.Proofs.Text.Writing
import Acceptor.Proofs.Text.LineEnds
import Acceptor.Proofs.Text.Tokens
import Acceptor.Proofs.Definition.Reading
import Acceptor.Proofs.Definition.Strictness
import Acceptor.Proofs.Definition.Grammar
import Acceptor.Proofs.Definition.Layout
import Acceptor.Proofs.Automaton.Runs
import Acceptor.Proofs.Automaton.Safety
import Acceptor.Proofs.Stream.Blocks
import Acceptor.Proofs.Stream.Reports
import Acceptor.Proofs.Stream.Embedding
import Acceptor.Proofs.Stream.Strictness
import Acceptor.Proofs.Stream.Output
import Acceptor.Proofs.Stream.Sources
import Acceptor.Proofs.Files.Opening
import Acceptor.Proofs.Command.Arguments
import Acceptor.Proofs.Command.Changes
import Acceptor.Proofs.Command.DefinitionFiles
import Acceptor.Proofs.Session.Readers
import Acceptor.Proofs.Session.Conservation
import Acceptor.Proofs.Definition.Presentation
import Acceptor.Proofs.Command.Routes
import Acceptor.Proofs.Stream.LineEnds
import Acceptor.Proofs.Command.Repetition
import Acceptor.Proofs.Definition.Undeclared
import Acceptor.Proofs.Definition.Faults
import Acceptor.Proofs.Definition.Locations
import Acceptor.Proofs.Automaton.Paths
import Acceptor.Proofs.Automaton.Removal
import Acceptor.Proofs.Session.Questions
import Acceptor.Proofs.Stream.Limits
import Acceptor.Proofs.Command.Limits
import Acceptor.Proofs.Stream.Queries
import Acceptor.Proofs.Text.Quoting
import Acceptor.Proofs.Definition.Messages
import Acceptor.Proofs.Command.Failures
import Acceptor.Proofs.Automaton.Arrangements
import Acceptor.Proofs.Session.Equality
import Acceptor.Proofs.Session.Segments
