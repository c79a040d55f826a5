import PatternGraph.Automaton.Basic
import PatternGraph.Automaton.Fault
import PatternGraph.Automaton.Linking
import PatternGraph.Automaton.Outcome
import PatternGraph.Automaton.State
import PatternGraph.Automaton.Successors
import PatternGraph.Construction
import PatternGraph.Expectation
import PatternGraph.Fixture
import PatternGraph.Flags
import PatternGraph.Interchange.Codec
import PatternGraph.Interchange.Value
import PatternGraph.LogRecord
import PatternGraph.Outline.Basic
import PatternGraph.Outline.Json
import PatternGraph.Outline.OfPattern
import PatternGraph.Outline.Scalar
import PatternGraph.Outline.Yaml
import PatternGraph.Pattern
import PatternGraph.Reach.Checker
import PatternGraph.Reach.Consuming
import PatternGraph.Reach.EmptySuffix
import PatternGraph.Reach.EndAnchor
import PatternGraph.Reach.Frontier
import PatternGraph.Reach.NonConsuming
import PatternGraph.Reach.Visit
import PatternGraph.References
import PatternGraph.Settings.Basic
import PatternGraph.Settings.KeyPath
import PatternGraph.Settings.Toml.Document
import PatternGraph.Settings.Toml.Lexical
import PatternGraph.Source
import PatternGraph.StateId
import PatternGraph.Syntax.BackReference
import PatternGraph.Syntax.Boundary
import PatternGraph.Syntax.Character
import PatternGraph.Syntax.CharacterClass
import PatternGraph.Syntax.EscapedClass
import PatternGraph.Syntax.Node
import PatternGraph.Syntax.Quantifier
import PatternGraph.SyntaxFault
import PatternGraph.SyntaxTree
import PatternGraph.Text.Numeral
import PatternGraph.Text.Range
import PatternGraph.Text.Slice
import PatternGraph.Text.SmallLetters
import PatternGraph.Text.Uppercase
import PatternGraph.Tour
import PatternGraph.Proofs.Arena
import PatternGraph.Proofs.Owners
import PatternGraph.Proofs.Linking.Step
import PatternGraph.Proofs.Run
import PatternGraph.Proofs.Assembly
import PatternGraph.Proofs.Linking.Joints
import PatternGraph.Proofs.Linking.Ledger
import PatternGraph.Proofs.Finish
import PatternGraph.Proofs.Continuations
import PatternGraph.Proofs.Forest
import PatternGraph.Proofs.Language.Basic
import PatternGraph.Proofs.Walk
import PatternGraph.Proofs.Language.Realization
import PatternGraph.Proofs.Language.Refinement
import PatternGraph.Proofs.Reach.Memory
import PatternGraph.Proofs.Reach.Search
import PatternGraph.Proofs.Reach.History
import PatternGraph.Proofs.Reach.Capacity
import PatternGraph.Proofs.Linking.Glue
import PatternGraph.Proofs.Linking.Inventory
import PatternGraph.Proofs.Linking.Targets
import PatternGraph.Proofs.Passage
import PatternGraph.Proofs.Reach.Unconsuming
import PatternGraph.Proofs.Reach.Uncrossed
import PatternGraph.Proofs.Reach.Consumption
import PatternGraph.Proofs.Reach.Coverage
import PatternGraph.Proofs.Enclosure
import PatternGraph.Proofs.Reach.Lookaround
import PatternGraph.Proofs.Language.Passing
import PatternGraph.Proofs.Reach.Nullability
import PatternGraph.Proofs.Reach.Sweep
import PatternGraph.Proofs.Reach.Verdicts
import PatternGraph.Proofs.Reach.Anchoring
import PatternGraph.Proofs.Reach.Answers
import PatternGraph.Proofs.Reach.Consistency
import PatternGraph.Proofs.Entry
import PatternGraph.Proofs.Trail
import PatternGraph.Proofs.Modifiers.Runs
import PatternGraph.Proofs.Modifiers.Questions
import PatternGraph.Proofs.Renaming.Payload
import PatternGraph.Proofs.Renaming.Twins
import PatternGraph.Proofs.Renaming.Followers
import PatternGraph.Proofs.Renaming.Bijection
import PatternGraph.Proofs.Permanence
import PatternGraph.Proofs.Borrowing
import PatternGraph.Proofs.Resolution
import PatternGraph.Proofs.Reach.Sharing
import PatternGraph.Proofs.Numbering
import PatternGraph.Proofs.Flags.Cells
import PatternGraph.Proofs.Flags.UnicodeCase
import PatternGraph.Proofs.Reading.Places
import PatternGraph.Proofs.Reading.Agreement
import PatternGraph.Proofs.Linking.Cascade
import PatternGraph.Proofs.Linking.Journal
import PatternGraph.Proofs.Linking.Nesting
import PatternGraph.Proofs.Reach.CarryOver
import PatternGraph.Proofs.Reach.Steadiness
import PatternGraph.Proofs.Text.Numerals
import PatternGraph.Proofs.Bounds
import PatternGraph.Proofs.Text.Cuts
import PatternGraph.Proofs.Text.Headers
import PatternGraph.Proofs.Text.Tiling
import PatternGraph.Proofs.Text.Names
import PatternGraph.Proofs.Flags.Letters
import PatternGraph.Proofs.Reading.Lines
