import PollScript.Builder
import PollScript.Catalog
import PollScript.Catalog.Actions
import PollScript.Catalog.Connections
import PollScript.Catalog.Definition
import PollScript.Catalog.Error
import PollScript.Catalog.Literals
import PollScript.Catalog.Placeholder
import PollScript.Catalog.Spec
import PollScript.Catalog.Validity
import PollScript.Command
import PollScript.Command.Files
import PollScript.Command.Run
import PollScript.Decimal.Layout
import PollScript.Decimal.Numeral
import PollScript.Decimal.Shortest
import PollScript.Dictionary
import PollScript.Emitters
import PollScript.Emitters.Actions
import PollScript.Emitters.Connections
import PollScript.Emitters.Literals
import PollScript.Emitters.Template
import PollScript.Event
import PollScript.Generator
import PollScript.Json.Printer
import PollScript.Json.Reader
import PollScript.Json.Token
import PollScript.Json.Tree
import PollScript.Json.Value
import PollScript.Main
import PollScript.Proofs.AlarmLevels
import PollScript.Proofs.Aliases
import PollScript.Proofs.Arithmetic
import PollScript.Proofs.Batches
import PollScript.Proofs.BlockTree
import PollScript.Proofs.Bounds
import PollScript.Proofs.Chains
import PollScript.Proofs.Comparisons
import PollScript.Proofs.Composition
import PollScript.Proofs.Confinement
import PollScript.Proofs.Consistency
import PollScript.Proofs.Contract
import PollScript.Proofs.Conversion
import PollScript.Proofs.Counterparts
import PollScript.Proofs.Cumulative
import PollScript.Proofs.DecimalGrids
import PollScript.Proofs.DefinitionReader
import PollScript.Proofs.Denotation
import PollScript.Proofs.Dictionaries
import PollScript.Proofs.Disabled
import PollScript.Proofs.DisplayedNumbers
import PollScript.Proofs.Erasure
import PollScript.Proofs.FieldDomains
import PollScript.Proofs.Fields
import PollScript.Proofs.Finished
import PollScript.Proofs.Frames
import PollScript.Proofs.Grammar
import PollScript.Proofs.HelperFunction
import PollScript.Proofs.History
import PollScript.Proofs.Inventory
import PollScript.Proofs.Journal
import PollScript.Proofs.JsonGrammar
import PollScript.Proofs.KeySets
import PollScript.Proofs.Landmarks
import PollScript.Proofs.Ledger
import PollScript.Proofs.LegalNames
import PollScript.Proofs.Lexer
import PollScript.Proofs.Lines
import PollScript.Proofs.Live
import PollScript.Proofs.Lockstep
import PollScript.Proofs.Loose
import PollScript.Proofs.Mappings
import PollScript.Proofs.Meaning
import PollScript.Proofs.NumberLiterals
import PollScript.Proofs.NumberTokens
import PollScript.Proofs.Numbering
import PollScript.Proofs.Numerals
import PollScript.Proofs.OperatorBlocks
import PollScript.Proofs.Outline
import PollScript.Proofs.Overflow
import PollScript.Proofs.Parallel
import PollScript.Proofs.Passes
import PollScript.Proofs.Printing
import PollScript.Proofs.Provenance
import PollScript.Proofs.Registration
import PollScript.Proofs.Renaming
import PollScript.Proofs.Reordering
import PollScript.Proofs.SavedText
import PollScript.Proofs.SavedTree
import PollScript.Proofs.Scanner
import PollScript.Proofs.Setup
import PollScript.Proofs.SolidLines
import PollScript.Proofs.Standard
import PollScript.Proofs.Stencil
import PollScript.Proofs.StringLiterals
import PollScript.Proofs.TaskBodies
import PollScript.Proofs.TaskNames
import PollScript.Proofs.Tasks
import PollScript.Proofs.Tokens
import PollScript.Proofs.Variation
import PollScript.Proofs.Visits
import PollScript.Proofs.Walk
import PollScript.Proofs.Warnings
import PollScript.Proofs.WellFormed
import PollScript.Proofs.Widths
import PollScript.Proofs.Wording
import PollScript.Registry
import PollScript.Script.Alarm
import PollScript.Script.Context
import PollScript.Script.Emitter
import PollScript.Script.Error
import PollScript.Script.Fragment
import PollScript.Script.Literal
import PollScript.Script.Order
import PollScript.Script.TaskName
import PollScript.Text.Blank
import PollScript.Text.Lines
import PollScript.Workspace.Block
import PollScript.Workspace.Conversion
import PollScript.Workspace.Document
import PollScript.Workspace.Error
