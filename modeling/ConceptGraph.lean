import ConceptGraph.Id
import ConceptGraph.DataType
import ConceptGraph.Label
import ConceptGraph.Floating.Format
import ConceptGraph.Floating.Shortest
import ConceptGraph.Floating.Text
import ConceptGraph.Floating.Number
import ConceptGraph.Text.Digits
import ConceptGraph.Text.Blank
import ConceptGraph.Text.Alphabetic
import ConceptGraph.Text.Unprintable
import ConceptGraph.Text.Quoted
import ConceptGraph.Time.LocalTime
import ConceptGraph.Time.UtcTime
import ConceptGraph.Json.Basic
import ConceptGraph.Json.Reader
import ConceptGraph.Floating.Arithmetic
import ConceptGraph.Json.Number
import ConceptGraph.Json.Decode
import ConceptGraph.Value
import ConceptGraph.Violation
import ConceptGraph.ConceptError
import ConceptGraph.Regex.CharSet
import ConceptGraph.Regex.Expr
import ConceptGraph.Regex.Fault
import ConceptGraph.Regex.Parser
import ConceptGraph.Pattern
import ConceptGraph.Hierarchy
import ConceptGraph.Multimap
import ConceptGraph.Graph.Thing
import ConceptGraph.Graph.Index
import ConceptGraph.Graph.Basic
import ConceptGraph.Schema.TypeDef
import ConceptGraph.Schema.Basic
import ConceptGraph.Schema.Resolution
import ConceptGraph.State.Basic
import ConceptGraph.State.Reads
import ConceptGraph.Rules.Guard
import ConceptGraph.Rules.Naming
import ConceptGraph.Rules.Conformance
import ConceptGraph.Rules.AttributeType
import ConceptGraph.Rules.Declaration
import ConceptGraph.Rules.Key
import ConceptGraph.Rules.Deletion
import ConceptGraph.Rules.Instance
import ConceptGraph.Mutation
import ConceptGraph.Outcome
import ConceptGraph.Journal.Record
import ConceptGraph.Journal.Basic
import ConceptGraph.Session.Config
import ConceptGraph.Session.Transaction
import ConceptGraph.Session.SchemaEdits
import ConceptGraph.Session.InstanceEdits
import ConceptGraph.Session.Operation
import ConceptGraph.Session.Basic
import ConceptGraph.Scenario.Assertion
import ConceptGraph.Scenario.Basic
import ConceptGraph.Proofs.Core.Collections
import ConceptGraph.Proofs.Core.Outcomes
import ConceptGraph.Proofs.Hierarchy.Forest
import ConceptGraph.Proofs.Hierarchy.Walks
import ConceptGraph.Proofs.Hierarchy.Subtrees
import ConceptGraph.Proofs.Graph.Indexes
import ConceptGraph.Proofs.Graph.Histories
import ConceptGraph.Proofs.Schema.Indexes
import ConceptGraph.Proofs.Schema.Resolution
import ConceptGraph.Proofs.Schema.Moving
import ConceptGraph.Proofs.Schema.Coherence
import ConceptGraph.Proofs.Schema.OwnershipRecords
import ConceptGraph.Proofs.Schema.RecordCreation
import ConceptGraph.Proofs.Schema.RecordDeletion
import ConceptGraph.Proofs.Schema.RecordRenaming
import ConceptGraph.Proofs.State.Soundness
import ConceptGraph.Proofs.State.SchemaSteps
import ConceptGraph.Proofs.State.HierarchySteps
import ConceptGraph.Proofs.State.GraphSteps
import ConceptGraph.Proofs.State.Steps
import ConceptGraph.Proofs.State.Needs
import ConceptGraph.Proofs.Transaction.EditRuns
import ConceptGraph.Proofs.Transaction.SchemaOperations
import ConceptGraph.Proofs.Transaction.InstanceOperations
import ConceptGraph.Proofs.Transaction.NewAttributeTypes
import ConceptGraph.Proofs.Transaction.Performing
import ConceptGraph.Proofs.Transaction.GraphEdits
import ConceptGraph.Proofs.Transaction.Alterations
import ConceptGraph.Proofs.Transaction.EditContexts
import ConceptGraph.Proofs.Transaction.Recording
import ConceptGraph.Proofs.Session.Runs
import ConceptGraph.Proofs.Session.Refusals
import ConceptGraph.Proofs.Session.Publishing
import ConceptGraph.Proofs.Session.Replay
import ConceptGraph.Proofs.Session.Retrying
import ConceptGraph.Proofs.Session.Savepoints
import ConceptGraph.Proofs.Session.LaterSavepoints
import ConceptGraph.Proofs.Instances.Typing
import ConceptGraph.Proofs.Instances.Conformance
import ConceptGraph.Proofs.Instances.OwnershipReads
import ConceptGraph.Proofs.Instances.OwnershipPermits
import ConceptGraph.Proofs.Instances.SingleOwnerships
import ConceptGraph.Proofs.Instances.Scans
import ConceptGraph.Proofs.Instances.Interning
import ConceptGraph.Proofs.Instances.Strays
import ConceptGraph.Proofs.Instances.TightIndexes
import ConceptGraph.Proofs.Instances.ThingDeletion
import ConceptGraph.Proofs.Keys.KeptKeys
import ConceptGraph.Proofs.Keys.KeyedHolding
import ConceptGraph.Proofs.Keys.KeyDeclarations
import ConceptGraph.Proofs.Types.SchemaCoherence
import ConceptGraph.Proofs.Types.OwnershipDeclarations
import ConceptGraph.Proofs.Types.DataTypes
import ConceptGraph.Proofs.Types.Withdrawals
import ConceptGraph.Proofs.Types.TypeDeletion
import ConceptGraph.Proofs.Types.Reparenting
import ConceptGraph.Proofs.Types.MovingBack
import ConceptGraph.Proofs.Types.UserLabels
import ConceptGraph.Proofs.Types.Renaming
import ConceptGraph.Proofs.Types.ReservedLabels
import ConceptGraph.Proofs.Types.IdleEdits
import ConceptGraph.Proofs.Types.InheritedDeclarations
import ConceptGraph.Proofs.Identifiers.Mentions
import ConceptGraph.Proofs.Identifiers.PrimitiveEdits
import ConceptGraph.Proofs.Identifiers.FreshIdentifiers
import ConceptGraph.Proofs.Text.DecimalDigits
import ConceptGraph.Proofs.Text.JsonText
import ConceptGraph.Proofs.Text.Dates
import ConceptGraph.Proofs.Text.Rounding
import ConceptGraph.Proofs.Text.ShortestDigits
import ConceptGraph.Proofs.Text.NumberText
import ConceptGraph.Proofs.Text.ValueData
import ConceptGraph.Proofs.Journal.Numbering
import ConceptGraph.Proofs.Journal.Data
import ConceptGraph.Proofs.Journal.Text
import ConceptGraph.Proofs.Journal.Loading
import ConceptGraph.Proofs.Journal.LaterRecords
import ConceptGraph.Proofs.Regex.ClosedGroups
import ConceptGraph.Proofs.Regex.Matching
import ConceptGraph.Proofs.Regex.EnclosedExpressions
import ConceptGraph.Proofs.Regex.WholeValues
