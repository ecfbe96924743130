import EntityGraph.Settings
import EntityGraph.Http.Router
import EntityGraph.Model.Resolve
import EntityGraph.Model.Source
import EntityGraph.Model.Writer
import EntityGraph.Sql.Builder
import EntityGraph.Proofs.Identity.Form
import EntityGraph.Proofs.Model.Coherent
import EntityGraph.Proofs.Entity.Slot
import EntityGraph.Proofs.Entity.Record
import EntityGraph.Proofs.Entity.RoundTrip
import EntityGraph.Proofs.Entity.Naming
import EntityGraph.Proofs.Entity.Reflection
import EntityGraph.Proofs.Store.Rows
import EntityGraph.Proofs.Store.Counting
import EntityGraph.Proofs.Store.Session
import EntityGraph.Proofs.Store.Steps
import EntityGraph.Proofs.Store.Assertions
import EntityGraph.Proofs.Store.Saving
import EntityGraph.Proofs.Store.Failures
import EntityGraph.Proofs.Query.Path
import EntityGraph.Proofs.Query.Holders
import EntityGraph.Proofs.Service.Detachment
import EntityGraph.Proofs.Service.Linking
import EntityGraph.Proofs.Entity.Agreement
import EntityGraph.Proofs.Service.Integrity
import EntityGraph.Proofs.Entity.Input
import EntityGraph.Proofs.Service.Writing
import EntityGraph.Proofs.Service.Related
import EntityGraph.Proofs.Service.Run
import EntityGraph.Proofs.Entity.Expansion
import EntityGraph.Proofs.Service.Visibility
import EntityGraph.Proofs.Service.Update
import EntityGraph.Proofs.Service.Rollback
import EntityGraph.Proofs.Service.Paging
import EntityGraph.Proofs.Service.Preservation
import EntityGraph.Proofs.Service.Rules
import EntityGraph.Proofs.Service.Shape
import EntityGraph.Proofs.Service.Symmetry
import EntityGraph.Proofs.Calendar.Text
import EntityGraph.Proofs.Double.Nearest
import EntityGraph.Proofs.Coercion.Result
import EntityGraph.Proofs.Coercion.Range
import EntityGraph.Proofs.Query.Typing
import EntityGraph.Proofs.Query.Bindable
import EntityGraph.Proofs.Service.Fitting
import EntityGraph.Proofs.Service.Answers
import EntityGraph.Proofs.Store.Loops
import EntityGraph.Proofs.Entity.Whole
import EntityGraph.Proofs.Service.Inputs
import EntityGraph.Proofs.Sql.Placeholder
import EntityGraph.Proofs.Sql.Lexeme
import EntityGraph.Proofs.Sql.Reading
import EntityGraph.Proofs.Sql.Scope
import EntityGraph.Proofs.Sql.Binding
import EntityGraph.Proofs.Model.Resolution
import EntityGraph.Proofs.Model.Pairing
import EntityGraph.Proofs.Model.Registration
import EntityGraph.Proofs.Query.Combination
import EntityGraph.Proofs.Query.Converse
import EntityGraph.Proofs.Service.Asking
import EntityGraph.Proofs.Service.Effects
import EntityGraph.Proofs.Service.Sequences
import EntityGraph.Proofs.Service.Deletion
import EntityGraph.Proofs.Service.Frame
import EntityGraph.Proofs.Service.Editing
import EntityGraph.Proofs.Calendar.Order
import EntityGraph.Proofs.Coercion.Integral
import EntityGraph.Proofs.Coercion.Repetition
import EntityGraph.Proofs.Coercion.Chronology
import EntityGraph.Proofs.Service.Scalars
import EntityGraph.Proofs.Entity.Loading
import EntityGraph.Proofs.Entity.Sharing
import EntityGraph.Proofs.Service.Slots
import EntityGraph.Proofs.Entity.Rebinding
import EntityGraph.Proofs.Service.Idempotence
import EntityGraph.Proofs.Store.History
import EntityGraph.Proofs.Entity.Mirroring
import EntityGraph.Proofs.Entity.Stability
import EntityGraph.Proofs.Query.Comparator
import EntityGraph.Proofs.Query.Sorting
import EntityGraph.Proofs.Query.Derived
import EntityGraph.Proofs.Query.Numbers
import EntityGraph.Proofs.Text.Split
import EntityGraph.Proofs.Text.Like
import EntityGraph.Proofs.DatabaseUrl
import EntityGraph.Proofs.Pattern.Positions
import EntityGraph.Proofs.Pattern.Like
import EntityGraph.Proofs.Query.Like
import EntityGraph.Proofs.Json.Scanning
import EntityGraph.Proofs.Filter.Parameters
import EntityGraph.Proofs.Filter.Check
import EntityGraph.Proofs.Json.Number
import EntityGraph.Proofs.Json.Reading
import EntityGraph.Proofs.Json.Record
import EntityGraph.Proofs.Filter.Document
import EntityGraph.Proofs.Identity.Sameness
import EntityGraph.Proofs.Store.Conflict
import EntityGraph.Proofs.Store.Journal
import EntityGraph.Proofs.Text.Quoted
import EntityGraph.Proofs.Sql.Outline
import EntityGraph.Proofs.Sql.Naming
