import EagerLoad.Json.Reader
import EagerLoad.Session
import EagerLoad.Repository.Basic
import EagerLoad.Settings.Config
import EagerLoad.Proofs.Plan.Tree
import EagerLoad.Proofs.Schema.ShortestPath
import EagerLoad.Proofs.Plan.Compilation
import EagerLoad.Proofs.Names
import EagerLoad.Proofs.Maps
import EagerLoad.Proofs.Plan.Shape
import EagerLoad.Proofs.Plan.Sources
import EagerLoad.Proofs.Hydration.Grouping
import EagerLoad.Proofs.Hydration.Records
import EagerLoad.Proofs.Hydration.Grouped
import EagerLoad.Proofs.Hydration.Absorb
import EagerLoad.Proofs.Hydration.Nested
import EagerLoad.Proofs.Hydration.KeyGroups
import EagerLoad.Proofs.Hydration.Batches
import EagerLoad.Proofs.Hydration.Stages
import EagerLoad.Proofs.Hydration.Loading
import EagerLoad.Proofs.Sql.Meaning
import EagerLoad.Proofs.Sql.Evaluation
import EagerLoad.Proofs.Plan.Labels
import EagerLoad.Proofs.Loading.Reference
import EagerLoad.Proofs.Loading.Standing
import EagerLoad.Proofs.Schema.Build
import EagerLoad.Proofs.Schema.Validation
import EagerLoad.Proofs.Loading.Collections
import EagerLoad.Proofs.Loading.Bringing
import EagerLoad.Proofs.Loading.Attaching
import EagerLoad.Proofs.Loading.Primary
import EagerLoad.Proofs.Loading.Statements
import EagerLoad.Proofs.Hydration.Success
import EagerLoad.Proofs.Loading.Batches
import EagerLoad.Proofs.Loading.Nesting
import EagerLoad.Proofs.Loading.Delivery
import EagerLoad.Proofs.Loading.Eager
import EagerLoad.Proofs.Sql.Lexemes
import EagerLoad.Proofs.Sql.Layout
import EagerLoad.Proofs.Sql.Placeholders
import EagerLoad.Proofs.Sql.Normal
import EagerLoad.Proofs.Sql.Reader
import EagerLoad.Proofs.Sql.Balance
import EagerLoad.Proofs.Sql.Conditions
import EagerLoad.Proofs.Sql.Decoding
import EagerLoad.Proofs.Sql.Upserts
import EagerLoad.Proofs.Description.Quoted
import EagerLoad.Proofs.Description.Clear
import EagerLoad.Proofs.Description.Words
import EagerLoad.Proofs.Description.Fingerprint
import EagerLoad.Proofs.Plan.Caching
import EagerLoad.Proofs.Plan.Reentrancy
import EagerLoad.Proofs.Plan.Scopes
import EagerLoad.Proofs.Plan.Attachments
import EagerLoad.Proofs.Plan.ScopedHops
import EagerLoad.Proofs.Plan.Scoping
import EagerLoad.Proofs.Plan.Selected
import EagerLoad.Proofs.Hydration.Labels
import EagerLoad.Proofs.Hydration.Forest
import EagerLoad.Proofs.Hydration.Emission
import EagerLoad.Proofs.Hydration.Reads
import EagerLoad.Proofs.Hydration.Fields
import EagerLoad.Proofs.Plan.Batches
import EagerLoad.Proofs.Hydration.Order
import EagerLoad.Proofs.Sql.Blocks
import EagerLoad.Proofs.Loading.Pages
import EagerLoad.Proofs.Hydration.Blocks
import EagerLoad.Proofs.Loading.Origins
import EagerLoad.Proofs.Loading.Answers
import EagerLoad.Proofs.Loading.Multiplicity
import EagerLoad.Proofs.Loading.Paged
import EagerLoad.Proofs.Sql.Writes
import EagerLoad.Proofs.Repository.Writes
import EagerLoad.Proofs.Repository.Updates
import EagerLoad.Proofs.Plan.Sessions
import EagerLoad.Proofs.Hydration.Calls
import EagerLoad.Proofs.Repository.Listing
import EagerLoad.Proofs.Repository.Arguments
import EagerLoad.Proofs.Plan.Keys
import EagerLoad.Proofs.Plan.Refusals
import EagerLoad.Proofs.Plan.Places
import EagerLoad.Proofs.Plan.Narrowed
import EagerLoad.Proofs.Plan.Adjustments
import EagerLoad.Proofs.Repository.Selecting
import EagerLoad.Proofs.Sql.Inserts
import EagerLoad.Proofs.Repository.Conflicts
import EagerLoad.Proofs.Repository.Failures
import EagerLoad.Proofs.Decimal.Written
import EagerLoad.Proofs.Decimal.Rounding
import EagerLoad.Proofs.Decimal.Widening
import EagerLoad.Proofs.Decimal.Floats
import EagerLoad.Proofs.Values.Texts
import EagerLoad.Proofs.Values.Identity
import EagerLoad.Proofs.Hydration.Distinct
import EagerLoad.Proofs.Values.Conversion
import EagerLoad.Proofs.Plan.ResultLabels
import EagerLoad.Proofs.Settings.Substitution
import EagerLoad.Proofs.Sql.Qualifying
import EagerLoad.Proofs.Loading.Filters
import EagerLoad.Proofs.Hydration.Parents
