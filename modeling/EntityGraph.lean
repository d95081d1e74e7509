import EntityGraph.Catalog.Basic
import EntityGraph.Catalog.Discovery
import EntityGraph.Catalog.Record
import EntityGraph.Catalog.ScalarKind
import EntityGraph.Configuration
import EntityGraph.Decimal.Layout
import EntityGraph.Decimal.Reading
import EntityGraph.Decimal.Shortest
import EntityGraph.Decimal.Whole
import EntityGraph.Document.Basic
import EntityGraph.Document.Expansion
import EntityGraph.Document.Reader
import EntityGraph.Error
import EntityGraph.Execution.Rendering
import EntityGraph.Execution.Response
import EntityGraph.Execution.RootPlan
import EntityGraph.Execution.Service
import EntityGraph.Execution.Source
import EntityGraph.Filter.Basic
import EntityGraph.Filter.Compile
import EntityGraph.Filter.Like
import EntityGraph.Filter.Match
import EntityGraph.Filter.Tree
import EntityGraph.Http
import EntityGraph.Input
import EntityGraph.Json.Basic
import EntityGraph.Json.Reader
import EntityGraph.Json.Writer
import EntityGraph.Keyed
import EntityGraph.MediaType
import EntityGraph.Number
import EntityGraph.Paging
import EntityGraph.Proofs.Catalog
import EntityGraph.Proofs.Document.Expansion
import EntityGraph.Proofs.Document.Faults
import EntityGraph.Proofs.Document.Inlining
import EntityGraph.Proofs.Document.Keeping
import EntityGraph.Proofs.Document.Numbers
import EntityGraph.Proofs.Document.Scopes
import EntityGraph.Proofs.Document.Substitution
import EntityGraph.Proofs.Document.Walking
import EntityGraph.Proofs.Execution.Absence
import EntityGraph.Proofs.Execution.Created
import EntityGraph.Proofs.Execution.Effects
import EntityGraph.Proofs.Execution.Elements
import EntityGraph.Proofs.Execution.Isolation
import EntityGraph.Proofs.Execution.Orders
import EntityGraph.Proofs.Execution.Planned
import EntityGraph.Proofs.Execution.ReadBack
import EntityGraph.Proofs.Execution.Rendering
import EntityGraph.Proofs.Execution.Repeated
import EntityGraph.Proofs.Execution.RootPlan
import EntityGraph.Proofs.Execution.Scalars
import EntityGraph.Proofs.Execution.Serving
import EntityGraph.Proofs.Execution.Shown
import EntityGraph.Proofs.Execution.Stored
import EntityGraph.Proofs.Execution.Variables
import EntityGraph.Proofs.Filter.Alike
import EntityGraph.Proofs.Filter.EmptyNodes
import EntityGraph.Proofs.Filter.EqualValues
import EntityGraph.Proofs.Filter.Equality
import EntityGraph.Proofs.Filter.Faults
import EntityGraph.Proofs.Filter.Language
import EntityGraph.Proofs.Filter.Lists
import EntityGraph.Proofs.Filter.Meaning
import EntityGraph.Proofs.Filter.Operands
import EntityGraph.Proofs.Filter.Parts
import EntityGraph.Proofs.Filter.Paths
import EntityGraph.Proofs.Filter.Patterns
import EntityGraph.Proofs.Filter.Reading
import EntityGraph.Proofs.Filter.Reduction
import EntityGraph.Proofs.Filter.Tree
import EntityGraph.Proofs.Finite
import EntityGraph.Proofs.Input
import EntityGraph.Proofs.Input.Accepted
import EntityGraph.Proofs.Input.Canonical
import EntityGraph.Proofs.Input.Conforming
import EntityGraph.Proofs.Json
import EntityGraph.Proofs.Keyed
import EntityGraph.Proofs.Number
import EntityGraph.Proofs.Omission.Documents
import EntityGraph.Proofs.Omission.Execution
import EntityGraph.Proofs.Omission.Filters
import EntityGraph.Proofs.Omission.Inputs
import EntityGraph.Proofs.Omission.Requests
import EntityGraph.Proofs.Omission.Roots
import EntityGraph.Proofs.Omission.Values
import EntityGraph.Proofs.Outcome
import EntityGraph.Proofs.Paired
import EntityGraph.Proofs.Regex.Engine
import EntityGraph.Proofs.Regex.Semantics
import EntityGraph.Proofs.Request.Arguments
import EntityGraph.Proofs.Request.Cycles
import EntityGraph.Proofs.Request.Faults
import EntityGraph.Proofs.Request.Fits
import EntityGraph.Proofs.Request.Laws
import EntityGraph.Proofs.Request.Merge
import EntityGraph.Proofs.Request.Order
import EntityGraph.Proofs.Request.Planning
import EntityGraph.Proofs.Request.Repeated
import EntityGraph.Proofs.Request.Rewriting
import EntityGraph.Proofs.Request.WellFormed
import EntityGraph.Proofs.Schema
import EntityGraph.Proofs.Schema.Caches
import EntityGraph.Proofs.Schema.Consistency
import EntityGraph.Proofs.Schema.Definitions
import EntityGraph.Proofs.Schema.Descriptions
import EntityGraph.Proofs.Schema.Document
import EntityGraph.Proofs.Schema.Handles
import EntityGraph.Proofs.Schema.Kinds
import EntityGraph.Proofs.Schema.Needed
import EntityGraph.Proofs.Schema.Reachable
import EntityGraph.Proofs.Schema.Registry
import EntityGraph.Proofs.Schema.Simulation
import EntityGraph.Proofs.Store
import EntityGraph.Proofs.Store.Agreement
import EntityGraph.Proofs.Store.Calls
import EntityGraph.Proofs.Store.Filling
import EntityGraph.Proofs.Store.Ids
import EntityGraph.Proofs.Store.Paging
import EntityGraph.Proofs.Text
import EntityGraph.Proofs.TypeString
import EntityGraph.Proofs.Value
import EntityGraph.Regex.Basic
import EntityGraph.Regex.Engine
import EntityGraph.Request.Basic
import EntityGraph.Request.Planning
import EntityGraph.Schema.Definition
import EntityGraph.Schema.Directory
import EntityGraph.Schema.Fields
import EntityGraph.Schema.Introspection
import EntityGraph.Schema.Meta
import EntityGraph.Schema.Printer
import EntityGraph.Schema.Reachable
import EntityGraph.Schema.Registry
import EntityGraph.Schema.Roots
import EntityGraph.Schema.Tracked
import EntityGraph.Store
import EntityGraph.Storefront.Catalog
import EntityGraph.Storefront.Fixture
import EntityGraph.Storefront.Roots
import EntityGraph.Text.Blank
import EntityGraph.Text.CodePoints
import EntityGraph.Text.Escaped
import EntityGraph.Text.Folding
import EntityGraph.Text.Integer
import EntityGraph.Text.LowerCase
import EntityGraph.Text.Quoted
import EntityGraph.TypeString
import EntityGraph.Value
