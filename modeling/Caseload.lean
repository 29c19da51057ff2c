import Caseload.Access.Condition
import Caseload.Access.Visibility
import Caseload.Classification
import Caseload.CommandLine
import Caseload.Error
import Caseload.Instant.Basic
import Caseload.Instant.Date
import Caseload.Instant.Json
import Caseload.Instant.Printer
import Caseload.Instant.Reader
import Caseload.Json.Basic
import Caseload.Json.Printer
import Caseload.Json.Reader
import Caseload.Json.Record
import Caseload.Json.Token
import Caseload.Loading
import Caseload.Main
import Caseload.Permission
import Caseload.Predicate.Basic
import Caseload.Predicate.Matching
import Caseload.Proofs.Access.Decision
import Caseload.Proofs.Access.Monotone
import Caseload.Proofs.Access.Never
import Caseload.Proofs.CommandLine.Search
import Caseload.Proofs.CommandLine.Stages
import Caseload.Proofs.Error.FirstFailure
import Caseload.Proofs.Instant.RoundTrip
import Caseload.Proofs.Json.Plain
import Caseload.Proofs.Json.Printing
import Caseload.Proofs.Json.Records
import Caseload.Proofs.Json.RoundTrip
import Caseload.Proofs.Json.Scanning
import Caseload.Proofs.Page.Walk
import Caseload.Proofs.Page.Window
import Caseload.Proofs.Predicate.Fold
import Caseload.Proofs.Predicate.Normal
import Caseload.Proofs.SearchRequest.Conversion
import Caseload.Proofs.SearchRequest.Guard
import Caseload.Proofs.Settings.Loading
import Caseload.Proofs.Settings.Permissions
import Caseload.Proofs.Settings.Values
import Caseload.Proofs.Signature.Canonical
import Caseload.Proofs.Signature.Distinct
import Caseload.Proofs.Signature.Product
import Caseload.Proofs.Sort.Compose
import Caseload.Proofs.Sort.Order
import Caseload.Proofs.Sort.Total
import Caseload.Proofs.Sql.Binding
import Caseload.Proofs.Sql.Condition
import Caseload.Proofs.Sql.Decoding
import Caseload.Proofs.Sql.Dialogue
import Caseload.Proofs.Sql.Execution
import Caseload.Proofs.Sql.Expression
import Caseload.Proofs.Sql.Grammar
import Caseload.Proofs.Sql.Listing
import Caseload.Proofs.Sql.Reading
import Caseload.Proofs.Sql.Schema
import Caseload.Proofs.Sql.Selection
import Caseload.Proofs.Sql.Statement
import Caseload.Proofs.Sql.Writing
import Caseload.Proofs.Store.Asking
import Caseload.Proofs.Store.Assembly
import Caseload.Proofs.Store.Binding
import Caseload.Proofs.Store.Invisible
import Caseload.Proofs.Store.Listing
import Caseload.Proofs.Store.Lookup
import Caseload.Proofs.Store.Monotone
import Caseload.Proofs.Store.Pages
import Caseload.Proofs.Store.Paging
import Caseload.Proofs.Store.Rows
import Caseload.Proofs.Store.Run
import Caseload.Proofs.Store.Saving
import Caseload.Proofs.Store.Searching
import Caseload.Proofs.Store.Transaction
import Caseload.Proofs.Store.Views
import Caseload.Proofs.Store.Wording
import Caseload.Proofs.Text.Bytes
import Caseload.Proofs.Text.Digits
import Caseload.Proofs.Text.Entries
import Caseload.Proofs.Text.Integer
import Caseload.Proofs.Text.Trim
import Caseload.RoleAssignment.Basic
import Caseload.RoleAssignment.Json
import Caseload.Search
import Caseload.SearchRequest.Basic
import Caseload.SearchRequest.Filters
import Caseload.SearchRequest.Payload
import Caseload.Settings
import Caseload.Signature
import Caseload.Sort.Field
import Caseload.Sort.Order
import Caseload.Sql.Condition
import Caseload.Sql.Dialogue
import Caseload.Sql.Ordering
import Caseload.Sql.Statement
import Caseload.Sql.Tables
import Caseload.Sql.Token
import Caseload.Sql.Value
import Caseload.Store.Basic
import Caseload.Store.Database
import Caseload.Store.Memory
import Caseload.Task.Basic
import Caseload.Task.Json
import Caseload.Task.RoleRow
import Caseload.Task.State
import Caseload.Text.Blank
import Caseload.Text.Digits
import Caseload.Text.Entries
import Caseload.Text.Integer
import Caseload.Text.Set
import Caseload.Window
