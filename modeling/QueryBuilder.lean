import QueryBuilder.Main
import QueryBuilder.Proofs.Agreement.Filters
import QueryBuilder.Proofs.Join.Component
import QueryBuilder.Proofs.Query.Run
import QueryBuilder.Proofs.Schema.Acceptance
import QueryBuilder.Proofs.Schema.Printing
import QueryBuilder.Proofs.Agreement.Grouping
import QueryBuilder.Proofs.Pipeline.Lookups
import QueryBuilder.Proofs.Pipeline.Sources
import QueryBuilder.Proofs.Pipeline.Results
import QueryBuilder.Proofs.Sql.Quoting
import QueryBuilder.Proofs.Agreement.Leftovers
import QueryBuilder.Proofs.Json.Text
import QueryBuilder.Proofs.Json.Tree
import QueryBuilder.Proofs.Json.Record
import QueryBuilder.Proofs.Query.RoundTrip
import QueryBuilder.Proofs.Sql.Escapes
import QueryBuilder.Proofs.Pipeline.ShellText
import QueryBuilder.Proofs.Sql.Combination
import QueryBuilder.Proofs.Pipeline.Distinct
import QueryBuilder.Proofs.Schema.Continuation
import QueryBuilder.Proofs.Query.Ordering
import QueryBuilder.Proofs.Join.Directness
import QueryBuilder.Proofs.Agreement.Integers
import QueryBuilder.Proofs.Pipeline.Patterns
import QueryBuilder.Proofs.Agreement.Accepted
import QueryBuilder.Proofs.Literal.Number
import QueryBuilder.Proofs.Literal.Date
import QueryBuilder.Proofs.Pipeline.WindowKeys
import QueryBuilder.Proofs.Pipeline.SortKeys
import QueryBuilder.Proofs.Pipeline.Splices
import QueryBuilder.Proofs.Schema.Diagnostics
import QueryBuilder.Proofs.Schema.WellFormed
import QueryBuilder.Proofs.Schema.Progress
import QueryBuilder.Proofs.Join.Redrawing
import QueryBuilder.Proofs.Schema.Spelling
