import SqlAccess.Cache.Call
import SqlAccess.Condition.Parser
import SqlAccess.Config.Settings
import SqlAccess.Json.Reader
import SqlAccess.Pipeline.Scripted
import SqlAccess.Pipeline.Stock
import SqlAccess.Postgres.Server
import SqlAccess.Postgres.Session
import SqlAccess.Statement.Build
import SqlAccess.Summary
import SqlAccess.Table.Json
import SqlAccess.Proofs.Condition.Braces
import SqlAccess.Proofs.Text.Cut
import SqlAccess.Proofs.Text.Word
import SqlAccess.Proofs.Condition.Reading
import SqlAccess.Proofs.Condition.RoundTrip
import SqlAccess.Proofs.Condition.Grammar
import SqlAccess.Proofs.Sql.Formula
import SqlAccess.Proofs.Condition.Meaning
import SqlAccess.Proofs.Statement.Alignment
import SqlAccess.Proofs.Statement.ItemScope
import SqlAccess.Proofs.Statement.Unmarked
import SqlAccess.Proofs.Sql.Place
import SqlAccess.Proofs.Sql.Keyword
import SqlAccess.Proofs.Sql.Identifier
import SqlAccess.Proofs.Sql.Paging
import SqlAccess.Proofs.Sql.Counting
import SqlAccess.Proofs.Cache.Site
import SqlAccess.Proofs.Cache.Interleaving
import SqlAccess.Proofs.Cache.History
import SqlAccess.Proofs.Cache.SingleFlight
import SqlAccess.Proofs.Cache.Agreement
import SqlAccess.Proofs.Cache.Origin
import SqlAccess.Proofs.Cache.Eviction
import SqlAccess.Proofs.Cache.Schedule
import SqlAccess.Proofs.Cache.Retention
import SqlAccess.Proofs.Cache.Failure
import SqlAccess.Proofs.Cache.StoreHistory
import SqlAccess.Proofs.Cache.Recency
import SqlAccess.Proofs.Postgres.Numbering
import SqlAccess.Proofs.Postgres.Exclusion
import SqlAccess.Proofs.Postgres.Payload
import SqlAccess.Proofs.Pipeline.Trace
import SqlAccess.Proofs.Pipeline.Nesting
import SqlAccess.Proofs.Pipeline.Conduct
import SqlAccess.Proofs.Pipeline.Order
import SqlAccess.Proofs.Pipeline.Remarks
import SqlAccess.Proofs.Pipeline.Transparency
import SqlAccess.Proofs.Cache.Remarks
import SqlAccess.Proofs.Pipeline.EngineLogs
import SqlAccess.Proofs.Page
import SqlAccess.Proofs.Pipeline.PagedCall
import SqlAccess.Proofs.Transaction.Ending
import SqlAccess.Proofs.Statement.ByHand
import SqlAccess.Proofs.Statement.Influence
import SqlAccess.Proofs.Statement.Assignments
import SqlAccess.Proofs.Statement.Template
import SqlAccess.Proofs.Text.Bytes
import SqlAccess.Proofs.Sql.Bytes
import SqlAccess.Proofs.Sql.Leading
import SqlAccess.Proofs.Sql.TableList
import SqlAccess.Proofs.Sql.WordBounds
import SqlAccess.Proofs.Sql.Name
import SqlAccess.Proofs.Sql.Columns
import SqlAccess.Proofs.Json.Bridge
import SqlAccess.Proofs.Pipeline.Truncation
import SqlAccess.Proofs.Row.RoundTrip
