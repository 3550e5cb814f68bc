import QueryMapping.Conversion
import QueryMapping.Cursor
import QueryMapping.Database.Backend
import QueryMapping.Database.Error
import QueryMapping.Database.Fetched
import QueryMapping.Database.Pool
import QueryMapping.Database.Populate
import QueryMapping.Database.Query
import QueryMapping.Database.Session
import QueryMapping.Dsn.Basic
import QueryMapping.Dsn.Expand
import QueryMapping.Dsn.Redact
import QueryMapping.Dsn.Resolve
import QueryMapping.Duration
import QueryMapping.Harness.Context
import QueryMapping.Harness.Test
import QueryMapping.Hub
import QueryMapping.Json.Holder
import QueryMapping.Json.Member
import QueryMapping.Json.Number
import QueryMapping.Json.Token
import QueryMapping.Json.Tree
import QueryMapping.Json.Valid
import QueryMapping.Launch.Basic
import QueryMapping.Launch.Databases
import QueryMapping.Launch.Slot
import QueryMapping.Launch.TemporaryFile
import QueryMapping.Proofs.Cursor.Reads
import QueryMapping.Proofs.Database.Drops
import QueryMapping.Proofs.Database.Populate
import QueryMapping.Proofs.Database.Prepare
import QueryMapping.Proofs.Database.Query
import QueryMapping.Proofs.Database.Recorded
import QueryMapping.Proofs.Database.Shared
import QueryMapping.Proofs.Dsn.Database
import QueryMapping.Proofs.Dsn.Server
import QueryMapping.Proofs.Dsn.Sqlite
import QueryMapping.Proofs.Failure
import QueryMapping.Proofs.Harness.Isolation
import QueryMapping.Proofs.Hub.Lookup
import QueryMapping.Proofs.Json.Convert
import QueryMapping.Proofs.Json.Document
import QueryMapping.Proofs.Json.Order
import QueryMapping.Proofs.Launch.Databases
import QueryMapping.Proofs.Launch.History
import QueryMapping.Proofs.Launch.Observer
import QueryMapping.Proofs.Launch.Permit
import QueryMapping.Proofs.Launch.Run
import QueryMapping.Proofs.Launch.Step
import QueryMapping.Proofs.Relational.Fetched
import QueryMapping.Proofs.Settings.Node
import QueryMapping.Proofs.Settings.Text
import QueryMapping.Proofs.Sql.Context
import QueryMapping.Proofs.Sql.Faultless
import QueryMapping.Proofs.Sql.Identifier
import QueryMapping.Proofs.Sql.Keyword
import QueryMapping.Proofs.Sql.Lexeme
import QueryMapping.Proofs.Sql.Parameter
import QueryMapping.Proofs.Sql.Parts
import QueryMapping.Proofs.Sql.Piece
import QueryMapping.Proofs.Sql.Placeholder
import QueryMapping.Proofs.Sql.Render
import QueryMapping.Proofs.Sql.Rescan
import QueryMapping.Proofs.Sql.Scan
import QueryMapping.Proofs.Sql.Skip
import QueryMapping.Proofs.Sql.Split
import QueryMapping.Proofs.Sql.Statement
import QueryMapping.Proofs.Sql.Substitute
import QueryMapping.Proofs.Sql.Tail
import QueryMapping.Proofs.Strategy.Choice
import QueryMapping.Proofs.Strategy.Registration
import QueryMapping.Proofs.Strategy.Rows
import QueryMapping.Proofs.Strategy.Wiring
import QueryMapping.Proofs.Text.Blank
import QueryMapping.Proofs.Text.Fold
import QueryMapping.Proofs.Text.Utf8
import QueryMapping.Proofs.Url.Encode
import QueryMapping.Proofs.Url.Form
import QueryMapping.Proofs.Url.Host
import QueryMapping.Proofs.Url.Normal
import QueryMapping.Proofs.Url.Parse
import QueryMapping.Proofs.Url.Path
import QueryMapping.Proofs.Url.Reread
import QueryMapping.Proofs.Value.Scalar
import QueryMapping.Proofs.Vendor.Profile
import QueryMapping.Proofs.Vendor.Section
import QueryMapping.Proofs.Vendor.Variable
import QueryMapping.Relational.Access
import QueryMapping.Relational.Backend
import QueryMapping.Relational.Catalog
import QueryMapping.Relational.Connection
import QueryMapping.Relational.Datum
import QueryMapping.Relational.Error
import QueryMapping.Relational.Estimate
import QueryMapping.Relational.Expr
import QueryMapping.Relational.Keyword
import QueryMapping.Relational.Numeral
import QueryMapping.Relational.Parameter
import QueryMapping.Relational.Parse.Basic
import QueryMapping.Relational.Parse.Expr
import QueryMapping.Relational.Parse.Statement
import QueryMapping.Relational.Prepared
import QueryMapping.Relational.RealText
import QueryMapping.Relational.Relation
import QueryMapping.Relational.Scope
import QueryMapping.Relational.Selection
import QueryMapping.Relational.Statement
import QueryMapping.Relational.Store
import QueryMapping.Relational.Token
import QueryMapping.Sample.Collaborator
import QueryMapping.Sample.Entity
import QueryMapping.Sample.Launcher
import QueryMapping.Sample.Strategy
import QueryMapping.Sample.TypeName
import QueryMapping.Settings.Connection
import QueryMapping.Settings.Document
import QueryMapping.Settings.Node
import QueryMapping.Settings.Quoted
import QueryMapping.Settings.Text
import QueryMapping.Sql.Engine
import QueryMapping.Sql.Parameter
import QueryMapping.Sql.Skip
import QueryMapping.Sql.Statement
import QueryMapping.Storage.Handle
import QueryMapping.Storage.Location
import QueryMapping.Storage.Tree
import QueryMapping.Strategy.Basic
import QueryMapping.Strategy.Column
import QueryMapping.Strategy.Method
import QueryMapping.Strategy.Registry
import QueryMapping.Table
import QueryMapping.Text.Ascii
import QueryMapping.Text.Blank
import QueryMapping.Text.Bytes
import QueryMapping.Text.Hex
import QueryMapping.Text.Hidden
import QueryMapping.Text.Quoted
import QueryMapping.Text.Search
import QueryMapping.TypeFamily
import QueryMapping.Url.Basic
import QueryMapping.Url.Decode
import QueryMapping.Url.Edit
import QueryMapping.Url.Encode
import QueryMapping.Url.Host
import QueryMapping.Url.Parse
import QueryMapping.Url.Path
import QueryMapping.Value.Basic
import QueryMapping.Value.Binary64
import QueryMapping.Value.Extended
import QueryMapping.Value.Scalar
import QueryMapping.Vendor.Basic
import QueryMapping.Vendor.DataSource
import QueryMapping.Vendor.Error
import QueryMapping.Vendor.Profile
import QueryMapping.Proofs.Dsn.Redact
import QueryMapping.Proofs.Dsn.Inline
import QueryMapping.Proofs.Dsn.Order
import QueryMapping.Proofs.Dsn.Accepted
import QueryMapping.Proofs.Dsn.Memory
