import ApiCatalog.Announcement
import ApiCatalog.Cache
import ApiCatalog.Catalog.Basic
import ApiCatalog.Catalog.Discovery
import ApiCatalog.Catalog.Field
import ApiCatalog.Catalog.Resource
import ApiCatalog.Catalog.Selection
import ApiCatalog.Cluster.Kubeconfig
import ApiCatalog.Cluster.Server
import ApiCatalog.CommandLine.Options
import ApiCatalog.CommandLine.Reading
import ApiCatalog.Config
import ApiCatalog.GroupVersion
import ApiCatalog.Json.Basic
import ApiCatalog.Json.Binary64
import ApiCatalog.Json.Decimal
import ApiCatalog.Json.Decoding
import ApiCatalog.Json.Path
import ApiCatalog.Json.Printer
import ApiCatalog.Json.Reader
import ApiCatalog.Json.Written
import ApiCatalog.Keyed
import ApiCatalog.Main
import ApiCatalog.Proofs.Catalog.Coherence
import ApiCatalog.Proofs.Catalog.Entries
import ApiCatalog.Proofs.Discovery.Attachment
import ApiCatalog.Proofs.Discovery.Contents
import ApiCatalog.Proofs.Discovery.Offers
import ApiCatalog.Proofs.Discovery.Ownership
import ApiCatalog.Proofs.Discovery.Positions
import ApiCatalog.Proofs.Discovery.Rearrangement
import ApiCatalog.Proofs.Discovery.Restriction
import ApiCatalog.Proofs.Keyed
import ApiCatalog.Proofs.Names
import ApiCatalog.Proofs.Schema.Paths
import ApiCatalog.Report.Grid
import ApiCatalog.Report.Table
import ApiCatalog.Report.Yaml
import ApiCatalog.Run
import ApiCatalog.Schema.Definitions
import ApiCatalog.Schema.Lookup
import ApiCatalog.Schema.Shape
import ApiCatalog.Storage.Route
import ApiCatalog.Storage.Tree
import ApiCatalog.Text.Alphanumeric
import ApiCatalog.Text.Columns
import ApiCatalog.Text.Digits
import ApiCatalog.Text.Emoji
import ApiCatalog.Text.Extending
import ApiCatalog.Text.Ligature
import ApiCatalog.Text.Pieces
import ApiCatalog.Text.Quoted
import ApiCatalog.Text.Ranges
import ApiCatalog.Text.Width
import ApiCatalog.Yaml.Resolution
import ApiCatalog.Yaml.Scalar
import ApiCatalog.Proofs.Catalog.Selecting
import ApiCatalog.Proofs.Text.Bytes
import ApiCatalog.Proofs.Catalog.Order
import ApiCatalog.Proofs.Discovery.Settling
import ApiCatalog.Proofs.Report.Listing
import ApiCatalog.Proofs.Text.Digits
import ApiCatalog.Proofs.Json.Layout
import ApiCatalog.Proofs.Json.Values
import ApiCatalog.Proofs.Json.Records
import ApiCatalog.Proofs.Announcement
import ApiCatalog.Proofs.Storage.Tree
import ApiCatalog.Proofs.Cache.Entries
import ApiCatalog.Proofs.Cache.Saving
import ApiCatalog.Proofs.Cache.History
import ApiCatalog.Proofs.Cache.Separation
import ApiCatalog.Proofs.Report.Cells
import ApiCatalog.Proofs.CommandLine.Without
import ApiCatalog.Proofs.Json.Decimals
import ApiCatalog.Proofs.Json.Coarse
import ApiCatalog.Proofs.Schema.Fractions
import ApiCatalog.Proofs.Storage.Kinds
import ApiCatalog.Proofs.Cache.Places
import ApiCatalog.Proofs.Config
import ApiCatalog.Proofs.Run.Files
import ApiCatalog.Proofs.Run.Acquiring
import ApiCatalog.Proofs.Run.Answers
import ApiCatalog.Proofs.Run.Cached
import ApiCatalog.Proofs.Run.Repeated
import ApiCatalog.Proofs.Json.Paths
import ApiCatalog.Proofs.Catalog.Fields
import ApiCatalog.Proofs.Discovery.Schemas
import ApiCatalog.Proofs.Schema.Documents
import ApiCatalog.Proofs.Json.Removal
import ApiCatalog.Proofs.Schema.Visits
import ApiCatalog.Proofs.Schema.Spelling
import ApiCatalog.Proofs.Schema.Serving
import ApiCatalog.Proofs.Schema.Reaching
import ApiCatalog.Proofs.Discovery.Redefinition
import ApiCatalog.Proofs.Catalog.Visiting
import ApiCatalog.Proofs.CommandLine.Choosing
import ApiCatalog.Proofs.Report.FieldSupport
import ApiCatalog.Proofs.Report.Description
import ApiCatalog.Proofs.Cluster.Questions
import ApiCatalog.Proofs.Cache.Interruption
import ApiCatalog.Proofs.Config.Reloading
import ApiCatalog.Proofs.Schema.Aliases
import ApiCatalog.Proofs.Report.Rereading
import ApiCatalog.Proofs.CommandLine.Spelling
import ApiCatalog.Proofs.Run.Contexts
import ApiCatalog.Proofs.Text.Pieces
import ApiCatalog.Proofs.Catalog.DottedPaths
import ApiCatalog.Proofs.Report.Grid
