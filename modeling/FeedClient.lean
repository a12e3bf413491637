import FeedClient.Calendar.Date
import FeedClient.Calendar.Instant
import FeedClient.Calendar.Pattern
import FeedClient.Calendar.Timestamp
import FeedClient.Client.Client
import FeedClient.Client.Config
import FeedClient.Client.ConfigText
import FeedClient.Decimal.Binary64
import FeedClient.Decimal.Notation
import FeedClient.Decimal.Shortest
import FeedClient.Entity.Descriptor
import FeedClient.Entity.FeedInputs
import FeedClient.Entity.FeedKind
import FeedClient.Exchange.Address
import FeedClient.Exchange.BodyText
import FeedClient.Exchange.Cancellation
import FeedClient.Exchange.Channel
import FeedClient.Exchange.Course
import FeedClient.Exchange.Headers
import FeedClient.Exchange.Request
import FeedClient.Exchange.Session
import FeedClient.Exchange.Signer
import FeedClient.Exchange.Status
import FeedClient.Exchange.Stream
import FeedClient.Failure.Error
import FeedClient.Failure.Failure
import FeedClient.Failure.Record
import FeedClient.Feed.Account
import FeedClient.Feed.Page
import FeedClient.Feed.Post
import FeedClient.Feed.StoredPost
import FeedClient.Json.Basic
import FeedClient.Json.Number
import FeedClient.Json.Printer
import FeedClient.Json.Reader
import FeedClient.Json.Tree
import FeedClient.Json.Variant
import FeedClient.Query.Extraction
import FeedClient.Query.Folding
import FeedClient.Query.Operand
import FeedClient.Query.Parameters
import FeedClient.Query.Predicate
import FeedClient.Query.Stored
import FeedClient.Query.Value
import FeedClient.Text.Blank
import FeedClient.Text.Entries
import FeedClient.Text.Invisible
import FeedClient.Text.Numeral
import FeedClient.Text.Percent
import FeedClient.Text.Quoted
import FeedClient.Text.Utf8
import FeedClient.Xml.Entity
import FeedClient.Xml.ErrorScan
import FeedClient.Xml.Event
import FeedClient.Yaml.Cursor
import FeedClient.Yaml.Node
import FeedClient.Yaml.Scalar
import FeedClient.Yaml.Token
import FeedClient.Proofs.Entity.FieldTables
import FeedClient.Proofs.Text.Numerals
import FeedClient.Proofs.Entity.FeedRequests
import FeedClient.Proofs.Exchange.MessageLines
import FeedClient.Proofs.Query.Conjunctions
import FeedClient.Proofs.Client.FilterOrder
import FeedClient.Proofs.Exchange.Calls
import FeedClient.Proofs.Query.Translation
import FeedClient.Proofs.Client.Operations
import FeedClient.Proofs.Client.Stages
import FeedClient.Proofs.Client.Remembering
import FeedClient.Proofs.Client.Cancelling
import FeedClient.Proofs.Exchange.Interruptions
import FeedClient.Proofs.Text.PercentDecoding
import FeedClient.Proofs.Exchange.QueryStrings
import FeedClient.Proofs.Failure.RecordShapes
import FeedClient.Proofs.Entity.TableReports
import FeedClient.Proofs.Traversal
import FeedClient.Proofs.Xml.Attributes
import FeedClient.Proofs.Xml.Documents
import FeedClient.Proofs.Calendar.DayCounts
import FeedClient.Proofs.Calendar.WrittenInstants
import FeedClient.Proofs.Json.WrittenTrees
import FeedClient.Proofs.Json.StoredValues
import FeedClient.Proofs.Json.WrittenRecords
import FeedClient.Proofs.Feed.WrittenParts
import FeedClient.Proofs.Json.SpelledRecords
import FeedClient.Proofs.Feed.SpelledPages
import FeedClient.Proofs.Feed.FeedPages
import FeedClient.Proofs.Feed.PostBodies
import FeedClient.Proofs.Client.BaseUrls
import FeedClient.Proofs.Decimal.LargeIntegers
import FeedClient.Proofs.Query.MemberPaths
import FeedClient.Proofs.Query.IntegerTexts
import FeedClient.Proofs.Client.PageSizes
import FeedClient.Proofs.Entity.Spellings
import FeedClient.Proofs.Json.TextLengths
import FeedClient.Proofs.Json.ListedRecords
import FeedClient.Proofs.Failure.ListedBodies
import FeedClient.Proofs.Failure.Descriptions
import FeedClient.Proofs.Client.Configurations
import FeedClient.Proofs.Entity.AcceptedTexts
import FeedClient.Proofs.Exchange.HeaderViews
import FeedClient.Proofs.Exchange.KeptResponses
import FeedClient.Proofs.Client.Timeouts
import FeedClient.Proofs.Query.Displays
