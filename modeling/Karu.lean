import Karu.Base.Word
import Karu.Base.Text
import Karu.Base.Memory
import Karu.Base.Pairing
import Karu.Base.Feed
import Karu.Text
import Karu.Runtime.Transfer
import Karu.Runtime.Header
import Karu.Runtime.ContentRange
import Karu.Runtime.HttpResponse
import Karu.Runtime.Transport
import Karu.Runtime.Attempt
import Karu.Runtime.Stored
import Karu.Runtime.Body
import Karu.Runtime.Head
import Karu.Runtime.Exchange
import Karu.Runtime.Integrity
import Karu.Runtime.Versions
import Karu.Runtime.Ending
import Karu.Runtime.Probe
import Karu.Runtime.ProbeBounds
import Karu.Runtime.Statuses
import Karu.Runtime.Redirect
import Karu.Runtime.Planner
import Karu.Runtime.PlannerCover
import Karu.Runtime.PlannerBuffers
import Karu.Runtime.PlannerLimits
import Karu.Runtime.Delivery
import Karu.Runtime.Files
import Karu.Runtime.Served
import Karu.Runtime.Coalesce
import Karu.Client
import Karu.Base.System
import Karu.Base.Ask
import Karu.Base.Extents
import Karu.Runtime.ProbeBody
import Karu.Runtime.Replies
import Karu.Runtime.ReadEnds
import Karu.Runtime.ReplySize
import Karu.Runtime.ProbeAnswers
import Karu.Runtime.StatAgrees
import Karu.Runtime.RangeAnswer
import Karu.Runtime.Confined
import Karu.Runtime.Batch
import Karu.Runtime.BatchRuns
import Karu.Uri
import Karu.Objects
import Karu.Windows
import Karu.Canonical
import Karu.Config
import Karu.CredentialScope
import Karu.Request
import Karu.CredentialCache
import Karu.Flights
import Karu.Invalidation
import Karu.Backends.Url
import Karu.Backends.Prepare
import Karu.Backends.Endpoint
import Karu.Backends.Headers
import Karu.Backends.SentHeaders
import Karu.Backends.Signing
import Karu.Backends.Credentials
import Karu.Precedence
import Karu.Backends.AwsCredentials
import Karu.Backends.GcsCredentials
import Karu.Backends.AzureCredentials
import Karu.Backends.LoadCredentials
import Karu.CustomScope
import Karu.Base.Table
import Karu.Runtime.Resolver
import Karu.Runtime.ResolverRuns
import Karu.Base.Slots
import Karu.Runtime.Wakeup
import Karu.Runtime.Workers
import Karu.Runtime.Concurrency
import Karu.Runtime.Custody
import Karu.Runtime.Ownership
import Karu.Runtime.RetryBudget
import Karu.Runtime.Deadline
import Karu.Runtime.Scatter
import Karu.Runtime.PartBounds
import Karu.Runtime.RangeGrammar
import Karu.Runtime.Redaction
import Karu.Backends.FlatJson
import Karu.Backends.JsonInteger
import Karu.Backends.Encodings
import Karu.Backends.Ini
import Karu.Process
import Karu.Base.Program
import Karu.Base.Pieces
import Karu.OutputFile
import Karu.Download
import Karu.DownloadCover
import Karu.DownloadRuns
import Karu.DownloadExact
import Karu.DownloadAtomic
