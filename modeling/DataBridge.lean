import DataBridge.Connectors.Base
import DataBridge.Connectors.BoundedListing
import DataBridge.Effect.Ensures
import DataBridge.Effect.Pool
import DataBridge.Effect.Prog
import DataBridge.Effect.Routine
import DataBridge.Effect.Runs
import DataBridge.Errors
import DataBridge.Files.Directory
import DataBridge.Json.Grammar
import DataBridge.Json.Numbers
import DataBridge.Json.Scanner
import DataBridge.Json.Strings
import DataBridge.Models
import DataBridge.Preview.Json
import DataBridge.Preview.Nesting
import DataBridge.RequestLog.Log
import DataBridge.RequestLog.Rotation
import DataBridge.Sftp.Connector
import DataBridge.Sftp.Contract
import DataBridge.Sftp.Download
import DataBridge.Sftp.DownloadOrder
import DataBridge.Sftp.Escapes
import DataBridge.Sftp.Failures
import DataBridge.Sftp.Listing
import DataBridge.Sftp.ListingOrder
import DataBridge.Sftp.ListingResults
import DataBridge.Sftp.ListingScan
import DataBridge.Sftp.NameReply
import DataBridge.Sftp.Reader
import DataBridge.Sftp.RemoteDirectory
import DataBridge.Sftp.Requests
import DataBridge.Sftp.SessionLog
import DataBridge.Sftp.Sessions
import DataBridge.Sftp.Upload
import DataBridge.Sftp.UploadOrder
import DataBridge.Sqlite.Driver
import DataBridge.Store.Database
import DataBridge.Store.FirstStart
import DataBridge.Store.Lifecycle
import DataBridge.Store.OwnerLock
import DataBridge.Store.Startup
import DataBridge.Store.Transfers
import DataBridge.Text
import DataBridge.Transfer.Concurrency
import DataBridge.Transfer.Outcome
import DataBridge.Transfer.Recovery
import DataBridge.Transfer.Service
import DataBridge.Transfer.World
import DataBridge.RequestLog.Faults
import DataBridge.Effect.Calls
import DataBridge.Local.FileSink
import DataBridge.Sftp.UploadCalls
import DataBridge.Connectors.Sinks
import DataBridge.Transfer.Progress
import DataBridge.Connectors.Probe
import DataBridge.Local.AccessCheck
import DataBridge.Sftp.AccessCheck
import DataBridge.Connectors.AccessChecks
import DataBridge.Files.Realpath
import DataBridge.Local.LocalFiles
import DataBridge.Local.Confinement
import DataBridge.Preview.Surrogates
import DataBridge.Dict
import DataBridge.Preview.Schema
import DataBridge.Sftp.Pairing
import DataBridge.Store.Isoformat
import DataBridge.Store.Listing
import DataBridge.Preview.Decoder
import DataBridge.Preview.ReadPrefix
import DataBridge.Hosts.IPv4
import DataBridge.Hosts.IPv6
import DataBridge.Hosts.HostName
import DataBridge.Json.Cuts
import DataBridge.Preview.Budget
import DataBridge.Preview.CutFiles
import DataBridge.Csv.Grammar
import DataBridge.Csv.Texts
import DataBridge.Json.Dumps
import DataBridge.Preview.Csv
import DataBridge.Connections.Models
import DataBridge.Connections.Registry
import DataBridge.Effect.Simulation
import DataBridge.Store.Registry
import DataBridge.Web.LogEvents
import DataBridge.Web.Middleware
import DataBridge.Effect.Views
import DataBridge.Files.Shelf
import DataBridge.Local.Coupling
import DataBridge.Local.Interleavings
