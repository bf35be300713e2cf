import BinlogServer.App.FileContents
import BinlogServer.App.FileSizes
import BinlogServer.App.Files
import BinlogServer.App.Lifetimes
import BinlogServer.App.LocalBinlogs
import BinlogServer.App.Mirror
import BinlogServer.App.Numbering
import BinlogServer.App.Origins
import BinlogServer.App.Positions
import BinlogServer.App.Preamble
import BinlogServer.App.Relay
import BinlogServer.App.Relocation
import BinlogServer.App.RestartPoints
import BinlogServer.App.Restarts
import BinlogServer.App.Runs
import BinlogServer.App.Search
import BinlogServer.App.Session
import BinlogServer.App.Steps
import BinlogServer.Events.Bodies
import BinlogServer.Events.Codecs
import BinlogServer.Events.CommonHeader
import BinlogServer.Events.CompositeBinlogName
import BinlogServer.Events.Event
import BinlogServer.Events.EventView
import BinlogServer.Events.LearnedLayout
import BinlogServer.Events.Materialization
import BinlogServer.Events.Numbers
import BinlogServer.Events.Preservation
import BinlogServer.Events.Protocol
import BinlogServer.Events.ReaderContext
import BinlogServer.Events.ReaderGrammar
import BinlogServer.Events.ReaderSteps
import BinlogServer.Events.ReaderTransactions
import BinlogServer.Events.Rewriter
import BinlogServer.Events.Rewritten
import BinlogServer.Events.RoundTrip
import BinlogServer.Events.TaggedCodec
import BinlogServer.Events.TaggedRewriting
import BinlogServer.Gtids.Algebra
import BinlogServer.Gtids.Encoding
import BinlogServer.Gtids.Grammar
import BinlogServer.Gtids.Gtid
import BinlogServer.Gtids.GtidSet
import BinlogServer.Gtids.Invariant
import BinlogServer.Gtids.Text
import BinlogServer.Lib.Batches
import BinlogServer.Lib.Bytes
import BinlogServer.Lib.Cover
import BinlogServer.Lib.Decimal
import BinlogServer.Lib.Disk
import BinlogServer.Lib.Durability
import BinlogServer.Lib.IntervalSet
import BinlogServer.Lib.Iteration
import BinlogServer.Lib.Journal
import BinlogServer.Lib.SortedMap
import BinlogServer.Minimysql.CommandLoop
import BinlogServer.Minimysql.ConnectionContext
import BinlogServer.Store.Accepting
import BinlogServer.Store.Accounts
import BinlogServer.Store.Backend
import BinlogServer.Store.Checkpoints
import BinlogServer.Store.Chronicle
import BinlogServer.Store.Crash
import BinlogServer.Store.FailedFlushes
import BinlogServer.Store.Faults
import BinlogServer.Store.FileRefinement
import BinlogServer.Store.FileSystem
import BinlogServer.Store.FlatJson
import BinlogServer.Store.GtidChain
import BinlogServer.Store.HeldGtids
import BinlogServer.Store.History
import BinlogServer.Store.Index
import BinlogServer.Store.Layout
import BinlogServer.Store.Loading
import BinlogServer.Store.LocalFiles
import BinlogServer.Store.Moves
import BinlogServer.Store.Operations
import BinlogServer.Store.Positions
import BinlogServer.Store.PowerLoss
import BinlogServer.Store.PurgedGtids
import BinlogServer.Store.Purging
import BinlogServer.Store.Querying
import BinlogServer.Store.Record
import BinlogServer.Store.Recovery
import BinlogServer.Store.Refinement
import BinlogServer.Store.Storage
import BinlogServer.Store.Timestamps
import BinlogServer.Store.Units
import BinlogServer.Util.Action
import BinlogServer.Util.ByteSpan
import BinlogServer.Util.Exceptions
import BinlogServer.Util.SemanticVersion
import BinlogServer.Util.VarlenInt
