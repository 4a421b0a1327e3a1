import CinderHTTP.Base.Search
import CinderHTTP.Base.Lines
import CinderHTTP.Base.Decimal
import CinderHTTP.Base.Memory
import CinderHTTP.Http.Request
import CinderHTTP.Http.Parser
import CinderHTTP.Http.HeaderFields
import CinderHTTP.Http.Framing
import CinderHTTP.Http.Grammar
import CinderHTTP.Http.RequestLine
import CinderHTTP.Http.Storage
import CinderHTTP.Reader.Agreement
import CinderHTTP.Reader.Capacity
import CinderHTTP.Base.BoundedFifo
import CinderHTTP.Base.Cancellation
import CinderHTTP.Base.Credit
import CinderHTTP.Base.Loop
import CinderHTTP.Base.RingBuffer
import CinderHTTP.Base.Wakeups
import CinderHTTP.Response.Serialization
import CinderHTTP.Response.Removal
import CinderHTTP.Connection.Tokens
import CinderHTTP.Connection.Scanner
import CinderHTTP.Base.Buffer
import CinderHTTP.Base.Custody
import CinderHTTP.Response.Ownership
import CinderHTTP.Response.Equivalence
import CinderHTTP.Router.Answers
import CinderHTTP.Static.Cleanup
import CinderHTTP.Static.Completeness
import CinderHTTP.Static.Normalization
import CinderHTTP.Static.Decoding
import CinderHTTP.Client.Handler
import CinderHTTP.Client.Namespace
import CinderHTTP.Client.PolicySafety
import CinderHTTP.Client.Synchronization
import CinderHTTP.Client.Alike
import CinderHTTP.Client.Injection
import CinderHTTP.Client.Statuses
import CinderHTTP.Queue.Effects
import CinderHTTP.Queue.Refinement
import CinderHTTP.Queue.Wakeups
import CinderHTTP.Server.Accounting
import CinderHTTP.Server.Shutdown
import CinderHTTP.Server.Observations
import CinderHTTP.Server.Reports
import CinderHTTP.Base.Liveness
import CinderHTTP.Server.Termination
import CinderHTTP.Server.Load
import CinderHTTP.Server.Promptness
import CinderHTTP.Base.Lifetimes
import CinderHTTP.Config.Grammar
import CinderHTTP.Main.Lifecycle
import CinderHTTP.Client.Truncation
import CinderHTTP.Client.Descriptors
import CinderHTTP.Client.Refinement
import CinderHTTP.Base.Members
import CinderHTTP.Client.Figures
import CinderHTTP.Base.Heap
import CinderHTTP.Base.CStrings
import CinderHTTP.Http.Pointers
import CinderHTTP.Http.Positions
import CinderHTTP.Http.Layout
import CinderHTTP.Http.FramingSafety
import CinderHTTP.Http.MemorySafety
import CinderHTTP.Static.Pointers
import CinderHTTP.Static.DecodingSafety
import CinderHTTP.Static.SegmentMemory
import CinderHTTP.Static.MemorySafety
