import WebServer.Net.FlowControl
import WebServer.Net.Lifetime
import WebServer.Http.Cache
import WebServer.Http.HalfClose
import WebServer.Net.AfterClose
import WebServer.Net.Assertions
import WebServer.Net.TCPServer
import WebServer.Http.Framing
import WebServer.Http.Persistence
import WebServer.Http.RoundTrip
import WebServer.Http.Ranges
import WebServer.Lib.Lru
import WebServer.Http.Lru
import WebServer.Net.LinkedAdvance
import WebServer.Net.LinkedEmpty
import WebServer.Net.ServerThreads
import WebServer.Net.Registry
import WebServer.Net.Poller
import WebServer.Net.PollerAgrees
import WebServer.Log.Convert
import WebServer.Lib.Bounded
import WebServer.Log.LogStream
import WebServer.Log.Logger
import WebServer.Net.LinkedDifference
import WebServer.Net.OutputBuffer
import WebServer.Net.WriteLimit
import WebServer.Net.LinkedStamps
import WebServer.Net.LinkedReader
import WebServer.Lib.Calendar
import WebServer.Timer.Date
import WebServer.Http.Post
import WebServer.Http.Service
import WebServer.Http.SpinLock
import WebServer.Lib.Digits
import WebServer.Lib.Timeline
import WebServer.Log.ThreadLog
import WebServer.Timer.ZoneFile
import WebServer.Webbench.Bench
import WebServer.Net.Turns
