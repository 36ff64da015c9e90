import HolyTls.Base.Arena
import HolyTls.Base.Base64
import HolyTls.Base.Ring
import HolyTls.Base.RingQueue
import HolyTls.Base.Str8
import HolyTls.Base.U8Buf
import HolyTls.Capi.Async
import HolyTls.Capi.AsyncSafe
import HolyTls.Core.AltSvc
import HolyTls.Core.Cookie
import HolyTls.Core.CookieHeader
import HolyTls.Core.CookieJar
import HolyTls.Core.CookieLifetime
import HolyTls.Core.Decompress
import HolyTls.Core.H1Request
import HolyTls.Core.Header
import HolyTls.Core.HeaderOrder
import HolyTls.Core.HttpDate
import HolyTls.Core.Psl
import HolyTls.Core.Redirect
import HolyTls.Core.Request
import HolyTls.Core.RequestHeaders
import HolyTls.Core.RequestOnce
import HolyTls.Core.Resume
import HolyTls.Core.SecFetch
import HolyTls.Core.Session
import HolyTls.Core.Url
import HolyTls.Core.UrlForm
import HolyTls.Core.UrlResolve
import HolyTls.H1.Accesses
import HolyTls.H1.Answer
import HolyTls.H1.Interim
import HolyTls.H1.Phr
import HolyTls.H1.Reading
import HolyTls.H1.Request
import HolyTls.H1.Session
import HolyTls.H2.WsQueue
import HolyTls.H3.Control
import HolyTls.H3.Finish
import HolyTls.H3.Request
import HolyTls.H3.Varint
import HolyTls.Lib.ByteMem
import HolyTls.Lib.Calendar
import HolyTls.Lib.Claim
import HolyTls.Lib.Dialogue
import HolyTls.Lib.Drain
import HolyTls.Lib.Feed
import HolyTls.Lib.Ghost
import HolyTls.Lib.LinkedQueue
import HolyTls.Lib.Machine
import HolyTls.Lib.OrdMap
import HolyTls.Lib.Prog
import HolyTls.Lib.Runs
import HolyTls.Lib.Slots
import HolyTls.Lib.StackAlloc
import HolyTls.Lib.StoredBlocks
import HolyTls.Lib.Sweep
import HolyTls.Lib.Uri
import HolyTls.Net.ConnData
import HolyTls.Net.ConnLife
import HolyTls.Net.ConnMoves
import HolyTls.Net.ConnSweep
import HolyTls.Net.Connection
import HolyTls.Net.DnsCache
import HolyTls.Net.Proxy
import HolyTls.Net.ProxyUrl
import HolyTls.Net.QuicEgress
import HolyTls.Net.Socks5
import HolyTls.Pool.Attempts
import HolyTls.Pool.Books
import HolyTls.Pool.Change
import HolyTls.Pool.Events
import HolyTls.Pool.Fate
import HolyTls.Pool.Frame
import HolyTls.Pool.H1Use
import HolyTls.Pool.H3Slots
import HolyTls.Pool.Handlers
import HolyTls.Pool.Moves
import HolyTls.Pool.Once
import HolyTls.Pool.Ops
import HolyTls.Pool.Origin
import HolyTls.Pool.Pairing
import HolyTls.Pool.Place
import HolyTls.Pool.Replay
import HolyTls.Pool.State
import HolyTls.Pool.Step
import HolyTls.Pool.Stranded
import HolyTls.Pool.Sweep
import HolyTls.Pool.Table
import HolyTls.Pool.TornBody
import HolyTls.Tls.ClientHello
import HolyTls.Tls.Ja4
import HolyTls.Ws.Build
import HolyTls.Ws.Frame
import HolyTls.Ws.FrameStream
import HolyTls.Ws.Inflate
import HolyTls.Ws.Upgrade
