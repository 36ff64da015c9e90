import HolyTls.Lib.Machine
import HolyTls.Net.Socks5

/-!
# `Net.Connection` — a TCP and TLS connection on the loop (`src/net/connection.c`)

The connection resolves its host, connects, negotiates a tunnel when it goes through a proxy, drives the TLS
handshake and then carries plaintext. Its code runs as programs (`Lib.Prog`) over the connection. What they
ask of their environment is a `ConnAns`: what libuv answers to a call, what BoringSSL says, and what the
owner does in a callback; a callback may send or close, and so enter the connection again. What they report
is a `ConnEvent`: the callbacks to the owner, the calls of the owner, the completions that libuv delivers,
and the answers that the theorems speak about.

Ciphertext is opaque. Of BoringSSL it is assumed that a client's handshake is not finished before the client
has been given some of the server's bytes (`ConnAns.handshake?`), and that `SSL_write` takes no more than it
is offered. A callback that is not installed is one on which the owner does nothing. The DNS cache, the
timing fields and the session to resume are left out: nothing here reads them.
-/

namespace HolyTls.Net

open Prog

/-! ## State -/

inductive ConnState
  | idle
  | resolving
  | connecting
  | proxyTls
  | proxyNegotiate
  | handshaking
  | earlyData
  | established
  | closing
  | failed
  deriving DecidableEq, Repr

inductive ProxyPhase
  | none
  | httpConnect
  | socks5Greeting
  | socks5Auth
  | socks5Connect
  deriving DecidableEq, Repr

/-- What `ssl_pump_do_handshake` returns. -/
inductive HsStatus
  | wantIo
  | done
  | error
  | earlyData
  | earlyRejected
  deriving DecidableEq, Repr

/-- The TCP handle: not there (`tcp_inited` is 0), open, or closing (`uv_is_closing`). -/
inductive TcpHandle
  | absent
  | open
  | closing
  deriving DecidableEq, Repr

/-- What is set before `conn_connect`; `proxyTls` says that the outer TLS has a context and a profile. -/
structure ConnCfg where
  host : Str8 := []
  port : Nat := 443
  proxy : ProxyConfig := {}
  hasBindAddr : Bool := false
  proxyTls : Bool := false

/-- `Connection`, with what libuv still owes it. -/
structure Connection where
  state : ConnState := .idle
  tcp : TcpHandle := .absent
  readyFired : Bool := false
  earlyFired : Bool := false
  earlyRejected : Bool := false
  -- `pump.established`
  established : Bool := false
  outerActive : Bool := false
  proxyPhase : ProxyPhase := .none
  nbuf : Str8 := []
  pending : Str8 := []
  pendingCap : Nat := 0
  -- `conn_connect` has been called; the name resolution, the connect and the writes under way; reads come
  started : Bool := false
  resolving : Bool := false
  connecting : Bool := false
  writes : Nat := 0
  reading : Bool := false
  -- the target's TLS has been given some of the server's bytes
  fed : Bool := false
  deriving DecidableEq

/-- A call of the owner on a connection it has. -/
inductive OwnerCall
  | send (data : Str8)
  | close
  deriving DecidableEq, Repr

/-! ## Answers and events -/

/-- A write is put into the egress ring or, when that is full, on the heap, and handed to `uv_write`. -/
inductive Submit
  | ring (rc : Option Str8)
  | heap (rc : Option Str8)
  | noMemory

/-- Why the write was not accepted, if it was not. -/
def Submit.err : Submit → Option Str8
  | ring rc => rc
  | heap rc => rc
  | noMemory => some (lit "out of memory")

/-- Ciphertext that a pump has ready: read into the ring and submitted there, or read to the stack. -/
inductive OutChunk
  | ring (data : Str8) (rc : Option Str8)
  | hop (data : Str8)

/-- What the environment answers. -/
inductive ConnAns
  | calls (cs : List OwnerCall)
  | pumpValid (ok : Bool)
  | configured (ok : Bool)
  | dnsCached (hit : Bool)
  | rc (err : Option Str8)
  | submit (r : Submit)
  | output (chunks : List OutChunk)
  | sslWrite (n : Int)
  | plaintext (chunks : List Str8)
  | handshake (st : HsStatus) (lastErr : Option Str8)
  | realloc (ok : Bool)

namespace ConnAns

def calls? : ConnAns → Option (List OwnerCall)
  | calls cs => some cs
  | _ => none

def pumpValid? : ConnAns → Option Bool
  | pumpValid ok => some ok
  | _ => none

def configured? : ConnAns → Option Bool
  | configured ok => some ok
  | _ => none

def dnsCached? : ConnAns → Option Bool
  | dnsCached hit => some hit
  | _ => none

def rc? : ConnAns → Option (Option Str8)
  | rc err => some err
  | _ => none

def submit? : ConnAns → Option Submit
  | submit r => some r
  | _ => none

def output? : ConnAns → Option (List OutChunk)
  | output chunks => some chunks
  | _ => none

/-- `ssl_pump_write_plaintext` on `len` bytes. -/
def sslWrite? (len : Nat) : ConnAns → Option Int
  | sslWrite n => if n ≤ len then some n else none
  | _ => none

def plaintext? : ConnAns → Option (List Str8)
  | plaintext chunks => some chunks
  | _ => none

/-- `ssl_pump_do_handshake`, and `pump.last_err` as text. -/
def handshake? (fed : Bool) : ConnAns → Option (HsStatus × Option Str8)
  | handshake st lastErr => if st = .done ∧ fed = false then none else some (st, lastErr)
  | _ => none

def realloc? : ConnAns → Option Bool
  | realloc ok => some ok
  | _ => none

end ConnAns

/-- What libuv completes. -/
inductive Completion
  | resolve
  | connect
  | write
  | close
  deriving DecidableEq, Repr

/-- What happens on a connection. -/
inductive ConnEvent
  -- the owner calls; a name resolution may be under way when it closes
  | connect
  | closeCall (resolving : Bool)
  -- libuv calls back
  | completion (k : Completion)
  | readData
  | readEnd (err : Option Str8)
  -- what BoringSSL and libuv answer
  | handshake (st : HsStatus)
  | refused (err : Str8)
  | submitted (data : Str8)
  -- `SSL_write` takes bytes, takes none for now in this state of the connection, or fails
  | wrote (data : Str8)
  | wouldBlock (st : ConnState)
  | sslError
  -- a `conn_send_plaintext` that returns 1 has been given these bytes
  | sent (data : Str8)
  -- the owner is called back; `none` is success
  | onReady (err : Option Str8)
  | onEarlyReady
  | onReadable
  | onClosed (err : Option Str8)
  | onFullyClosed
  deriving DecidableEq, Repr

abbrev ConnProg := Prog Connection ConnAns ConnEvent

/-! ## Changes of state -/

namespace Connection

def setState (c : Connection) (st : ConnState) : Connection := { c with state := st }

def fireReady (c : Connection) : Connection := { c with readyFired := true }

def fireEarly (c : Connection) : Connection := { c with earlyFired := true }

def finishTls (c : Connection) : Connection := { c with established := true }

def addWrite (c : Connection) : Connection := { c with writes := c.writes + 1 }

def enterPhase (c : Connection) (ph : ProxyPhase) : Connection := { c with nbuf := [], proxyPhase := ph }

/-- `conn_close`. -/
def close (c : Connection) : Connection :=
  { c with
    tcp := if c.tcp = .open then .closing else c.tcp
    reading := if c.tcp = .open then false else c.reading
    state := .closing }

end Connection

/-- The capacity for `need` bytes: doubled until it is enough. -/
def growCap (need : Nat) : Nat → Nat → Nat
  | 0, cap => cap
  | fuel + 1, cap => if cap < need then growCap need fuel (cap * 2) else cap

/-- The loops around `SSL_write`: what it has not taken in the end, and its last answer. -/
def sslWriteLoop (taken : Str8 → ConnProg Unit) : Nat → Str8 → ConnProg (Str8 × Int)
  | 0, rest => pure (rest, 1)
  | fuel + 1, rest =>
    if rest = [] then pure (rest, 1)
    else do
      let n ← await (ConnAns.sslWrite? rest.length)
      if 0 < n then do
        taken (rest.take n.toNat)
        sslWriteLoop taken fuel (rest.drop n.toNat)
      else pure (rest, n)

/-- Every round takes a byte at least, so `data.length` rounds are enough. -/
def sslWriteAll (taken : Str8 → ConnProg Unit) (data : Str8) : ConnProg (Str8 × Int) :=
  sslWriteLoop taken data.length data

/-- Plaintext for the outer TLS to a proxy. -/
def sslWriteOuter (data : Str8) : ConnProg Unit := do
  let _ ← sslWriteAll (fun _ => pure ()) data
  pure ()

/-- Plaintext for the target's TLS. -/
def sslWriteTarget (data : Str8) : ConnProg (Str8 × Int) := sslWriteAll (fun run => report (.wrote run)) data

section

variable (cfg : ConnCfg) (self : OwnerCall → ConnProg Unit)

/-- The owner is called back, and may call the connection. -/
def ownerCallback : ConnProg Unit := do
  let calls ← await ConnAns.calls?
  forEach self calls

/-! ## Reporting -/

/-- `conn_deliver_ready`; `none` is success. -/
def connDeliverReady (err : Option Str8) : ConnProg Unit := do
  let c ← get
  if c.readyFired then pure ()
  else do
    modify (·.fireReady)
    report (.onReady err)
    ownerCallback self

/-- `conn_fail`. -/
def connFail (reason : Str8) : ConnProg Unit := do
  modify (·.setState .failed)
  connDeliverReady self (some reason)

/-- A write, or the memory for one, is not to be had. -/
def connRefused (err : Str8) : ConnProg Unit := do
  report (.refused err)
  connFail self err

/-! ## Writing -/

/-- `uv_write` has accepted a write. -/
def connSubmitted (data : Str8) : ConnProg Unit := do
  modify (·.addWrite)
  report (.submitted data)

/-- `conn_raw_write`. -/
def connRawWrite (data : Str8) : ConnProg Unit := do
  let c ← get
  if data = [] ∨ c.tcp ≠ .open then pure ()
  else do
    let r ← await ConnAns.submit?
    match r.err with
    | none => connSubmitted data
    | some e => connRefused self e

/-- The loop of `conn_pump_to_socket`: a failed write from the ring ends it, one from the stack does not. -/
def connPumpLoop : List OutChunk → ConnProg Unit
  | [] => pure ()
  | ch :: rest => do
      let c ← get
      if c.tcp ≠ .open then pure ()
      else
        match ch with
        | .ring data none => do
            connSubmitted data
            connPumpLoop rest
        | .ring _ (some e) => connRefused self e
        | .hop data => do
            connRawWrite self data
            connPumpLoop rest

/-- `conn_pump_to_socket`. -/
def connPumpToSocket : ConnProg Unit := do
  let chunks ← await ConnAns.output?
  connPumpLoop self chunks

/-- `conn_proxy_outer_flush`. -/
def connProxyOuterFlush : ConnProg Unit := connPumpToSocket self

/-- `conn_flush_output`. -/
def connFlushOutput : ConnProg Unit := do
  let c ← get
  if c.tcp ≠ .open then pure ()
  else if c.outerActive = false then connPumpToSocket self
  else do
    -- the target's ciphertext goes through the outer TLS
    let chunks ← await ConnAns.plaintext?
    forEach sslWriteOuter chunks
    connProxyOuterFlush self

/-- `conn_pending_append`. -/
def connPendingAppend (data : Str8) : ConnProg Unit :=
  if data = [] then pure ()
  else do
    let c ← get
    let need := c.pending.length + data.length
    if c.pendingCap < need then do
      let ok ← await ConnAns.realloc?
      if ok then
        modify (fun c => { c with
          pending := c.pending ++ data
          pendingCap := growCap need need (if c.pendingCap = 0 then 4096 else c.pendingCap) })
      else connRefused self (lit "out of memory")
    else modify (fun c => { c with pending := c.pending ++ data })

/-- `conn_flush_pending`. -/
def connFlushPending : ConnProg Bool := do
  let c ← get
  if c.pending = [] then pure true
  else do
    let (rest, _) ← sslWriteTarget c.pending
    modify (fun c => { c with pending := [], pendingCap := 0 })
    connFlushOutput self
    pure (decide (rest = []))

/-! ## Driving the handshake -/

/-- What `conn_drive_handshake` does about the status of the handshake. -/
def connOnStatus (lastErr : Option Str8) : HsStatus → ConnProg Unit
  | .done => do
      modify (·.setState .established)
      let ok ← connFlushPending self
      if ok = false then connFail self (lit "early-data flush failed")
      else connDeliverReady self none
  | .earlyData => do
      modify (·.setState .earlyData)
      let c ← get
      if c.earlyFired then pure ()
      else do
        modify (·.fireEarly)
        report .onEarlyReady
        ownerCallback self
        let c ← get
        when (decide (c.state = .earlyData)) (connFlushOutput self)
  | .earlyRejected => do
      modify (fun c => { c with earlyRejected := true })
      connFail self (lit "early data rejected")
  | .error => connFail self (lastErr.getD (lit "TLS handshake failed"))
  | .wantIo => pure ()

/-- `conn_drive_handshake`. The pump notes by itself that the handshake is done. -/
def connDriveHandshake : ConnProg Unit := do
  let c ← get
  let (st, lastErr) ← await (ConnAns.handshake? c.fed)
  report (.handshake st)
  when (decide (st = .done)) (modify (·.finishTls))
  connFlushOutput self
  connOnStatus self lastErr st

/-! ## The proxy tunnel -/

/-- `conn_transport_feed`. -/
def connTransportFeed : ConnProg Unit := do
  let c ← get
  if c.outerActive = false then modify (fun c => { c with fed := true })
  else do
    let chunks ← await ConnAns.plaintext?
    when (!chunks.isEmpty) (modify (fun c => { c with fed := true }))

/-- `conn_proxy_tunnel_ready`. -/
def connProxyTunnelReady : ConnProg Unit := do
  modify (fun c => (c.enterPhase .none).setState .handshaking)
  connDriveHandshake self

/-- `conn_socks5_send_connect`. -/
def connSocks5SendConnect : ConnProg Unit :=
  let m := proxySocks5ConnectRequest cfg.host cfg.port 300
  if m = [] then connFail self (lit "SOCKS5 target host too long")
  else do
    modify (·.enterPhase .socks5Connect)
    connRawWrite self m

/-- `conn_socks5_send_userpass`. -/
def connSocks5SendUserpass : ConnProg Unit :=
  let m := proxySocks5Userpass cfg.proxy 520
  if m = [] then connFail self (lit "SOCKS5 credentials too long")
  else do
    modify (·.enterPhase .socks5Auth)
    connRawWrite self m

/-- The size of `nbuf`. -/
def nbufSize : Nat := 2048

/-- `conn_proxy_advance`. -/
def connProxyAdvance : ConnProg Unit := do
  let c ← get
  match c.proxyPhase with
  | .httpConnect =>
    match proxyHttpResponseStatus c.nbuf with
    | none =>
      if nbufSize ≤ c.nbuf.length then connFail self (lit "proxy CONNECT response too large")
      else pure ()
    | some status =>
      if status ≠ 200 then connFail self (lit "proxy CONNECT refused")
      else connProxyTunnelReady self
  | .socks5Greeting =>
    match proxySocks5ParseMethod c.nbuf with
    | none => pure ()
    | some method =>
      if method = 0 then connSocks5SendConnect cfg self
      else if method = 2 then connSocks5SendUserpass cfg self
      else connFail self (lit "SOCKS5 no acceptable auth method")
  | .socks5Auth =>
    match proxySocks5ParseUserpassReply c.nbuf with
    | none => pure ()
    | some ok =>
      if ok then connSocks5SendConnect cfg self
      else connFail self (lit "SOCKS5 authentication failed")
  | .socks5Connect =>
    match proxySocks5ParseReply c.nbuf with
    | none => pure ()
    | some r =>
      if r.ok then connProxyTunnelReady self
      else connFail self (lit "SOCKS5 CONNECT failed")
  | .none => pure ()

/-- `conn_proxy_consume`. -/
def connProxyConsume (data : Str8) : ConnProg Unit := do
  let c ← get
  if nbufSize < c.nbuf.length + data.length then connFail self (lit "proxy negotiation overflow")
  else do
    modify (fun c => { c with nbuf := c.nbuf ++ data })
    connProxyAdvance cfg self

/-- `conn_proxy_on_data`. -/
def connProxyOnData (data : Str8) : ConnProg Unit := do
  let c ← get
  if c.outerActive = false then connProxyConsume cfg self data
  else do
    let chunks ← await ConnAns.plaintext?
    forEach (connProxyConsume cfg self) chunks

/-- `conn_proxy_send_connect_https`. -/
def connProxySendConnectHttps : ConnProg Unit := do
  sslWriteOuter (proxyHttpConnectRequest cfg.proxy cfg.host cfg.port)
  connProxyOuterFlush self
  modify (fun c => (c.enterPhase .httpConnect).setState .proxyNegotiate)

/-- `conn_proxy_outer_drive`. -/
def connProxyOuterDrive : ConnProg Unit := do
  let (st, _) ← await (ConnAns.handshake? true)
  connProxyOuterFlush self
  if st = .done then connProxySendConnectHttps cfg self
  else if st = .error then connFail self (lit "proxy TLS handshake failed")
  else pure ()

/-- `conn_proxy_begin`. -/
def connProxyBegin : ConnProg Unit := do
  modify (fun c => { c with nbuf := [] })
  match cfg.proxy.type with
  | .socks5 => do
      modify (fun c => { c with proxyPhase := .socks5Greeting, state := .proxyNegotiate })
      connRawWrite self (proxySocks5Greeting cfg.proxy 8)
  | .https =>
    if cfg.proxyTls = false then connFail self (lit "HTTPS proxy has no TLS context")
    else do
      let valid ← await ConnAns.pumpValid?
      if valid = false then connFail self (lit "proxy SSL_new failed")
      else do
        let configured ← await ConnAns.configured?
        if configured = false then connFail self (lit "proxy configure_ssl failed")
        else do
          modify (fun c => { c with outerActive := true, state := .proxyTls })
          connProxyOuterDrive cfg self
  | _ => do
      modify (fun c => { c with proxyPhase := .httpConnect, state := .proxyNegotiate })
      connRawWrite self (proxyHttpConnectRequest cfg.proxy cfg.host cfg.port)

/-! ## Calls of the owner -/

/-- `conn_begin_tcp_connect`. -/
def connBeginTcpConnect : ConnProg Unit := do
  let bound ← if cfg.hasBindAddr then await ConnAns.rc? else pure none
  match bound with
  | some e => connFail self e
  | none => do
      let rc ← await ConnAns.rc?
      match rc with
      | some e => connFail self e
      | none => modify (fun c => { c with connecting := true, state := .connecting })

/-- `conn_connect`. -/
def connConnect : ConnProg Unit := do
  modify (fun c => { c with started := true, tcp := .open })
  report .connect
  let valid ← await ConnAns.pumpValid?
  if valid = false then connDeliverReady self (some (lit "SSL_new failed"))
  else do
    let configured ← await ConnAns.configured?
    if configured = false then connDeliverReady self (some (lit "configure_ssl failed"))
    else do
      let cached ← await ConnAns.dnsCached?
      if cached then connBeginTcpConnect cfg self
      else do
        modify (·.setState .resolving)
        let rc ← await ConnAns.rc?
        match rc with
        | some e => connFail self e
        | none => modify (fun c => { c with resolving := true })

/-- `conn_send_plaintext`. -/
def connSendPlaintext (data : Str8) : ConnProg Bool := do
  let c ← get
  if c.state ≠ .established ∧ c.state ≠ .earlyData then pure false
  else if c.pending ≠ [] then do
    report (.sent data)
    connPendingAppend self data
    pure true
  else do
    let (rest, n) ← sslWriteTarget data
    if rest = [] then do
      report (.sent data)
      connFlushOutput self
      pure true
    else if n = -1 then do
      -- would block: the rest waits for the end of the handshake
      report (.wouldBlock c.state)
      report (.sent data)
      connPendingAppend self rest
      connFlushOutput self
      pure true
    else do
      report .sslError
      pure false

/-- `conn_close`. -/
def connClose : ConnProg Unit := do
  let c ← get
  report (.closeCall c.resolving)
  modify (·.close)

/-- A call of the owner. -/
def connOwnerCall : OwnerCall → ConnProg Unit
  | .send data => do
      let _ ← connSendPlaintext self data
      pure ()
  | .close => connClose

/-! ## Callbacks of libuv -/

/-- `conn_on_resolved`. -/
def connOnResolved (err : Option Str8) : ConnProg Unit := do
  modify (fun c => { c with resolving := false })
  report (.completion .resolve)
  match err with
  | some e => connFail self e
  | none => connBeginTcpConnect cfg self

/-- `conn_on_connected`. Reads do not start on a handle that is closing. -/
def connOnConnected (err : Option Str8) : ConnProg Unit := do
  modify (fun c => { c with connecting := false })
  report (.completion .connect)
  match err with
  | some e => connFail self e
  | none => do
      modify (fun c => { c with reading := decide (c.tcp = .open) })
      if cfg.proxy.type = .none then do
        modify (·.setState .handshaking)
        connDriveHandshake self
      else connProxyBegin cfg self

/-- `conn_read_cb` with an error, or at the end of the stream (`none`). -/
def connReadEnd (err : Option Str8) : ConnProg Unit := do
  report (.readEnd err)
  let c ← get
  if c.state = .established then do
    modify (·.setState .closing)
    report (.onClosed err)
    ownerCallback self
  else connFail self (err.getD (lit "connection closed during handshake"))

/-- `conn_read_cb` with data. -/
def connReadData (data : Str8) : ConnProg Unit := do
  report .readData
  let c ← get
  if data = [] then pure ()
  else if c.state = .proxyTls then connProxyOuterDrive cfg self
  else if c.state = .proxyNegotiate then connProxyOnData cfg self data
  else do
    connTransportFeed
    let c ← get
    if c.established = false then connDriveHandshake self
    else do
      connFlushOutput self
      report .onReadable
      ownerCallback self

/-- `conn_write_cb`. -/
def connWriteCb : ConnProg Unit := do
  modify (fun c => { c with writes := c.writes - 1 })
  report (.completion .write)

/-- `conn_on_handle_closed`: the owner releases the connection in the callback. -/
def connOnHandleClosed : ConnProg Unit := do
  report (.completion .close)
  modify (fun c => { c with tcp := .absent })
  report .onFullyClosed

end

/-! ## Events -/

/-- One event: a call of the owner, or a callback of libuv. -/
inductive ConnInput
  | connect
  | call (k : OwnerCall)
  | resolved (err : Option Str8)
  | connected (err : Option Str8)
  | readData (data : Str8)
  | readEnd (err : Option Str8)
  | written
  | handleClosed

/-- When an event can happen. The owner connects once. What was started completes once; the connect and the
    writes of the handle complete before its close, a name resolution at any time. -/
def connEnabled (c : Connection) : ConnInput → Bool
  | .connect => !c.started
  | .call _ => true
  | .resolved _ => c.resolving
  | .connected _ => c.connecting
  | .readData _ => c.reading
  | .readEnd _ => c.reading
  | .written => decide (0 < c.writes)
  | .handleClosed => decide (c.tcp = .closing) && !c.connecting && decide (c.writes = 0)

/-- What an event runs. -/
def connInput (cfg : ConnCfg) (self : OwnerCall → ConnProg Unit) : ConnInput → ConnProg Unit
  | .connect => connConnect cfg self
  | .call k => self k
  | .resolved err => connOnResolved cfg self err
  | .connected err => connOnConnected cfg self err
  | .readData data => connReadData cfg self data
  | .readEnd err => connReadEnd self err
  | .written => connWriteCb
  | .handleClosed => connOnHandleClosed

/-- The connection, entered again at most `n` deep. -/
def connRec (n : Nat) : OwnerCall → ConnProg Unit := fix connOwnerCall n

/-- The connection as a machine. -/
def connMachine (cfg : ConnCfg) : Machine Connection ConnAns ConnEvent ConnInput where
  init := {}
  enabled := connEnabled
  handle n e := connInput cfg (connRec n) e

end HolyTls.Net
