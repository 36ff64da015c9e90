import HolyTls.Lib.Feed
import HolyTls.Net.Proxy

/-!
# `Net.Socks5` — the SOCKS5 negotiation of a tunnel

A TCP connection asks the proxy for a `CONNECT`, a QUIC connection for a UDP association; both greet it first
and send user and password when it wants them. They collect the reply of the current step in `nbuf` and run
its parser after every read (`conn_proxy_advance` of `src/net/connection.c`, `quic_proxy_advance` of
`src/net/quic_connection.c`). The two drivers are one definition, applied to their requests, their buffers and
their texts.

What they should do is said by `socks5Expected`: RFC 1928 and RFC 1929 fix the replies of each step, so the
bytes of a step are a complete reply, the beginning of one, or neither.
-/

namespace HolyTls

variable {p : ProxyConfig} {buf got : Str8} {m : UInt8}

/-! ## The drivers -/

/-- The step of the negotiation, by the message that the awaited reply answers. -/
inductive Socks5Phase
  | greeting
  | auth
  | request
  deriving DecidableEq, Repr

/-- What the two drivers do not share: the size of `nbuf`, the messages, and the reasons for failing. -/
structure Socks5Driver where
  nbufSize : Nat
  userpass : Str8
  request : Str8
  requestTooLong : Str8
  requestFailed : Str8

/-- What a step's parser makes of the reply so far. -/
inductive Socks5Move
  | wait
  | send (phase : Socks5Phase) (data : Str8)
  | ready (reply : Socks5Reply)
  | fail (why : Str8)

namespace Socks5Driver

variable (d : Socks5Driver)

def sendRequest : Socks5Move :=
  if d.request = [] then .fail d.requestTooLong else .send .request d.request

def sendUserpass : Socks5Move :=
  if d.userpass = [] then .fail (lit "SOCKS5 credentials too long") else .send .auth d.userpass

/-- Run the parser of the step on what has been collected. -/
def advance : Socks5Phase → Str8 → Socks5Move
  | .greeting, nbuf =>
    match proxySocks5ParseMethod nbuf with
    | none => .wait
    | some method =>
      if method = 0 then d.sendRequest
      else if method = 2 then d.sendUserpass
      else .fail (lit "SOCKS5 no acceptable auth method")
  | .auth, nbuf =>
    match proxySocks5ParseUserpassReply nbuf with
    | none => .wait
    | some ok => if ok then d.sendRequest else .fail (lit "SOCKS5 authentication failed")
  | .request, nbuf =>
    match proxySocks5ParseReply nbuf with
    | none => .wait
    | some r => if r.ok then .ready r else .fail d.requestFailed

end Socks5Driver

/-- `conn_proxy_advance` with `conn_socks5_send_userpass` and `conn_socks5_send_connect`. -/
def connSocks5 (p : ProxyConfig) (host : Str8) (port : Nat) : Socks5Driver :=
  { nbufSize       := 2048
    userpass := proxySocks5Userpass p 520
    request := proxySocks5ConnectRequest host port 300
    requestTooLong := lit "SOCKS5 target host too long"
    requestFailed  := lit "SOCKS5 CONNECT failed" }

/-- `quic_proxy_advance` with `quic_proxy_send_userpass` and `quic_proxy_send_associate`; the association's
    request has a fixed length, and its failing to fit is not looked at. -/
def quicSocks5 (p : ProxyConfig) : Socks5Driver :=
  { nbufSize       := 512
    userpass := proxySocks5Userpass p 520
    request := proxySocks5UdpAssociateRequest 10
    requestTooLong := []
    requestFailed  := lit "SOCKS5 UDP ASSOCIATE failed" }

/-- A negotiation: a step and its reply so far, or how it ended. -/
inductive Socks5State
  | waiting (phase : Socks5Phase) (nbuf : Str8)
  | ready (reply : Socks5Reply)
  | failed (why : Str8)

/-- A read (`conn_proxy_consume`, `quic_ctrl_read_cb`): collect it, run the parser, and say what is sent. Sending
    the next message empties `nbuf`. -/
def socks5Read (d : Socks5Driver) : Socks5State → Str8 → Socks5State × List Str8
  | .waiting phase nbuf, data =>
    if d.nbufSize < nbuf.length + data.length then (.failed (lit "proxy negotiation overflow"), [])
    else
      match d.advance phase (nbuf ++ data) with
      | .wait => (.waiting phase (nbuf ++ data), [])
      | .send phase out => (.waiting phase [], [out])
      | .ready reply => (.ready reply, [])
      | .fail why => (.failed why, [])
  | s, _ => (s, [])

/-- Where the negotiation is after these reads; it begins with the greeting sent. -/
def socks5Negotiate (d : Socks5Driver) (reads : List Str8) : Socks5State :=
  (Feed.run (socks5Read d) (.waiting .greeting []) reads).1

/-! ## What the replies are -/

/-- The methods that the greeting offers. -/
def socks5Offered (p : ProxyConfig) : List UInt8 := (proxySocks5Greeting p 8).drop 2

theorem mem_socks5Offered (h : m ∈ socks5Offered p) : m = 0 ∨ m = 2 := by
  unfold socks5Offered proxySocks5Greeting at h
  by_cases hu : p.user = [] <;> simp [hu] at h
  · exact .inl h
  · exact h

/-- An address and its type: four bytes, a name behind its length, or sixteen bytes. -/
inductive Socks5Address : UInt8 → Str8 → Prop
  | ipv4 {addr : Str8} (h : addr.length = 4) : Socks5Address 1 addr
  | name {len : UInt8} {name : Str8} (h : name.length = len.toNat) : Socks5Address 3 (len :: name)
  | ipv6 {addr : Str8} (h : addr.length = 16) : Socks5Address 4 addr

/-- The replies with which a step succeeds. -/
inductive Socks5WellFormed (p : ProxyConfig) : Socks5Phase → Str8 → Prop
  | method {m : UInt8} (h : m ∈ socks5Offered p) : Socks5WellFormed p .greeting [5, m]
  | status : Socks5WellFormed p .auth [1, 0]
  | reply {rsv atyp : UInt8} {addr : Str8} {hi lo : UInt8} (h : Socks5Address atyp addr) :
      Socks5WellFormed p .request ([5, 0, rsv, atyp] ++ addr ++ [hi, lo])

/-- The bytes are a well-formed reply of the step or the beginning of one. -/
def Socks5Begun (p : ProxyConfig) (phase : Socks5Phase) (got : Str8) : Prop :=
  ∃ r, Socks5WellFormed p phase r ∧ got <+: r

/-- Where a negotiation should be. -/
inductive Socks5Stand
  | waiting (phase : Socks5Phase) (got : Str8)
  | ready
  | failed

/-- Where it goes from a well-formed reply. -/
def socks5Next : Socks5Phase → Str8 → Socks5Stand
  | .greeting, r => if r = [5, 2] then .waiting .auth [] else .waiting .request []
  | .auth, _ => .waiting .request []
  | .request, _ => .ready

open Classical in
/-- What a read should do: a well-formed reply ends the step, the beginning of one is waited on, anything else
    fails. -/
noncomputable def socks5Expected (p : ProxyConfig) : Socks5Stand → Str8 → Socks5Stand
  | .waiting phase got, data =>
    if Socks5WellFormed p phase (got ++ data) then socks5Next phase (got ++ data)
    else if Socks5Begun p phase (got ++ data) then .waiting phase (got ++ data)
    else .failed
  | s, _ => s

/-- The driver is where it should be. -/
def Socks5State.At : Socks5State → Socks5Stand → Prop
  | .waiting phase nbuf, s => s = .waiting phase nbuf
  | .ready _, s => s = .ready
  | .failed _, s => s = .failed

/-! ## What the parsers tell apart -/

/-- The bytes refuse the step in the way the drivers look for: by the second byte of a reply that is long
    enough, whatever else it holds. -/
def Socks5Refused : Socks5Phase → Str8 → Prop
  | .greeting, got => ∃ m, proxySocks5ParseMethod got = some m ∧ m ≠ 0 ∧ m ≠ 2
  | .auth, got => proxySocks5ParseUserpassReply got = some false
  | .request, got => ∃ r, proxySocks5ParseReply got = some r ∧ r.ok = false

/-- The bytes of the step are a well-formed reply or the beginning of one, or the driver sees that they are
    not: they refuse, or they are more than `nbuf` holds. -/
def Socks5Told (p : ProxyConfig) (nbufSize : Nat) (phase : Socks5Phase) (got : Str8) : Prop :=
  Socks5Begun p phase got ∨ Socks5Refused phase got ∨ nbufSize < got.length

variable {phase : Socks5Phase}

theorem Socks5WellFormed.begun {r : Str8} (h : Socks5WellFormed p phase r) :
    Socks5Begun p phase r := ⟨r, h, List.prefix_refl r⟩

theorem Socks5Address.length_le {atyp : UInt8} {addr : Str8} (h : Socks5Address atyp addr) :
    addr.length ≤ 256 := by
  cases h with
  | ipv4 h | ipv6 h => omega
  | @name len name h =>
    have hlen := len.toNat_lt
    rw [List.length_cons]
    omega

theorem Socks5Begun.length_le (h : Socks5Begun p phase got) : got.length ≤ 262 := by
  obtain ⟨r, hr, hpre⟩ := h
  refine le_trans hpre.length_le ?_
  cases hr with
  | method _ | status => simp
  | reply haddr =>
    have hlen := haddr.length_le
    simp
    omega

/-! ### The reply to the request -/

/-- More bytes do not change the length of the address once it is known. -/
theorem socks5AddrLen_append {n : Nat} (h : socks5AddrLen buf = some n) (more : Str8) :
    socks5AddrLen (buf ++ more) = some n := by
  have hlen : 3 ≤ buf.length := by
    by_contra hshort
    simp [socks5AddrLen, List.drop_eq_nil_of_le (show buf.length ≤ 3 by omega)] at h
  have hdrop : (buf ++ more).drop 3 = buf.drop 3 ++ more := List.drop_append_of_le_length hlen
  unfold socks5AddrLen at h ⊢
  rw [hdrop]
  split at h
  case h_4 => cases h
  all_goals
    rename_i heq
    rw [heq]
    exact h

theorem Socks5Address.addrLen {atyp : UInt8} {addr : Str8} (h : Socks5Address atyp addr)
    (ver rep rsv : UInt8) (more : Str8) :
    socks5AddrLen ([ver, rep, rsv, atyp] ++ addr ++ more) = some addr.length := by
  cases h with
  | ipv4 h | ipv6 h => simp [socks5AddrLen, h]
  | name h => simp [socks5AddrLen, h, Nat.add_comm]

/-- A complete reply has at least its address and its port, and `ok` is its second byte. -/
theorem proxySocks5ParseReply_some {r : Socks5Reply} (h : proxySocks5ParseReply buf = some r) :
    ∃ n, socks5AddrLen buf = some n ∧ 4 + n + 2 ≤ buf.length ∧ r.ok = (buf.getD 1 0 == 0) := by
  obtain ⟨n, hn, h⟩ := Option.bind_eq_some_iff.mp h
  dsimp only at h
  split at h
  · cases h
  · rename_i hlen
    cases h
    exact ⟨n, hn, by omega, rfl⟩

theorem proxySocks5ParseReply_wellFormed (h : Socks5WellFormed p .request buf) :
    ∃ r, proxySocks5ParseReply buf = some r ∧ r.ok = true := by
  cases h with
  | @reply rsv atyp addr hi lo haddr =>
    have hn := haddr.addrLen 5 0 rsv [hi, lo]
    have hlen : ¬ ([5, 0, rsv, atyp] ++ addr ++ [hi, lo]).length < 4 + addr.length + 2 := by
      simp
      omega
    unfold proxySocks5ParseReply
    rw [hn, Option.bind_some]
    dsimp only
    rw [if_neg hlen]
    exact ⟨_, rfl, by simp⟩

/-- The beginning of a well-formed reply is complete for the parser only when it is all of it. -/
theorem Socks5Begun.complete {r : Socks5Reply} (h : Socks5Begun p .request buf)
    (hr : proxySocks5ParseReply buf = some r) :
    Socks5WellFormed p .request buf := by
  obtain ⟨full, hfull, hpre⟩ := h
  obtain ⟨n, hn, hlen, -⟩ := proxySocks5ParseReply_some hr
  suffices heq : buf = full by rwa [heq]
  obtain ⟨more, hmore⟩ := id hpre
  have hn' : socks5AddrLen full = some n := hmore ▸ socks5AddrLen_append hn more
  apply hpre.eq_of_length_le
  cases hfull with
  | @reply rsv atyp addr hi lo haddr =>
    rw [haddr.addrLen 5 0 rsv [hi, lo]] at hn'
    cases hn'
    simp
    omega

/-! ### The two-byte replies -/

theorem Socks5WellFormed.length_two {r : Str8} (h : Socks5WellFormed p phase r) (hphase : phase ≠ .request) :
    r.length = 2 := by
  cases h with
  | method _ | status => rfl
  | reply _ => exact absurd rfl hphase

/-- Two bytes or more begin a two-byte reply only when they are that reply. -/
theorem Socks5Begun.two (h : Socks5Begun p phase got) (hphase : phase ≠ .request) (hlen : 2 ≤ got.length) :
    Socks5WellFormed p phase got := by
  obtain ⟨r, hr, hpre⟩ := h
  have heq : got = r := hpre.eq_of_length_le (by rw [hr.length_two hphase]; exact hlen)
  rwa [heq]

theorem proxySocks5ParseMethod_none (h : proxySocks5ParseMethod got = none) : got.length < 2 := by
  match got, h with
  | [], _ => simp
  | [_], _ => simp

theorem proxySocks5ParseMethod_some (h : proxySocks5ParseMethod got = some m) :
    2 ≤ got.length ∧ got[1]? = some m := by
  match got, h with
  | _ :: _ :: _, h => simpa [proxySocks5ParseMethod] using h

theorem proxySocks5ParseUserpassReply_none (h : proxySocks5ParseUserpassReply got = none) : got.length < 2 := by
  match got, h with
  | [], _ => simp
  | [_], _ => simp

theorem proxySocks5ParseUserpassReply_some {ok : Bool} (h : proxySocks5ParseUserpassReply got = some ok) :
    2 ≤ got.length ∧ ∃ status, got[1]? = some status ∧ ok = (status == 0) := by
  match got, h with
  | _ :: _ :: _, h => simpa [proxySocks5ParseUserpassReply, eq_comm] using h

/-! ## One read -/

/-- What a parser's verdict says about the bytes it was given. -/
def Socks5Move.Fits (p : ProxyConfig) (phase : Socks5Phase) (got : Str8) : Socks5Move → Prop
  | .wait => ¬ Socks5WellFormed p phase got ∧ ¬ Socks5Refused phase got
  | .send phase' _ =>
    (Socks5Begun p phase got → Socks5WellFormed p phase got ∧ socks5Next phase got = .waiting phase' []) ∧
      ¬ Socks5Refused phase got
  | .ready _      =>
    (Socks5Begun p phase got → Socks5WellFormed p phase got ∧ socks5Next phase got = .ready) ∧
      ¬ Socks5Refused phase got
  | .fail _ => Socks5Refused phase got ∧ ¬ Socks5Begun p phase got

section

variable {d : Socks5Driver} (p : ProxyConfig) (hreq : d.request ≠ []) (hup : d.userpass ≠ [])

theorem Socks5Begun.method {p : ProxyConfig} (h : Socks5Begun p .greeting got)
    (hm : proxySocks5ParseMethod got = some m) :
    Socks5WellFormed p .greeting got ∧ got = [5, m] ∧ m ∈ socks5Offered p := by
  obtain ⟨hlen, hget⟩ := proxySocks5ParseMethod_some hm
  have hwf := h.two (by decide) hlen
  refine ⟨hwf, ?_⟩
  cases hwf with
  | @method m' hoff =>
    obtain rfl : m' = m := by simpa using hget
    exact ⟨rfl, hoff⟩

include hreq hup in
theorem advance_greeting_fits (got : Str8) : (d.advance .greeting got).Fits p .greeting got := by
  cases hm : proxySocks5ParseMethod got with
  | none =>
    simp only [Socks5Driver.advance, hm]
    refine ⟨?_, ?_⟩
    · intro hwf
      have hlen := hwf.length_two (by decide)
      have hshort := proxySocks5ParseMethod_none hm
      omega
    · rintro ⟨m, hm', -⟩
      rw [hm] at hm'
      cases hm'
  | some m =>
    have hrefused : Socks5Refused .greeting got ↔ m ≠ 0 ∧ m ≠ 2 := by
      simp only [Socks5Refused, hm, Option.some.injEq]
      constructor
      · rintro ⟨m', rfl, h⟩
        exact h
      · intro h
        exact ⟨m, rfl, h⟩
    simp only [Socks5Driver.advance, hm]
    split
    · rename_i h0
      simp only [Socks5Driver.sendRequest, if_neg hreq]
      refine ⟨?_, ?_⟩
      · intro hbegun
        obtain ⟨hwf, heq, -⟩ := hbegun.method hm
        refine ⟨hwf, ?_⟩
        simp [socks5Next, heq, h0]
      · rw [hrefused]
        intro h
        exact h.1 h0
    · split
      · rename_i h2
        simp only [Socks5Driver.sendUserpass, if_neg hup]
        refine ⟨?_, ?_⟩
        · intro hbegun
          obtain ⟨hwf, heq, -⟩ := hbegun.method hm
          refine ⟨hwf, ?_⟩
          simp [socks5Next, heq, h2]
        · rw [hrefused]
          intro h
          exact h.2 h2
      · rename_i h0 h2
        refine ⟨hrefused.mpr ⟨h0, h2⟩, ?_⟩
        intro hbegun
        obtain ⟨-, -, hoff⟩ := hbegun.method hm
        exact (mem_socks5Offered hoff).elim h0 h2

include hreq in
theorem advance_auth_fits (got : Str8) : (d.advance .auth got).Fits p .auth got := by
  cases hs : proxySocks5ParseUserpassReply got with
  | none =>
    simp only [Socks5Driver.advance, hs]
    refine ⟨?_, ?_⟩
    · intro hwf
      have hlen := hwf.length_two (by decide)
      have hshort := proxySocks5ParseUserpassReply_none hs
      omega
    · intro hrefused
      rw [Socks5Refused, hs] at hrefused
      cases hrefused
  | some ok =>
    obtain ⟨hlen, status, hget, hok⟩ := proxySocks5ParseUserpassReply_some hs
    simp only [Socks5Driver.advance, hs]
    cases ok with
    | true =>
      simp only [Socks5Driver.sendRequest, if_neg hreq, if_true]
      refine ⟨?_, ?_⟩
      · intro hbegun
        exact ⟨hbegun.two (by decide) hlen, rfl⟩
      · intro hrefused
        rw [Socks5Refused, hs] at hrefused
        cases hrefused
    | false =>
      refine ⟨hs, ?_⟩
      intro hbegun
      cases hbegun.two (by decide) hlen with
      | status => simp [proxySocks5ParseUserpassReply] at hs

theorem advance_request_fits (got : Str8) : (d.advance .request got).Fits p .request got := by
  cases hr : proxySocks5ParseReply got with
  | none =>
    simp only [Socks5Driver.advance, hr]
    refine ⟨?_, ?_⟩
    · intro hwf
      obtain ⟨r, hr', -⟩ := proxySocks5ParseReply_wellFormed hwf
      rw [hr] at hr'
      cases hr'
    · rintro ⟨r, hr', -⟩
      rw [hr] at hr'
      cases hr'
  | some r =>
    have hrefused : Socks5Refused .request got ↔ r.ok = false := by
      simp [Socks5Refused, hr]
    cases hok : r.ok with
    | true =>
      simp only [Socks5Driver.advance, hr, hok, if_true]
      refine ⟨?_, ?_⟩
      · intro hbegun
        exact ⟨hbegun.complete hr, rfl⟩
      · rw [hrefused, hok]
        exact Bool.noConfusion
    | false =>
      simp only [Socks5Driver.advance, hr, hok, Bool.false_eq_true, if_false]
      refine ⟨hrefused.mpr hok, ?_⟩
      intro hbegun
      obtain ⟨r', hr', hok'⟩ := proxySocks5ParseReply_wellFormed (hbegun.complete hr)
      rw [hr] at hr'
      cases hr'
      rw [hok] at hok'
      cases hok'

include hreq hup in
theorem Socks5Driver.advance_fits (phase : Socks5Phase) (got : Str8) :
    (d.advance phase got).Fits p phase got := by
  cases phase with
  | greeting => exact advance_greeting_fits p hreq hup got
  | auth => exact advance_auth_fits p hreq got
  | request => exact advance_request_fits p got

variable (hsize : 262 ≤ d.nbufSize)

include hreq hup hsize in
/-- One read keeps the driver where it should be exactly when the bytes of the step are ones it can tell. -/
theorem socks5Read_at_iff (phase : Socks5Phase) (got data : Str8) :
    (socks5Read d (.waiting phase got) data).1.At (socks5Expected p (.waiting phase got) data) ↔
      Socks5Told p d.nbufSize phase (got ++ data) := by
  simp only [socks5Read, socks5Expected, Socks5Told, ← List.length_append]
  generalize got ++ data = all
  have hbegun : Socks5WellFormed p phase all → Socks5Begun p phase all := Socks5WellFormed.begun
  have hfits := Socks5Driver.advance_fits p hreq hup phase all
  split
  · -- more than a well-formed reply can have
    rename_i hover
    have hnot : ¬ Socks5Begun p phase all := by
      intro h
      have hlen := h.length_le
      omega
    simp [hover, hnot, mt hbegun hnot, Socks5State.At]
  · rename_i hfit
    cases hadv : d.advance phase all with
    | wait =>
      rw [hadv] at hfits
      obtain ⟨hwf, hrefused⟩ := hfits
      by_cases hb : Socks5Begun p phase all <;>
        simp [hwf, hrefused, hfit, hb, Socks5State.At]
    | send phase' out | ready reply =>
      rw [hadv] at hfits
      obtain ⟨hgo, hrefused⟩ := hfits
      by_cases hb : Socks5Begun p phase all
      · obtain ⟨hwf, hnext⟩ := hgo hb
        simp [hwf, hnext, hb, Socks5State.At]
      · simp [hb, mt hbegun hb, hrefused, hfit, Socks5State.At]
    | fail why =>
      rw [hadv] at hfits
      obtain ⟨hrefused, hb⟩ := hfits
      simp [hb, mt hbegun hb, hrefused, Socks5State.At]

/-- A read that comes in while the negotiation is open leaves bytes of the step that the driver can tell. -/
def Socks5Clear (p : ProxyConfig) (nbufSize : Nat) : Socks5Stand → Str8 → Prop
  | .waiting phase got, data => Socks5Told p nbufSize phase (got ++ data)
  | _, _ => True

include hreq hup hsize in
theorem socks5Read_clear_iff (s : Socks5State) (t : Socks5Stand) (data : Str8) (hat : s.At t) :
    (socks5Read d s data).1.At (socks5Expected p t data) ↔ Socks5Clear p d.nbufSize t data := by
  cases s with
  | waiting phase got =>
    obtain rfl : t = .waiting phase got := hat
    exact socks5Read_at_iff p hreq hup hsize phase got data
  | ready reply =>
    obtain rfl : t = .ready := hat
    exact iff_of_true rfl trivial
  | failed why =>
    obtain rfl : t = .failed := hat
    exact iff_of_true rfl trivial

/-- Where a negotiation should be after these reads. -/
noncomputable def socks5Stand (p : ProxyConfig) (reads : List Str8) : Socks5Stand :=
  reads.foldl (socks5Expected p) (.waiting .greeting [])

/-- After every read so far the driver has been where it should be. -/
def Socks5Exact (d : Socks5Driver) (p : ProxyConfig) (reads : List Str8) : Prop :=
  ∀ pre, pre <+: reads → (socks5Negotiate d pre).At (socks5Stand p pre)

/-- Every read leaves bytes that the driver can tell. -/
def Socks5AllTold (p : ProxyConfig) (nbufSize : Nat) (reads : List Str8) : Prop :=
  ∀ pre data, pre ++ [data] <+: reads → Socks5Clear p nbufSize (socks5Stand p pre) data

include hreq hup hsize in
theorem socks5Negotiate_exact_iff (reads : List Str8) :
    Socks5Exact d p reads ↔ Socks5AllTold p d.nbufSize reads :=
  Feed.run_related_iff (s := .waiting .greeting []) (socks5Read_clear_iff p hreq hup hsize) rfl reads

end

/-! ## The two drivers -/

theorem proxySocks5Userpass_ne_nil (huser : p.user.length < 128) (hpass : p.pass.length < 128) :
    proxySocks5Userpass p 520 ≠ [] := by
  unfold proxySocks5Userpass
  rw [if_neg (by omega)]
  simp

theorem proxySocks5ConnectRequest_ne_nil {host : Str8} (hhost : host.length < 256) (port : Nat) :
    proxySocks5ConnectRequest host port 300 ≠ [] := by
  unfold proxySocks5ConnectRequest
  rw [if_neg (by omega)]
  simp

/-- **The negotiation.** For a host, a user and a password that fit the arrays they are kept in, both drivers
    are where they should be after every read exactly when every read leaves bytes that they can tell. -/
theorem socks5_negotiation_iff (p : ProxyConfig) (host : Str8) (port : Nat) (hhost : host.length < 256)
    (huser : p.user.length < 128) (hpass : p.pass.length < 128) (reads : List Str8) :
    (Socks5Exact (connSocks5 p host port) p reads ↔ Socks5AllTold p 2048 reads) ∧
      (Socks5Exact (quicSocks5 p) p reads ↔ Socks5AllTold p 512 reads) := by
  have hup := proxySocks5Userpass_ne_nil huser hpass
  refine ⟨?_, ?_⟩
  · have hreq := proxySocks5ConnectRequest_ne_nil hhost port
    have hsize : 262 ≤ (connSocks5 p host port).nbufSize := by simp [connSocks5]
    exact socks5Negotiate_exact_iff p hreq hup hsize reads
  · have hreq : (quicSocks5 p).request ≠ [] := by simp [quicSocks5, proxySocks5UdpAssociateRequest]
    have hsize : 262 ≤ (quicSocks5 p).nbufSize := by simp [quicSocks5]
    exact socks5Negotiate_exact_iff p hreq hup hsize reads

/-- A proxy that asks for the credentials and binds a name, in reads that cut its replies. -/
theorem socks5_negotiation_iff_cut :
    let p : ProxyConfig := { type := .socks5, user := lit "user", pass := lit "secret" }
    let reads : List Str8 := [[5], [2], [1, 0], [5, 0, 0, 3, 1, 104, 4], [56]]
    (Socks5Exact (connSocks5 p (lit "example.com") 443) p reads ↔ Socks5AllTold p 2048 reads) ∧
      (Socks5Exact (quicSocks5 p) p reads ↔ Socks5AllTold p 512 reads) :=
  socks5_negotiation_iff _ (lit "example.com") 443 (by decide) (by decide) (by decide) _

/-- A method selection of version 4 is taken for an answer, and a reply with an address type that does not
    exist is waited on. -/
theorem socks5_malformed_taken :
    ¬ Socks5Exact (connSocks5 { type := .socks5 } (lit "example.com") 443) { type := .socks5 } [[4, 0]] ∧
      ¬ Socks5Exact (quicSocks5 { type := .socks5 }) { type := .socks5 } [[5, 0], [5, 0, 0, 9]] := by
  refine ⟨?_, ?_⟩
  · intro h
    have hnot : ¬ Socks5Begun { type := .socks5 } .greeting [4, 0] := by
      rintro ⟨r, hr, hpre⟩
      cases hr
      simp at hpre
    have hend := h [[4, 0]] (List.prefix_refl _)
    have hstand : socks5Stand { type := .socks5 } [[4, 0]] = .failed := by
      simp [socks5Stand, socks5Expected, hnot, mt Socks5WellFormed.begun hnot]
    rw [hstand] at hend
    cases hend
  · intro h
    have hnot : ¬ Socks5Begun { type := .socks5 } .request [5, 0, 0, 9] := by
      rintro ⟨r, hr, hpre⟩
      cases hr with
      | reply haddr => cases haddr <;> simp at hpre
    -- that the first step succeeds as it should is part of `h`
    have hfirst : socks5Stand { type := .socks5 } [[5, 0]] = .waiting .request [] :=
      h [[5, 0]] (by simp)
    have hend := h [[5, 0], [5, 0, 0, 9]] (List.prefix_refl _)
    have hstand : socks5Stand { type := .socks5 } [[5, 0], [5, 0, 0, 9]] = .failed := by
      show socks5Expected _ (socks5Stand { type := .socks5 } [[5, 0]]) [5, 0, 0, 9] = .failed
      rw [hfirst]
      simp [socks5Expected, hnot, mt Socks5WellFormed.begun hnot]
    rw [hstand] at hend
    cases hend

end HolyTls
