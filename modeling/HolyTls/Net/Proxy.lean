import Mathlib.Tactic
import HolyTls.Base.Base64

/-!
# `Net.Proxy` — the bytes of a proxy negotiation (`src/net/proxy.c`)

What is sent to a proxy and how its replies are read: `CONNECT` over HTTP, and SOCKS5 with its method
selection, its user/password step, its `CONNECT` and its UDP association. A builder yields the empty string
when what it has to write does not fit; a parser yields `none` while the reply is incomplete.
-/

namespace HolyTls

inductive ProxyType
  | none
  | http
  | https
  | socks5
  deriving DecidableEq, Repr

/-- `ProxyConfig`; the C strings up to their NUL. -/
structure ProxyConfig where
  type : ProxyType := .none
  host : Str8 := []
  port : Nat := 0
  user : Str8 := []
  pass : Str8 := []

/-- `proxy_hostport`. -/
def proxyHostport (host : Str8) (port : Nat) : Str8 :=
  if (str8IndexOf host 58).isSome then lit "[" ++ host ++ lit "]:" ++ decimal port
  else host ++ lit ":" ++ decimal port

/-- `proxy_http_connect_request`. -/
def proxyHttpConnectRequest (p : ProxyConfig) (targetHost : Str8) (targetPort : Nat) : Str8 :=
  let hp := proxyHostport targetHost targetPort
  if p.user ≠ [] then
    lit "CONNECT " ++ hp ++ lit " HTTP/1.1\r\nHost: " ++ hp ++ lit "\r\nProxy-Authorization: Basic " ++
      base64Encode (p.user ++ lit ":" ++ p.pass) ++ lit "\r\n\r\n"
  else lit "CONNECT " ++ hp ++ lit " HTTP/1.1\r\nHost: " ++ hp ++ lit "\r\n\r\n"

/-- `proxy_http_response_status`: the status of a complete response. The number is cut to an `int`. -/
def proxyHttpResponseStatus (buf : Str8) : Option Int :=
  (str8Find buf (lit "\r\n\r\n")).map (fun i =>
    let line := str8Prefix buf (i + 4)
    match str8IndexOf line 32 with
    | some sp => (BitVec.ofNat 32 (str8ToU64 (str8TrimLeft (str8Skip line (sp + 1))))).toInt
    | none => 0)

/-! ## SOCKS5 -/

/-- `proxy_socks5_greeting`. -/
def proxySocks5Greeting (p : ProxyConfig) (cap : Nat) : Str8 :=
  let out := if p.user ≠ [] then [5, 2, 0, 2] else [5, 1, 0]
  if cap < out.length then [] else out

/-- `proxy_socks5_parse_method`. -/
def proxySocks5ParseMethod : Str8 → Option UInt8
  | _ :: method :: _ => some method
  | _ => none

/-- `proxy_socks5_userpass`. -/
def proxySocks5Userpass (p : ProxyConfig) (cap : Nat) : Str8 :=
  if p.user.length > 255 ∨ p.pass.length > 255 ∨ cap < 3 + p.user.length + p.pass.length then []
  else 1 :: UInt8.ofNat p.user.length :: p.user ++ UInt8.ofNat p.pass.length :: p.pass

/-- `proxy_socks5_parse_userpass_reply`. -/
def proxySocks5ParseUserpassReply : Str8 → Option Bool
  | _ :: status :: _ => some (status == 0)
  | _ => none

def portBytes (port : Nat) : Str8 := [UInt8.ofNat (port / 256), UInt8.ofNat port]

/-- `proxy_socks5_connect_request`. -/
def proxySocks5ConnectRequest (targetHost : Str8) (targetPort : Nat) (cap : Nat) : Str8 :=
  if targetHost.length > 255 ∨ cap < 4 + 1 + targetHost.length + 2 then []
  else [5, 1, 0, 3, UInt8.ofNat targetHost.length] ++ targetHost ++ portBytes targetPort

/-- The length of the address behind a `VER REP RSV ATYP` or an `RSV RSV FRAG ATYP`; `none` when it is not
    known, or the type is not one. -/
def socks5AddrLen (buf : Str8) : Option Nat :=
  match buf.drop 3 with
  | 1 :: _ => some 4
  | 4 :: _ => some 16
  | 3 :: len :: _ => some (1 + len.toNat)
  | _ => none

/-- What `proxy_socks5_parse_reply` reads from a complete reply. -/
structure Socks5Reply where
  ok : Bool
  atyp : UInt8
  addr : Str8
  port : Nat

/-- `proxy_socks5_parse_reply`. -/
def proxySocks5ParseReply (buf : Str8) : Option Socks5Reply :=
  (socks5AddrLen buf).bind (fun addrLen =>
    let total := 4 + addrLen + 2
    if buf.length < total then none
    else some
      { ok := buf.getD 1 0 == 0, atyp := buf.getD 3 0, addr := buf.drop 4
        port := (buf.getD (total - 2) 0).toNat * 256 + (buf.getD (total - 1) 0).toNat })

/-- `proxy_socks5_udp_associate_request`. -/
def proxySocks5UdpAssociateRequest (cap : Nat) : Str8 :=
  if cap < 10 then [] else [5, 3, 0, 1, 0, 0, 0, 0, 0, 0]

end HolyTls
