/-
  Tunnel/Protocols.lean --- the connections of VLESS, Trojan and SOCKS5.

  `process_vless_stream`, `process` of `trojan/mod.rs` and `handle` of `socks/mod.rs` decode a
  request, connect to its target and `relay`.  They differ in the request and in what they
  answer: VLESS has a response header, Trojan is silent, and SOCKS5 answers each step.  Each
  of them is a tunnel behind the requests that its decoder accepts.

  A VLESS request for UDP is refused behind the decoder, without an answer.
-/
import Ruproxy.Foundation.Tunnel
import Ruproxy.Socks.Handshake
import Ruproxy.Trojan.Request
import Ruproxy.Tunnel.Relay
import Ruproxy.Vless.Request

set_option autoImplicit false

namespace Ruproxy

open Ruproxy.Foundation Ruproxy.Foundation.Tunnel Ruproxy.Address Ruproxy.Tunnel

/-! ## VLESS -/

namespace Vless

/-- `encode_response`, by the bytes that it writes. -/
def encodeResponse : Bytes := [vlessVersion, 0x00]

/-- `process_vless_stream` up to the connection. -/
def processVlessStream (uuid : Vector UInt8 16) (stream : Bytes) :
    Except AddrError (String × Bytes) := do
  let (request, stream) ← decodeRequest stream uuid
  if request.command ≠ cmdTcp then
    throw (.bail ("vless: UDP not supported (cmd=" ++ hexPrefixed request.command ++ ")"))
  else return (request.target, stream)

theorem processVlessStream_eq_ok {uuid : Vector UInt8 16} {s rest : Bytes} {target : String} :
    processVlessStream uuid s = .ok (target, rest) ↔ IsRequest uuid s ⟨cmdTcp, target⟩ rest := by
  constructor
  · intro h
    obtain ⟨⟨⟨command, target'⟩, rest'⟩, hdecode, hrest⟩ := Except.bind_eq_ok.mp h
    dsimp only at hrest
    split at hrest
    · cases hrest
    rename_i hcmd
    rw [not_not] at hcmd
    cases hrest
    rw [← hcmd]
    exact decodeRequest_sound hdecode
  · intro h
    refine Except.bind_eq_ok.mpr ⟨_, decodeRequest_complete h, ?_⟩
    dsimp only
    rw [if_neg (not_not.mpr rfl)]
    rfl

/-- The connections of `vless/listener.rs`. -/
def tunnel (uuid : Vector UInt8 16) : Protocol CopyEvent where
  accept client := ([], (processVlessStream uuid client).toOption)
  connected := encodeResponse
  failed _ := []
  up := copyPump
  down := copyPump

/-- **VLESS tunnels.**  Every connection of a client is a tunnel behind a request for TCP with
the uuid, to the target of that request. -/
theorem vless_tunnels (uuid : Vector UInt8 16) (client : Bytes) (upstream : String → Bytes) :
    Tunnels (tunnel uuid) client upstream fun answers target rest =>
      answers = [] ∧ IsRequest uuid client ⟨cmdTcp, target⟩ rest := by
  refine tunnels_of_accept (fun answers target rest => ?_) upstream
  rw [tunnel, Prod.mk.injEq, Except.toOption_eq_some, processVlessStream_eq_ok,
    eq_comm (a := answers)]

end Vless

/-! ## Trojan -/

namespace Trojan

variable (sha224 : Bytes → Vector UInt8 28)

/-- The connections of `trojan/mod.rs`. -/
def tunnel (password : String) : Protocol CopyEvent where
  accept client := ([], (decodeTrojan sha224 client password).toOption)
  connected := []
  failed _ := []
  up := copyPump
  down := copyPump

/-- **Trojan tunnels.**  Every connection of a client is a tunnel behind the head of a request
with the password and the two bytes behind it. -/
theorem trojan_tunnels (password : String) (client : Bytes) (upstream : String → Bytes) :
    Tunnels (tunnel sha224 password) client upstream fun answers target rest =>
      answers = [] ∧ ∃ head c, client = head ++ (c ++ rest) ∧ c.length = 2 ∧
        IsHead sha224 password head target := by
  refine tunnels_of_accept (fun answers target rest => ?_) upstream
  rw [tunnel, Prod.mk.injEq, Except.toOption_eq_some, decodeTrojan_eq_ok, eq_comm (a := answers)]

end Trojan

/-! ## SOCKS5 -/

namespace Socks

/-- The connections of `socks/mod.rs`. -/
def tunnel (users : List SocksUser) : Protocol CopyEvent where
  accept client := ((handshake users client).written, (handshake users client).result.toOption)
  connected := sendReply repSuccess
  failed _ := sendReply repGeneralFailure
  up := copyPump
  down := copyPump

/-- **SOCKS5 tunnels.**  Every connection of a client is a tunnel behind a handshake with
credentials that decode to those of a user, with the answers to that. -/
theorem socks_tunnels (users : List SocksUser) (client : Bytes) (upstream : String → Bytes) :
    Tunnels (tunnel users) client upstream (IsHandshake SameText users client) := by
  refine tunnels_of_accept (fun answers target rest => ?_) upstream
  rw [tunnel, Prod.mk.injEq, Except.toOption_eq_some, ← handshake_eq_ok]
  exact ⟨fun ⟨hwritten, hresult⟩ => hwritten ▸ hresult ▸ rfl, fun h => h ▸ ⟨rfl, rfl⟩⟩

end Socks

end Ruproxy
