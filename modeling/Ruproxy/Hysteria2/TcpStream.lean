/-
  Hysteria2/TcpStream.lean --- a proxied TCP stream of `hysteria2/proxy.rs`.

  `handle_tcp_bidi` reads the request, `handle_tcp_stream` connects to the target, answers
  with a `write_tcp_response` and forwards in two tasks.  The response carries a message and
  random padding, both with their lengths, so the data behind it can be told from it.
-/
import Ruproxy.Foundation.Tunnel
import Ruproxy.Hysteria2.TcpRequest
import Ruproxy.Tunnel.Protocols

set_option autoImplicit false

namespace Ruproxy.Hysteria2

open Ruproxy.Foundation Ruproxy.Foundation.Tunnel Ruproxy.Address Ruproxy.Tunnel

/-! ## The response -/

/-- `CHARS` of `gen_padding`. -/
def paddingChars : Bytes :=
  asBytes "abcdefghijklmnopqrstuvwxyzABCDEFGHIJKLMNOPQRSTUVWXYZ0123456789"

/-- A result of `gen_padding` in `write_tcp_response`. -/
structure Padding where
  bytes : Bytes
  atLeast : 128 ≤ bytes.length
  below : bytes.length < 1024
  chars : ∀ b ∈ bytes, b ∈ paddingChars

/-- `write_tcp_response`, by the bytes that it writes. -/
def writeTcpResponse (ok : Bool) (message : String) (padding : Padding) : Bytes :=
  (if ok then 0x00 else 0x01) ::
    (Auth.writeVarint (UInt64.ofNat (asBytes message).length) ++ (asBytes message ++
      (Auth.writeVarint (UInt64.ofNat padding.bytes.length) ++ padding.bytes)))

/-- A response with the status `ok` and `message`, and `rest` behind it. -/
def IsTcpResponse (s : Bytes) (ok : Bool) (message : String) (rest : Bytes) : Prop :=
  ∃ l p pad, s = (if ok then 0 else 1) :: (l ++ (asBytes message ++ (p ++ (pad ++ rest)))) ∧
    IsVarint quicExtra l (asBytes message).length ∧ IsVarint quicExtra p pad.length

/-- A response is read in one way. -/
theorem IsTcpResponse.unique {s rest rest' : Bytes} {ok ok' : Bool} {message message' : String}
    (h : IsTcpResponse s ok message rest) (h' : IsTcpResponse s ok' message' rest') :
    ok = ok' ∧ message = message' ∧ rest = rest' := by
  obtain ⟨l, p, pad, rfl, hl, hp⟩ := h
  obtain ⟨l', p', pad', heq, hl', hp'⟩ := h'
  obtain ⟨hstatus, hbody⟩ := List.cons.inj heq
  obtain ⟨hlen, hmessage⟩ := hl.unique hl' hbody
  obtain ⟨hbytes, htail⟩ := List.append_inj hmessage hlen
  obtain ⟨hpad, hrest⟩ := hp.unique hp' htail
  refine ⟨?_, asBytes_injective hbytes, (List.append_inj hrest hpad).2⟩
  cases ok
  · cases ok'
    · rfl
    · cases hstatus
  · cases ok'
    · cases hstatus
    · rfl

theorem isVarint_writeVarint {n : Nat} (h : n < 2 ^ 62) :
    IsVarint quicExtra (Auth.writeVarint (UInt64.ofNat n)) n := by
  have hval : (UInt64.ofNat n).toNat = n := by
    rw [UInt64.toNat_ofNat']
    omega
  obtain ⟨first, more, hwrite, hvarint, -⟩ :=
    @writeVarintBytes_spec (UInt64.ofNat n) (by rwa [hval])
  rw [hval] at hvarint
  rwa [Auth.writeVarint, hwrite]

/-- What is written is a response, whatever the padding is. -/
theorem isTcpResponse_write (ok : Bool) {message : String}
    (h : (asBytes message).length < 2 ^ 62) (padding : Padding) (rest : Bytes) :
    IsTcpResponse (writeTcpResponse ok message padding ++ rest) ok message rest := by
  have hpad := padding.below
  refine ⟨_, _, padding.bytes, ?_, isVarint_writeVarint h, isVarint_writeVarint (by omega)⟩
  simp [writeTcpResponse]

/-! ## The stream -/

/-- `handle_tcp_bidi` up to the connection. -/
def acceptTcp (stream : Bytes) : Option (String × Bytes) :=
  match handleTcpBidi stream with
  | .ok (.tcp target recv) => some (target, recv)
  | _ => none

/-- The buffers of `handle_tcp_stream`. -/
def tcpBufferSize : Nat := 65536

/-- The TCP streams of `hysteria2/proxy.rs`, whose response has this padding. -/
def tunnel (padding : Padding) : Protocol CopyEvent where
  accept client := ([], acceptTcp client)
  connected := writeTcpResponse true "Connected" padding
  failed e := writeTcpResponse false e padding
  up := forwardPump tcpBufferSize (by decide)
  down := forwardPump tcpBufferSize (by decide)

/-- A stream of a client with a request for `target`: what is left behind its padding. -/
def IsTcpStream (client : Bytes) (target : String) (rest : Bytes) : Prop :=
  ∃ frame head n tail, client = frame ++ (head ++ tail) ∧
    IsVarint quicExtra frame frameTypeTcp.toNat ∧ RequestHead head target n ∧ AddrFits target ∧
      rest = if n ≤ 4096 then tail.drop n else tail

theorem acceptTcp_eq_some {client rest : Bytes} {target : String} :
    acceptTcp client = some (target, rest) ↔ IsTcpStream client target rest := by
  have htcp : acceptTcp client = some (target, rest) ↔
      handleTcpBidi client = .ok (.tcp target rest) := by
    unfold acceptTcp
    split
    · rename_i heq
      simp [heq]
    · rename_i hne
      exact iff_of_false nofun fun h => hne _ _ h
  rw [htcp]
  constructor
  · intro h
    obtain ⟨frame, request, rfl, hframe, hrequest⟩ := handleTcpBidi_eq_tcp h
    obtain ⟨head, n, tail, rfl, hhead, hfits, hrest⟩ := readTcpRequest_eq_ok.mp hrequest
    exact ⟨frame, head, n, tail, rfl, hframe, hhead, hfits, hrest⟩
  · rintro ⟨frame, head, n, tail, rfl, hframe, hhead, hfits, hrest⟩
    obtain ⟨frameType, htype, hread⟩ := exists_readStreamVarint hframe (head ++ tail)
    obtain rfl := UInt64.toNat_inj.mp htype
    have hrequest := readTcpRequest_eq_ok.mpr ⟨head, n, tail, rfl, hhead, hfits, hrest⟩
    refine Except.bind_eq_ok.mpr ⟨_, hread, ?_⟩
    dsimp only
    rw [if_pos rfl]
    exact Except.bind_eq_ok.mpr ⟨_, hrequest, rfl⟩

/-- **Hysteria2 tunnels.**  Every TCP stream of a client is a tunnel behind a request.  The
client reads the response in front of the answers of the target in one way, whatever the
padding is, and so it does with the response to a connection that fails. -/
theorem hysteria2_tunnels (padding : Padding) (client : Bytes) (upstream : String → Bytes) :
    (Tunnels (tunnel padding) client upstream fun answers target rest =>
      answers = [] ∧ IsTcpStream client target rest) ∧
    (∀ ok message rest rest', IsTcpResponse ((tunnel padding).connected ++ rest) ok message rest' ↔
      ok = true ∧ message = "Connected" ∧ rest' = rest) ∧
    ∀ e ok message rest', (asBytes e).length < 2 ^ 62 →
      (IsTcpResponse ((tunnel padding).failed e) ok message rest' ↔
        ok = false ∧ message = e ∧ rest' = []) := by
  refine ⟨tunnels_of_accept (fun answers target rest => ?_) upstream,
    fun ok message rest rest' => ?_, fun e ok message rest' hshort => ?_⟩
  · rw [tunnel, Prod.mk.injEq, acceptTcp_eq_some, eq_comm (a := answers)]
  · have hwritten : IsTcpResponse ((tunnel padding).connected ++ rest) true "Connected" rest :=
      isTcpResponse_write true (by decide) padding rest
    constructor
    · exact fun h => h.unique hwritten
    · rintro ⟨rfl, rfl, rfl⟩
      exact hwritten
  · have hwritten := isTcpResponse_write false hshort padding []
    rw [List.append_nil] at hwritten
    constructor
    · exact fun h => h.unique hwritten
    · rintro ⟨rfl, rfl, rfl⟩
      exact hwritten

end Ruproxy.Hysteria2
