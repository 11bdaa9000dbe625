/-
  Hysteria2/TcpRequest.lean --- the request in front of a proxied TCP stream.

  `read_tcp_request` reads the address with its length and the length of the padding.  It
  takes the padding off the stream only if there are at most 4096 bytes of it, and does not
  look at whether they were all there.  What is left of the stream goes to the target.
-/
import Ruproxy.Address.Grammar
import Ruproxy.Hysteria2.Varint

set_option autoImplicit false

namespace Ruproxy.Hysteria2

open Ruproxy.Foundation Ruproxy.Address

/-- `FRAME_TYPE_TCP`. -/
def frameTypeTcp : UInt64 := 0x401

/-- `H3_FRAME_SETTINGS`. -/
def h3FrameSettings : UInt64 := 0x4

/-- `H3_FRAME_HEADERS`. -/
def h3FrameHeaders : UInt64 := 0x1

/-- What a `read_exact` whose result is ignored leaves: one that fails has taken what was
there. -/
def discard (n : Nat) (stream : Bytes) : Bytes :=
  match readExact n stream with
  | some r => r.2
  | none => []

/-- `read_tcp_request`. -/
def readTcpRequest (stream : Bytes) : Except AddrError (String × Bytes) := do
  let (addrLen, stream) ← Auth.readVarint stream
  if ¬ (0 < addrLen.toNat ∧ addrLen.toNat ≤ 2048) then
    throw (.bail ("invalid addr_len: " ++ dec addrLen.toNat))
  else do
    let (addrBuf, stream) ← readN addrLen.toNat stream
    let addr ← utf8 addrBuf
    let (padLen, stream) ← Auth.readVarint stream
    if 0 < padLen.toNat ∧ padLen.toNat ≤ 4096 then return (addr, discard padLen.toNat stream)
    else return (addr, stream)

/-- What becomes of a stream. -/
inductive BidiStream where
  /-- `handle_tcp_stream` gets the target and what is left of the stream -/
  | tcp (target : String) (recv : Bytes)
  /-- an H3 frame or one of an unknown type -/
  | ignored
  deriving DecidableEq

/-- `handle_tcp_bidi`. -/
def handleTcpBidi (recv : Bytes) : Except AddrError BidiStream := do
  let (frameType, recv) ← Server.readVarint recv
  if frameType = frameTypeTcp then do
    let (target, recv) ← readTcpRequest recv
    return .tcp target recv
  else if frameType = h3FrameSettings ∨ frameType = h3FrameHeaders then return .ignored
  else return .ignored

/-! ## What is read -/

theorem discard_eq_drop (n : Nat) (s : Bytes) : discard n s = s.drop n := by
  unfold discard readExact
  by_cases h : n ≤ s.length
  · rw [if_pos h]
  · rw [if_neg h, List.drop_of_length_le (Nat.le_of_not_le h)]

/-- The part of a request in front of the padding: the length of the address, the address,
and the length `n` of the padding. -/
def RequestHead (head : Bytes) (addr : String) (n : Nat) : Prop :=
  ∃ l p, head = l ++ asBytes addr ++ p ∧ IsVarint quicExtra l (asBytes addr).length ∧
    IsVarint quicExtra p n

/-- The lengths of an address that are not refused. -/
def AddrFits (addr : String) : Prop := 0 < (asBytes addr).length ∧ (asBytes addr).length ≤ 2048

instance (addr : String) : Decidable (AddrFits addr) :=
  inferInstanceAs (Decidable (0 < (asBytes addr).length ∧ (asBytes addr).length ≤ 2048))

/-- A stream starts with at most one head. -/
theorem RequestHead.unique {head head' tail tail' : Bytes} {addr addr' : String} {n n' : Nat}
    (h : RequestHead head addr n) (h' : RequestHead head' addr' n')
    (heq : head ++ tail = head' ++ tail') : addr = addr' ∧ n = n' ∧ tail = tail' := by
  obtain ⟨l, p, rfl, hl, hp⟩ := h
  obtain ⟨l', p', rfl, hl', hp'⟩ := h'
  simp only [List.append_assoc] at heq
  obtain ⟨hlen, hrest⟩ := hl.unique hl' heq
  obtain ⟨haddr, htail⟩ := List.append_inj hrest hlen
  obtain ⟨hn, hrest⟩ := hp.unique hp' htail
  exact ⟨asBytes_injective haddr, hn, hrest⟩

/-- The end of `read_tcp_request`: up to 4096 bytes are dropped. -/
theorem skipPadding_eq (addr : String) (n : Nat) (tail : Bytes) :
    (if 0 < n ∧ n ≤ 4096 then pure (addr, discard n tail) else pure (addr, tail) :
      Except AddrError (String × Bytes)) =
        .ok (addr, if n ≤ 4096 then tail.drop n else tail) := by
  rcases Nat.eq_zero_or_pos n with rfl | hpos
  · rfl
  · by_cases hmax : n ≤ 4096
    · rw [if_pos ⟨hpos, hmax⟩, if_pos hmax, discard_eq_drop]
      rfl
    · rw [if_neg fun h => hmax h.2, if_neg hmax]
      rfl

/-- The stream behind the head, without the padding if that is not too long. -/
theorem readTcpRequest_eq_ok {s rest : Bytes} {addr : String} :
    readTcpRequest s = .ok (addr, rest) ↔ ∃ head n tail, s = head ++ tail ∧
      RequestHead head addr n ∧ AddrFits addr ∧
        rest = if n ≤ 4096 then tail.drop n else tail := by
  constructor
  · intro h
    obtain ⟨⟨len, s1⟩, hlen, hlenOk⟩ := Except.bind_eq_ok.mp h
    obtain ⟨l, rfl, hl⟩ := readStreamVarint_eq_ok.mp hlen
    dsimp only at hlenOk
    split at hlenOk
    · cases hlenOk
    rename_i hfits
    obtain ⟨⟨buf, s2⟩, hbuf, hbufOk⟩ := Except.bind_eq_ok.mp hlenOk
    obtain ⟨rfl, hbuflen⟩ := readN_eq_ok.mp hbuf
    obtain ⟨d, hd, hutf8Ok⟩ := Except.bind_eq_ok.mp hbufOk
    obtain rfl := utf8_eq_ok.mp hd
    obtain ⟨⟨pad, s3⟩, hpad, hpadOk⟩ := Except.bind_eq_ok.mp hutf8Ok
    obtain ⟨p, rfl, hp⟩ := readStreamVarint_eq_ok.mp hpad
    rw [skipPadding_eq] at hpadOk
    obtain ⟨rfl, rfl⟩ := Prod.mk.inj (Except.ok.inj hpadOk)
    rw [← hbuflen] at hl hfits
    refine ⟨l ++ asBytes d ++ p, pad.toNat, s3, by simp, ⟨l, p, rfl, hl, hp⟩, ?_, rfl⟩
    exact not_not.mp hfits
  · rintro ⟨head, n, tail, rfl, ⟨l, p, rfl, hl, hp⟩, hfits, rfl⟩
    obtain ⟨len, hlen, hreadLen⟩ := exists_readStreamVarint hl (asBytes addr ++ (p ++ tail))
    obtain ⟨pad, rfl, hreadPad⟩ := exists_readStreamVarint hp tail
    have hreadAddr : readN len.toNat (asBytes addr ++ (p ++ tail)) =
        .ok (asBytes addr, p ++ tail) := readN_eq_ok.mpr ⟨rfl, hlen.symm⟩
    have hstream : l ++ asBytes addr ++ p ++ tail = l ++ (asBytes addr ++ (p ++ tail)) := by simp
    rw [hstream]
    refine Except.bind_eq_ok.mpr ⟨_, hreadLen, ?_⟩
    dsimp only
    rw [if_neg (by rw [hlen]; exact not_not.mpr hfits)]
    refine Except.bind_eq_ok.mpr ⟨_, hreadAddr, ?_⟩
    refine Except.bind_eq_ok.mpr ⟨_, utf8_eq_ok.mpr rfl, ?_⟩
    refine Except.bind_eq_ok.mpr ⟨_, hreadPad, ?_⟩
    exact skipPadding_eq addr pad.toNat tail

/-- What a call is to do: if it accepts, it has taken a head and as many bytes of padding as
that says, and nothing more. -/
def RequestFraming (s : Bytes) : Prop :=
  ∀ addr rest, readTcpRequest s = .ok (addr, rest) →
    ∃ head pad, s = head ++ pad ++ rest ∧ RequestHead head addr pad.length

/-- On a stream where the framing is kept, no padding is too long or cut off. -/
theorem RequestFraming.padding_le {head tail : Bytes} {addr : String} {n : Nat}
    (h : RequestFraming (head ++ tail)) (hhead : RequestHead head addr n)
    (hfits : AddrFits addr) : n ≤ 4096 ∧ n ≤ tail.length := by
  obtain ⟨head', pad, heq, hhead'⟩ :=
    h addr _ (readTcpRequest_eq_ok.mpr ⟨head, n, tail, rfl, hhead, hfits, rfl⟩)
  rw [List.append_assoc] at heq
  obtain ⟨-, rfl, htail⟩ := hhead.unique hhead' heq
  have hlen := congrArg List.length htail
  rw [List.length_append] at hlen
  -- without the padding the tail would be shorter than it is
  split at hlen
  · omega
  · omega

/-- **TCP request framing.**  The framing is kept on a stream exactly if each head that it
starts with announces at most 4096 bytes of padding, and these are there. -/
theorem requestFraming_iff (s : Bytes) : RequestFraming s ↔
    ∀ head addr n tail, s = head ++ tail → RequestHead head addr n → AddrFits addr →
      n ≤ 4096 ∧ n ≤ tail.length := by
  constructor
  · rintro h head addr n tail rfl hhead hfits
    exact h.padding_le hhead hfits
  · rintro h addr rest hread
    obtain ⟨head, n, tail, rfl, hhead, hfits, rfl⟩ := readTcpRequest_eq_ok.mp hread
    obtain ⟨hmax, hlen⟩ := h head addr n tail rfl hhead hfits
    refine ⟨head, tail.take n, ?_, ?_⟩
    · rw [if_pos hmax, List.append_assoc, List.take_append_drop]
    · rwa [List.length_take_of_le hlen]

/-- A head for the address `a` with 4097 bytes of padding: the first of them is left in front
of the proxied data. -/
theorem not_requestFraming : ¬ ∀ s, RequestFraming s := by
  intro h
  have hhead : RequestHead [1, 97, 0x50, 0x01] "a" 4097 :=
    ⟨[1], [0x50, 0x01], rfl, ⟨1, [], rfl, rfl, rfl⟩, ⟨0x50, [0x01], rfl, rfl, rfl⟩⟩
  have hle := (h ([1, 97, 0x50, 0x01] ++ [0x41])).padding_le hhead (by decide)
  exact absurd hle.1 (by decide)

/-! ## The stream as a whole -/

/-- A stream with a well-formed request is relayed from the first byte behind the padding. -/
theorem handleTcpBidi_request {frame head pad : Bytes} {addr : String} (proxied : Bytes)
    (hframe : IsVarint quicExtra frame frameTypeTcp.toNat)
    (hhead : RequestHead head addr pad.length) (hfits : AddrFits addr)
    (hmax : pad.length ≤ 4096) :
    handleTcpBidi (frame ++ (head ++ (pad ++ proxied))) = .ok (.tcp addr proxied) := by
  obtain ⟨frameType, htype, hread⟩ := exists_readStreamVarint hframe (head ++ (pad ++ proxied))
  obtain rfl := UInt64.toNat_inj.mp htype
  have hrequest : readTcpRequest (head ++ (pad ++ proxied)) = .ok (addr, proxied) :=
    readTcpRequest_eq_ok.mpr ⟨head, pad.length, _, rfl, hhead, hfits, by
      rw [if_pos hmax, List.drop_left]⟩
  refine Except.bind_eq_ok.mpr ⟨_, hread, ?_⟩
  dsimp only
  rw [if_pos rfl]
  exact Except.bind_eq_ok.mpr ⟨_, hrequest, rfl⟩

/-- What goes to a target is what is left behind a request. -/
theorem handleTcpBidi_eq_tcp {s recv : Bytes} {target : String}
    (h : handleTcpBidi s = .ok (.tcp target recv)) :
    ∃ frame request, s = frame ++ request ∧ IsVarint quicExtra frame frameTypeTcp.toNat ∧
      readTcpRequest request = .ok (target, recv) := by
  obtain ⟨⟨frameType, request⟩, hread, hrest⟩ := Except.bind_eq_ok.mp h
  obtain ⟨frame, rfl, hframe⟩ := readStreamVarint_eq_ok.mp hread
  dsimp only at hrest
  split at hrest
  · rename_i htype
    obtain ⟨⟨target', recv'⟩, hrequest, heq⟩ := Except.bind_eq_ok.mp hrest
    cases heq
    exact ⟨frame, request, rfl, htype ▸ hframe, hrequest⟩
  · split at hrest
    · cases hrest
    · cases hrest

end Ruproxy.Hysteria2
