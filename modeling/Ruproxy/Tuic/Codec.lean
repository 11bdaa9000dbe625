/-
  Tuic/Codec.lean --- the bytes of a PACKET command.

  The parsers of `Proto` are compared with what is written: an address is parsed from
  the bytes that begin with its `to_bytes`, and from no others.  `handle_datagram` finds
  the payload by encoding the address again, which is therefore where the parser stopped.
-/
import Ruproxy.Foundation.Outcome
import Ruproxy.Tuic.Connection

set_option autoImplicit false

namespace Ruproxy.Tuic

open Ruproxy.Foundation

/-! ## Reads -/

/-- A read takes the bytes that stand in front. -/
theorem read_bind_eq_ok {α : Type} {n : Nat} {r : Bytes}
    {f : Bytes × Bytes → Except IoError α} {a : α} :
    (read n r >>= f) = .ok a ↔ ∃ b rest, b.length = n ∧ b ++ rest = r ∧ f (b, rest) = .ok a := by
  unfold read
  constructor
  · intro h
    split at h
    · rename_i b rest hread
      obtain ⟨hr, hlen⟩ := readExact_eq_some.mp hread
      exact ⟨b, rest, hlen, hr.symm, h⟩
    · cases h
  · rintro ⟨b, rest, hlen, rfl, h⟩
    rw [readExact_append hlen]
    exact h

/-! ## Addresses -/

/-- The length of a domain fits into its byte. -/
def Address.Fits : Address → Prop
  | .domain name _ => (asBytes name).length ≤ 255
  | .none | .socket _ => True

theorem readDomain_eq_ok_iff {len : Nat} {r rest : Bytes} {addr : Address} :
    readDomain len r = .ok (addr, rest) ↔ ∃ name port, (asBytes name).length = len ∧
      asBytes name ++ (u16ToBe port ++ rest) = r ∧ .domain name port = addr := by
  unfold readDomain
  rw [read_bind_eq_ok]
  constructor
  · rintro ⟨b, r', hlen, rfl, h⟩
    dsimp only at h
    split at h
    · rename_i p q name hport hname
      cases h
      have hname := fromUtf8_eq_some_iff.mp hname
      refine ⟨name, u16OfBe p q, ?_, ?_, rfl⟩
      · rw [← hname, List.length_take]
        omega
      · rw [u16ToBe_ofBe, ← hport, ← hname, ← List.append_assoc, List.take_append_drop]
    · cases h
  · rintro ⟨name, port, rfl, rfl, rfl⟩
    refine ⟨asBytes name ++ u16ToBe port, rest, ?_, List.append_assoc _ _ _, ?_⟩
    · rw [List.length_append, u16ToBe_length]
    · obtain ⟨p, q, hport, hpq⟩ := u16ToBe_append port []
      rw [List.append_nil] at hport
      dsimp only
      rw [List.drop_left, List.take_left, fromUtf8_asBytes, hport]
      dsimp only
      rw [hpq]
      rfl

/-- An address that is parsed is the one that is written. -/
theorem toBytes_of_readAddress {unknown : UInt8 → String} {r rest : Bytes} {addr : Address}
    (h : readAddress unknown r = .ok (addr, rest)) :
    addr.Fits ∧ addr.toBytes ++ rest = r := by
  unfold readAddress at h
  obtain ⟨b, r', hlen, rfl, htype⟩ := read_bind_eq_ok.mp h
  clear h
  obtain ⟨t, rfl⟩ := List.length_eq_one_iff.mp hlen
  dsimp only at htype
  split at htype
  · rename_i ht
    cases htype
    exact ⟨trivial, by rw [ht]; rfl⟩
  split at htype
  · rename_i ht
    obtain ⟨b, r, hlen, rfl, hdomain⟩ := read_bind_eq_ok.mp htype
    clear htype
    obtain ⟨l, rfl⟩ := List.length_eq_one_iff.mp hlen
    obtain ⟨name, port, hname, hr, rfl⟩ := readDomain_eq_ok_iff.mp hdomain
    change asBytes name ++ (u16ToBe port ++ rest) = r at hr
    rw [List.headD_cons] at hname
    have hl := l.toNat_lt
    refine ⟨show (asBytes name).length ≤ 255 by omega, ?_⟩
    rw [Address.toBytes, hname, UInt8.ofNat_toNat, ht, ← hr]
    simp
  split at htype
  · rename_i ht
    obtain ⟨b, r, hlen, rfl, hip⟩ := read_bind_eq_ok.mp htype
    clear htype
    dsimp only at hip
    split at hip
    · cases hip
      refine ⟨trivial, ?_⟩
      rw [Address.toBytes, u16ToBe_ofBe, ht]
      rfl
    · cases hip
  split at htype
  · rename_i ht
    obtain ⟨b, r, hlen, rfl, hip⟩ := read_bind_eq_ok.mp htype
    clear htype
    dsimp only at hip
    split at hip
    · cases hip
      refine ⟨trivial, ?_⟩
      rw [Address.toBytes, ht]
      simp [Ipv6Addr.new, u16ToBe_ofBe]
    · cases hip
  · cases htype

/-- What is written is parsed. -/
theorem readAddress_toBytes (unknown : UInt8 → String) {addr : Address} (hfits : addr.Fits)
    (rest : Bytes) : readAddress unknown (addr.toBytes ++ rest) = .ok (addr, rest) := by
  have hread : ∀ (x : UInt8) (r : Bytes), read 1 (x :: r) = .ok ([x], r) := fun x r => by
    simp [read, readExact]
  unfold readAddress
  cases addr with
  | none =>
    rw [Address.toBytes, List.cons_append, List.nil_append, hread]
    rfl
  | domain name port =>
    have hlen : (UInt8.ofNat (asBytes name).length).toNat = (asBytes name).length := by
      rw [UInt8.toNat_ofNat']
      exact Nat.mod_eq_of_lt (Nat.lt_succ_of_le hfits)
    rw [Address.toBytes, List.cons_append, List.cons_append, List.cons_append, hread]
    refine Except.bind_eq_ok.mpr ⟨_, rfl, ?_⟩
    dsimp only
    rw [if_neg (by decide), if_pos rfl, List.cons_append, hread]
    refine readDomain_eq_ok_iff.mpr ⟨name, port, ?_, ?_, rfl⟩
    · rw [List.headD_cons, hlen]
    · rw [List.append_assoc]
  | socket sa =>
    obtain ⟨ip, port⟩ := sa
    obtain ⟨p, q, hport, rfl⟩ := u16ToBe_append port rest
    cases ip with
    | v4 ip =>
      obtain ⟨a, b, c, d, rfl⟩ := ip.exists_new
      rw [Address.toBytes, List.cons_append, List.cons_append, hread]
      refine Except.bind_eq_ok.mpr ⟨_, rfl, ?_⟩
      dsimp only
      rw [if_neg (by decide), if_neg (by decide), if_pos rfl, List.append_assoc, hport]
      rfl
    | v6 ip =>
      obtain ⟨a, b, c, d, e, f, g, h, rfl⟩ := ip.exists_new
      rw [Address.toBytes, List.cons_append, List.cons_append, hread]
      refine Except.bind_eq_ok.mpr ⟨_, rfl, ?_⟩
      dsimp only
      rw [if_neg (by decide), if_neg (by decide), if_neg (by decide), if_pos rfl,
        List.append_assoc, hport]
      refine read_bind_eq_ok.mpr ⟨(Ipv6Addr.new a b c d e f g h).segments.toList.flatMap u16ToBe ++
        [p, q], rest, rfl, by simp, ?_⟩
      simp only [Ipv6Addr.new, u16ToBe, Vector.toList_mk, List.flatMap_cons, List.flatMap_nil,
        List.cons_append, List.nil_append, u16OfBe_toBe]
      rfl

/-- **Addresses.**  An address is parsed from the bytes that begin with its encoding. -/
theorem readAddress_eq_ok_iff {unknown : UInt8 → String} {r rest : Bytes} {addr : Address} :
    readAddress unknown r = .ok (addr, rest) ↔ addr.Fits ∧ addr.toBytes ++ rest = r := by
  constructor
  · exact toBytes_of_readAddress
  · rintro ⟨hfits, rfl⟩
    exact readAddress_toBytes unknown hfits rest

/-! ## Commands -/

/-- A PACKET command behind its version and type. -/
def PacketInfo.body (info : PacketInfo) : Bytes :=
  u16ToBe info.assocId ++ (u16ToBe info.pktId ++ (info.fragTotal :: info.fragId ::
    (u16ToBe info.size ++ info.addr.toBytes)))

/-- A PACKET command. -/
def PacketInfo.toBytes (info : PacketInfo) : Bytes := version :: cmdPacket :: info.body

theorem PacketInfo.length_toBytes (info : PacketInfo) :
    info.toBytes.length = 2 + 8 + info.addr.toBytes.length := by
  simp only [PacketInfo.toBytes, PacketInfo.body, List.length_cons, List.length_append,
    u16ToBe_length]
  omega

theorem buildPacketHeader_eq (assocId pktId : UInt16) (addr : Address) (payloadLen : UInt16) :
    buildPacketHeader assocId pktId addr payloadLen =
      PacketInfo.toBytes ⟨assocId, pktId, 1, 0, payloadLen, addr⟩ := by
  simp [buildPacketHeader, PacketInfo.toBytes, PacketInfo.body]

/-- The body of a PACKET command is parsed from the bytes that begin with it. -/
theorem readPacketInfo_eq_ok_iff {unknown : UInt8 → String} {r rest : Bytes} {cmd : Command} :
    readPacketInfo (readAddress unknown) r = .ok (cmd, rest) ↔
      ∃ info : PacketInfo, info.addr.Fits ∧ info.body ++ rest = r ∧ .packet info = cmd := by
  unfold readPacketInfo
  rw [read_bind_eq_ok]
  constructor
  · rintro ⟨b, r', -, rfl, h⟩
    dsimp only at h
    split at h
    · rename_i a0 a1 p0 p1 fragTotal fragId s0 s1
      obtain ⟨⟨addr, r'⟩, haddr, h⟩ := Except.bind_eq_ok.mp h
      cases h
      obtain ⟨hfits, rfl⟩ := readAddress_eq_ok_iff.mp haddr
      refine ⟨_, hfits, ?_, rfl⟩
      simp [PacketInfo.body, u16ToBe_ofBe]
    · cases h
  · rintro ⟨info, hfits, rfl, rfl⟩
    obtain ⟨a0, a1, hassoc, ha⟩ := u16ToBe_append info.assocId []
    obtain ⟨p0, p1, hpkt, hp⟩ := u16ToBe_append info.pktId []
    obtain ⟨s0, s1, hsize, hs⟩ := u16ToBe_append info.size []
    rw [List.append_nil] at hassoc hpkt hsize
    refine ⟨[a0, a1, p0, p1, info.fragTotal, info.fragId, s0, s1], info.addr.toBytes ++ rest,
      rfl, ?_, ?_⟩
    · simp [PacketInfo.body, hassoc, hpkt, hsize]
    · refine Except.bind_eq_ok.mpr ⟨(info.addr, rest), readAddress_toBytes unknown hfits rest, ?_⟩
      rw [ha, hp, hs]
      rfl

theorem readAuthInfo_ne_packet {r rest : Bytes} {info : PacketInfo} :
    readAuthInfo r ≠ .ok (.packet info, rest) := by
  intro h
  obtain ⟨buf, r', -, -, h⟩ := read_bind_eq_ok.mp h
  cases h

theorem readDissociate_ne_packet {r rest : Bytes} {info : PacketInfo} :
    readDissociate r ≠ .ok (.packet info, rest) := by
  intro h
  obtain ⟨buf, r', -, -, h⟩ := read_bind_eq_ok.mp h
  dsimp only at h
  split at h
  · cases h
  · cases h

/-- **Datagrams.**  A PACKET command is parsed from the datagrams that begin with it. -/
theorem readFromSync_packet_iff {data rest : Bytes} {info : PacketInfo} :
    readFromSync data = .ok (.packet info, rest) ↔
      info.addr.Fits ∧ info.toBytes ++ rest = data := by
  unfold readFromSync
  rw [read_bind_eq_ok]
  constructor
  · rintro ⟨hdr, r, -, rfl, h⟩
    dsimp only at h
    split at h
    · rename_i ver cmd
      split at h
      · cases h
      rename_i hver
      split at h
      · exact absurd h readAuthInfo_ne_packet
      split at h
      · rename_i hcmd
        obtain ⟨info', hfits, rfl, hinfo⟩ := readPacketInfo_eq_ok_iff.mp h
        cases hinfo
        exact ⟨hfits, by rw [not_not.mp hver, hcmd]; rfl⟩
      split at h
      · cases h
      split at h
      · exact absurd h readDissociate_ne_packet
      · cases h
    · cases h
  · rintro ⟨hfits, rfl⟩
    refine ⟨[version, cmdPacket], info.body ++ rest, rfl, rfl, ?_⟩
    exact readPacketInfo_eq_ok_iff.mpr ⟨info, hfits, rfl, rfl⟩

/-- **Streams.**  A PACKET command is parsed from the streams that begin with it. -/
theorem parseCommandWithPrefix_packet_iff {ver cmd : UInt8} {recv rest : Bytes}
    {info : PacketInfo} : parseCommandWithPrefix ver cmd recv = .ok (.packet info, rest) ↔
      info.addr.Fits ∧ info.toBytes ++ rest = ver :: cmd :: recv := by
  unfold parseCommandWithPrefix
  constructor
  · intro h
    split at h
    · cases h
    rename_i hver
    split at h
    · exact absurd (Except.mapError_eq_ok.mp h) readAuthInfo_ne_packet
    split at h
    · have h := Except.mapError_eq_ok.mp h
      cases hread : Address.readFrom recv with
      | error e => rw [hread] at h; cases h
      | ok r => rw [hread] at h; cases h
    split at h
    · rename_i hcmd
      obtain ⟨info', hfits, rfl, hinfo⟩ := readPacketInfo_eq_ok_iff.mp (Except.mapError_eq_ok.mp h)
      cases hinfo
      exact ⟨hfits, by rw [not_not.mp hver, hcmd]; rfl⟩
    split at h
    · exact absurd (Except.mapError_eq_ok.mp h) readDissociate_ne_packet
    split at h
    · cases h
    · cases h
  · rintro ⟨hfits, hbytes⟩
    obtain ⟨hver, hbytes⟩ := List.cons.inj hbytes
    obtain ⟨hcmd, hrecv⟩ := List.cons.inj hbytes
    rw [← hver, ← hcmd, ← hrecv]
    refine Except.mapError_eq_ok.mpr ?_
    exact readPacketInfo_eq_ok_iff.mpr ⟨info, hfits, rfl, rfl⟩

theorem readFromDatagram_packet_iff {data : Bytes} {info : PacketInfo} :
    readFromDatagram data = .ok (.packet info) ↔
      info.addr.Fits ∧ info.toBytes <+: data := by
  have hmap : readFromDatagram data = .ok (.packet info) ↔
      ∃ rest, readFromSync data = .ok (.packet info, rest) := by
    unfold readFromDatagram
    cases readFromSync data with
    | error e => simp [Except.map]
    | ok r =>
      obtain ⟨cmd, rest⟩ := r
      simp [Except.map]
  rw [hmap]
  constructor
  · rintro ⟨rest, h⟩
    obtain ⟨hfits, hdata⟩ := readFromSync_packet_iff.mp h
    exact ⟨hfits, rest, hdata⟩
  · rintro ⟨hfits, rest, hdata⟩
    exact ⟨rest, readFromSync_packet_iff.mpr ⟨hfits, hdata⟩⟩

/-- `handle_datagram` hands on what the parser left. -/
theorem pass_datagram (s : Connection) (t : TaskId) {data rest : Bytes} {info : PacketInfo}
    (h : readFromSync data = .ok (.packet info, rest)) :
    s.pass t (.datagram data) = s.setTask t (.packet info rest .native) := by
  obtain ⟨hfits, rfl⟩ := readFromSync_packet_iff.mp h
  have hlen : ¬ (info.toBytes ++ rest).length < 2 + 8 + info.addr.toBytes.length := by
    rw [← info.length_toBytes, List.length_append]
    omega
  have hread := readFromDatagram_packet_iff.mpr ⟨hfits, List.prefix_append info.toBytes rest⟩
  unfold Connection.pass
  simp only [hread]
  rw [if_neg hlen, ← info.length_toBytes, List.drop_left]

/-- **The codec.**  A header that is built is parsed back in front of any payload; and a
datagram that is parsed as a packet begins with the header of the packet, which ends where
the parser stopped and where the payload is taken. -/
theorem packet_codec :
    (∀ (assocId pktId : UInt16) (addr : Address) (payload : Bytes) (size : UInt16), addr.Fits →
      readFromDatagram (buildPacketHeader assocId pktId addr size ++ payload) =
        .ok (.packet ⟨assocId, pktId, 1, 0, size, addr⟩)) ∧
    (∀ (data rest : Bytes) (info : PacketInfo), readFromSync data = .ok (.packet info, rest) →
      2 + 8 + info.addr.toBytes.length + rest.length = data.length ∧
      (data.drop 10).take info.addr.toBytes.length = info.addr.toBytes ∧
      ∀ (s : Connection) (t : TaskId),
        s.pass t (.datagram data) = s.setTask t (.packet info rest .native)) := by
  constructor
  · intro assocId pktId addr payload size hfits
    rw [buildPacketHeader_eq]
    exact readFromDatagram_packet_iff.mpr ⟨hfits, List.prefix_append _ _⟩
  · intro data rest info h
    refine ⟨?_, ?_, fun s t => pass_datagram s t h⟩
    all_goals obtain ⟨-, rfl⟩ := readFromSync_packet_iff.mp h
    · rw [List.length_append, info.length_toBytes]
    · have hdrop : (info.toBytes ++ rest).drop 10 = info.addr.toBytes ++ rest := by
        simp [PacketInfo.toBytes, PacketInfo.body, u16ToBe]
      rw [hdrop, List.take_left]

theorem packet_codec_reply :
    readFromDatagram (buildPacketHeader 7 9 (.domain "a" 53) 1 ++ [0]) =
      .ok (.packet ⟨7, 9, 1, 0, 1, .domain "a" 53⟩) ∧
    (PacketInfo.toBytes ⟨7, 9, 1, 0, 1, .domain "a" 53⟩ ++ [0]).length = 16 :=
  ⟨packet_codec.1 7 9 (.domain "a" 53) [0] 1 (show (asBytes "a").length ≤ 255 by decide),
    (packet_codec.2 _ [0] ⟨7, 9, 1, 0, 1, .domain "a" 53⟩ (by decide +kernel)).1.symm⟩

end Ruproxy.Tuic
