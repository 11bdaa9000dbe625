/-
  Wireguard/FlowHeader.lean --- which packets have a flow key.

  `parse_ipv4_flow` reads the ports behind as many words as the header length field says.
  It does not ask whether that length is possible, nor whether the packet is the first
  fragment of its datagram, so the bytes it takes for ports need not be ports.
  `parse_ipv6_flow` has no such packets: its header has one length, and a fragment has
  another next header.
-/
import Ruproxy.Foundation.IpHeader
import Ruproxy.Wireguard.Tables

set_option autoImplicit false

namespace Ruproxy.Wireguard

open Ruproxy.Foundation

/-! ## The key in the headers -/

/-- The flow of a TCP or UDP payload between two hosts. -/
def transportKey (proto : UInt8) (srcIp dstIp : IpAddr) (payload : Bytes) : Option FlowKey :=
  if proto = 6 ∨ proto = 17 then
    (readPorts payload).map fun ports => ⟨proto, ⟨srcIp, ports.1⟩, ⟨dstIp, ports.2⟩⟩
  else none

/-- The flow a packet begins, read off its headers. -/
def headerKey (pkt : Bytes) : Option FlowKey :=
  match Ipv4Header.read pkt with
  | some (h, payload) =>
      if h.fragmentOffset = 0 then
        transportKey h.protocol (.v4 h.source) (.v4 h.destination) payload
      else none
  | none =>
      match Ipv6Header.read pkt with
      | some (h, payload) =>
          transportKey h.nextHeader (.v6 (.ofOctets h.source)) (.v6 (.ofOctets h.destination))
            payload
      | none => none

/-- A fragment of a datagram, but not its first. -/
def LaterFragment (pkt : Bytes) : Prop :=
  ∃ h payload, Ipv4Header.read pkt = some (h, payload) ∧ h.fragmentOffset ≠ 0

/-- An IPv4 packet with a header length below the shortest header. -/
def ImpossibleHeaderLength (pkt : Bytes) : Prop :=
  ∃ b rest, pkt = b :: rest ∧ b.toNat / 16 = 4 ∧ b.toNat % 16 < 5

/-- The key of the packet is the one in its headers, and a packet without a transport header
adds no flow to any actor, whatever tasks follow. -/
structure Genuine (pkt : Bytes) : Prop where
  key : ∀ key, parseFlowKey pkt = some key → headerKey pkt = some key
  noFlow : LaterFragment pkt ∨ ImpossibleHeaderLength pkt →
    ∀ (env : Env) (now : Nat) (tasks : List (Nat × Task)) (a a' : Actor),
      ((a.handle env now (.inbound pkt)).bind fun b => b.performAll tasks) = some a' →
        a.Within a'

/-! ## What the code asks of an IPv4 packet -/

/-- The header length field. -/
def ihl (pkt : Bytes) : Nat := (pkt.getD 0 0).toNat % 16

/-- The fragment offset field. -/
def fragmentOffset (pkt : Bytes) : Nat := (u16OfBe (pkt.getD 6 0) (pkt.getD 7 0)).toNat % 8192

/-- An IPv4 packet of TCP or UDP with four bytes behind the header length. -/
structure Ipv4Transport (pkt : Bytes) : Prop where
  version : (pkt.getD 0 0).toNat / 16 = 4
  length : 20 ≤ pkt.length
  proto : pkt.getD 9 0 = 6 ∨ pkt.getD 9 0 = 17
  ports : ihl pkt * 4 + 4 ≤ pkt.length

/-- Such a packet whose four bytes are not the ports of a flow. -/
structure Misread (pkt : Bytes) : Prop extends Ipv4Transport pkt where
  header : ihl pkt < 5 ∨ fragmentOffset pkt ≠ 0

/-! ## Bytes -/

theorem shiftRight_four_eq {b : UInt8} {n : UInt8} : b >>> 4 = n ↔ b.toNat / 16 = n.toNat := by
  rw [← UInt8.toNat_inj, UInt8.toNat_shiftRight]
  exact Iff.of_eq (congrArg (· = n.toNat) (Nat.shiftRight_eq_div_pow b.toNat 4))

theorem toNat_and_fifteen (b : UInt8) : (b &&& 0x0f).toNat = b.toNat % 16 := by
  rw [UInt8.toNat_and]
  exact Nat.and_two_pow_sub_one_eq_mod b.toNat 4

/-- The four bytes the parsers read are the ports at the front of what follows. -/
theorem slice_map_flowKeyOf (pkt : Bytes) (n : Nat) {proto : UInt8} (srcIp dstIp : IpAddr)
    (hproto : proto = 6 ∨ proto = 17) :
    (slice pkt n 4).map (flowKeyOf proto srcIp dstIp) =
      transportKey proto srcIp dstIp (pkt.drop n) := by
  rw [transportKey, if_pos hproto, slice]
  split
  · rename_i hlen
    have hports : readPorts (pkt.drop n) ≠ none := fun hnone => by
      have hshort := readPorts_eq_none_iff.mp hnone
      rw [List.length_drop] at hshort
      omega
    obtain ⟨⟨p, q⟩, hread⟩ := Option.ne_none_iff_exists'.mp hports
    obtain ⟨rest, hrest⟩ := readPorts_eq_some.mp hread
    have htake : (pkt.drop n).take 4 = u16ToBe p ++ u16ToBe q := by
      rw [hrest]
      rfl
    rw [hread, htake, Option.map_some, Option.map_some]
    exact congrArg some (congrArg₂ (fun p q => FlowKey.mk proto ⟨srcIp, p⟩ ⟨dstIp, q⟩)
      (u16OfBe_toBe p) (u16OfBe_toBe q))
  · rename_i hlen
    have hnone : readPorts (pkt.drop n) = none :=
      readPorts_eq_none_iff.mpr (by rw [List.length_drop]; omega)
    rw [hnone]
    rfl

/-! ## The parsers -/

theorem transportKey_of_not {proto : UInt8} (h : proto ≠ 6 ∧ proto ≠ 17) (srcIp dstIp : IpAddr)
    (payload : Bytes) : transportKey proto srcIp dstIp payload = none :=
  if_neg fun hproto => hproto.elim h.1 h.2

theorem transportKey_of_short {payload : Bytes} (h : payload.length < 4) (proto : UInt8)
    (srcIp dstIp : IpAddr) : transportKey proto srcIp dstIp payload = none := by
  rw [transportKey, readPorts_eq_none_iff.mpr h]
  exact ite_self none

theorem proto_cases {proto : UInt8} (h : ¬ (proto ≠ 6 ∧ proto ≠ 17)) : proto = 6 ∨ proto = 17 :=
  Decidable.or_iff_not_not_and_not.mpr h

/-- What the code takes for the transport header of an IPv4 packet. -/
theorem parseFlowKey_version4 {pkt : Bytes} (hversion : (pkt.getD 0 0).toNat / 16 = 4) :
    parseFlowKey pkt =
      if pkt.length < 20 then none
      else
        transportKey (pkt.getD 9 0) (.v4 (ipv4At pkt 12)) (.v4 (ipv4At pkt 16))
          (pkt.drop (ihl pkt * 4)) := by
  cases pkt with
  | nil => rfl
  | cons b rest =>
    rw [parseFlowKey, if_pos (shiftRight_four_eq.mpr hversion), parseIpv4Flow]
    refine if_congr Iff.rfl rfl ?_
    dsimp only
    split
    · rename_i hproto
      exact (transportKey_of_not hproto _ _ _).symm
    · rename_i hproto
      rw [slice_map_flowKeyOf _ _ _ _ (proto_cases hproto), toNat_and_fifteen]
      rfl

/-- What the code takes for the transport header of an IPv6 packet. -/
theorem parseFlowKey_version6 {pkt : Bytes} (hversion : (pkt.getD 0 0).toNat / 16 = 6) :
    parseFlowKey pkt =
      if pkt.length < 44 then none
      else
        transportKey (pkt.getD 6 0) (.v6 (ipv6FromSlice ((pkt.drop 8).take 16)))
          (.v6 (ipv6FromSlice ((pkt.drop 24).take 16))) (pkt.drop 40) := by
  cases pkt with
  | nil => rfl
  | cons b rest =>
    have hne : ¬ b >>> 4 = 4 := fun h => by
      have hv := (shiftRight_four_eq.mp h).symm.trans hversion
      contradiction
    rw [parseFlowKey, if_neg hne, if_pos (shiftRight_four_eq.mpr hversion), parseIpv6Flow]
    refine if_congr Iff.rfl rfl ?_
    dsimp only
    split
    · rename_i hproto
      exact (transportKey_of_not hproto _ _ _).symm
    · rename_i hproto
      exact slice_map_flowKeyOf _ _ _ _ (proto_cases hproto)

/-- A packet of neither version has no flow. -/
theorem version_of_parseFlowKey {pkt : Bytes} {key : FlowKey} (h : parseFlowKey pkt = some key) :
    (pkt.getD 0 0).toNat / 16 = 4 ∨ (pkt.getD 0 0).toNat / 16 = 6 := by
  unfold parseFlowKey at h
  split at h
  · cases h
  · split at h
    · rename_i hv4
      exact .inl (shiftRight_four_eq.mp hv4)
    · split at h
      · rename_i hv6
        exact .inr (shiftRight_four_eq.mp hv6)
      · cases h

/-! ## Packets with a header -/

theorem ipv6FromSlice_toList (octets : Vector UInt8 16) :
    ipv6FromSlice octets.toList = .ofOctets octets := by
  refine congrArg Ipv6Addr.mk (Vector.ext fun i hi => ?_)
  have hget : ∀ j (hj : j < 16), octets.toList.getD j 0 = octets[j] := by
    intro j hj
    rw [List.getD_eq_getElem _ _ (by rw [octets.length_toList]; exact hj), Vector.getElem_toList]
  simp only [Vector.getElem_ofFn, Nat.mul_comm i 2, hget _ (show 2 * i < 16 by omega),
    hget _ (show 2 * i + 1 < 16 by omega)]

theorem fragmentOffset_ipv4 (h : Ipv4Header) (payload : Bytes) :
    fragmentOffset (h.bytes ++ payload) = h.fragmentOffset :=
  congrArg (fun v : UInt16 => v.toNat % 8192) (u16OfBe_toBe h.flagsAndOffset)

/-- Behind a whole IPv4 header the code reads the ports where the payload begins. -/
theorem parseFlowKey_ipv4 (h : Ipv4Header) (payload : Bytes) :
    parseFlowKey (h.bytes ++ payload) =
      transportKey h.protocol (.v4 h.source) (.v4 h.destination) payload := by
  have hlength := h.length_bytes
  have hwords := h.options_words
  have hle := h.options_le
  have hihl : ihl (h.bytes ++ payload) * 4 = h.bytes.length := by
    rw [ihl, h.toNat_first, hlength]
    omega
  rw [parseFlowKey_version4 (h.version payload),
    if_neg (by rw [List.length_append]; omega), hihl, List.drop_left]
  obtain ⟨s₀, s₁, s₂, s₃, hsrc⟩ := h.source.exists_new
  obtain ⟨d₀, d₁, d₂, d₃, hdst⟩ := h.destination.exists_new
  rw [Ipv4Header.bytes, ← hsrc, ← hdst]
  rfl

/-- Behind an IPv6 header the code reads the ports where the payload begins. -/
theorem parseFlowKey_ipv6 (h : Ipv6Header) (payload : Bytes) :
    parseFlowKey (h.bytes ++ payload) =
      transportKey h.nextHeader (.v6 (.ofOctets h.source)) (.v6 (.ofOctets h.destination))
        payload := by
  obtain ⟨front, hfront, hnext, hpkt⟩ : ∃ front, front.length = 8 ∧
      front.getD 6 0 = h.nextHeader ∧
      h.bytes ++ payload = front ++ (h.source.toList ++ (h.destination.toList ++ payload)) :=
    ⟨u32ToBe (UInt32.ofNat (1610612736 + h.flow)) ++ u16ToBe h.payloadLength ++
      [h.nextHeader, h.hopLimit], rfl, rfl, by simp only [Ipv6Header.bytes, List.append_assoc]⟩
  have hsrc : ((h.bytes ++ payload).drop 8).take 16 = h.source.toList := by
    rw [hpkt, List.drop_left' hfront, List.take_left' h.source.length_toList]
  have hdst : ((h.bytes ++ payload).drop 24).take 16 = h.destination.toList := by
    rw [hpkt, ← List.append_assoc, List.drop_left', List.take_left' h.destination.length_toList]
    rw [List.length_append, hfront, h.source.length_toList]
  rw [parseFlowKey_version6 (h.version payload), hsrc, hdst, List.drop_left' h.length_bytes,
    ipv6FromSlice_toList, ipv6FromSlice_toList, hpkt,
    List.getD_append _ _ _ _ (by rw [hfront]; decide), hnext, ← hpkt, List.length_append,
    h.length_bytes]
  split
  · rename_i hshort
    exact (transportKey_of_short (by omega) _ _ _).symm
  · rfl

/-! ## The reference -/

theorem headerKey_cases {pkt : Bytes} {key : FlowKey} (h : headerKey pkt = some key) :
    (∃ hdr payload, Ipv4Header.read pkt = some (hdr, payload) ∧ hdr.fragmentOffset = 0 ∧
      transportKey hdr.protocol (.v4 hdr.source) (.v4 hdr.destination) payload = some key) ∨
    (∃ hdr payload, Ipv6Header.read pkt = some (hdr, payload) ∧
      transportKey hdr.nextHeader (.v6 (.ofOctets hdr.source)) (.v6 (.ofOctets hdr.destination))
        payload = some key) := by
  unfold headerKey at h
  split at h
  · rename_i hdr payload hread
    split at h
    · rename_i hfirst
      exact .inl ⟨hdr, payload, hread, hfirst, h⟩
    · cases h
  · split at h
    · rename_i hdr payload hread
      exact .inr ⟨hdr, payload, hread, h⟩
    · cases h

/-- A key in the headers is the key of the packet. -/
theorem parseFlowKey_of_headerKey {pkt : Bytes} {key : FlowKey} (h : headerKey pkt = some key) :
    parseFlowKey pkt = some key := by
  rcases headerKey_cases h with ⟨hdr, payload, hread, -, hkey⟩ | ⟨hdr, payload, hread, hkey⟩
  · rw [Ipv4Header.read_eq_some.mp hread, parseFlowKey_ipv4]
    exact hkey
  · rw [Ipv6Header.read_eq_some.mp hread, parseFlowKey_ipv6]
    exact hkey

/-- An IPv4 packet with a key in its headers has a possible header length and is not a later
fragment. -/
theorem header_of_headerKey {pkt : Bytes} {key : FlowKey}
    (hversion : (pkt.getD 0 0).toNat / 16 = 4) (h : headerKey pkt = some key) :
    5 ≤ ihl pkt ∧ fragmentOffset pkt = 0 := by
  rcases headerKey_cases h with ⟨hdr, payload, hread, hfirst, -⟩ | ⟨hdr, payload, hread, -⟩
  · obtain rfl := Ipv4Header.read_eq_some.mp hread
    have hle := hdr.options_le
    rw [ihl, hdr.toNat_first, fragmentOffset_ipv4]
    exact ⟨by omega, hfirst⟩
  · rw [Ipv6Header.read_eq_some.mp hread, hdr.version] at hversion
    contradiction

/-- The bytes the code takes for ports are there. -/
theorem ipv4Transport_of_parseFlowKey {pkt : Bytes} {key : FlowKey}
    (hversion : (pkt.getD 0 0).toNat / 16 = 4) (h : parseFlowKey pkt = some key) :
    Ipv4Transport pkt := by
  rw [parseFlowKey_version4 hversion] at h
  split at h
  · cases h
  rename_i hlen
  have hproto : pkt.getD 9 0 = 6 ∨ pkt.getD 9 0 = 17 :=
    Classical.byContradiction fun hp =>
      Option.some_ne_none key (h.symm.trans (transportKey_of_not (not_or.mp hp) _ _ _))
  have hports : ¬ (pkt.drop (ihl pkt * 4)).length < 4 := fun hshort =>
    Option.some_ne_none key (h.symm.trans (transportKey_of_short hshort _ _ _))
  rw [List.length_drop] at hports
  exact ⟨hversion, Nat.le_of_not_lt hlen, hproto, by omega⟩

/-- The code takes the bytes it finds behind the header length. -/
theorem Ipv4Transport.exists_key {pkt : Bytes} (h : Ipv4Transport pkt) :
    ∃ key, parseFlowKey pkt = some key := by
  have hports := h.ports
  rw [parseFlowKey_version4 h.version, if_neg (Nat.not_lt.mpr h.length), transportKey,
    if_pos h.proto]
  have hread : readPorts (pkt.drop (ihl pkt * 4)) ≠ none := fun hnone => by
    have hshort := readPorts_eq_none_iff.mp hnone
    rw [List.length_drop] at hshort
    omega
  obtain ⟨ports, hread⟩ := Option.ne_none_iff_exists'.mp hread
  exact ⟨_, by rw [hread, Option.map_some]⟩

/-- The key of a packet that is not misread is the one in its headers. -/
theorem headerKey_of_parseFlowKey {pkt : Bytes} {key : FlowKey} (hpkt : ¬ Misread pkt)
    (h : parseFlowKey pkt = some key) : headerKey pkt = some key := by
  rcases version_of_parseFlowKey h with hversion | hversion
  · have htransport := ipv4Transport_of_parseFlowKey hversion h
    have hihl : 5 ≤ ihl pkt := Nat.le_of_not_lt fun hlt => hpkt ⟨htransport, .inl hlt⟩
    obtain ⟨hdr, payload, hread⟩ := Ipv4Header.exists_read hversion hihl
      (Nat.le_trans (Nat.le_add_right _ 4) htransport.ports)
    have hfirst : hdr.fragmentOffset = 0 := by
      by_contra hne
      rw [← fragmentOffset_ipv4 hdr payload, ← Ipv4Header.read_eq_some.mp hread] at hne
      exact hpkt ⟨htransport, .inr hne⟩
    rw [Ipv4Header.read_eq_some.mp hread, parseFlowKey_ipv4] at h
    simp only [headerKey, hread, if_pos hfirst, h]
  · have hlen : 44 ≤ pkt.length := by
      rw [parseFlowKey_version6 hversion] at h
      split at h
      · cases h
      · rename_i hlen
        exact Nat.le_of_not_lt hlen
    have hnone : Ipv4Header.read pkt = none := by
      rcases hread : Ipv4Header.read pkt with _ | ⟨hdr, payload⟩
      · rfl
      · have hv4 := hdr.version payload
        rw [← Ipv4Header.read_eq_some.mp hread, hversion] at hv4
        contradiction
    obtain ⟨hdr, payload, hread⟩ := Ipv6Header.exists_read hversion (Nat.le_trans (by decide) hlen)
    rw [Ipv6Header.read_eq_some.mp hread, parseFlowKey_ipv6] at h
    simp only [headerKey, hnone, hread, h]

/-- A packet without a transport header has no key in its headers. -/
theorem headerKey_eq_none {pkt : Bytes} (hversion : (pkt.getD 0 0).toNat / 16 = 4)
    (h : ihl pkt < 5 ∨ fragmentOffset pkt ≠ 0) : headerKey pkt = none := by
  rcases hkey : headerKey pkt with _ | key
  · rfl
  · obtain ⟨hihl, hoffset⟩ := header_of_headerKey hversion hkey
    exact absurd h (not_or.mpr ⟨Nat.not_lt.mpr hihl, not_not.mpr hoffset⟩)

theorem LaterFragment.headerKey_eq_none {pkt : Bytes} (h : LaterFragment pkt) :
    headerKey pkt = none := by
  obtain ⟨hdr, payload, hread, hne⟩ := h
  obtain rfl := Ipv4Header.read_eq_some.mp hread
  exact Wireguard.headerKey_eq_none (hdr.version payload)
    (.inr (by rw [fragmentOffset_ipv4]; exact hne))

theorem ImpossibleHeaderLength.headerKey_eq_none {pkt : Bytes} (h : ImpossibleHeaderLength pkt) :
    headerKey pkt = none := by
  obtain ⟨b, rest, rfl, hversion, hihl⟩ := h
  exact Wireguard.headerKey_eq_none hversion (.inl hihl)

/-- A packet without a key changes the flows that are there at most. -/
theorem Actor.handle_inbound_within {env : Env} {now : Nat} {tasks : List (Nat × Task)}
    {a a' : Actor} {pkt : Bytes} (hpkt : parseFlowKey pkt = none)
    (h : ((a.handle env now (.inbound pkt)).bind fun b => b.performAll tasks) = some a') :
    a.Within a' := by
  have hensure : a.ensureFlow now env.slot pkt = a := by
    rw [ensureFlow, hpkt]
  rw [Actor.handle, hensure, Option.bind_some] at h
  have htasks := performAll_within h
  exact ⟨htasks.tcp, htasks.udp⟩

/-- **Flow keys.**  A key in the headers is the key of the packet.  Conversely a packet has the
key in its headers, and makes no flow without a transport header, exactly unless its bytes at
an impossible header length or in a later fragment pass for ports. -/
theorem parseFlowKey_genuine_iff (pkt : Bytes) :
    (∀ key, headerKey pkt = some key → parseFlowKey pkt = some key) ∧
      (Genuine pkt ↔ ¬ Misread pkt) := by
  refine ⟨fun key => parseFlowKey_of_headerKey, fun hgenuine hmisread => ?_, fun hpkt => ?_⟩
  · obtain ⟨key, hkey⟩ := hmisread.exists_key
    have hheader := hgenuine.key key hkey
    rw [headerKey_eq_none hmisread.version hmisread.header] at hheader
    cases hheader
  · refine ⟨fun key => headerKey_of_parseFlowKey hpkt, fun hnone env now tasks a a' ha => ?_⟩
    have hheader : headerKey pkt = none :=
      hnone.elim LaterFragment.headerKey_eq_none ImpossibleHeaderLength.headerKey_eq_none
    refine Actor.handle_inbound_within ?_ ha
    rcases hkey : parseFlowKey pkt with _ | key
    · rfl
    · exact absurd (headerKey_of_parseFlowKey hpkt hkey) (by rw [hheader]; exact nofun)

/-! ## A later fragment -/

/-- Four bytes from the middle of a UDP datagram from 10.0.0.2 to 10.0.0.3. -/
def udpFragment : Bytes :=
  [0x45, 0, 0, 24, 0, 1, 0, 185, 64, 17, 0, 0, 10, 0, 0, 2, 10, 0, 0, 3, 0x61, 0x62, 0x63, 0x64]

/-- The flow between the ports the four bytes are taken for. -/
def udpFragmentKey : FlowKey where
  proto := 17
  src := ⟨.v4 (.new 10 0 0 2), 0x6162⟩
  dst := ⟨.v4 (.new 10 0 0 3), 0x6364⟩

/-- Nothing arrives and nothing leaves. -/
def idleEnv : Env where
  slot := 0
  room := true
  effects _ := { state := .listen, acked := 0, received := [], datagrams := [], transmitted := 0 }

/-- The fragment makes a flow in an actor that has none. -/
theorem not_genuine_udpFragment : ¬ ∀ pkt, Genuine pkt := by
  intro hall
  have hlater : LaterFragment udpFragment := ⟨_, _, rfl, by decide⟩
  have hflow : ((Actor.init.handle idleEnv 0 (.inbound udpFragment)).map
      fun a' => a'.udpFlows.keys) = some [udpFragmentKey] := by decide +kernel
  obtain ⟨a', ha, hkeys⟩ := Option.map_eq_some_iff.mp hflow
  have hmem : udpFragmentKey ∈ a'.udpFlows := by
    rw [AList.mem_keys, hkeys]
    exact List.mem_singleton_self _
  have hturn : ((Actor.init.handle idleEnv 0 (.inbound udpFragment)).bind
      fun b => b.performAll []) = some a' := by
    rw [ha]
    rfl
  exact absurd (((hall udpFragment).noFlow (.inl hlater) _ _ _ _ _ hturn).udp _ hmem)
    (AList.notMem_empty _)

end Ruproxy.Wireguard
