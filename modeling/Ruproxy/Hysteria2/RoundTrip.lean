/-
  Hysteria2/RoundTrip.lean --- a fragmented reply reassembles to itself.

  `build_udp_frames` cuts a reply into fragments; a peer that parses them and
  gives each once to `relay_frame` gets the reply back, whatever the order and
  whatever comes in between under other packet ids.
-/
import Ruproxy.Hysteria2.Reassembly

set_option autoImplicit false

namespace Ruproxy.Hysteria2

open Ruproxy.Foundation

/-! ## What the frames of a reply parse to -/

/-- The parsed fragments of a datagram that was cut into `parts`. -/
def partFrames (sessionId : UInt32) (packetId : UInt16) (addr : String) (port : UInt16)
    (parts : List Bytes) : List UdpFrame :=
  parts.zipIdx.map fun (payload, i) =>
    { sessionId, packetId, fragId := UInt8.ofNat i, fragTotal := UInt8.ofNat parts.length,
      addr, port, payload }

/-- The parsed frames of a reply, in the order they are sent. -/
def replyFrames (sessionId : UInt32) (packetId : UInt16) (src : SocketAddr)
    (payload : Bytes) : List UdpFrame :=
  if payload.length ≤ datagramMaxPayload then
    [replyFrame sessionId packetId src 0 1 payload]
  else
    partFrames sessionId packetId src.ip.fmt src.port (chunks datagramMaxPayload payload)

theorem parse_buildUdpFrames (sessionId : UInt32) (packetId : UInt16) (src : SocketAddr)
    (payload : Bytes) :
    (buildUdpFrames sessionId packetId src payload).map parseUdpFrame =
      (replyFrames sessionId packetId src payload).map .ok := by
  unfold buildUdpFrames replyFrames
  split
  · simp [parseUdpFrame_build]
  · simp [partFrames, parseUdpFrame_build, replyFrame]

theorem length_le_of_mem_buildUdpFrames {sessionId : UInt32} {packetId : UInt16}
    {src : SocketAddr} {payload fr : Bytes}
    (h : fr ∈ buildUdpFrames sessionId packetId src payload) : fr.length ≤ 1200 := by
  unfold buildUdpFrames at h
  split at h
  · rename_i hle
    rw [List.mem_singleton.mp h]
    exact buildSingleUdpFrame_length_le _ _ _ _ _ hle
  · obtain ⟨⟨chunk, i⟩, hmem, rfl⟩ := List.mem_map.mp h
    have hchunk : chunk ∈ chunks datagramMaxPayload payload :=
      (List.mem_zipIdx' hmem).2 ▸ List.getElem_mem _
    exact buildSingleUdpFrame_length_le _ _ _ _ _ (length_le_of_mem_chunks hchunk)

theorem mem_replyFrames {sessionId : UInt32} {packetId : UInt16} {src : SocketAddr}
    {payload : Bytes} {f : UdpFrame} (h : f ∈ replyFrames sessionId packetId src payload) :
    f.sessionId = sessionId ∧ f.packetId = packetId ∧ f.addr = src.ip.fmt ∧
      f.port = src.port := by
  unfold replyFrames at h
  split at h
  · obtain rfl := List.mem_singleton.mp h
    exact ⟨rfl, rfl, rfl, rfl⟩
  · obtain ⟨⟨chunk, i⟩, -, rfl⟩ := List.mem_map.mp h
    exact ⟨rfl, rfl, rfl, rfl⟩

/-! ## A complete group goes out as one datagram -/

/-- The fragments of an open group wait in the table. -/
theorem slotRun_open {g : List UdpFrame} (hfrag : ∀ f ∈ g, 1 < f.fragTotal)
    (hg : IsOpen g) : slotRun none g = (groupSlot g, []) := by
  induction g using List.reverseRecOn with
  | nil => rfl
  | append_singleton g f ih =>
    have hlt : (g ++ [f]).length < groupTotal (g ++ [f]) := by
      rcases hg with h | h
      · simp at h
      · exact h
    have hopen : IsOpen g := by
      by_cases hne : g = []
      · exact .inl hne
      · right
        rw [groupTotal_append hne, List.length_append] at hlt
        omega
    have hstep := slotStep_groupSlot hopen (f := f) (hfrag f (by simp))
    rw [if_neg (by omega)] at hstep
    rw [slotRun_append, ih (fun x hx => hfrag x (by simp [hx])) hopen]
    simp only [slotRun, hstep]
    simp [groupSlot]

/-- A group that reaches its announced number goes out as one datagram and leaves
no entry. -/
theorem slotRun_closed {g : List UdpFrame} (hne : g ≠ [])
    (hfrag : ∀ f ∈ g, 1 < f.fragTotal) (hlen : g.length = groupTotal g) :
    slotRun none g = (none, [groupDatagram g]) := by
  obtain ⟨init, last, rfl⟩ := List.eq_nil_or_concat g |>.resolve_left hne
  rw [List.concat_eq_append] at *
  have hopen : IsOpen init := by
    by_cases hinit : init = []
    · exact .inl hinit
    · right
      rw [groupTotal_append hinit, List.length_append, List.length_singleton] at hlen
      omega
  have hstep := slotStep_groupSlot hopen (f := last) (hfrag last (by simp))
  rw [if_pos (by omega)] at hstep
  rw [slotRun_append, slotRun_open (fun x hx => hfrag x (by simp [hx])) hopen]
  simp [slotRun, hstep]

theorem flatMap_range_getElem (parts : List Bytes) :
    (List.range parts.length).flatMap (fun i => parts[i]?.getD []) = parts.flatten := by
  rw [List.flatMap_def]
  refine congrArg List.flatten (List.ext_getElem (by simp) ?_)
  intro i h₁ h₂
  simp [List.getElem?_eq_getElem h₂]

section Parts

variable {sessionId : UInt32} {packetId : UInt16} {addr : String} {port : UInt16}
  {parts : List Bytes}

theorem mem_partFrames_iff {f : UdpFrame} :
    f ∈ partFrames sessionId packetId addr port parts ↔
      ∃ i, ∃ hi : i < parts.length,
        f = ⟨sessionId, packetId, UInt8.ofNat i, UInt8.ofNat parts.length, addr, port,
          parts[i]⟩ := by
  constructor
  · intro hf
    obtain ⟨⟨c, i⟩, hci, hframe⟩ := List.mem_map.mp hf
    obtain ⟨hi, hc⟩ := List.mem_zipIdx' hci
    exact ⟨i, hi, by rw [← hframe, ← hc]⟩
  · rintro ⟨i, hi, rfl⟩
    exact List.mem_map.mpr
      ⟨(parts[i], i), List.mem_zipIdx_iff_getElem?.mpr (by simp [hi]), rfl⟩

@[simp] theorem partFrames_length :
    (partFrames sessionId packetId addr port parts).length = parts.length := by
  simp [partFrames]

theorem partFrames_fragId_toNat (hparts : parts.length ≤ 255) :
    (partFrames sessionId packetId addr port parts).map (·.fragId.toNat) =
      List.range parts.length := by
  refine List.ext_getElem (by simp) ?_
  intro i h₁ h₂
  simp only [List.length_range] at h₂
  simp only [partFrames, List.getElem_map, List.getElem_zipIdx, UInt8.toNat_ofNat',
    List.getElem_range]
  omega

theorem groupTotal_of_perm {g : List UdpFrame} (hne : g ≠ [])
    (hparts : parts.length ≤ 255)
    (hperm : g.Perm (partFrames sessionId packetId addr port parts)) :
    groupTotal g = parts.length := by
  obtain ⟨head, tail, rfl⟩ := List.exists_cons_of_ne_nil hne
  obtain ⟨i, hi, rfl⟩ := mem_partFrames_iff.mp (hperm.mem_iff.mp (List.mem_cons_self ..))
  show (UInt8.ofNat parts.length).toNat = parts.length
  rw [UInt8.toNat_ofNat']
  omega

/-- Whatever the order the fragments came in, slot `i` holds part `i`. -/
theorem groupBuffer_lookup_of_perm {g : List UdpFrame} (hparts : parts.length ≤ 255)
    (hperm : g.Perm (partFrames sessionId packetId addr port parts)) (hne : g ≠ [])
    {i : Nat} (hi : i < parts.length) :
    ((groupBuffer g).frags.lookup (UInt8.ofNat i)).getD [] = parts[i]?.getD [] := by
  obtain ⟨head, tail, rfl⟩ := List.exists_cons_of_ne_nil hne
  rw [groupBuffer, FragBuffer.new_fill_lookup]
  cases hfind : (head :: tail).find? (·.fragId = UInt8.ofNat i) with
  | none =>
    have hpart := hperm.mem_iff.mpr (mem_partFrames_iff.mpr ⟨i, hi, rfl⟩)
    rw [List.find?_eq_none] at hfind
    exact absurd (decide_eq_true rfl) (hfind _ hpart)
  | some x =>
    obtain ⟨k, hk, rfl⟩ :=
      mem_partFrames_iff.mp (hperm.mem_iff.mp (List.mem_of_find?_eq_some hfind))
    have hfound := List.find?_some hfind
    have hid : UInt8.ofNat k = UInt8.ofNat i := of_decide_eq_true hfound
    have := congrArg UInt8.toNat hid
    rw [UInt8.toNat_ofNat', UInt8.toNat_ofNat'] at this
    obtain rfl : k = i := by omega
    simp [hi]

/-- The fragments of a datagram, in any order, are joined to the datagram. -/
theorem groupDatagram_of_perm {g : List UdpFrame} (hparts : parts.length ≤ 255)
    (hne : g ≠ []) (hperm : g.Perm (partFrames sessionId packetId addr port parts)) :
    groupDatagram g = ⟨target addr port, parts.flatten⟩ := by
  have hglen : g.length = parts.length := by
    rw [hperm.length_eq, partFrames_length]
  have hpermIds : (g.map (·.fragId.toNat)).Perm (List.range parts.length) := by
    rw [← partFrames_fragId_toNat hparts]
    exact hperm.map _
  have hnodup : (g.map (·.fragId)).Nodup := by
    refine List.Nodup.of_map UInt8.toNat ?_
    rw [List.map_map]
    exact hpermIds.nodup_iff.mpr List.nodup_range
  have hrange : ∀ f ∈ g, f.fragId.toNat < parts.length := fun f hf =>
    List.mem_range.mp (hpermIds.mem_iff.mp (List.mem_map_of_mem hf))
  obtain ⟨head, tail, rfl⟩ := List.exists_cons_of_ne_nil hne
  obtain ⟨i, hi, hhead⟩ := mem_partFrames_iff.mp (hperm.mem_iff.mp (List.mem_cons_self ..))
  have hids : (groupBuffer (head :: tail)).ids.map UInt8.toNat = List.range parts.length :=
    (ids_eq_range_iff _ _ _ hglen).mpr ⟨hnodup, hrange⟩
  have hjoined : (groupBuffer (head :: tail)).joined = parts.flatten := by
    rw [joined_eq_of_ids hids, ← flatMap_range_getElem]
    exact List.flatMap_congr fun i hi =>
      groupBuffer_lookup_of_perm hparts hperm hne (List.mem_range.mp hi)
  have haddr : (groupBuffer (head :: tail)).addr = addr := by
    rw [groupBuffer, FragBuffer.fill_addr, hhead]
    rfl
  have hport : (groupBuffer (head :: tail)).port = port := by
    rw [groupBuffer, FragBuffer.fill_port, hhead]
    rfl
  rw [groupDatagram, haddr, hport, hjoined]

end Parts

/-- A reply of at most `UDP_MAX_PKT` bytes is cut into two to 255 fragments if it
is cut at all. -/
theorem length_chunks_reply {payload : Bytes} (hlong : datagramMaxPayload < payload.length)
    (hlen : payload.length ≤ udpMaxPkt) :
    2 ≤ (chunks datagramMaxPayload payload).length ∧
      (chunks datagramMaxPayload payload).length ≤ 255 := by
  have hle := length_chunks_le (n := datagramMaxPayload) (by decide) payload
  have hdiv : payload.length / datagramMaxPayload ≤ udpMaxPkt / datagramMaxPayload :=
    Nat.div_le_div_right hlen
  have hnum : udpMaxPkt / datagramMaxPayload = 59 := by decide
  exact ⟨two_le_length_chunks (by decide) hlong, by omega⟩

/-! ## The round trip -/

/-- The text a reply is addressed to splits into the source's address and port. -/
theorem splitHostPort_target (src : SocketAddr) :
    splitHostPort (target src.ip.fmt src.port) = .ok (src.ip.fmt, src.port) := by
  have htext : target src.ip.fmt src.port =
      src.ip.fmt ++ String.singleton ':' ++ dec src.port.toNat := by
    apply String.toList_injective
    simp [target]
  have htrim : trimMatches (fun c => c == '[' || c == ']') src.ip.fmt = src.ip.fmt :=
    trimMatches_eq_self fun c hc =>
      not_isBracket_of_isAddrChar (IpAddr.isAddrChar_of_mem_fmt hc)
  rw [splitHostPort, htext, rsplitOnce_append (colon_notMem_dec _)]
  simp only [htrim, parseU16_dec]

/-- **Fragmentation round trip.**  Every frame built for a reply fits 1200 bytes and
parses back under its session and packet id.  The parsed frames, given once each
to `relay_frame` in any order and between any frames of other packet ids, hand
exactly one datagram to the socket, the reply addressed to its source, and leave
no entry of their packet id. -/
theorem udpFrames_roundTrip (sessionId : UInt32) (packetId : UInt16) (src : SocketAddr)
    (payload : Bytes) (hlen : payload.length ≤ udpMaxPkt) :
    (∀ fr ∈ buildUdpFrames sessionId packetId src payload, fr.length ≤ 1200 ∧
      ∃ f, parseUdpFrame fr = .ok f ∧ f.sessionId = sessionId ∧ f.packetId = packetId) ∧
    splitHostPort (target src.ip.fmt src.port) = .ok (src.ip.fmt, src.port) ∧
    ∀ parsed : List UdpFrame,
      (buildUdpFrames sessionId packetId src payload).map parseUdpFrame = parsed.map .ok →
      ∀ (t : Table UInt16 FragBuffer) (input : List UdpFrame), t.lookup packetId = none →
        (input.filter fun f => f.packetId = packetId).Perm parsed →
        ((relayFrames t input).2.filter (·.1 = packetId)).map (·.2) =
            [⟨target src.ip.fmt src.port, payload⟩] ∧
          (relayFrames t input).1.lookup packetId = none := by
  have hparse := parse_buildUdpFrames sessionId packetId src payload
  refine ⟨?_, splitHostPort_target src, ?_⟩
  · intro fr hfr
    refine ⟨length_le_of_mem_buildUdpFrames hfr, ?_⟩
    have hmem : parseUdpFrame fr ∈
        (replyFrames sessionId packetId src payload).map Except.ok := by
      rw [← hparse]
      exact List.mem_map_of_mem hfr
    obtain ⟨f, hf, hfr⟩ := List.mem_map.mp hmem
    obtain ⟨hsession, hpacket, -, -⟩ := mem_replyFrames hf
    exact ⟨f, hfr.symm, hsession, hpacket⟩
  · intro parsed hparsed t input ht hperm
    have hframes : parsed = replyFrames sessionId packetId src payload := by
      have hinj : Function.Injective (Except.ok : UdpFrame → Except FrameError UdpFrame) :=
        fun a b h => Except.ok.inj h
      exact List.map_injective_iff.mpr hinj (hparsed.symm.trans hparse)
    subst hframes
    obtain ⟨hslot, houts⟩ := relayFrames_slot packetId t input
    rw [houts, hslot, ht]
    by_cases hshort : payload.length ≤ datagramMaxPayload
    · rw [replyFrames, if_pos hshort, List.perm_singleton] at hperm
      have hsingle : ¬ 1 < (replyFrame sessionId packetId src 0 1 payload).fragTotal := by
        simp [replyFrame]
      rw [hperm, slotRun, slotStep_single hsingle]
      exact ⟨rfl, rfl⟩
    · rw [replyFrames, if_neg hshort] at hperm
      obtain ⟨hge, hle⟩ := length_chunks_reply (Nat.lt_of_not_le hshort) hlen
      have hglen := hperm.length_eq
      rw [partFrames_length] at hglen
      have hne : input.filter (fun f => f.packetId = packetId) ≠ [] := by
        intro hnil
        rw [hnil, List.length_nil] at hglen
        omega
      have hfrag : ∀ f ∈ input.filter (fun f => f.packetId = packetId), 1 < f.fragTotal := by
        intro f hf
        obtain ⟨i, hi, rfl⟩ := mem_partFrames_iff.mp (hperm.mem_iff.mp hf)
        rw [UInt8.lt_iff_toNat_lt]
        show 1 < (UInt8.ofNat _).toNat
        rw [UInt8.toNat_ofNat']
        omega
      have hclosed := hglen.trans (groupTotal_of_perm hne hle hperm).symm
      rw [slotRun_closed hne hfrag hclosed, groupDatagram_of_perm hle hne hperm,
        flatten_chunks (by decide)]
      exact ⟨rfl, rfl⟩

/-- A reply of 1500 bytes from port 53 of `192.0.2.1`. -/
def longReply : SocketAddr × Bytes :=
  (⟨.v4 (.new 192 0 2 1), 53⟩, List.replicate 1500 7)

/-- Its two fragments, the last one first and a lone fragment of packet 10 between
them, still go out as the reply. -/
theorem udpFrames_roundTrip_longReply :
    let (src, payload) := longReply
    let stray : UdpFrame := replyFrame 4 10 src 0 2 []
    let input := (replyFrames 4 9 src payload).reverse.intersperse stray
    ((relayFrames ∅ input).2.filter (·.1 = 9)).map (·.2) =
      [⟨target src.ip.fmt src.port, payload⟩] := by
  have hlen : longReply.2.length ≤ udpMaxPkt := by decide +kernel
  have hperm : (((replyFrames 4 9 longReply.1 longReply.2).reverse.intersperse
      (replyFrame 4 10 longReply.1 0 2 [])).filter fun f => f.packetId = 9).Perm
      (replyFrames 4 9 longReply.1 longReply.2) := by
    decide +kernel
  exact ((udpFrames_roundTrip 4 9 longReply.1 longReply.2 hlen).2.2 _
    (parse_buildUdpFrames ..) ∅ _ rfl hperm).1

end Ruproxy.Hysteria2
