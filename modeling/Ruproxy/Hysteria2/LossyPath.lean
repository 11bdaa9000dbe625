/-
  Hysteria2/LossyPath.lean --- reassembly behind a path that loses and reorders frames.

  QUIC datagrams may get lost and overtake each other, but none arrives twice.  A sender cuts
  datagrams into frames as it likes, each datagram under a packet id of its own.  Whatever
  arrives of all these frames, in whatever order, is joined to exactly the datagrams of which
  every frame has arrived, each once.
-/
import Ruproxy.Hysteria2.RoundTrip
import Ruproxy.Hysteria2.Varint

set_option autoImplicit false

namespace Ruproxy.Hysteria2

open Ruproxy.Foundation

/-! ## Keyed lists -/

/-- Lists of keyed values that agree under each key are permutations of each other. -/
theorem perm_of_filter_key {κ α : Type} [DecidableEq κ] [DecidableEq α] {l l' : List (κ × α)}
    (h : ∀ k, (l.filter fun e => e.1 = k).Perm (l'.filter fun e => e.1 = k)) : l.Perm l' := by
  rw [List.perm_iff_count]
  intro e
  have hkey : decide (e.1 = e.1) = true := decide_eq_true rfl
  rw [← @List.count_filter _ _ _ (fun x => decide (x.1 = e.1)) e l hkey,
    ← @List.count_filter _ _ _ (fun x => decide (x.1 = e.1)) e l' hkey]
  exact (h e.1).count_eq e

/-- A filter that keeps one key of a list with distinct keys keeps one element at most. -/
theorem filter_key_of_nodup {κ α : Type} [DecidableEq κ] {key : α → κ} {l : List α}
    (h : (l.map key).Nodup) {a : α} (ha : a ∈ l) : l.filter (fun x => key x = key a) = [a] := by
  induction l with
  | nil => cases ha
  | cons b l ih =>
    rw [List.map_cons, List.nodup_cons] at h
    obtain ⟨hb, hl⟩ := h
    rcases List.mem_cons.mp ha with rfl | ha
    · have hnone : l.filter (fun x => key x = key a) = [] := by
        rw [List.filter_eq_nil_iff]
        intro x hx heq
        exact hb (of_decide_eq_true heq ▸ List.mem_map_of_mem hx)
      rw [List.filter_cons_of_pos (by simp), hnone]
    · have hne : ¬ key b = key a := fun heq => hb (heq ▸ List.mem_map_of_mem ha)
      rw [List.filter_cons_of_neg (by simpa using hne), ih hl ha]

/-! ## Packets -/

/-- The parts that `build_udp_frames` makes of a payload. -/
def replyParts (payload : Bytes) : List Bytes :=
  if payload.length ≤ datagramMaxPayload then [payload] else chunks datagramMaxPayload payload

theorem replyParts_ne_nil (payload : Bytes) : replyParts payload ≠ [] := by
  unfold replyParts
  split
  · exact List.cons_ne_nil _ _
  · rename_i hlong
    have hge := two_le_length_chunks (by decide) (Nat.lt_of_not_le hlong)
    rintro hnil
    rw [hnil] at hge
    cases hge

theorem length_replyParts_le {payload : Bytes} (hlen : payload.length ≤ udpMaxPkt) :
    (replyParts payload).length ≤ 255 := by
  unfold replyParts
  split
  · exact Nat.le_of_ble_eq_true rfl
  · rename_i hlong
    exact (length_chunks_reply (Nat.lt_of_not_le hlong) hlen).2

theorem flatten_replyParts (payload : Bytes) : (replyParts payload).flatten = payload := by
  unfold replyParts
  split
  · exact List.flatten_singleton
  · exact flatten_chunks (by decide) payload

/-- A datagram under a packet id, cut into parts.  Its address text names any host. -/
structure Packet where
  packetId : UInt16
  text : String
  addr : String
  port : UInt16
  split : splitHostPort text = .ok (addr, port)
  short : (asBytes text).length ≤ 2048
  parts : List Bytes
  parts_ne : parts ≠ []
  parts_le : parts.length ≤ 255

namespace Packet

/-- What a sender makes of it. -/
def build (sessionId : UInt32) (p : Packet) : List Bytes :=
  p.parts.zipIdx.map fun (part, i) =>
    buildSingleUdpFrame sessionId p.packetId (UInt8.ofNat i) (UInt8.ofNat p.parts.length) p.text
      part

/-- The frames in what a sender makes of it. -/
def frames (sessionId : UInt32) (p : Packet) : List UdpFrame :=
  partFrames sessionId p.packetId p.addr p.port p.parts

/-- A reply under a packet id, cut as `build_udp_frames` does. -/
def reply (packetId : UInt16) (src : SocketAddr) (payload : Bytes)
    (hlen : payload.length ≤ udpMaxPkt) : Packet where
  packetId := packetId
  text := addrStr src
  addr := src.ip.fmt
  port := src.port
  split := splitHostPort_addrStr src
  short := (addrStr_length_le src).trans (by decide)
  parts := replyParts payload
  parts_ne := replyParts_ne_nil payload
  parts_le := length_replyParts_le hlen

/-- What goes out in the end. -/
def datagram (p : Packet) : Datagram := ⟨target p.addr p.port, p.parts.flatten⟩

/-- Every frame has arrived. -/
def Arrived (sessionId : UInt32) (input : List UdpFrame) (p : Packet) : Prop :=
  ∀ f ∈ p.frames sessionId, f ∈ input

instance (sessionId : UInt32) (input : List UdpFrame) (p : Packet) :
    Decidable (p.Arrived sessionId input) :=
  inferInstanceAs (Decidable (∀ f ∈ _, _))

end Packet

/-- The frames that parse, of the datagrams that arrive. -/
def parsed (datagrams : List Bytes) : List UdpFrame :=
  datagrams.filterMap fun data => (parseUdpFrame data).toOption

variable {sessionId : UInt32}

/-- A text that splits has a colon. -/
theorem length_pos_of_splitHostPort {text addr : String} {port : UInt16}
    (h : splitHostPort text = .ok (addr, port)) : 0 < (asBytes text).length := by
  rw [List.length_pos_iff]
  intro hnil
  have hempty : text = "" := by
    have htext := fromUtf8_asBytes text
    rw [hnil] at htext
    exact (Option.some.inj htext).symm
  rw [hempty] at h
  cases h

/-- The frames of a reply are those of `build_udp_frames`. -/
theorem Packet.build_reply (packetId : UInt16) (src : SocketAddr) {payload : Bytes}
    (hlen : payload.length ≤ udpMaxPkt) :
    (Packet.reply packetId src payload hlen).build sessionId =
      buildUdpFrames sessionId packetId src payload := by
  unfold buildUdpFrames
  show (replyParts payload).zipIdx.map _ = _
  unfold Packet.reply replyParts
  split
  · rfl
  · rfl

theorem Packet.datagram_reply (packetId : UInt16) (src : SocketAddr) {payload : Bytes}
    (hlen : payload.length ≤ udpMaxPkt) :
    (Packet.reply packetId src payload hlen).datagram =
      ⟨target src.ip.fmt src.port, payload⟩ := by
  have hparts : (Packet.reply packetId src payload hlen).parts = replyParts payload := rfl
  rw [Packet.datagram, hparts, flatten_replyParts]
  rfl

/-- Every frame of a packet parses back. -/
theorem Packet.parse_build (p : Packet) :
    (p.build sessionId).map parseUdpFrame = (p.frames sessionId).map .ok := by
  rw [Packet.build, Packet.frames, partFrames, List.map_map, List.map_map]
  refine List.map_congr_left fun part _ => ?_
  have hshort := p.short
  have hnat : (UInt64.ofNat (asBytes p.text).length).toNat = (asBytes p.text).length := by
    rw [UInt64.toNat_ofNat']
    omega
  refine parseUdpFrame_buildSingle _ _ _ _ (length_pos_of_splitHostPort p.split) hshort ?_ p.split
  refine (readVarintBytes_write_iff (by omega) _).mpr ?_
  rw [UInt64.lt_iff_toNat_lt, hnat]
  exact Nat.lt_of_le_of_lt hshort (by decide)

theorem parsed_build (p : Packet) : parsed (p.build sessionId) = p.frames sessionId := by
  have hmap := congrArg (List.filterMap Except.toOption) (@Packet.parse_build sessionId p)
  rw [List.filterMap_map, List.filterMap_map] at hmap
  exact hmap.trans List.filterMap_some

theorem parsed_flatMap_build (packets : List Packet) :
    parsed (packets.flatMap (Packet.build sessionId)) =
      packets.flatMap (Packet.frames sessionId) := by
  rw [parsed, List.filterMap_flatMap]
  exact List.flatMap_congr fun p _ => parsed_build p

theorem parsed_subperm {datagrams sent : List Bytes} (h : datagrams.Subperm sent) :
    (parsed datagrams).Subperm (parsed sent) := by
  obtain ⟨l, hperm, hsub⟩ := h
  exact ⟨parsed l, hperm.filterMap _, hsub.filterMap _⟩

/-! ## One packet -/

theorem Packet.packetId_of_mem {p : Packet} {f : UdpFrame} (h : f ∈ p.frames sessionId) :
    f.packetId = p.packetId := by
  obtain ⟨i, hi, rfl⟩ := mem_partFrames_iff.mp h
  rfl

theorem Packet.sessionId_of_mem {p : Packet} {f : UdpFrame} (h : f ∈ p.frames sessionId) :
    f.sessionId = sessionId := by
  obtain ⟨i, hi, rfl⟩ := mem_partFrames_iff.mp h
  rfl

/-- The frames of a packet are told apart by their fragment ids. -/
theorem Packet.nodup_frames (p : Packet) : (p.frames sessionId).Nodup := by
  refine List.Nodup.of_map (fun f : UdpFrame => f.fragId.toNat) ?_
  rw [Packet.frames, partFrames_fragId_toNat p.parts_le]
  exact List.nodup_range

/-- Some frames of a packet, each once at most, are all of them, or too few. -/
theorem Packet.perm_or_length_lt {p : Packet} {g : List UdpFrame}
    (h : g.Subperm (p.frames sessionId)) :
    (g.Perm (p.frames sessionId) ∧ p.Arrived sessionId g) ∨
      (g.length < (p.frames sessionId).length ∧ ¬ p.Arrived sessionId g) := by
  by_cases harrived : p.Arrived sessionId g
  · have hback := List.subperm_of_subset p.nodup_frames harrived
    exact .inl ⟨h.antisymm hback, harrived⟩
  · refine .inr ⟨?_, harrived⟩
    by_contra hlen
    have hperm := h.perm_of_length_le (Nat.le_of_not_lt hlen)
    exact harrived fun f hf => hperm.mem_iff.mpr hf

/-- The fragments of a datagram announce how many they are. -/
theorem fragTotal_of_mem_partFrames {packetId : UInt16} {addr : String} {port : UInt16}
    {parts : List Bytes} (hparts : parts.length ≤ 255) {f : UdpFrame}
    (h : f ∈ partFrames sessionId packetId addr port parts) :
    f.fragTotal.toNat = parts.length := by
  obtain ⟨i, hi, rfl⟩ := mem_partFrames_iff.mp h
  show (UInt8.ofNat parts.length).toNat = parts.length
  rw [UInt8.toNat_ofNat']
  omega

/-- What a run does with some of the fragments of a datagram: they go out when they are all
there, and wait otherwise. -/
theorem slotRun_partFrames {packetId : UInt16} {addr : String} {port : UInt16}
    {parts : List Bytes} (htwo : 2 ≤ parts.length) (hparts : parts.length ≤ 255)
    {g : List UdpFrame} (hsub : g.Subperm (partFrames sessionId packetId addr port parts)) :
    (g.length < parts.length → (slotRun none g).2 = []) ∧
      (g.Perm (partFrames sessionId packetId addr port parts) →
        (slotRun none g).2 = [⟨target addr port, parts.flatten⟩]) := by
  have htotal : ∀ f ∈ g, f.fragTotal.toNat = parts.length := fun f hf =>
    fragTotal_of_mem_partFrames hparts (hsub.subset hf)
  have hfrag : ∀ f ∈ g, 1 < f.fragTotal := by
    intro f hf
    rw [UInt8.lt_iff_toNat_lt, htotal f hf]
    exact htwo
  constructor
  · intro hlt
    have hopen : IsOpen g := by
      cases g with
      | nil => exact .inl rfl
      | cons f g => exact .inr (hlt.trans_eq (htotal f List.mem_cons_self).symm)
    rw [slotRun_open hfrag hopen]
  · intro hperm
    have hlen : g.length = parts.length := by rw [hperm.length_eq, partFrames_length]
    have hne : g ≠ [] := by
      rintro rfl
      rw [List.length_nil] at hlen
      omega
    rw [slotRun_closed hne hfrag (hlen.trans (groupTotal_of_perm hne hparts hperm).symm),
      groupDatagram_of_perm hparts hne hperm]

/-- What a run does with some of the frames of a packet. -/
theorem Packet.slotRun_subperm {p : Packet} {g : List UdpFrame}
    (h : g.Subperm (p.frames sessionId)) :
    (slotRun none g).2 = if p.Arrived sessionId g then [p.datagram] else [] := by
  have hcases := p.perm_or_length_lt h
  have hpos := List.length_pos_iff.mpr p.parts_ne
  by_cases hone : p.parts.length = 1
  · obtain ⟨part, hpart⟩ := List.length_eq_one_iff.mp hone
    have hframes : p.frames sessionId =
        [⟨sessionId, p.packetId, 0, 1, p.addr, p.port, part⟩] := by
      rw [Packet.frames, hpart]
      rfl
    have hdatagram : p.datagram = ⟨target p.addr p.port, part⟩ := by
      rw [Packet.datagram, hpart, List.flatten_singleton]
    rw [hframes] at hcases
    rcases hcases with ⟨hperm, harrived⟩ | ⟨hlt, hmissing⟩
    · rw [if_pos harrived, List.perm_singleton.mp hperm, slotRun,
        slotStep_single (UInt8.lt_irrefl 1), hdatagram]
      rfl
    · rw [if_neg hmissing, List.length_eq_zero_iff.mp (Nat.lt_one_iff.mp hlt)]
      rfl
  · rw [Packet.frames] at h hcases
    obtain ⟨hwaits, hcloses⟩ := slotRun_partFrames (by omega) p.parts_le h
    rcases hcases with ⟨hperm, harrived⟩ | ⟨hlt, hmissing⟩
    · rw [if_pos harrived, hcloses hperm]
      rfl
    · rw [partFrames_length] at hlt
      rw [if_neg hmissing, hwaits hlt]

/-! ## All of them -/

section Paths

variable {packets : List Packet} {input : List UdpFrame}

theorem packetId_of_mem_flatMap {f : UdpFrame}
    (h : f ∈ packets.flatMap (Packet.frames sessionId)) :
    ∃ p ∈ packets, f.packetId = p.packetId := by
  obtain ⟨p, hp, hf⟩ := List.mem_flatMap.mp h
  exact ⟨p, hp, p.packetId_of_mem hf⟩

/-- Among the frames of all packets, those with the id of one are its own. -/
theorem filter_flatMap_frames (hids : (packets.map Packet.packetId).Nodup) {p : Packet}
    (hp : p ∈ packets) :
    (packets.flatMap (Packet.frames sessionId)).filter (·.packetId = p.packetId) =
      p.frames sessionId := by
  have hother : ∀ q : Packet, (q.frames sessionId).filter (·.packetId = p.packetId) =
      if q.packetId = p.packetId then q.frames sessionId else [] := by
    intro q
    split
    · rename_i heq
      exact List.filter_eq_self.mpr fun f hf => decide_eq_true ((q.packetId_of_mem hf).trans heq)
    · rename_i hne
      refine List.filter_eq_nil_iff.mpr fun f hf heq => hne ?_
      rw [← q.packetId_of_mem hf]
      exact of_decide_eq_true heq
  rw [List.filter_flatMap, List.flatMap_congr fun q _ => hother q]
  have hsplit : packets.flatMap (fun q => if q.packetId = p.packetId then q.frames sessionId
      else []) = (packets.filter fun q => q.packetId = p.packetId).flatMap
        (Packet.frames sessionId) := by
    clear hids hp
    induction packets with
    | nil => rfl
    | cons q packets ih =>
      by_cases heq : q.packetId = p.packetId
      · simp [heq, ih]
      · simp [heq, ih]
  rw [hsplit, filter_key_of_nodup hids hp, List.flatMap_singleton]

/-- **Lossy paths.**  Of the frames of packets with distinct ids, any part that arrives in any
order is joined to the datagrams of the packets that have arrived in whole, each once. -/
theorem relayFrames_subperm (hids : (packets.map Packet.packetId).Nodup)
    (harrive : input.Subperm (packets.flatMap (Packet.frames sessionId))) :
    (relayFrames ∅ input).2.Perm
      ((packets.filter fun p => p.Arrived sessionId input).map fun p =>
        (p.packetId, p.datagram)) := by
  refine perm_of_filter_key fun k => ?_
  obtain ⟨-, houts⟩ := relayFrames_slot k ∅ input
  rw [AList.lookup_empty] at houts
  -- the outputs under an id are told by what goes out
  have hkeyed : (relayFrames ∅ input).2.filter (fun e => e.1 = k) =
      (slotRun none (input.filter (·.packetId = k))).2.map (k, ·) := by
    rw [← houts, List.map_map]
    refine (List.map_id _).symm.trans (List.map_congr_left fun e he => ?_)
    rw [List.mem_filter, decide_eq_true_eq] at he
    exact Prod.ext he.2 rfl
  rw [hkeyed, List.filter_map]
  by_cases hk : ∃ p ∈ packets, p.packetId = k
  · obtain ⟨p, hp, rfl⟩ := hk
    have hown : (input.filter (·.packetId = p.packetId)).Subperm (p.frames sessionId) := by
      rw [← filter_flatMap_frames hids hp]
      exact harrive.filter _
    have harrived : p.Arrived sessionId (input.filter (·.packetId = p.packetId)) ↔
        p.Arrived sessionId input := by
      refine forall₂_congr fun f hf => ?_
      rw [List.mem_filter, decide_eq_true_eq, and_iff_left (p.packetId_of_mem hf)]
    have hkept : (packets.filter fun p => p.Arrived sessionId input).filter
        ((fun e => decide (e.1 = p.packetId)) ∘ fun q => (q.packetId, q.datagram)) =
          if p.Arrived sessionId input then [p] else [] := by
      rw [List.filter_comm]
      have hone := filter_key_of_nodup hids hp
      simp only [Function.comp_def]
      rw [hone]
      split
      · rename_i hyes
        exact List.filter_eq_self.mpr fun q hq => by
          rw [List.mem_singleton.mp hq]
          exact decide_eq_true hyes
      · rename_i hno
        refine List.filter_eq_nil_iff.mpr fun q hq hyes => hno ?_
        rw [← List.mem_singleton.mp hq]
        exact of_decide_eq_true hyes
    rw [p.slotRun_subperm hown, hkept]
    by_cases hwhole : p.Arrived sessionId input
    · rw [if_pos (harrived.mpr hwhole), if_pos hwhole]
      rfl
    · rw [if_neg (harrived.not.mpr hwhole), if_neg hwhole]
      rfl
  · have hnone : input.filter (·.packetId = k) = [] := by
      refine List.filter_eq_nil_iff.mpr fun f hf heq => hk ?_
      obtain ⟨p, hp, hid⟩ := packetId_of_mem_flatMap (harrive.subset hf)
      exact ⟨p, hp, hid.symm.trans (of_decide_eq_true heq)⟩
    have hnone' : (packets.filter fun p => p.Arrived sessionId input).filter
        ((fun e => decide (e.1 = k)) ∘ fun q => (q.packetId, q.datagram)) = [] := by
      refine List.filter_eq_nil_iff.mpr fun p hp heq => hk ?_
      exact ⟨p, (List.mem_filter.mp hp).1, of_decide_eq_true heq⟩
    rw [hnone, hnone']
    rfl

end Paths

end Ruproxy.Hysteria2
