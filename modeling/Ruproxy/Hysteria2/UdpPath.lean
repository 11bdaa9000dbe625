/-
  Hysteria2/UdpPath.lean --- UDP datagrams through a connection, in both directions.

  A client cuts its datagrams into frames, each under a packet id of its own, and so does a
  session with what comes back to it, in pieces of 1100 bytes.  The frames may get lost and overtake each other on the
  way, and the tasks of the connection run in any order.  What goes out at the other end are
  exactly the datagrams whose frames have all come through.
-/
import Ruproxy.Hysteria2.Routes

set_option autoImplicit false

namespace Ruproxy.Hysteria2

open Ruproxy.Foundation
open Ruproxy.Foundation.Transition

/-! ## Packet ids -/

theorem numbered_packetId (packetId : UInt16) (replies : List (SocketAddr × Bytes)) :
    (numbered packetId replies).map Packet.packetId =
      (List.range replies.length).map fun i => packetId + UInt16.ofNat i := by
  induction replies generalizing packetId with
  | nil => rfl
  | cons reply replies ih =>
    obtain ⟨src, data⟩ := reply
    rw [numbered, List.map_cons, ih, List.length_cons, List.range_succ_eq_map, List.map_cons,
      List.map_map]
    refine congrArg₂ List.cons (UInt16.add_zero packetId).symm (List.map_congr_left fun i _ => ?_)
    rw [Function.comp, Nat.succ_eq_add_one, UInt16.ofNat_add, UInt16.add_assoc,
      UInt16.add_comm 1]
    rfl

/-- What the packets of a session bring are the datagrams that came back. -/
theorem numbered_datagram (packetId : UInt16) (replies : List (SocketAddr × Bytes)) :
    (numbered packetId replies).map Packet.datagram = replies.map fun reply =>
      ⟨target reply.1.ip.fmt reply.1.port, reply.2.take udpMaxPkt⟩ := by
  induction replies generalizing packetId with
  | nil => rfl
  | cons reply replies ih =>
    obtain ⟨src, data⟩ := reply
    rw [numbered, List.map_cons, ih, Packet.datagram_reply]
    rfl

/-- The counter of a session gives out `2^16` ids before it comes round. -/
theorem nodup_numbered (packetId : UInt16) {replies : List (SocketAddr × Bytes)}
    (hfew : replies.length ≤ 2 ^ 16) : ((numbered packetId replies).map Packet.packetId).Nodup := by
  rw [numbered_packetId]
  refine List.Nodup.map_on (fun i hi j hj heq => ?_) List.nodup_range
  have hnat := congrArg UInt16.toNat ((UInt16.add_right_inj packetId).mp heq)
  rw [UInt16.toNat_ofNat', UInt16.toNat_ofNat'] at hnat
  rw [List.mem_range] at hi hj
  omega

theorem exists_reply_of_mem_numbered {packetId : UInt16} {replies : List (SocketAddr × Bytes)}
    {p : Packet} (h : p ∈ numbered packetId replies) :
    ∃ packetId src payload hlen, p = Packet.reply packetId src payload hlen := by
  induction replies generalizing packetId with
  | nil => cases h
  | cons reply replies ih =>
    obtain ⟨src, data⟩ := reply
    rcases List.mem_cons.mp h with rfl | hmem
    · exact ⟨_, _, _, _, rfl⟩
    · exact ih hmem

/-! ## From the client -/

variable {es : List ConnectionEvent} {s : Sessions}

/-- What a session was given, of the frames that were sent to it. -/
theorem own_sublist {routed : List (Nat × UdpFrame)} (h : Sessions.Routes routed es s) {task : Nat}
    {sessionId : UInt32} (hids : ∀ f ∈ own task routed, f.sessionId = sessionId) :
    (own task routed).Sublist ((parsed (datagrams es)).filter (·.sessionId = sessionId)) := by
  have hself : (own task routed).filter (·.sessionId = sessionId) = own task routed :=
    List.filter_eq_self.mpr fun f hf => decide_eq_true (hids f hf)
  rw [← hself]
  refine List.Sublist.filter _ (List.Sublist.trans ?_ h.sublist)
  exact (List.filter_sublist.map Prod.snd).trans (List.sublist_append_left _ _)

/-- **From the client to the sockets.**  In every run the frames of a client are given to
sessions of their ids, none to two of them and none before an earlier one, and none is lost
while the sessions live.  A session hands out what its frames reassemble to: when the frames
are those of packets with distinct ids, the datagrams of the packets that came through. -/
theorem run_udp_uplink (h : run Sessions.step .init es = some s) :
    ∃ routed, (routed.map Prod.snd ++ s.loop.inHand).Sublist (parsed (datagrams es)) ∧
      ((∀ t ∈ s.tasks, t.Accepting) →
        routed.map Prod.snd ++ s.loop.inHand = parsed (datagrams es)) ∧
      ∀ task t, s.tasks[task]? = some t →
        (∀ f ∈ own task routed, f.sessionId = t.session.sessionId) ∧
        ∃ done, done <+: own task routed ∧
          (t.Accepting → done ++ t.session.pending = own task routed) ∧
          t.session.forwarded = (relayFrames ∅ done).2.map Prod.snd ∧
          ∀ packets : List Packet, (packets.map Packet.packetId).Nodup →
            ((parsed (datagrams es)).filter (·.sessionId = t.session.sessionId)).Subperm
              (packets.flatMap (Packet.frames t.session.sessionId)) →
            t.session.forwarded.Perm
              ((packets.filter fun p => p.Arrived t.session.sessionId done).map
                Packet.datagram) := by
  obtain ⟨routed, hroutes⟩ := Sessions.exists_routes h
  refine ⟨routed, hroutes.sublist, hroutes.all, fun task t ht => ?_⟩
  obtain ⟨firstFrame, trace, htrace, hframes, -, hids⟩ := hroutes.traced task t ht
  obtain ⟨done, hdone, -, hforwarded, hpending⟩ :=
    (UdpSession.history_of_run htrace).relayed
  rw [← hframes] at hdone hpending
  refine ⟨hids, done, hdone, hpending, hforwarded, fun packets hnodup hsent => ?_⟩
  have harrive : done.Subperm (packets.flatMap (Packet.frames t.session.sessionId)) :=
    (hdone.sublist.trans (own_sublist hroutes hids)).subperm.trans hsent
  rw [hforwarded]
  have houts := (relayFrames_subperm hnodup harrive).map Prod.snd
  rwa [List.map_map] at houts

/-- A packet of two frames for a host that has a name. -/
def namedPacket : Packet where
  packetId := 9
  text := "example.com:53"
  addr := "example.com"
  port := 53
  split := by decide +kernel
  short := by decide +kernel
  parts := [[1, 2, 3], [4]]
  parts_ne := List.cons_ne_nil _ _
  parts_le := by decide

/-- Its second frame opens a session, which gets the first one, and a datagram comes back. -/
def fragmentRun : List ConnectionEvent :=
  [.datagram ((namedPacket.build 4).getD 1 []), .insert, .session 0 .bound,
    .session 0 .forwarded, .datagram ((namedPacket.build 4).getD 0 []), .send, .session 0 .recv,
    .session 0 (.reply longReply.1 longReply.2)]

theorem fragmentRun_eq : ∃ s t, run Sessions.step .init fragmentRun = some s ∧
    s.tasks[0]? = some t ∧ t.session.sessionId = 4 ∧ t.session.forwarded.length = 1 ∧
      t.session.receive ≠ .ended := by
  have heval : (run Sessions.step .init fragmentRun).map (fun s => s.tasks.map fun t =>
      (t.session.sessionId, t.session.forwarded.length, decide (t.session.receive ≠ .ended))) =
        some [(4, 1, true)] := by
    decide +kernel
  obtain ⟨s, hs, htasks⟩ := Option.map_eq_some_iff.mp heval
  obtain ⟨t, rest, hcons, ht, -⟩ := List.map_eq_cons_iff.mp htasks
  obtain ⟨hid, hlens⟩ := Prod.mk.inj ht
  obtain ⟨hforwarded, hlive⟩ := Prod.mk.inj hlens
  exact ⟨s, t, hs, by rw [hcons]; rfl, hid, hforwarded, of_decide_eq_true hlive⟩

theorem run_udp_uplink_fragmentRun : ∃ s t, run Sessions.step .init fragmentRun = some s ∧
    s.tasks[0]? = some t ∧ t.session.forwarded = [namedPacket.datagram] := by
  obtain ⟨s, t, hs, ht, hid, hlen, -⟩ := fragmentRun_eq
  refine ⟨s, t, hs, ht, ?_⟩
  obtain ⟨routed, -, -, htasks⟩ := run_udp_uplink hs
  obtain ⟨-, done, -, -, -, hpackets⟩ := htasks 0 t ht
  have hsent : ((parsed (datagrams fragmentRun)).filter
      (·.sessionId = t.session.sessionId)).Subperm
        ([namedPacket].flatMap (Packet.frames t.session.sessionId)) := by
    rw [hid]
    exact (show List.Perm _ _ by decide +kernel).subperm
  have hperm := hpackets [namedPacket] (List.nodup_singleton _) hsent
  rw [List.filter_singleton] at hperm
  cases hwhole : decide (namedPacket.Arrived t.session.sessionId done) with
  | true =>
    rw [hwhole] at hperm
    exact List.perm_singleton.mp hperm
  | false =>
    rw [hwhole] at hperm
    rw [List.perm_nil.mp hperm] at hlen
    cases hlen

/-! ## To the client -/

/-- **From the sockets to the client.**  In every run what a session sends are frames of at most
1200 bytes under its id.  Of up to `2^16` datagrams that came back to it, a client that gets
some of these frames, in whatever order, reassembles exactly those of which it got every frame.
While the session listens no frame is missing from what it sends. -/
theorem run_udp_downlink (h : run Sessions.step .init es = some s) {task : Nat} {t : SessionTask}
    (ht : s.tasks[task]? = some t) :
    let replies := cameBack (sessionEvents task es)
    let sessionId := t.session.sessionId
    (∀ data ∈ t.session.relayed, data.length ≤ 1200 ∧
      ∃ f, parseUdpFrame data = .ok f ∧ f.sessionId = sessionId) ∧
    (t.session.receive ≠ .ended → t.session.relayed = sentBack sessionId replies) ∧
    (replies.length ≤ 2 ^ 16 → ∀ arrived : List Bytes, arrived.Subperm t.session.relayed →
      ((relayFrames ∅ (parsed arrived)).2.map Prod.snd).Perm
        (((numbered 0 replies).filter fun p => p.Arrived sessionId (parsed arrived)).map
          Packet.datagram)) := by
  intro replies sessionId
  obtain ⟨routed, hroutes⟩ := Sessions.exists_routes h
  obtain ⟨firstFrame, trace, htrace, -, hcame, -⟩ := hroutes.traced task t ht
  have hhistory := UdpSession.history_of_run htrace
  have hsent : t.session.relayed <+: sentBack sessionId replies := by
    rw [← show cameBack trace = replies from hcame]
    exact hhistory.sent
  refine ⟨fun data hdata => ?_, fun hlive => ?_, fun hfew arrived harrived => ?_⟩
  · obtain ⟨p, hnumbered, hp⟩ := List.mem_flatMap.mp (hsent.subset hdata)
    have hparse : parseUdpFrame data ∈ (p.frames sessionId).map Except.ok := by
      rw [← p.parse_build]
      exact List.mem_map_of_mem hp
    obtain ⟨f, hf, heq⟩ := List.mem_map.mp hparse
    obtain ⟨packetId, src, payload, hlen, rfl⟩ := exists_reply_of_mem_numbered hnumbered
    rw [Packet.build_reply] at hp
    exact ⟨length_le_of_mem_buildUdpFrames hp, f, heq.symm, Packet.sessionId_of_mem hf⟩
  · rw [← show cameBack trace = replies from hcame]
    exact hhistory.sent_eq hlive
  · have hsub := parsed_subperm (harrived.trans hsent.sublist.subperm)
    rw [sentBack, parsed_flatMap_build] at hsub
    have houts := (relayFrames_subperm (nodup_numbered 0 hfew) hsub).map Prod.snd
    rwa [List.map_map] at houts

theorem run_udp_downlink_fragmentRun : ∃ s t, run Sessions.step .init fragmentRun = some s ∧
    s.tasks[0]? = some t ∧ ((relayFrames ∅ (parsed t.session.relayed.reverse)).2.map Prod.snd).Perm
      [⟨target longReply.1.ip.fmt longReply.1.port, longReply.2⟩] := by
  obtain ⟨s, t, hs, ht, hid, -, hlive⟩ := fragmentRun_eq
  refine ⟨s, t, hs, ht, ?_⟩
  obtain ⟨-, hall, hclient⟩ := run_udp_downlink hs ht
  have houts := hclient (by decide) _ t.session.relayed.reverse_perm.subperm
  rw [hall hlive, hid] at houts ⊢
  have hwhole : ((numbered 0 (cameBack (sessionEvents 0 fragmentRun))).filter fun p =>
      p.Arrived 4 (parsed (sentBack 4 (cameBack (sessionEvents 0 fragmentRun))).reverse)) =
        numbered 0 (cameBack (sessionEvents 0 fragmentRun)) := by
    refine List.filter_eq_self.mpr fun p hp => decide_eq_true fun f hf => ?_
    rw [parsed, ((List.reverse_perm _).filterMap _).mem_iff, ← parsed, sentBack,
      parsed_flatMap_build]
    exact List.mem_flatMap_of_mem hp hf
  have hlen : longReply.2.length ≤ udpMaxPkt := by decide +kernel
  have hdatagrams : (numbered 0 (cameBack (sessionEvents 0 fragmentRun))).map Packet.datagram =
      [⟨target longReply.1.ip.fmt longReply.1.port, longReply.2⟩] := by
    rw [numbered_datagram]
    exact congrArg (fun data => [Datagram.mk (target longReply.1.ip.fmt longReply.1.port) data])
      (List.take_of_length_le hlen)
  rwa [hwhole, hdatagrams] at houts

end Ruproxy.Hysteria2
