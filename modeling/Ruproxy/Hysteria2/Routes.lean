/-
  Hysteria2/Routes.lean --- from the datagrams of a client to its sessions, and back.

  `datagram_loop` takes the datagrams of a connection apart and gives each frame to one
  session, in whatever order the tasks run.  What a session hands out is what its own frames
  reassemble to, and what it sends back are the frames of what has come back to it, numbered
  in the order in which they came.
-/
import Ruproxy.Hysteria2.Cleanup
import Ruproxy.Hysteria2.LossyPath

set_option autoImplicit false

namespace Ruproxy.Hysteria2

open Ruproxy.Foundation
open Ruproxy.Foundation.Transition

/-! ## The history of a session -/

theorem relayFrames_concat (t : Table UInt16 FragBuffer) (fs : List UdpFrame) (f : UdpFrame) :
    relayFrames t (fs ++ [f]) =
      ((relayFrame (relayFrames t fs).1 f).1,
        (relayFrames t fs).2 ++ (relayFrame (relayFrames t fs).1 f).2.toList.map
          (f.packetId, ·)) := by
  induction fs generalizing t with
  | nil => simp [relayFrames]
  | cons g fs ih => simp [relayFrames, ih]

/-- The frames that are sent into the channel of a session. -/
def delivered (es : List SessionEvent) : List UdpFrame :=
  es.filterMap fun
    | .deliver frame => some frame
    | _ => none

/-- The datagrams that come back to a session. -/
def cameBack (es : List SessionEvent) : List (SocketAddr × Bytes) :=
  es.filterMap fun
    | .reply src data => some (src, data)
    | .replyError src data _ => some (src, data)
    | _ => none

theorem delivered_append (es fs : List SessionEvent) :
    delivered (es ++ fs) = delivered es ++ delivered fs := List.filterMap_append

theorem cameBack_append (es fs : List SessionEvent) :
    cameBack (es ++ fs) = cameBack es ++ cameBack fs := List.filterMap_append

/-- Datagrams under consecutive packet ids, as far as the buffer of a session takes them. -/
def numbered : UInt16 → List (SocketAddr × Bytes) → List Packet
  | _, [] => []
  | packetId, (src, data) :: replies =>
      Packet.reply packetId src (data.take udpMaxPkt) (List.length_take_le _ _) ::
        numbered (packetId + 1) replies

/-- What a session makes of the datagrams that come back. -/
def sentBack (sessionId : UInt32) (replies : List (SocketAddr × Bytes)) : List Bytes :=
  (numbered 0 replies).flatMap (Packet.build sessionId)

theorem numbered_concat (packetId : UInt16) (replies : List (SocketAddr × Bytes))
    (src : SocketAddr) (data : Bytes) :
    numbered packetId (replies ++ [(src, data)]) = numbered packetId replies ++
      [Packet.reply (packetId + UInt16.ofNat replies.length) src (data.take udpMaxPkt)
        (List.length_take_le _ _)] := by
  induction replies generalizing packetId with
  | nil => simp [numbered]
  | cons reply replies ih =>
    obtain ⟨src', data'⟩ := reply
    rw [List.cons_append, numbered, numbered, ih, List.cons_append]
    simp only [List.length_cons, UInt16.ofNat_add, UInt16.add_assoc, UInt16.add_comm 1]
    rfl

theorem sentBack_concat (sessionId : UInt32) (replies : List (SocketAddr × Bytes))
    (src : SocketAddr) (data : Bytes) :
    sentBack sessionId (replies ++ [(src, data)]) = sentBack sessionId replies ++
      buildUdpFrames sessionId (UInt16.ofNat replies.length) src (data.take udpMaxPkt) := by
  rw [sentBack, numbered_concat, List.flatMap_append, List.flatMap_singleton, Packet.build_reply,
    UInt16.zero_add]
  rfl

namespace UdpSession

/-- The frames that a session has in front of it. -/
def pending (s : UdpSession) : List UdpFrame :=
  if s.main = .binding then s.firstFrame :: s.queue else s.queue

/-- What the events so far have made of a session. -/
structure History (sessionId : UInt32) (firstFrame : UdpFrame) (es : List SessionEvent)
    (s : UdpSession) : Prop where
  sessionId_eq : s.sessionId = sessionId
  firstFrame_eq : s.firstFrame = firstFrame
  /-- the frames that were relayed -/
  relayed : ∃ done, done <+: firstFrame :: delivered es ∧
    s.fragTable = (relayFrames ∅ done).1 ∧
      s.forwarded = (relayFrames ∅ done).2.map Prod.snd ∧
        (s.main ≠ .returned → done ++ s.pending = firstFrame :: delivered es)
  unspawned : s.main = .binding ∨ s.main = .relayingFirst → s.receive = .unspawned
  counted : s.packetIdCounter = UInt16.ofNat (cameBack es).length
  sent : s.relayed <+: sentBack sessionId (cameBack es)
  sent_eq : s.receive ≠ .ended → s.relayed = sentBack sessionId (cameBack es)

variable {sessionId : UInt32} {firstFrame : UdpFrame} {es : List SessionEvent}
  {s s' : UdpSession} {e : SessionEvent}

theorem history_init : History sessionId firstFrame [] (init sessionId firstFrame) where
  sessionId_eq := rfl
  firstFrame_eq := rfl
  relayed := ⟨[], List.nil_prefix, rfl, rfl, fun _ => rfl⟩
  unspawned _ := rfl
  counted := rfl
  sent := List.prefix_rfl
  sent_eq _ := rfl

namespace History

/-- The session moves on and does not touch frames. -/
theorem idle (h : History sessionId firstFrame es s) (hdelivered : delivered [e] = [])
    (hback : cameBack [e] = []) {now : Nat} {main : SessionMain} {receive : ReceiveTask}
    (hmain : main ≠ .returned → s.main ≠ .returned ∧ (main = .binding ↔ s.main = .binding))
    (hreceive : receive ≠ .ended → s.receive ≠ .ended)
    (hspawn : main = .binding ∨ main = .relayingFirst → receive = .unspawned)
    {queue : List UdpFrame} (hqueue : main ≠ .returned → queue = s.queue) :
    History sessionId firstFrame (es ++ [e])
      { s with now := now, main := main, receive := receive, queue := queue } := by
  obtain ⟨done, hprefix, htable, hforwarded, hpending⟩ := h.relayed
  constructor
  · exact h.sessionId_eq
  · exact h.firstFrame_eq
  · refine ⟨done, ?_, htable, hforwarded, fun hne => ?_⟩
    · rwa [delivered_append, hdelivered, List.append_nil]
    · obtain ⟨hs, hiff⟩ := hmain hne
      rw [delivered_append, hdelivered, List.append_nil, ← hpending hs]
      simp only [pending, hqueue hne, hiff]
  · exact hspawn
  · rw [cameBack_append, hback, List.append_nil]
    exact h.counted
  · rw [cameBack_append, hback, List.append_nil]
    exact h.sent
  · intro hne
    rw [cameBack_append, hback, List.append_nil]
    exact h.sent_eq (hreceive hne)

/-- A frame is sent into the channel. -/
theorem deliver (h : History sessionId firstFrame es s) {frame : UdpFrame}
    (hmain : s.main ≠ .returned) :
    History sessionId firstFrame (es ++ [.deliver frame])
      { s with queue := s.queue ++ [frame] } := by
  obtain ⟨done, hprefix, htable, hforwarded, hpending⟩ := h.relayed
  have hframes : delivered (es ++ [.deliver frame]) = delivered es ++ [frame] :=
    delivered_append es _
  have hback : cameBack (es ++ [.deliver frame]) = cameBack es := by
    rw [cameBack_append]
    exact List.append_nil _
  constructor
  · exact h.sessionId_eq
  · exact h.firstFrame_eq
  · refine ⟨done, ?_, htable, hforwarded, fun _ => ?_⟩
    · rw [hframes]
      exact hprefix.trans (List.prefix_append _ _)
    · rw [hframes, ← List.cons_append, ← hpending hmain, List.append_assoc]
      simp only [pending]
      split
      · rfl
      · rfl
  · exact h.unspawned
  · rw [hback]
    exact h.counted
  · rw [hback]
    exact h.sent
  · rw [hback]
    exact h.sent_eq

/-- `relay_frame` for the next frame. -/
theorem relay (h : History sessionId firstFrame es s) (hdelivered : delivered [e] = [])
    (hback : cameBack [e] = []) {frame : UdpFrame} {queue : List UdpFrame}
    (hmain : s.main ≠ .returned) (hpend : s.pending = frame :: queue) {main : SessionMain}
    (hnew : main ≠ .binding) (hspawn : main = .relayingFirst → s.main = .binding) :
    History sessionId firstFrame (es ++ [e])
      { s.relay frame with main := main, queue := queue } := by
  obtain ⟨done, hprefix, htable, hforwarded, hpending⟩ := h.relayed
  have hall := hpending hmain
  rw [hpend] at hall
  constructor
  · exact h.sessionId_eq
  · exact h.firstFrame_eq
  · refine ⟨done ++ [frame], ?_, ?_, ?_, fun _ => ?_⟩
    · rw [delivered_append, hdelivered, List.append_nil, ← hall]
      exact ⟨queue, by rw [List.append_assoc]; rfl⟩
    · rw [relayFrames_concat, ← htable]
      rfl
    · rw [relayFrames_concat, List.map_append, ← hforwarded, ← htable, List.map_map]
      exact congrArg _ (List.map_id _).symm
    · rw [delivered_append, hdelivered, List.append_nil, ← hall, pending, if_neg hnew,
        List.append_assoc]
      rfl
  · exact fun hfirst => h.unspawned (.inl (hspawn (hfirst.resolve_left hnew)))
  · rw [cameBack_append, hback, List.append_nil]
    exact h.counted
  · rw [cameBack_append, hback, List.append_nil]
    exact h.sent
  · rw [cameBack_append, hback, List.append_nil]
    exact h.sent_eq

/-- A datagram comes back, and frames of it are sent: all, or some in front of an error. -/
theorem reply (h : History sessionId firstFrame es s) (hdelivered : delivered [e] = [])
    {src : SocketAddr} {data : Bytes} (hback : cameBack [e] = [(src, data)])
    {deadline : Nat} (hreceive : s.receive = .waiting deadline) {frames : List Bytes}
    (hframes : frames <+: s.replyFrames src data) {receive : ReceiveTask}
    (hall : receive = .ended ∨ frames = s.replyFrames src data) :
    History sessionId firstFrame (es ++ [e])
      { s with
        receive := receive
        packetIdCounter := s.packetIdCounter + 1
        relayed := s.relayed ++ frames } := by
  have hown : s.replyFrames src data = buildUdpFrames sessionId
      (UInt16.ofNat (cameBack es).length) src (data.take udpMaxPkt) := by
    rw [replyFrames, h.sessionId_eq, h.counted]
  obtain ⟨done, hprefix, htable, hforwarded, hpending⟩ := h.relayed
  constructor
  · exact h.sessionId_eq
  · exact h.firstFrame_eq
  · refine ⟨done, ?_, htable, hforwarded, fun hne => ?_⟩
    · rwa [delivered_append, hdelivered, List.append_nil]
    · rw [delivered_append, hdelivered, List.append_nil]
      exact hpending hne
  · intro hfirst
    rw [h.unspawned hfirst] at hreceive
    cases hreceive
  · rw [cameBack_append, hback, List.length_append, List.length_singleton, UInt16.ofNat_add,
      ← h.counted]
    rfl
  · rw [cameBack_append, hback, sentBack_concat, ← hown, ← h.sent_eq (hreceive ▸ nofun)]
    exact (List.prefix_append_right_inj _).mpr hframes
  · intro hne
    rw [cameBack_append, hback, sentBack_concat, ← hown, ← h.sent_eq (hreceive ▸ nofun),
      hall.resolve_left hne]

/-- `handle_udp_session` returns. -/
theorem finish (h : History sessionId firstFrame es s) (hdelivered : delivered [e] = [])
    (hback : cameBack [e] = []) : History sessionId firstFrame (es ++ [e]) s.finish := by
  refine h.idle hdelivered hback (fun hne => absurd rfl hne) (fun hne => absurd rfl hne)
    (fun hfirst => ?_) fun hne => absurd rfl hne
  rcases hfirst with hfirst | hfirst <;> cases hfirst

/-- The first frame, or a later one, was forwarded, and the session goes on to wait. -/
theorem waits (h : History sessionId firstFrame es s) (hdelivered : delivered [e] = [])
    (hback : cameBack [e] = []) (hreturned : s.main ≠ .returned) (hbinding : s.main ≠ .binding)
    {deadline : Nat} {receive : ReceiveTask}
    (hreceive : receive ≠ .ended → s.receive ≠ .ended) :
    History sessionId firstFrame (es ++ [e])
      { s with main := .waiting deadline, receive := receive } := by
  refine h.idle hdelivered hback (fun _ => ⟨hreturned, ?_⟩) hreceive (fun hfirst => ?_) fun _ => rfl
  · exact iff_of_false SessionMain.noConfusion hbinding
  · rcases hfirst with hfirst | hfirst <;> cases hfirst

/-- The receive task is over. -/
theorem receiveEnds (h : History sessionId firstFrame es s) (hdelivered : delivered [e] = [])
    (hback : cameBack [e] = []) {deadline : Nat} (hreceive : s.receive = .waiting deadline) :
    History sessionId firstFrame (es ++ [e]) { s with receive := .ended } := by
  refine h.idle hdelivered hback (fun hne => ⟨hne, Iff.rfl⟩) (fun hne => absurd rfl hne)
    (fun hfirst => ?_) fun _ => rfl
  rw [h.unspawned hfirst] at hreceive
  cases hreceive

end History

/-- Every step keeps the history. -/
theorem history_step (h : History sessionId firstFrame es s) (hstep : s.step e = some s') :
    History sessionId firstFrame (es ++ [e]) s' := by
  cases e with
  | elapse ms =>
    cases hstep
    exact h.idle rfl rfl (fun hne => ⟨hne, Iff.rfl⟩) id h.unspawned fun _ => rfl
  | deliver frame =>
    simp only [step] at hstep
    split at hstep
    · rename_i hroom
      cases hstep
      exact h.deliver hroom.1
    · cases hstep
  | bound =>
    simp only [step] at hstep
    split at hstep
    · rename_i hmain
      cases hstep
      exact h.relay rfl rfl (by rw [hmain]; exact SessionMain.noConfusion) (if_pos hmain)
        SessionMain.noConfusion fun _ => hmain
    · cases hstep
  | bindError | closed =>
    simp only [step] at hstep
    split at hstep
    · cases hstep
      exact h.finish rfl rfl
    · cases hstep
  | forwarded =>
    simp only [step] at hstep
    split at hstep
    · rename_i hmain
      cases hstep
      have hreceive := h.unspawned (.inr hmain)
      refine h.waits rfl rfl ?_ ?_ fun _ => ?_
      · rw [hmain]
        exact SessionMain.noConfusion
      · rw [hmain]
        exact SessionMain.noConfusion
      · rw [hreceive]
        exact ReceiveTask.noConfusion
    · rename_i hmain
      cases hstep
      refine h.waits rfl rfl ?_ ?_ id
      · rw [hmain]
        exact SessionMain.noConfusion
      · rw [hmain]
        exact SessionMain.noConfusion
    · cases hstep
  | recv =>
    simp only [step] at hstep
    split at hstep
    · rename_i deadline frame queue hmain hqueue
      cases hstep
      have hpend : s.pending = frame :: queue := by
        rw [pending, if_neg (by rw [hmain]; exact SessionMain.noConfusion), hqueue]
      exact h.relay rfl rfl (by rw [hmain]; exact SessionMain.noConfusion) hpend
        SessionMain.noConfusion SessionMain.noConfusion
    · cases hstep
  | idle =>
    simp only [step] at hstep
    split at hstep
    · split at hstep
      · cases hstep
        exact h.finish rfl rfl
      · cases hstep
    · cases hstep
  | reply src data =>
    simp only [step] at hstep
    split at hstep
    · rename_i deadline hreceive
      cases hstep
      exact h.reply rfl rfl hreceive List.prefix_rfl (.inr rfl)
    · cases hstep
  | replyError src data sent =>
    simp only [step] at hstep
    split at hstep
    · rename_i deadline hreceive
      split at hstep
      · cases hstep
        exact h.reply rfl rfl hreceive (List.take_prefix _ _) (.inl rfl)
      · cases hstep
    · cases hstep
  | recvError =>
    simp only [step] at hstep
    split at hstep
    · rename_i deadline hreceive
      cases hstep
      exact h.receiveEnds rfl rfl hreceive
    · cases hstep
  | receiveIdle =>
    simp only [step] at hstep
    split at hstep
    · rename_i deadline hreceive
      split at hstep
      · cases hstep
        exact h.receiveEnds rfl rfl hreceive
      · cases hstep
    · cases hstep

theorem history_of_run (h : run step (init sessionId firstFrame) es = some s) :
    History sessionId firstFrame es s :=
  Transition.history_of_run history_step history_init h

end UdpSession

/-! ## The sessions of a connection -/

/-- The datagrams that arrive on a connection. -/
def datagrams (es : List ConnectionEvent) : List Bytes :=
  es.filterMap fun
    | .datagram data => some data
    | _ => none

theorem parsed_append (l l' : List Bytes) : parsed (l ++ l') = parsed l ++ parsed l' :=
  List.filterMap_append

theorem datagrams_append (es fs : List ConnectionEvent) :
    datagrams (es ++ fs) = datagrams es ++ datagrams fs := List.filterMap_append

/-- The events of one session. -/
def sessionEvents (task : Nat) (es : List ConnectionEvent) : List SessionEvent :=
  es.filterMap fun
    | .session task' e => if task' = task then some e else none
    | _ => none

theorem sessionEvents_append (task : Nat) (es fs : List ConnectionEvent) :
    sessionEvents task (es ++ fs) = sessionEvents task es ++ sessionEvents task fs :=
  List.filterMap_append

/-- The frame that the loop is about to pass on. -/
def DatagramLoop.inHand : DatagramLoop → List UdpFrame
  | .sending _ frame => [frame]
  | .inserting frame => [frame]
  | _ => []

/-- The frames that were given to a session. -/
def own (task : Nat) (routed : List (Nat × UdpFrame)) : List UdpFrame :=
  (routed.filter (·.1 = task)).map Prod.snd

theorem own_concat_self (task : Nat) (routed : List (Nat × UdpFrame)) (frame : UdpFrame) :
    own task (routed ++ [(task, frame)]) = own task routed ++ [frame] := by
  simp [own]

theorem own_concat_ne {task task' : Nat} (h : task' ≠ task) (routed : List (Nat × UdpFrame))
    (frame : UdpFrame) : own task (routed ++ [(task', frame)]) = own task routed := by
  simp [own, h]

/-- A session that was spawned for its frames, and what it has done since. -/
def Traced (routed : List (Nat × UdpFrame)) (es : List ConnectionEvent) (task : Nat)
    (u : UdpSession) : Prop :=
  ∃ firstFrame trace, run UdpSession.step (.init u.sessionId firstFrame) trace = some u ∧
    own task routed = firstFrame :: delivered trace ∧
      cameBack trace = cameBack (sessionEvents task es) ∧
        ∀ f ∈ own task routed, f.sessionId = u.sessionId

/-- A session moves on. -/
theorem Traced.run {routed routed' : List (Nat × UdpFrame)} {es : List ConnectionEvent}
    {e : ConnectionEvent} {task : Nat} {u u' : UdpSession} {fs : List SessionEvent}
    (h : Traced routed es task u) (hrun : Transition.run UdpSession.step u fs = some u')
    (hown : own task routed' = own task routed ++ delivered fs)
    (hback : cameBack (sessionEvents task [e]) = cameBack fs)
    (hid : ∀ f ∈ delivered fs, f.sessionId = u.sessionId) :
    Traced routed' (es ++ [e]) task u' := by
  obtain ⟨firstFrame, trace, htrace, hframes, hcame, hids⟩ := h
  have hall : Transition.run UdpSession.step (.init u.sessionId firstFrame) (trace ++ fs) =
      some u' := by
    rw [run_append, htrace]
    exact hrun
  have hsame := (UdpSession.history_of_run hall).sessionId_eq
  refine ⟨firstFrame, trace ++ fs, hsame ▸ hall, ?_, ?_, fun f hf => ?_⟩
  · rw [hown, hframes, delivered_append, List.cons_append]
  · rw [cameBack_append, hcame, sessionEvents_append, cameBack_append, hback]
  · rw [hsame]
    rw [hown] at hf
    exact (List.mem_append.mp hf).elim (hids f) (hid f)

theorem becomes_of_run {u u' : UdpSession} {fs : List SessionEvent}
    (h : Transition.run UdpSession.step u fs = some u') (cleaned : Bool) :
    Becomes ⟨u, cleaned⟩ ⟨u', cleaned⟩ := by
  induction fs generalizing u with
  | nil =>
    obtain rfl := Option.some.inj h
    exact .refl _
  | cons e fs ih =>
    obtain ⟨u₁, hstep, hrest⟩ := run_cons_eq_some.mp h
    have hfirst := @becomes_of_step ⟨u, cleaned⟩ e u₁ hstep
    have hmore := ih hrest
    refine ⟨hmore.sessionId_eq.trans hfirst.sessionId_eq,
      fun hacc => hfirst.accepting (hmore.accepting hacc), fun hfin => ?_⟩
    exact (hmore.finished hfin).elim (fun hacc => .inl (hfirst.accepting hacc)) hfirst.finished

namespace Sessions

/-- Which session each frame of a connection was given to. -/
structure Routes (routed : List (Nat × UdpFrame)) (es : List ConnectionEvent) (s : Sessions) :
    Prop where
  /-- no frame is made up or given to two sessions, and none overtakes another one -/
  sublist : (routed.map Prod.snd ++ s.loop.inHand).Sublist (parsed (datagrams es))
  /-- none gets lost as long as the sessions take frames -/
  all : (∀ t ∈ s.tasks, t.Accepting) →
    routed.map Prod.snd ++ s.loop.inHand = parsed (datagrams es)
  bound : ∀ r ∈ routed, r.1 < s.tasks.length
  traced : ∀ task t, s.tasks[task]? = some t → Traced routed es task t.session
  unborn : ∀ task, s.tasks.length ≤ task → sessionEvents task es = []
  mapped : ∀ id task, s.sessionMap.lookup id = some task →
    ∃ t, s.tasks[task]? = some t ∧ t.session.sessionId = id
  sending : ∀ task frame, s.loop = .sending task frame →
    ∃ t, s.tasks[task]? = some t ∧ t.session.sessionId = frame.sessionId

variable {routed : List (Nat × UdpFrame)} {es : List ConnectionEvent} {s s' : Sessions}
  {e : ConnectionEvent}

theorem routes_init : Routes [] [] .init where
  sublist := List.Sublist.refl _
  all _ := rfl
  bound r hr := by cases hr
  traced task t ht := by cases ht
  unborn _ _ := rfl
  mapped id task hlookup := by cases hlookup
  sending task frame hloop := by cases hloop

namespace Routes

/-- An event that is not one of a session. -/
theorem quiet (h : Routes routed es s) (hquiet : ∀ task, sessionEvents task [e] = []) (task : Nat)
    (t : SessionTask) (ht : s.tasks[task]? = some t) : Traced routed (es ++ [e]) task t.session :=
  (h.traced task t ht).run (run_nil _) (List.append_nil _).symm
    (congrArg cameBack (hquiet task)) nofun

/-- The loop goes on without a frame: it has dropped none, or the one for a session that has
returned. -/
theorem withLoop (h : Routes routed es s) (hnone : parsed (datagrams [e]) = [])
    (hquiet : ∀ task, sessionEvents task [e] = []) {loop : DatagramLoop} (hhand : loop.inHand = [])
    (hdropped : s.loop.inHand = [] ∨ ∃ t ∈ s.tasks, ¬ t.Accepting)
    {sessionMap : Table UInt32 Nat}
    (hmap : ∀ id task, sessionMap.lookup id = some task → s.sessionMap.lookup id = some task) :
    Routes routed (es ++ [e]) { s with loop := loop, sessionMap := sessionMap } where
  sublist := by
    rw [datagrams_append, parsed_append, hnone, List.append_nil]
    simp only [hhand, List.append_nil]
    exact (List.sublist_append_left _ _).trans h.sublist
  all hacc := by
    rw [datagrams_append, parsed_append, hnone, List.append_nil, ← h.all hacc]
    rcases hdropped with hempty | ⟨t, ht, hgone⟩
    · simp only [hhand, hempty]
    · exact absurd (hacc t ht) hgone
  bound := h.bound
  traced := h.quiet hquiet
  unborn task hge := by rw [sessionEvents_append, hquiet, List.append_nil, h.unborn task hge]
  mapped id task hlookup := h.mapped id task (hmap id task hlookup)
  sending task frame hloop := by
    obtain rfl : loop = .sending task frame := hloop
    cases hhand

/-- A frame is read. -/
theorem read (h : Routes routed es s) {frame : UdpFrame}
    (hframe : parsed (datagrams [e]) = [frame]) (hquiet : ∀ task, sessionEvents task [e] = [])
    (hhand : s.loop.inHand = [])
    {loop : DatagramLoop} (hnew : loop.inHand = [frame])
    (hsending : ∀ task frame, loop = .sending task frame →
      ∃ t, s.tasks[task]? = some t ∧ t.session.sessionId = frame.sessionId) :
    Routes routed (es ++ [e]) { s with loop := loop } where
  sublist := by
    rw [datagrams_append, parsed_append, hframe]
    have hsub := h.sublist
    rw [hhand, List.append_nil] at hsub
    simp only [hnew]
    exact hsub.append (List.Sublist.refl _)
  all hacc := by
    rw [datagrams_append, parsed_append, hframe, ← h.all hacc, hhand, List.append_nil]
    simp only [hnew]
  bound := h.bound
  traced := h.quiet hquiet
  unborn task hge := by rw [sessionEvents_append, hquiet, List.append_nil, h.unborn task hge]
  mapped := h.mapped
  sending := hsending

/-- The sessions after some events of each. -/
def Moves (s : Sessions) (tasks : List SessionTask) (fs : Nat → List SessionEvent) : Prop :=
  tasks.length = s.tasks.length ∧ ∀ task t t', s.tasks[task]? = some t →
    tasks[task]? = some t' → run UdpSession.step t.session (fs task) = some t'.session

/-- What was there is still there. -/
theorem exists_moved {tasks : List SessionTask} {fs : Nat → List SessionEvent}
    (hmoves : Moves s tasks fs) {task : Nat} {t : SessionTask} (ht : s.tasks[task]? = some t) :
    ∃ t', tasks[task]? = some t' ∧ t'.session.sessionId = t.session.sessionId ∧
      (t'.Accepting → t.Accepting) := by
  have hlt : task < tasks.length := hmoves.1 ▸ (List.getElem?_eq_some_iff.mp ht).1
  have ht' := List.getElem?_eq_getElem hlt
  have hbecomes := becomes_of_run (hmoves.2 task t _ ht ht') false
  exact ⟨_, ht', hbecomes.sessionId_eq, hbecomes.accepting⟩

/-- The sessions move on by themselves. -/
theorem move (h : Routes routed es s) (hnone : parsed (datagrams [e]) = [])
    {tasks : List SessionTask} {fs : Nat → List SessionEvent} (hmoves : Moves s tasks fs)
    (hown : ∀ task, delivered (fs task) = [])
    (hback : ∀ task, cameBack (sessionEvents task [e]) = cameBack (fs task))
    (hunborn : ∀ task, s.tasks.length ≤ task → sessionEvents task [e] = [])
    {sessionMap : Table UInt32 Nat}
    (hmap : ∀ id task, sessionMap.lookup id = some task → s.sessionMap.lookup id = some task)
    {removals : List (Nat × Nat)} :
    Routes routed (es ++ [e])
      { s with tasks := tasks, sessionMap := sessionMap, removals := removals } where
  sublist := by
    rw [datagrams_append, parsed_append, hnone, List.append_nil]
    exact h.sublist
  all hacc := by
    rw [datagrams_append, parsed_append, hnone, List.append_nil]
    refine h.all fun t ht => ?_
    obtain ⟨task, hlt, rfl⟩ := List.mem_iff_getElem.mp ht
    obtain ⟨t', ht', -, hback⟩ := exists_moved hmoves (List.getElem?_eq_getElem hlt)
    exact hback (hacc t' (List.mem_of_getElem? ht'))
  bound r hr := (h.bound r hr).trans_eq hmoves.1.symm
  traced task t' ht' := by
    have hlt : task < s.tasks.length := hmoves.1 ▸ (List.getElem?_eq_some_iff.mp ht').1
    have ht := List.getElem?_eq_getElem hlt
    refine (h.traced task _ ht).run (hmoves.2 task _ t' ht ht') ?_ (hback task) fun f hf => ?_
    · rw [hown, List.append_nil]
    · rw [hown] at hf
      cases hf
  unborn task hge := by
    have hle : s.tasks.length ≤ task := hmoves.1.symm.le.trans hge
    rw [sessionEvents_append, hunborn task hle, h.unborn task hle]
    rfl
  mapped id task hlookup := by
    obtain ⟨t, ht, rfl⟩ := h.mapped id task (hmap id task hlookup)
    obtain ⟨t', ht', hid, -⟩ := exists_moved hmoves ht
    exact ⟨t', ht', hid⟩
  sending task frame hloop := by
    obtain ⟨t, ht, heq⟩ := h.sending task frame hloop
    obtain ⟨t', ht', hid, -⟩ := exists_moved hmoves ht
    exact ⟨t', ht', hid.trans heq⟩

/-- The loop sends its frame into the channel of a session. -/
theorem deliver (h : Routes routed es s) (hnone : parsed (datagrams [e]) = [])
    (hquiet : ∀ task, sessionEvents task [e] = []) {task : Nat} {frame : UdpFrame}
    (hloop : s.loop = .sending task frame) {t : SessionTask}
    (ht : s.tasks[task]? = some t) {u : UdpSession}
    (hstep : t.session.step (.deliver frame) = some u) :
    Routes (routed ++ [(task, frame)]) (es ++ [e])
      { s with tasks := s.tasks.set task { t with session := u }, loop := .reading } := by
  have hlt := (List.getElem?_eq_some_iff.mp ht).1
  have hhand : s.loop.inHand = [frame] := by rw [hloop]; rfl
  have hset : ∀ {task' : Nat} {t' : SessionTask}, s.tasks[task']? = some t' →
      ∃ t'', (s.tasks.set task { t with session := u })[task']? = some t'' ∧
        t''.session.sessionId = t'.session.sessionId ∧ (t''.Accepting → t'.Accepting) := by
    intro task' t' ht'
    rcases eq_or_ne task task' with rfl | hne
    · obtain rfl := Option.some.inj (ht'.symm.trans ht)
      have hbecomes := becomes_of_step hstep
      exact ⟨_, List.getElem?_set_self hlt, hbecomes.sessionId_eq, hbecomes.accepting⟩
    · exact ⟨t', by rw [List.getElem?_set_ne hne]; exact ht', rfl, id⟩
  constructor
  · rw [datagrams_append, parsed_append, hnone, List.append_nil, List.map_append]
    have hsub := h.sublist
    rw [hhand] at hsub
    simpa [DatagramLoop.inHand] using hsub
  · intro hacc
    rw [datagrams_append, parsed_append, hnone, List.append_nil, List.map_append,
      ← h.all fun t' ht' => ?_, hhand]
    · exact List.append_nil _
    · obtain ⟨task', hlt', rfl⟩ := List.mem_iff_getElem.mp ht'
      obtain ⟨t'', ht'', -, hback⟩ := hset (List.getElem?_eq_getElem hlt')
      exact hback (hacc t'' (List.mem_of_getElem? ht''))
  · intro r hr
    simp only [List.length_set]
    rcases List.mem_append.mp hr with hr | hr
    · exact h.bound r hr
    · obtain rfl := List.mem_singleton.mp hr
      exact hlt
  · intro task' t' ht'
    rcases eq_or_ne task task' with rfl | hne
    · have hnew : { t with session := u } = t' := by
        simp only [List.getElem?_set_self hlt] at ht'
        exact Option.some.inj ht'
      subst hnew
      obtain ⟨t₁, ht₁, hid⟩ := h.sending task frame hloop
      obtain rfl := Option.some.inj (ht₁.symm.trans ht)
      have hrun : run UdpSession.step t₁.session [.deliver frame] = some u :=
        run_cons_eq_some.mpr ⟨u, hstep, rfl⟩
      refine (h.traced task _ ht).run hrun (own_concat_self task routed frame) ?_ fun f hf => ?_
      · rw [hquiet]
        rfl
      obtain rfl := List.mem_singleton.mp hf
      exact hid.symm
    · simp only [List.getElem?_set_ne hne] at ht'
      refine (h.traced task' t' ht').run (run_nil _) ?_ (congrArg cameBack (hquiet task')) nofun
      rw [own_concat_ne hne]
      exact (List.append_nil _).symm
  · intro task' hge
    simp only [List.length_set] at hge
    rw [sessionEvents_append, hquiet, List.append_nil, h.unborn task' hge]
  · intro id task' hlookup
    obtain ⟨t', ht', rfl⟩ := h.mapped id task' hlookup
    obtain ⟨t'', ht'', hid, -⟩ := hset ht'
    exact ⟨t'', ht'', hid⟩
  · exact nofun

/-- The loop spawns a session for its frame. -/
theorem insert (h : Routes routed es s) (hnone : parsed (datagrams [e]) = [])
    (hquiet : ∀ task, sessionEvents task [e] = []) {frame : UdpFrame}
    (hloop : s.loop = .inserting frame) :
    Routes (routed ++ [(s.tasks.length, frame)]) (es ++ [e])
      { s with
        sessionMap := s.sessionMap.insert frame.sessionId s.tasks.length
        tasks := s.tasks ++ [⟨.init frame.sessionId frame, false⟩]
        loop := .reading } := by
  have hhand : s.loop.inHand = [frame] := by rw [hloop]; rfl
  have hfresh : own s.tasks.length routed = [] := by
    rw [own, List.map_eq_nil_iff, List.filter_eq_nil_iff]
    intro r hr heq
    exact absurd (h.bound r hr) (of_decide_eq_true heq ▸ Nat.lt_irrefl _)
  constructor
  · rw [datagrams_append, parsed_append, hnone, List.append_nil, List.map_append]
    have hsub := h.sublist
    rw [hhand] at hsub
    simpa [DatagramLoop.inHand] using hsub
  · intro hacc
    rw [datagrams_append, parsed_append, hnone, List.append_nil, List.map_append,
      ← h.all fun t ht => hacc t (List.mem_append_left _ ht), hhand]
    exact List.append_nil _
  · intro r hr
    simp only [List.length_append, List.length_singleton]
    rcases List.mem_append.mp hr with hr | hr
    · exact (h.bound r hr).trans (Nat.lt_succ_self _)
    · obtain rfl := List.mem_singleton.mp hr
      exact Nat.lt_succ_self _
  · intro task t ht
    rcases Nat.lt_or_ge task s.tasks.length with hlt | hge
    · simp only [List.getElem?_append_left hlt] at ht
      refine (h.traced task t ht).run (run_nil _) ?_ (congrArg cameBack (hquiet task)) nofun
      rw [own_concat_ne hlt.ne']
      exact (List.append_nil _).symm
    · simp only [List.getElem?_append_right hge] at ht
      obtain ⟨hzero, rfl⟩ := List.getElem?_eq_some_iff.mp ht
      obtain rfl : task = s.tasks.length := by
        rw [List.length_singleton] at hzero
        omega
      simp only [Nat.sub_self, List.getElem_cons_zero]
      refine ⟨frame, [], rfl, ?_, ?_, fun f hf => ?_⟩
      · rw [own_concat_self, hfresh]
        rfl
      · rw [sessionEvents_append, hquiet, List.append_nil, h.unborn _ (Nat.le_refl _)]
      · rw [own_concat_self, hfresh] at hf
        obtain rfl := List.mem_singleton.mp hf
        rfl
  · intro task hge
    simp only [List.length_append, List.length_singleton] at hge
    rw [sessionEvents_append, hquiet, List.append_nil, h.unborn task (by omega)]
  · intro id task hlookup
    by_cases hid : id = frame.sessionId
    · subst hid
      simp only [AList.lookup_insert] at hlookup
      obtain rfl := Option.some.inj hlookup
      exact ⟨_, List.getElem?_concat_length, rfl⟩
    · simp only [AList.lookup_insert_ne hid] at hlookup
      obtain ⟨t, ht, heq⟩ := h.mapped id task hlookup
      have hlt := (List.getElem?_eq_some_iff.mp ht).1
      exact ⟨t, by simp only [List.getElem?_append_left hlt]; exact ht, heq⟩
  · exact nofun

end Routes

/-- The events of a connection that a session takes part in alone. -/
theorem mayStep_delivered {task : Nat} {e : SessionEvent} (h : s.mayStep task e = true) :
    delivered [e] = [] := by
  cases e with
  | deliver frame => cases h
  | _ => rfl

theorem moves_stepSession {task : Nat} {e : SessionEvent} (h : s.stepSession task e = some s') :
    ∃ tasks, s' = { s with tasks := tasks } ∧
      Routes.Moves s tasks fun task' => if task' = task then [e] else [] := by
  obtain ⟨t, ht, hmap⟩ := Option.bind_eq_some_iff.mp h
  obtain ⟨u, hstep, rfl⟩ := Option.map_eq_some_iff.mp hmap
  refine ⟨_, rfl, List.length_set .., fun task' t₁ t' ht₁ ht' => ?_⟩
  rcases eq_or_ne task task' with rfl | hne
  · obtain rfl := Option.some.inj (ht₁.symm.trans ht)
    rw [List.getElem?_set_self (List.getElem?_eq_some_iff.mp ht).1] at ht'
    obtain rfl := Option.some.inj ht'
    simp only [if_true]
    exact run_cons_eq_some.mpr ⟨u, hstep, rfl⟩
  · rw [List.getElem?_set_ne hne, ht₁] at ht'
    obtain rfl := Option.some.inj ht'
    simp only [hne.symm, if_false]
    rfl

theorem lookup_erase_some {K V : Type} [DecidableEq K] {t : Table K V} {k k' : K} {v : V}
    (h : (t.erase k).lookup k' = some v) : t.lookup k' = some v := by
  by_cases hkey : k' = k
  · rw [hkey, AList.lookup_erase] at h
    cases h
  · rwa [AList.lookup_erase_ne hkey] at h

/-- Every step of a connection gives its frames one way. -/
theorem routes_step (h : Routes routed es s) (hstep : s.step e = some s') :
    ∃ routed', Routes routed' (es ++ [e]) s' := by
  cases e with
  | datagram data =>
    simp only [step] at hstep
    split at hstep
    · rename_i hloop
      have hhand : s.loop.inHand = [] := by rw [hloop]; rfl
      split at hstep
      · rename_i err hparse
        cases hstep
        have hnone : parsed (datagrams [.datagram data]) = [] := by
          simp [parsed, datagrams, hparse, Except.toOption]
        exact ⟨routed, h.withLoop hnone (fun _ => rfl) hhand (.inl hhand) fun _ _ => id⟩
      · rename_i frame hparse
        have hframe : parsed (datagrams [.datagram data]) = [frame] := by
          simp [parsed, datagrams, hparse, Except.toOption]
        split at hstep
        · rename_i task hlookup
          cases hstep
          refine ⟨routed, h.read hframe (fun _ => rfl) hhand rfl fun task' frame' hsending => ?_⟩
          cases hsending
          exact h.mapped _ _ hlookup
        · cases hstep
          refine ⟨routed, h.read hframe (fun _ => rfl) hhand rfl fun _ _ hsending => ?_⟩
          cases hsending
    · cases hstep
  | disconnect =>
    simp only [step] at hstep
    split at hstep
    · rename_i hloop
      cases hstep
      exact ⟨routed, h.withLoop rfl (fun _ => rfl) rfl (.inl (by rw [hloop]; rfl)) fun _ _ => id⟩
    · cases hstep
  | send =>
    simp only [step] at hstep
    split at hstep
    · rename_i task frame hloop
      split at hstep
      · rename_i t ht
        split at hstep
        · rename_i hreturned
          cases hstep
          exact ⟨routed, h.withLoop rfl (fun _ => rfl) rfl
            (.inr ⟨t, List.mem_of_getElem? ht, fun hacc => hacc hreturned⟩) fun _ _ => id⟩
        · obtain ⟨s₁, hsession, rfl⟩ := Option.map_eq_some_iff.mp hstep
          obtain ⟨t₁, ht₁, hmap⟩ := Option.bind_eq_some_iff.mp hsession
          obtain ⟨u, hdeliver, rfl⟩ := Option.map_eq_some_iff.mp hmap
          obtain rfl := Option.some.inj (ht₁.symm.trans ht)
          exact ⟨_, h.deliver rfl (fun _ => rfl) hloop ht hdeliver⟩
      · cases hstep
    · cases hstep
  | remove =>
    simp only [step] at hstep
    split at hstep
    · rename_i id hloop
      cases hstep
      exact ⟨routed, h.withLoop rfl (fun _ => rfl) rfl (.inl (by rw [hloop]; rfl))
        fun _ _ => lookup_erase_some⟩
    · cases hstep
  | insert =>
    simp only [step] at hstep
    split at hstep
    · rename_i frame hloop
      cases hstep
      exact ⟨_, h.insert rfl (fun _ => rfl) hloop⟩
    · cases hstep
  | session task e =>
    simp only [step] at hstep
    split at hstep
    · rename_i hmay
      obtain ⟨tasks, rfl, hmoves⟩ := moves_stepSession hstep
      have hevents : ∀ task', sessionEvents task' [.session task e] =
          if task' = task then [e] else [] := by
        intro task'
        by_cases heq : task' = task
        · simp [sessionEvents, heq]
        · simp [sessionEvents, heq, Ne.symm heq]
      refine ⟨routed, h.move rfl hmoves (fun task' => ?_)
        (fun task' => congrArg cameBack (hevents task')) (fun task' hge => ?_) fun _ _ => id⟩
      · split
        · exact mayStep_delivered hmay
        · rfl
      · obtain ⟨t, ht, -⟩ := Option.bind_eq_some_iff.mp hstep
        have hlt := (List.getElem?_eq_some_iff.mp ht).1
        rw [hevents, if_neg (by omega)]
    · cases hstep
  | cleanup task =>
    simp only [step] at hstep
    split at hstep
    · rename_i t ht
      split at hstep
      · cases hstep
        have hmoves : Routes.Moves s (s.tasks.set task { t with cleaned := true }) fun _ => [] := by
          refine ⟨List.length_set .., fun task' t₁ t' ht₁ ht' => ?_⟩
          rcases eq_or_ne task task' with rfl | hne
          · obtain rfl := Option.some.inj (ht₁.symm.trans ht)
            rw [List.getElem?_set_self (List.getElem?_eq_some_iff.mp ht).1] at ht'
            obtain rfl := Option.some.inj ht'
            rfl
          · rw [List.getElem?_set_ne hne, ht₁] at ht'
            obtain rfl := Option.some.inj ht'
            rfl
        exact ⟨routed, h.move rfl hmoves (fun _ => rfl) (fun _ => rfl) (fun _ _ => rfl)
          fun _ _ => lookup_erase_some⟩
      · cases hstep
    · cases hstep
  | elapse ms =>
    cases hstep
    have hmoves : Routes.Moves s (s.tasks.map fun t =>
        { t with session := { t.session with now := t.session.now + ms } })
          fun _ => [.elapse ms] := by
      refine ⟨List.length_map .., fun task t₁ t' ht₁ ht' => ?_⟩
      rw [List.getElem?_map, ht₁] at ht'
      obtain rfl := Option.some.inj ht'
      rfl
    exact ⟨routed, h.move rfl hmoves (fun _ => rfl) (fun _ => rfl) (fun _ _ => rfl) fun _ _ => id⟩

/-- **Routes.**  In every run each frame of a connection is given to one session at most. -/
theorem exists_routes (h : run step init es = some s) : ∃ routed, Routes routed es s :=
  @Transition.history_of_run _ _ _ (fun es s => ∃ routed, Routes routed es s)
    (fun ⟨_, hroutes⟩ hstep => routes_step hroutes hstep) _ _ _ ⟨[], routes_init⟩ h

end Sessions

end Ruproxy.Hysteria2
