/-
  Wireguard/Translation.lean --- whose datagrams go back into the tunnel.

  A relay task receives on a socket that is not connected, and it drops the
  address its reply came from.  `Traffic` keeps that address beside each message
  of the channel, and the key of the packet each UDP flow was created for; the
  theorem says for every run when every reply is one of the destination it is sent
  from.
-/
import Ruproxy.Wireguard.UdpFlows

set_option autoImplicit false

namespace Ruproxy.Wireguard

open Ruproxy.Foundation
open Ruproxy.Foundation.Transition

/-! ## A stack and the senders of its replies -/

/-- A reply that was given to `feed_udp_send`: the flow whose relay received it, who sent
it, where it is sent, and what the socket is bound to. -/
structure Reply where
  origin : FlowId
  sender : SocketAddr
  data : Bytes
  towards : SocketAddr
  bound : SocketAddr
  deriving DecidableEq

/-- A peer's stack and what its relays heard from whom. -/
structure Traffic where
  sys : System
  /-- for each message in the channel the sender of the datagram in it -/
  senders : List SocketAddr
  /-- the key of the tunnel packet a UDP flow was created for -/
  opened : FlowId → Option FlowKey
  /-- the keys of the tunnel packets that were handled -/
  inbound : List FlowKey
  fed : List Reply

/-- The flow key of a tunnel packet. -/
def Msg.key : Msg → Option FlowKey
  | .inbound pkt => parseFlowKey pkt
  | _ => none

/-- The call of `feed_udp_send` in the `UdpReply` arm, if there is one. -/
def Actor.replies (a : Actor) (sender : SocketAddr) : Msg → List Reply
  | .udpReply origin handle data =>
      match a.udpPeer handle, a.sockets.getUdp handle with
      | some peerEp, some s => [⟨origin, sender, data, peerEp, s.localEndpoint⟩]
      | _, _ => []
  | _ => []

namespace Traffic

/-- No packet yet. -/
def init : Traffic :=
  { sys := .init, senders := [], opened := fun _ => none, inbound := [], fed := [] }

/-- The actor has handled the first message of its channel. -/
def handled (t : Traffic) (sys : System) (m : Msg) (sender : SocketAddr) : Traffic where
  sys := sys
  senders := t.senders.tail
  opened :=
    match m.key with
    | some key =>
        if key.proto = 17 ∧ sys.actor.nextFlow ≠ t.sys.actor.nextFlow then
          Function.update t.opened t.sys.actor.nextFlow (some key)
        else t.opened
    | none => t.opened
  inbound := t.inbound ++ m.key.toList
  fed := t.fed ++ t.sys.actor.replies sender m

/-- One step of the stack.  The address is where the datagram of a `udpReply` comes from;
in the other events it means nothing. -/
def step (t : Traffic) (e : Event × SocketAddr) : Option Traffic :=
  (t.sys.step e.1).map fun sys =>
    match e.1, t.sys.inbox, t.senders with
    | .handle _, m :: _, sender :: _ => t.handled sys m sender
    | .handle _, _, _ => { t with sys := sys }
    | _, _, _ =>
        { t with
          sys := sys
          senders :=
            if sys.inbox.length = t.sys.inbox.length then t.senders else t.senders ++ [e.2] }

/-- Every reply that was fed back towards a tunnel source through a socket bound to a
destination came from this destination, to the relay of a flow in which the source
had sent to the destination. -/
def Translated (t : Traffic) : Prop :=
  ∀ r ∈ t.fed, r.sender = r.bound ∧ t.opened r.origin = some ⟨17, r.towards, r.bound⟩ ∧
    ⟨17, r.towards, r.bound⟩ ∈ t.inbound

/-- A reply that is handled while a UDP flow has its handle was received by the relay of
this flow, or of an earlier one with the same key, and it came from the destination. -/
def FromDestination (t : Traffic) (e : Event × SocketAddr) : Prop :=
  match e.1, t.sys.inbox, t.senders with
  | .handle _, .udpReply origin handle _ :: _, sender :: _ =>
      ∀ key f, t.sys.actor.udpFlows.lookup key = some f → f.handle = handle →
        t.opened origin = some key ∧ sender = key.dst
  | _, _, _ => True

end Traffic

/-! ## Runs -/

namespace Traffic

/-- Flows and sockets belong to the keys they were created for. -/
structure Keyed (opened : FlowId → Option FlowKey) (inbound : List FlowKey) (a : Actor) :
    Prop where
  flows : ∀ key f, a.udpFlows.lookup key = some f → opened f.id = some key
  bound : ∀ h u, a.sockets h = some (.udp u) →
    ∃ key, opened u.owner = some key ∧ u.localEndpoint = key.dst
  opened : ∀ i key, opened i = some key → i < a.nextFlow ∧ key.proto = 17 ∧ key ∈ inbound

/-- The invariant: the stack's own, one sender for each message, flows and sockets with
their keys, and replies of flows that were created. -/
structure Inv (t : Traffic) : Prop where
  sys : t.sys.Inv
  aligned : t.senders.length = t.sys.inbox.length
  keyed : Keyed t.opened t.inbound t.sys.actor
  fed : ∀ r ∈ t.fed, r.origin < t.sys.actor.nextFlow

theorem inv_init : init.Inv where
  sys := System.inv_init
  aligned := rfl
  keyed :=
    { flows := fun _ _ hf => by cases hf
      bound := fun _ _ hu => by cases hu
      opened := fun _ _ hkey => by cases hkey }
  fed _ hr := by cases hr

section Keyed

variable {opened : FlowId → Option FlowKey} {inbound : List FlowKey} {a a' : Actor}

theorem Keyed.sameUdp (h : Keyed opened inbound a) (hsame : a.SameUdp a') :
    Keyed opened inbound a' where
  flows key f' hf' := by
    obtain ⟨f, hf, hid⟩ := hsame.flows key f' hf'
    exact hid ▸ h.flows key f hf
  bound hd u' hu' := by
    obtain ⟨u, hu, howner, hlocal⟩ := hsame.sockets hd u' hu'
    obtain ⟨key, hkey, hdst⟩ := h.bound hd u hu
    exact ⟨key, howner ▸ hkey, hlocal.symm.trans hdst⟩
  opened i key hkey := by
    rw [hsame.next]
    exact h.opened i key hkey

theorem Keyed.mono (h : Keyed opened inbound a) {inbound' : List FlowKey}
    (hsub : ∀ key ∈ inbound, key ∈ inbound') : Keyed opened inbound' a where
  flows := h.flows
  bound := h.bound
  opened i key hkey :=
    have ⟨hlt, hproto, hmem⟩ := h.opened i key hkey
    ⟨hlt, hproto, hsub key hmem⟩

/-- A packet that made no UDP flow. -/
theorem Keyed.addTcp (h : Keyed opened inbound a) {hd : Handle} {s : TcpSocket}
    (hnext : a'.nextFlow = a.nextFlow + 1) (hflows : a'.udpFlows = a.udpFlows)
    (hsockets : a'.sockets = a.sockets.put hd (.tcp s)) : Keyed opened inbound a' where
  flows key f hf := h.flows key f (by rwa [← hflows])
  bound hd' u hu := by
    rw [hsockets] at hu
    rcases Actor.udp_of_put hu with ⟨-, heq⟩ | hold
    · cases heq
    · exact h.bound hd' u hold
  opened i key hkey := by
    obtain ⟨hlt, hproto, hmem⟩ := h.opened i key hkey
    exact ⟨hnext ▸ Nat.lt_succ_of_lt hlt, hproto, hmem⟩

/-- A packet that made a UDP flow. -/
theorem Keyed.addUdp (h : Keyed opened inbound a) {key : FlowKey} {hd : Handle} {f : UdpFlow}
    {u : UdpSocket} (hproto : key.proto = 17) (hmem : key ∈ inbound)
    (hnext : a'.nextFlow = a.nextFlow + 1) (hid : f.id = a.nextFlow)
    (hflows : a'.udpFlows = a.udpFlows.insert key f) (howner : u.owner = a.nextFlow)
    (hlocal : u.localEndpoint = key.dst) (hsockets : a'.sockets = a.sockets.put hd (.udp u)) :
    Keyed (Function.update opened a.nextFlow (some key)) inbound a' := by
  have hold : ∀ {i key'}, opened i = some key' →
      Function.update opened a.nextFlow (some key) i = some key' := by
    intro i key' hkey'
    have hlt := (h.opened i key' hkey').1
    rw [Function.update_of_ne (Nat.ne_of_lt hlt), hkey']
  refine ⟨fun key' f' hf' => ?_, fun hd' u' hu' => ?_, fun i key' hkey' => ?_⟩
  · rw [hflows] at hf'
    rcases eq_or_ne key' key with rfl | hne
    · rw [AList.lookup_insert] at hf'
      cases hf'
      rw [hid, Function.update_self]
    · rw [AList.lookup_insert_ne hne] at hf'
      exact hold (h.flows key' f' hf')
  · rw [hsockets] at hu'
    rcases Actor.udp_of_put hu' with ⟨-, heq⟩ | hu'
    · cases heq
      exact ⟨key, by rw [howner, Function.update_self], hlocal⟩
    · obtain ⟨key', hkey', hdst⟩ := h.bound hd' u' hu'
      exact ⟨key', hold hkey', hdst⟩
  · rcases eq_or_ne i a.nextFlow with rfl | hne
    · rw [Function.update_self] at hkey'
      cases hkey'
      exact ⟨hnext ▸ Nat.lt_succ_self _, hproto, hmem⟩
    · rw [Function.update_of_ne hne] at hkey'
      obtain ⟨hlt, hproto', hmem'⟩ := h.opened i key' hkey'
      exact ⟨hnext ▸ Nat.lt_succ_of_lt hlt, hproto', hmem'⟩

end Keyed

/-- What the log and the keys of a stack become: they grow, and the keys of flows that
were there stay. -/
structure Grows (t t' : Traffic) : Prop where
  opened : ∀ i < t.sys.actor.nextFlow, t'.opened i = t.opened i
  inbound : ∀ key ∈ t.inbound, key ∈ t'.inbound

variable {t t' : Traffic}

/-- What a message does to the keys. -/
theorem handled_keyed (hinv : t.Inv) {sys : System} {m : Msg} (sender : SocketAddr)
    (hactor : t.sys.actor.After sys.actor m) :
    Keyed (t.handled sys m sender).opened (t.handled sys m sender).inbound sys.actor ∧
      Grows t (t.handled sys m sender) := by
  have hkeyed := hinv.keyed.mono fun k hk => List.mem_append_left m.key.toList hk
  cases m with
  | inbound pkt =>
    obtain ⟨a, hensured, hsame⟩ := hactor
    have hnext := hsame.next
    have hsub : ∀ key ∈ t.inbound, key ∈ t.inbound ++ (Msg.inbound pkt).key.toList :=
      fun _ h => List.mem_append_left _ h
    cases hensured with
    | none =>
      have hopened : (t.handled sys (.inbound pkt) sender).opened = t.opened := by
        simp only [handled]
        split
        · exact if_neg (by simp [hnext])
        · rfl
      rw [hopened]
      exact ⟨hkeyed.sameUdp hsame, fun i _ => congrFun hopened i, hsub⟩
    | @tcp _ key _ _ hkey hproto hsucc hflows hsockets =>
      have hopened : (t.handled sys (.inbound pkt) sender).opened = t.opened := by
        simp [handled, Msg.key, hkey, hproto]
      rw [hopened]
      exact ⟨(hkeyed.addTcp hsucc hflows hsockets).sameUdp hsame, fun i _ => congrFun hopened i,
        hsub⟩
    | @udp _ key _ _ _ hkey hproto hsucc hid hflows howner hlocal hsockets =>
      have hopened : (t.handled sys (.inbound pkt) sender).opened =
          Function.update t.opened t.sys.actor.nextFlow (some key) := by
        simp [handled, Msg.key, hkey, hproto, hnext, hsucc]
      have hmem : key ∈ t.inbound ++ (Msg.inbound pkt).key.toList := by simp [Msg.key, hkey]
      rw [hopened]
      refine ⟨(hkeyed.addUdp hproto hmem hsucc hid hflows howner hlocal hsockets).sameUdp hsame,
        fun i hi => ?_, hsub⟩
      rw [hopened]
      exact Function.update_of_ne (Nat.ne_of_lt hi) _ _
  | _ => exact ⟨hkeyed.sameUdp hactor, fun _ _ => rfl, fun _ h => List.mem_append_left _ h⟩

/-- The call of `feed_udp_send` is for the flow that has the handle. -/
theorem replies_spec (hinv : t.Inv) (origin : FlowId) (sender : SocketAddr) (handle : Handle)
    (data : Bytes) :
    (t.sys.actor.replies sender (.udpReply origin handle data) = [] ∧
      ∀ key f, t.sys.actor.udpFlows.lookup key = some f → f.handle ≠ handle) ∨
    ∃ key f, t.sys.actor.udpFlows.lookup key = some f ∧ f.handle = handle ∧
      t.sys.actor.replies sender (.udpReply origin handle data) =
        [⟨origin, sender, data, key.src, key.dst⟩] ∧ key.proto = 17 ∧ key ∈ t.inbound ∧
      ∀ key' f', t.sys.actor.udpFlows.lookup key' = some f' → f'.handle = handle → key' = key := by
  cases hpeer : t.sys.actor.udpPeer handle with
  | none =>
    left
    refine ⟨by simp only [Actor.replies, hpeer], fun key f hf => ?_⟩
    exact Actor.udpPeer_eq_none hpeer hf
  | some peerEp =>
    right
    obtain ⟨key, f, hf, rfl, rfl⟩ := Actor.udpPeer_eq_some hpeer
    obtain ⟨u, hu, howner⟩ := hinv.sys.actor.udpSocket hf
    have hkey := hinv.keyed.flows key f hf
    obtain ⟨key', hkey', hlocal⟩ := hinv.keyed.bound f.handle u hu
    rw [howner, hkey] at hkey'
    cases hkey'
    obtain ⟨-, hproto, hmem⟩ := hinv.keyed.opened f.id key hkey
    refine ⟨key, f, hf, rfl, ?_, hproto, hmem, fun key' f' hf' hhandle => ?_⟩
    · simp only [Actor.replies, hpeer, SocketSet.getUdp_eq_some.mpr hu, hlocal]
    · exact (hinv.sys.actor.wellFormed.eq_of_slot (Actor.entry_udp.mpr ⟨f', hf', rfl, hhandle⟩)
        (Actor.entry_udp.mpr ⟨f, hf, rfl, rfl⟩)).2.1

/-- A step of another task than the actor. -/
theorem step_other {e : Event} (he : ∀ env, e ≠ .handle env) (sender : SocketAddr) :
    t.step (e, sender) = (t.sys.step e).map fun sys =>
      { t with
        sys := sys
        senders :=
          if sys.inbox.length = t.sys.inbox.length then t.senders
          else t.senders ++ [sender] } := by
  cases e with
  | handle env => exact absurd rfl (he env)
  | _ => rfl

theorem other_spec (hinv : t.Inv) {e : Event} (he : ∀ env, e ≠ .handle env) {sender : SocketAddr}
    (h : t.step (e, sender) = some t') :
    t'.Inv ∧ Grows t t' ∧ FromDestination t (e, sender) ∧ t'.fed = t.fed := by
  rw [step_other he] at h
  obtain ⟨sys, hsys, rfl⟩ := Option.map_eq_some_iff.mp h
  obtain ⟨hsame, hinbox⟩ := System.step_sameUdp he hsys
  refine ⟨⟨System.step_inv hinv.sys trivial hsys, ?_, hinv.keyed.sameUdp hsame, fun r hr => ?_⟩,
    ⟨fun _ _ => rfl, fun _ hkey => hkey⟩, ?_, rfl⟩
  · have haligned := hinv.aligned
    dsimp only
    rcases hinbox with hinbox | ⟨m, hinbox⟩
    · simp [hinbox, haligned]
    · simp [hinbox, haligned]
  · rw [hsame.next]
    exact hinv.fed r hr
  · unfold FromDestination
    split
    · rename_i henv _ _
      exact absurd henv (he _)
    · trivial

/-- The actor handles a message. -/
theorem handle_spec (hinv : t.Inv) {env : Env} {x : SocketAddr}
    (h : t.step (.handle env, x) = some t') :
    t'.Inv ∧ Grows t t' ∧ ∃ m inbox sender senders, t.sys.inbox = m :: inbox ∧
      t.senders = sender :: senders ∧ t'.fed = t.fed ++ t.sys.actor.replies sender m := by
  obtain ⟨sys, hsys, rfl⟩ := Option.map_eq_some_iff.mp h
  have hsysInv := System.step_inv hinv.sys trivial hsys
  simp only [System.step] at hsys
  split at hsys
  · cases hsys
  have haligned := hinv.aligned
  cases hinbox : t.sys.inbox with
  | nil => simp [System.handle, hinbox] at hsys
  | cons m inbox =>
    cases hsenders : t.senders with
    | nil => simp [hinbox, hsenders] at haligned
    | cons sender senders =>
      obtain ⟨hrest, hactor⟩ := System.handle_sameUdp hinv.sys hinbox hsys
      have halign : senders.length = sys.inbox.length := by
        rw [hrest]
        simpa [hinbox, hsenders] using haligned
      obtain ⟨hkeyed, hgrows⟩ := handled_keyed hinv sender hactor
      refine ⟨⟨hsysInv, by simpa [handled, hsenders] using halign, hkeyed, fun r hr => ?_⟩,
        hgrows, m, inbox, sender, senders, rfl, rfl, rfl⟩
      refine Nat.lt_of_lt_of_le ?_ hactor.next_le
      rcases List.mem_append.mp hr with hr | hr
      · exact hinv.fed r hr
      · cases m with
        | udpReply origin handle data =>
          have hlinked : t.sys.actor.UdpLinked origin handle :=
            hinv.sys.inbox (.udpReply origin handle data) (by simp [hinbox])
          rcases replies_spec hinv origin sender handle data with
            ⟨hnil, -⟩ | ⟨key, f, -, -, hreply, -⟩
          · rw [hnil] at hr
            cases hr
          · rw [hreply, List.mem_singleton] at hr
            rw [hr]
            exact hlinked.1
        | _ => cases hr

/-- **What a step does.**  The keys of flows stay, and the replies grow by those of the
message that is handled. -/
theorem step_spec (hinv : t.Inv) {e : Event × SocketAddr} (h : t.step e = some t') :
    t'.Inv ∧ Grows t t' ∧
      ((FromDestination t e ∧ t'.fed = t.fed) ∨
        ∃ env m inbox sender senders, e.1 = .handle env ∧ t.sys.inbox = m :: inbox ∧
          t.senders = sender :: senders ∧ t'.fed = t.fed ++ t.sys.actor.replies sender m) := by
  obtain ⟨e, x⟩ := e
  rcases Classical.em (∃ env, e = .handle env) with ⟨env, rfl⟩ | hne
  · obtain ⟨hinv', hgrows, m, inbox, sender, senders, hinbox, hsenders, hfed⟩ :=
      handle_spec hinv h
    exact ⟨hinv', hgrows, .inr ⟨env, m, inbox, sender, senders, rfl, hinbox, hsenders, hfed⟩⟩
  · obtain ⟨hinv', hgrows, hfrom, hfed⟩ := other_spec hinv (fun env heq => hne ⟨env, heq⟩) h
    exact ⟨hinv', hgrows, .inl ⟨hfrom, hfed⟩⟩

theorem step_inv : Preserves step (fun _ _ => True) Inv :=
  fun hinv _ h => (step_spec hinv h).1

/-- A reply is never taken back, and the key of its flow stays. -/
theorem translated_of_step (hinv : t.Inv) {e : Event × SocketAddr} (h : t.step e = some t')
    (ht' : t'.Translated) : t.Translated := by
  obtain ⟨-, hgrows, hfed⟩ := step_spec hinv h
  intro r hr
  have hmem : r ∈ t'.fed := by
    rcases hfed with ⟨-, hfed⟩ | ⟨_, _, _, _, _, -, -, -, hfed⟩
    · rwa [hfed]
    · rw [hfed]
      exact List.mem_append_left _ hr
  obtain ⟨hsender, hopened, -⟩ := ht' r hmem
  rw [hgrows.opened _ (hinv.fed r hr)] at hopened
  exact ⟨hsender, hopened, (hinv.keyed.opened _ _ hopened).2.2⟩

/-- What was translated stays so while keys and packets are added. -/
theorem Translated.grows (hinv : t.Inv) (ht : t.Translated) (hgrows : Grows t t') :
    ∀ r ∈ t.fed, r.sender = r.bound ∧ t'.opened r.origin = some ⟨17, r.towards, r.bound⟩ ∧
      ⟨17, r.towards, r.bound⟩ ∈ t'.inbound := by
  intro r hr
  obtain ⟨hsender, hopened, hmem⟩ := ht r hr
  exact ⟨hsender, by rw [hgrows.opened _ (hinv.fed r hr), hopened], hgrows.inbound _ hmem⟩

/-- **One message.**  From a translated state a step leads to one exactly if the reply that
is handled comes from the destination. -/
theorem translated_step_iff (hinv : t.Inv) (ht : t.Translated) {e : Event × SocketAddr}
    (h : t.step e = some t') : t'.Translated ↔ FromDestination t e := by
  obtain ⟨-, hgrows,
      ⟨hfrom, hfed⟩ | ⟨env, m, inbox, sender, senders, he, hinbox, hsenders, hfed⟩⟩ :=
    step_spec hinv h
  · refine iff_of_true (fun r hr => ht.grows hinv hgrows r ?_) hfrom
    rwa [hfed] at hr
  · obtain ⟨e, x⟩ := e
    cases he
    cases m with
    | udpReply origin handle data =>
      have hok : FromDestination t (.handle env, x) ↔
          ∀ key f, t.sys.actor.udpFlows.lookup key = some f → f.handle = handle →
            t.opened origin = some key ∧ sender = key.dst := by
        simp only [FromDestination, hinbox, hsenders]
      rw [hok]
      rcases replies_spec hinv origin sender handle data with
        ⟨hnil, hnone⟩ | ⟨key, f, hf, hh, hreply, hproto, hmem, hunique⟩
      · refine iff_of_true (fun r hr => ht.grows hinv hgrows r ?_)
          fun key f hf hh => absurd hh (hnone key f hf)
        rwa [hfed, hnil, List.append_nil] at hr
      · have hlinked : t.sys.actor.UdpLinked origin handle :=
          hinv.sys.inbox (.udpReply origin handle data) (by simp [hinbox])
        have hkey : (⟨17, key.src, key.dst⟩ : FlowKey) = key := by rw [← hproto]
        have hopened := hgrows.opened origin hlinked.1
        rw [hreply] at hfed
        constructor
        · intro ht' key' f' hf' hh'
          have hnew : ⟨origin, sender, data, key.src, key.dst⟩ ∈ t'.fed := by
            rw [hfed]
            exact List.mem_append_right _ (List.mem_singleton_self _)
          obtain ⟨hsender, horigin, -⟩ := ht' _ hnew
          rw [hopened, hkey] at horigin
          rw [hunique key' f' hf' hh']
          exact ⟨horigin, hsender⟩
        · intro hok r hr
          obtain ⟨horigin, hsender⟩ := hok key f hf hh
          rw [hfed] at hr
          rcases List.mem_append.mp hr with hr | hr
          · exact ht.grows hinv hgrows r hr
          · rw [List.mem_singleton.mp hr, hkey, hopened]
            exact ⟨hsender, horigin, hgrows.inbound key hmem⟩
    | _ =>
      refine iff_of_true (fun r hr => ht.grows hinv hgrows r ?_)
        (by simp [FromDestination, hinbox])
      rw [hfed] at hr
      exact (List.mem_append.mp hr).resolve_right fun hno => by cases hno

/-- **Address translation.**  In every run of a peer's stack every reply that is fed back
towards a source through a socket bound to a destination came from that destination
to the relay of a flow in which the source had sent to it, exactly when every reply
that is handled while a UDP flow has its handle was received by the relay of a flow with
the same key, from the destination. -/
theorem translated_iff (es : List (Event × SocketAddr)) (t : Traffic)
    (h : run step init es = some t) : t.Translated ↔ Every step FromDestination init es :=
  good_iff_every step_inv (fun hinv hstep ht' => translated_of_step hinv hstep ht')
    (fun hinv ht hstep => translated_step_iff hinv ht hstep) inv_init (fun _ hr => by cases hr) h

/-- A poll queues no datagram but that of the packet, on the first socket of the set that is
bound to its destination. -/
def Dispatched (t : Traffic) (e : Event × SocketAddr) : Prop :=
  match e.1, t.sys.inbox with
  | .handle env, m :: _ =>
      let a := match m with
        | .inbound pkt => t.sys.actor.ensureFlow t.sys.now env.slot pkt
        | _ => t.sys.actor
      ∀ h u, a.sockets h = some (.udp u) → (env.effects h).datagrams ≠ [] →
        ∃ key data, m.key = some key ∧ (env.effects h).datagrams = [(key.src, data)] ∧
          u.localEndpoint = key.dst ∧
          ∀ h' < h, ∀ u', a.sockets h' = some (.udp u') → u'.localEndpoint ≠ key.dst
  | _, _ => True

end Traffic

/-! ## Instances -/

/-- The name server of the query. -/
def nameServer : SocketAddr := ⟨.v4 (.new 192 0 2 1), 53⟩

/-- The query and its reply, which comes from an address. -/
def answeredRun (sender : SocketAddr) : List (Event × SocketAddr) :=
  dnsRun.map fun e => (e, sender)

/-- The reply of the name server goes back. -/
theorem translated_iff_nameServer :
    Every Traffic.step Traffic.FromDestination .init (answeredRun nameServer) := by
  have hend : (run Traffic.step .init (answeredRun nameServer)).map (fun t =>
      (t.fed, t.opened 0, t.inbound)) =
      some ([⟨0, nameServer, [3, 4], ⟨.v4 (.new 10 0 0 2), 200⟩, nameServer⟩],
        some ⟨17, ⟨.v4 (.new 10 0 0 2), 200⟩, nameServer⟩,
        [⟨17, ⟨.v4 (.new 10 0 0 2), 200⟩, nameServer⟩]) := by decide +kernel
  obtain ⟨t, hrun, ht⟩ := Option.map_eq_some_iff.mp hend
  simp only [Prod.mk.injEq] at ht
  obtain ⟨hfed, hopened, hinbound⟩ := ht
  refine (Traffic.translated_iff _ t hrun).mp fun r hr => ?_
  rw [hfed, List.mem_singleton] at hr
  subst hr
  exact ⟨rfl, hopened, by rw [hinbound]; exact List.mem_singleton_self _⟩

/-- Another host. -/
def otherHost : SocketAddr := ⟨.v4 (.new 198 51 100 7), 9999⟩

/-- The query is queued on the only socket, and the poll of the reply queues nothing. -/
theorem dispatched_otherHost :
    Every Traffic.step Traffic.Dispatched .init (answeredRun otherHost) := by
  have hsilent : ∀ t : Traffic, t.Dispatched (.handle (sampleEnv 1 .listen []), otherHost) := by
    intro t
    cases hinbox : t.sys.inbox with
    | nil => simp [Traffic.Dispatched, hinbox]
    | cons m inbox => simp [Traffic.Dispatched, hinbox, sampleEnv]
  have htail : ∀ t, ∀ e ∈ (answeredRun otherHost).drop 2, Traffic.Dispatched t e := by
    intro t e he
    simp only [answeredRun, dnsRun, turn, List.replicate, List.cons_append, List.nil_append,
      List.map_cons, List.map_nil, List.drop_succ_cons, List.drop_zero, List.mem_cons,
      List.not_mem_nil, or_false] at he
    rcases he with rfl | rfl | rfl | rfl | rfl | rfl | rfl | rfl
    case inr.inr.inr.inr.inr.inr.inr => exact hsilent t
    all_goals trivial
  refine ⟨trivial, fun t₁ h₁ => ⟨?_, fun t₂ _ => every_of_forall htail t₂⟩⟩
  obtain rfl := Option.some.inj h₁
  intro h u hu _
  rcases Actor.udp_of_put hu with ⟨rfl, heq⟩ | hold
  · cases heq
    exact ⟨⟨17, ⟨.v4 (.new 10 0 0 2), 200⟩, nameServer⟩, [1, 2], by decide +kernel, rfl,
      by decide +kernel, fun h' hh' => absurd hh' (Nat.not_lt_zero h')⟩
  · cases hold

/-- A datagram of another host goes back as if it were of the name server. -/
theorem not_translated_otherHost :
    ¬ ∀ es t, run Traffic.step .init es = some t →
      Every Traffic.step Traffic.Dispatched .init es → t.Translated := by
  intro hall
  have hend : (run Traffic.step .init (answeredRun otherHost)).map (·.fed) =
      some [⟨0, otherHost, [3, 4], ⟨.v4 (.new 10 0 0 2), 200⟩, nameServer⟩] := by decide +kernel
  obtain ⟨t, hrun, hfed⟩ := Option.map_eq_some_iff.mp hend
  have hsender := (hall _ t hrun (dispatched_otherHost)
    ⟨0, otherHost, [3, 4], ⟨.v4 (.new 10 0 0 2), 200⟩, nameServer⟩ (by simp [hfed])).1
  exact absurd hsender (by decide)

end Ruproxy.Wireguard
