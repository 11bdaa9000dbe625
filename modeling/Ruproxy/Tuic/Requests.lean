/-
  Tuic/Requests.lean --- what the streams and datagrams of a client ask for.

  A packet comes as a datagram or on a stream of its own, a Connect command on a
  bidirectional stream, an Authenticate command on a unidirectional one.  `Script` says what
  the server may do for one of them: it is what the handlers do when nothing else runs.
-/
import Ruproxy.Foundation.Ledger
import Ruproxy.Tuic.Codec
import Ruproxy.Tuic.UdpSession

set_option autoImplicit false

namespace Ruproxy.Tuic

open Ruproxy.Foundation
open Ruproxy.Foundation.Transition

/-! ## Commands on streams -/

theorem readAuthInfo_eq_ok {r rest : Bytes} {cmd : Command}
    (h : readAuthInfo r = .ok (cmd, rest)) :
    ∃ auth : AuthInfo, cmd = .authenticate auth ∧ auth.uuid ++ auth.token ++ rest = r := by
  obtain ⟨b, r', -, rfl, hcmd⟩ := read_bind_eq_ok.mp h
  cases hcmd
  exact ⟨⟨b.take 16, b.drop 16⟩, rfl, by rw [List.take_append_drop]⟩

theorem readAuthInfo_ne_connect {r rest : Bytes} {addr : Address} :
    readAuthInfo r ≠ .ok (.connect addr, rest) := by
  intro h
  obtain ⟨auth, hcmd, -⟩ := readAuthInfo_eq_ok h
  cases hcmd

theorem readDissociate_ne_authenticate {r rest : Bytes} {auth : AuthInfo} :
    readDissociate r ≠ .ok (.authenticate auth, rest) := by
  intro h
  obtain ⟨buf, r', -, -, h⟩ := read_bind_eq_ok.mp h
  dsimp only at h
  split at h
  · cases h
  · cases h

theorem readDissociate_ne_connect {r rest : Bytes} {addr : Address} :
    readDissociate r ≠ .ok (.connect addr, rest) := by
  intro h
  obtain ⟨buf, r', -, -, h⟩ := read_bind_eq_ok.mp h
  dsimp only at h
  split at h
  · cases h
  · cases h

/-- An Authenticate command is parsed from the streams that begin with it. -/
theorem parseCommandWithPrefix_authenticate {ver cmd : UInt8} {recv rest : Bytes}
    {auth : AuthInfo} (h : parseCommandWithPrefix ver cmd recv = .ok (.authenticate auth, rest)) :
    version :: cmdAuthenticate :: (auth.uuid ++ auth.token ++ rest) = ver :: cmd :: recv := by
  unfold parseCommandWithPrefix at h
  split at h
  · cases h
  rename_i hver
  split at h
  · rename_i hcmd
    obtain ⟨auth', hauth, hrecv⟩ := readAuthInfo_eq_ok (Except.mapError_eq_ok.mp h)
    cases hauth
    rw [hrecv, hcmd, not_not.mp hver]
  split at h
  · have h := Except.mapError_eq_ok.mp h
    cases hread : Address.readFrom recv with
    | error e => rw [hread] at h; cases h
    | ok r => rw [hread] at h; cases h
  split at h
  · obtain ⟨info, -, -, hinfo⟩ := readPacketInfo_eq_ok_iff.mp (Except.mapError_eq_ok.mp h)
    cases hinfo
  split at h
  · exact absurd (Except.mapError_eq_ok.mp h) readDissociate_ne_authenticate
  split at h
  · cases h
  · cases h

/-- A Connect command is parsed from the streams that begin with it. -/
theorem parseCommandWithPrefix_connect_iff {ver cmd : UInt8} {recv rest : Bytes}
    {addr : Address} : parseCommandWithPrefix ver cmd recv = .ok (.connect addr, rest) ↔
      addr.Fits ∧ version :: cmdConnect :: (addr.toBytes ++ rest) = ver :: cmd :: recv := by
  have hread : ((Address.readFrom recv).map fun p => (Command.connect p.1, p.2)) =
      .ok (.connect addr, rest) ↔ addr.Fits ∧ addr.toBytes ++ rest = recv := by
    rw [← @readAddress_eq_ok_iff (fun t => "unknown address type: " ++ dec t.toNat)]
    change Except.map _ (Address.readFrom recv) = _ ↔ Address.readFrom recv = _
    cases Address.readFrom recv with
    | error e => simp [Except.map]
    | ok r => simp [Except.map, Prod.ext_iff]
  unfold parseCommandWithPrefix
  constructor
  · intro h
    split at h
    · cases h
    rename_i hver
    split at h
    · exact absurd (Except.mapError_eq_ok.mp h) readAuthInfo_ne_connect
    split at h
    · rename_i hcmd
      obtain ⟨hfits, hrecv⟩ := hread.mp (Except.mapError_eq_ok.mp h)
      exact ⟨hfits, by rw [hrecv, hcmd, not_not.mp hver]⟩
    split at h
    · obtain ⟨info, -, -, hinfo⟩ := readPacketInfo_eq_ok_iff.mp (Except.mapError_eq_ok.mp h)
      cases hinfo
    split at h
    · exact absurd (Except.mapError_eq_ok.mp h) readDissociate_ne_connect
    split at h
    · cases h
    · cases h
  · rintro ⟨hfits, hbytes⟩
    obtain ⟨hver, hbytes⟩ := List.cons.inj hbytes
    obtain ⟨hcmd, hrecv⟩ := List.cons.inj hbytes
    rw [← hver, ← hcmd]
    exact Except.mapError_eq_ok.mpr (hread.mpr ⟨hfits, hrecv⟩)

/-! ## Requests -/

namespace Event

/-- The event brings a packet: a datagram with the payload behind its command, or a stream
that has the command and as much payload as it announces. -/
def Carries (info : PacketInfo) (payload : Bytes) : Event → Prop
  | .readDatagram _ dg => info.addr.Fits ∧ info.toBytes ++ payload = dg
  | .acceptUni _ recv =>
      info.addr.Fits ∧ payload.length = info.size.toNat ∧ info.toBytes ++ payload <+: recv
  | _ => False

/-- The event brings a Connect command. -/
def Connects (addr : Address) : Event → Prop
  | .acceptBi _ recv => addr.Fits ∧ version :: cmdConnect :: addr.toBytes <+: recv
  | _ => False

/-- The event brings an Authenticate command. -/
def Authenticates (auth : AuthInfo) : Event → Prop
  | .acceptUni _ recv => version :: cmdAuthenticate :: (auth.uuid ++ auth.token) <+: recv
  | _ => False

/-- The relay mode of a packet that the event brings. -/
def mode : Event → Option UdpMode
  | .readDatagram _ _ => some .native
  | .acceptUni _ _ => some .quic
  | _ => none

/-- The event asks for nothing outside. -/
def Idle (e : Event) : Prop :=
  (∀ info payload, ¬ e.Carries info payload) ∧ ∀ addr, ¬ e.Connects addr

/-- The handler that the event spawns. -/
def handler : Event → Option TaskId
  | .acceptUni t _ | .acceptBi t _ | .readDatagram t _ => some t
  | _ => none

/-- A request has a handler. -/
theorem idle_of_handler {e : Event} (h : e.handler = none) : e.Idle := by
  cases e with
  | acceptUni | acceptBi | readDatagram => cases h
  | _ => exact ⟨fun _ _ => id, fun _ => id⟩

end Event

/-- The handler of the request at place `i` is the last that was spawned as `t`. -/
def HandledBy (es : List Event) (i : Nat) (t : TaskId) : Prop :=
  es[i]?.bind Event.handler = some t ∧ ∀ k, i < k → es[k]?.bind Event.handler ≠ some t

theorem HandledBy.lt {es : List Event} {i : Nat} {t : TaskId} (h : HandledBy es i t) :
    i < es.length := by
  obtain ⟨e, he, -⟩ := Option.bind_eq_some_iff.mp h.1
  exact (List.getElem?_eq_some_iff.mp he).1

/-- It stays so until another one is. -/
theorem HandledBy.concat {es : List Event} {i : Nat} {t : TaskId} (h : HandledBy es i t)
    {ev : Event} (hev : ev.handler ≠ some t) : HandledBy (es ++ [ev]) i t := by
  refine ⟨by rw [List.getElem?_append_left h.lt]; exact h.1, fun k hk heq => ?_⟩
  obtain ⟨e, he, ht⟩ := Option.bind_eq_some_iff.mp heq
  by_cases hlt : k < es.length
  · rw [List.getElem?_append_left hlt] at he
    exact h.2 k hk (Option.bind_eq_some_iff.mpr ⟨e, he, ht⟩)
  · rw [List.getElem?_append_right (Nat.le_of_not_lt hlt), List.getElem?_singleton] at he
    obtain ⟨-, hlast⟩ := Option.ite_none_right_eq_some.mp he
    obtain rfl := Option.some.inj hlast
    exact hev ht

/-- A new request has its handler. -/
theorem handledBy_last (es : List Event) {ev : Event} {t : TaskId} (hev : ev.handler = some t) :
    HandledBy (es ++ [ev]) es.length t := by
  refine ⟨by rw [List.getElem?_concat_length]; exact hev, fun k hk heq => ?_⟩
  rw [List.getElem?_eq_none (by rw [List.length_append, List.length_singleton]; omega)] at heq
  cases heq

theorem carries_acceptUni_iff {t : TaskId} {recv payload : Bytes} {info : PacketInfo} :
    (Event.acceptUni t recv).Carries info payload ↔
      ∃ rest, readFromSync recv = .ok (.packet info, rest) ∧
        readExact info.size.toNat rest = some (payload, rest.drop info.size.toNat) := by
  constructor
  · rintro ⟨hfits, hlen, rest, hrecv⟩
    refine ⟨payload ++ rest, readFromSync_packet_iff.mpr ⟨hfits, ?_⟩, ?_⟩
    · rw [← hrecv, List.append_assoc]
    · rw [readExact_append hlen, ← hlen, List.drop_left]
  · rintro ⟨rest, hread, hpayload⟩
    obtain ⟨hfits, hrecv⟩ := readFromSync_packet_iff.mp hread
    obtain ⟨hrest, hlen⟩ := readExact_eq_some.mp hpayload
    refine ⟨hfits, hlen, rest.drop info.size.toNat, ?_⟩
    rw [List.append_assoc, ← hrest, hrecv]

/-- An event brings one packet at most. -/
theorem Event.Carries.unique {e : Event} {info info' : PacketInfo} {payload payload' : Bytes}
    (h : e.Carries info payload) (h' : e.Carries info' payload') :
    info = info' ∧ payload = payload' := by
  cases e with
  | readDatagram t dg =>
    have heq := (readFromSync_packet_iff.mpr h).symm.trans (readFromSync_packet_iff.mpr h')
    simp only [Except.ok.injEq, Prod.mk.injEq, Command.packet.injEq] at heq
    exact heq
  | acceptUni t recv =>
    obtain ⟨rest, hread, hpayload⟩ := carries_acceptUni_iff.mp h
    obtain ⟨rest', hread', hpayload'⟩ := carries_acceptUni_iff.mp h'
    rw [hread] at hread'
    simp only [Except.ok.injEq, Prod.mk.injEq, Command.packet.injEq] at hread'
    obtain ⟨rfl, rfl⟩ := hread'
    rw [hpayload] at hpayload'
    simp only [Option.some.injEq, Prod.mk.injEq, and_true] at hpayload'
    exact ⟨rfl, hpayload'⟩
  | _ => exact h.elim

/-- An event brings one Connect command at most. -/
theorem Event.Connects.unique {e : Event} {addr addr' : Address} (h : e.Connects addr)
    (h' : e.Connects addr') : addr = addr' := by
  cases e with
  | acceptBi t recv =>
    obtain ⟨hfits, rest, hrecv⟩ := h
    obtain ⟨hfits', rest', hrecv'⟩ := h'
    have heq : addr.toBytes ++ rest = addr'.toBytes ++ rest' :=
      (List.cons.inj (List.cons.inj (hrecv.trans hrecv'.symm)).2).2
    have hread := readAddress_toBytes (fun _ => "") hfits rest
    rw [heq, readAddress_toBytes (fun _ => "") hfits' rest'] at hread
    simp only [Except.ok.injEq, Prod.mk.injEq] at hread
    exact hread.1.symm
  | _ => exact h.elim

/-- A packet is no Connect command. -/
theorem Event.Carries.not_connects {e : Event} {info : PacketInfo} {payload : Bytes}
    (h : e.Carries info payload) (addr : Address) : ¬ e.Connects addr := by
  cases e with
  | readDatagram | acceptUni => exact id
  | _ => exact h.elim

/-- A unidirectional stream whose command is no packet asks for nothing outside. -/
theorem idle_acceptUni {t : TaskId} {recv : Bytes}
    (h : ∀ info payload, ¬ (Event.acceptUni t recv).Carries info payload) :
    (Event.acceptUni t recv).Idle := ⟨h, fun _ => id⟩

/-- So does a bidirectional one without a Connect command. -/
theorem idle_acceptBi {t : TaskId} {recv : Bytes}
    (h : ∀ addr, ¬ (Event.acceptBi t recv).Connects addr) : (Event.acceptBi t recv).Idle :=
  ⟨fun _ _ => id, h⟩

/-- And a datagram that is no packet. -/
theorem idle_readDatagram {t : TaskId} {dg : Bytes}
    (h : ∀ info payload, ¬ (Event.readDatagram t dg).Carries info payload) :
    (Event.readDatagram t dg).Idle := ⟨h, fun _ => id⟩

/-- A packet on a stream begins like one. -/
theorem Event.Carries.exists_body {t : TaskId} {recv payload : Bytes} {info : PacketInfo}
    (h : (Event.acceptUni t recv).Carries info payload) :
    ∃ rest, info.addr.Fits ∧ recv = version :: cmdPacket :: (info.body ++ rest) ∧
      payload <+: rest := by
  obtain ⟨hfits, -, rest, hrecv⟩ := h
  exact ⟨payload ++ rest, hfits, by rw [← hrecv]; simp [PacketInfo.toBytes],
    List.prefix_append ..⟩

/-! ## What is done for a request -/

/-- The name resolution that an address needs. -/
def Address.lookups : Address → List Action
  | .domain name port => [.resolve name port]
  | .none | .socket _ => []

/-- The socket addresses that the handler of the request at place `i` of the events knows for
its address: a domain has none before `lookup_host` has answered this handler. -/
inductive Answer (es : List Event) (i : Nat) : Address → List SocketAddr → Prop where
  | unknown (addr : Address) : Answer es i addr []
  | socket (addr : SocketAddr) : Answer es i (.socket addr) [addr]
  | domain (name : String) (port : UInt16) (addrs : List SocketAddr) (t : TaskId) (j : Nat)
      (ht : HandledBy (es.take j) i t) (hj : es[j]? = some (.resolved t (some addrs))) :
      Answer es i (.domain name port) addrs

namespace Connection

/-- The session stands under the association id. -/
def SessionOf (s : Connection) (g : SessionId) (assocId : UInt16) : Prop :=
  ∃ x, s.sessions g = some x ∧ x.assocId = assocId

end Connection

/-- What the server did for the request `e` at place `i` of the events.  It tells of an
Authenticate command whether it was refused; it dials the addresses of a Connect command in
their order; and it sends an unfragmented packet once at most, from a session of its
association id, to the first address known, for which it may have opened the session. -/
inductive Script (es : List Event) (s : Connection) (i : Nat) (e : Event) : List Action → Prop where
  | silent : Script es s i e []
  | authenticate (auth : AuthInfo) (h : e.Authenticates auth) (refused : List Action)
      (hrefused : refused = [] ∨ refused = [.close "auth failed"]) :
      Script es s i e (.authenticate auth.uuid auth.token :: refused)
  | connect (addr : Address) (answer dialed : List SocketAddr) (h : e.Connects addr)
      (hanswer : Answer es i addr answer) (hdialed : dialed <+: answer) :
      Script es s i e (addr.lookups ++ dialed.map .dial)
  | packet (info : PacketInfo) (payload : Bytes) (answer : List SocketAddr)
      (opened sent : List Action) (h : e.Carries info payload) (hfrag : info.fragTotal = 1)
      (hanswer : Answer es i info.addr answer)
      (hopened : opened = [] ∨ opened = [.newUdpSession info.assocId])
      (hsent : sent = [] ∨ ∃ g target, s.SessionOf g info.assocId ∧ answer.head? = some target ∧
        sent = [.udpSend g payload (unmap target)]) :
      Script es s i e (info.addr.lookups ++ (opened ++ sent))

/-- Everything was done that the request asks for: an unfragmented packet with an address
was sent, an address to connect to was dialled. -/
structure Performed (e : Event) (acts : List Action) : Prop where
  packet : ∀ info payload, e.Carries info payload → info.fragTotal = 1 → info.addr ≠ .none →
    ∃ g target, .udpSend g payload target ∈ acts
  connect : ∀ addr, e.Connects addr → addr ≠ .none → ∃ sa, .dial sa ∈ acts

theorem Event.Idle.performed {e : Event} (h : e.Idle) (acts : List Action) : Performed e acts where
  packet info payload hcarries := absurd hcarries (h.1 info payload)
  connect addr hconnects := absurd hconnects (h.2 addr)

/-! ## Later states -/

namespace Connection

/-- Sessions stay, under their association ids. -/
def Grows (s s' : Connection) : Prop :=
  ∀ g assocId, s.SessionOf g assocId → s'.SessionOf g assocId

theorem step_grows {c : Config} {s s' : Connection} {e : Event} (hinv : s.SessionInv)
    (h : step c s e = some s') : s.Grows s' := by
  -- the session that a step changes keeps its association id
  have hupdate : ∀ {g : SessionId} {x x' : UdpSession}, s.sessions g = some x →
      s'.sessions = Function.update s.sessions g (some x') → x'.assocId = x.assocId →
      s.Grows s' := by
    intro g x x' hx hsessions hassoc g' assocId ⟨y, hy, hyassoc⟩
    unfold SessionOf
    rw [hsessions]
    by_cases heq : g' = g
    · subst heq
      rw [hx] at hy
      obtain rfl := Option.some.inj hy
      exact ⟨x', Function.update_self .., hassoc.trans hyassoc⟩
    · exact ⟨y, (Function.update_of_ne heq ..).trans hy, hyassoc⟩
  cases step_touches hinv h with
  | same hsame _ =>
    intro g assocId ⟨y, hy, hyassoc⟩
    exact ⟨y, by rw [hsame.sessions]; exact hy, hyassoc⟩
  | created assocId x _ _ _ _ _ hsessions _ =>
    intro g assocId' ⟨y, hy, hyassoc⟩
    have hne : g ≠ s.nextSession := by
      rintro rfl
      rw [hinv.fresh _ (Nat.le_refl _)] at hy
      cases hy
    exact ⟨y, by rw [hsessions, Function.update_of_ne hne]; exact hy, hyassoc⟩
  | dissociated assocId g x _ hx _ _ hsessions _ => exact hupdate hx hsessions rfl
  | refreshed g x l hx _ _ _ hsessions _ => exact hupdate hx hsessions rfl
  | ticked g x hx _ _ hsessions _ => exact hupdate hx hsessions rfl
  | stopped g x hx _ _ _ hsessions _ => exact hupdate hx hsessions rfl

end Connection

theorem getElem?_concat {es : List Event} {j : Nat} {e : Event} (h : es[j]? = some e) (ev : Event) :
    (es ++ [ev])[j]? = some e := by
  rw [List.getElem?_append_left (List.getElem?_eq_some_iff.mp h).1, h]

theorem Answer.mono {es : List Event} {i : Nat} {addr : Address} {answer : List SocketAddr}
    (h : Answer es i addr answer) (ev : Event) : Answer (es ++ [ev]) i addr answer := by
  cases h with
  | unknown => exact .unknown _
  | socket addr => exact .socket addr
  | domain name port _ t j ht hj =>
    refine .domain name port answer t j ?_ (getElem?_concat hj ev)
    rwa [List.take_append_of_le_length (Nat.le_of_lt (List.getElem?_eq_some_iff.mp hj).1)]

theorem Script.mono {es : List Event} {s s' : Connection} {i : Nat} {e : Event}
    {acts : List Action} (h : Script es s i e acts) (hgrows : s.Grows s') (ev : Event) :
    Script (es ++ [ev]) s' i e acts := by
  cases h with
  | silent => exact .silent
  | authenticate auth h refused hrefused => exact .authenticate auth h refused hrefused
  | connect addr answer dialed h hanswer hdialed =>
    exact .connect addr answer dialed h (hanswer.mono ev) hdialed
  | packet info payload answer opened sent h hfrag hanswer hopened hsent =>
    refine .packet info payload answer opened sent h hfrag (hanswer.mono ev) hopened ?_
    refine hsent.imp_right ?_
    rintro ⟨g, target, hg, htarget, rfl⟩
    exact ⟨g, target, hgrows g _ hg, htarget, rfl⟩

end Ruproxy.Tuic
