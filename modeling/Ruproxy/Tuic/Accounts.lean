/-
  Tuic/Accounts.lean --- every step keeps the ledger.

  One lemma for each handler says what it writes for its request before it goes on or ends.
  Together they carry the ledger through every run: the log of a connection is an
  interleaving of the scripts of its requests.
-/
import Ruproxy.Tuic.Interleaving

set_option autoImplicit false

namespace Ruproxy.Tuic

open Ruproxy.Foundation
open Ruproxy.Foundation.Transition

/-! ## The front of the handlers -/

namespace Connection

/-- `handle_uni` reads a packet, or it is about nothing outside. -/
theorem handleUni_cases (s : Connection) (t : TaskId) (recv : Bytes) :
    (∃ info rest, info.addr.Fits ∧ recv = info.toBytes ++ rest ∧
      s.handleUni t recv = s.setTask t (.gate .outside (.packetStream info rest))) ∨
    (Event.acceptUni t recv).Idle ∧
      ((∃ auth, (Event.acceptUni t recv).Authenticates auth ∧
          s.handleUni t recv = s.setTask t (.authenticate auth)) ∨
        (∃ assocId, s.handleUni t recv = s.setTask t (.dissociate assocId)) ∨
        s.handleUni t recv = s.endTask t) := by
  unfold handleUni
  split
  · rename_i ver cmd recv' hread
    obtain ⟨rfl, -⟩ := readExact_eq_some.mp hread
    -- a packet would be parsed as one
    have hcarries : ∀ {info payload},
        (Event.acceptUni t ([ver, cmd] ++ recv')).Carries info payload →
        isTuicPrefix ver cmd = true ∧
          ∃ rest, parseCommandWithPrefix ver cmd recv' = .ok (.packet info, rest) := by
      intro info payload h
      obtain ⟨rest, hfits, hrecv, -⟩ := h.exists_body
      refine ⟨?_, rest, parseCommandWithPrefix_packet_iff.mpr ⟨hfits, hrecv.symm⟩⟩
      obtain ⟨hver, hrest⟩ := List.cons.inj hrecv
      rw [hver, (List.cons.inj hrest).1]
      decide
    have hidle : (∀ info rest, parseCommandWithPrefix ver cmd recv' ≠ .ok (.packet info, rest)) →
        (Event.acceptUni t ([ver, cmd] ++ recv')).Idle := fun hne =>
      idle_acceptUni fun info payload h =>
        (hcarries h).2.elim fun rest hpacket => hne info rest hpacket
    split
    · split
      · rename_i auth rest hparse
        refine .inr ⟨hidle (by simp [hparse]), .inl ⟨auth, ⟨rest, ?_⟩, rfl⟩⟩
        have hrecv := parseCommandWithPrefix_authenticate hparse
        rwa [List.cons_append, List.cons_append]
      · rename_i info rest hparse
        obtain ⟨hfits, hrecv⟩ := parseCommandWithPrefix_packet_iff.mp hparse
        exact .inl ⟨info, rest, hfits, hrecv.symm, rfl⟩
      · rename_i assocId rest hparse
        exact .inr ⟨hidle (by simp [hparse]), .inr (.inl ⟨assocId, rfl⟩)⟩
      · rename_i other hauth hpacket hdissociate hparse
        refine .inr ⟨hidle fun info rest hne => ?_, .inr (.inr rfl)⟩
        rw [hparse] at hne
        exact hpacket info rest (Except.ok.inj hne)
      · rename_i hparse
        exact .inr ⟨hidle (by simp [hparse]), .inr (.inr rfl)⟩
    · rename_i hprefix
      exact .inr ⟨idle_acceptUni fun info payload h => hprefix (hcarries h).1, .inr (.inr rfl)⟩
  · rename_i hshort
    refine .inr ⟨idle_acceptUni fun info payload h => ?_, .inr (.inr rfl)⟩
    obtain ⟨rest, -, rfl, -⟩ := h.exists_body
    exact hshort version cmdPacket _ rfl

/-- `handle_bi` goes to the gate, or it is about nothing outside. -/
theorem handleBi_cases (s : Connection) (t : TaskId) (recv : Bytes) :
    (∃ ver cmd rest, recv = ver :: cmd :: rest ∧
      s.handleBi t recv = s.setTask t (.gate .outside (.bi ver cmd rest))) ∨
    (Event.acceptBi t recv).Idle ∧ s.handleBi t recv = s.endTask t := by
  unfold handleBi
  split
  · rename_i ver cmd rest hread
    obtain ⟨rfl, -⟩ := readExact_eq_some.mp hread
    split
    · exact .inl ⟨ver, cmd, rest, rfl, rfl⟩
    · rename_i hprefix
      refine .inr ⟨idle_acceptBi fun addr h => hprefix ?_, rfl⟩
      obtain ⟨-, rest', hrecv⟩ := h
      obtain ⟨hver, hrest⟩ := List.cons.inj hrecv
      rw [← hver, ← (List.cons.inj hrest).1]
      decide
  · rename_i hshort
    refine .inr ⟨idle_acceptBi fun addr h => ?_, rfl⟩
    obtain ⟨-, rest, rfl⟩ := h
    exact hshort version cmdConnect (addr.toBytes ++ rest) rfl

/-- `handle_datagram` goes to the gate, or it is about nothing outside. -/
theorem handleDatagram_cases (s : Connection) (t : TaskId) (dg : Bytes) :
    s.handleDatagram t dg = s.setTask t (.gate .outside (.datagram dg)) ∨
    (Event.readDatagram t dg).Idle ∧ s.handleDatagram t dg = s.endTask t := by
  unfold handleDatagram
  split
  · rename_i ver cmd rest
    split
    · exact .inl rfl
    · rename_i hprefix
      refine .inr ⟨idle_readDatagram fun info payload h => hprefix ?_, rfl⟩
      obtain ⟨hver, hrest⟩ := List.cons.inj h.2
      rw [← hver, ← (List.cons.inj hrest).1]
      decide
  · rename_i hshort
    refine .inr ⟨idle_readDatagram fun info payload h => ?_, rfl⟩
    exact hshort version cmdPacket (info.body ++ payload) h.2.symm

/-- `handle_authenticate` comes too late, or it accepts or refuses the command. -/
theorem handleAuthenticate_cases (c : Config) (s : Connection) (t : TaskId) (auth : AuthInfo) :
    handleAuthenticate c s t auth = s.endTask t ∨
    handleAuthenticate c s t auth =
      (s.record (.authenticate auth.uuid auth.token)).setTask t (.setUuid auth.uuid) ∨
    handleAuthenticate c s t auth =
      ((s.record (.authenticate auth.uuid auth.token)).record
        (.close "auth failed")).endTask t := by
  unfold handleAuthenticate
  dsimp only
  split
  · exact .inl rfl
  · refine .inr ?_
    split
    · split
      · exact .inl rfl
      · exact .inr rfl
    · rw [if_neg Bool.false_ne_true]
      exact .inr rfl

/-- A relay sends a datagram, or nothing yet. -/
theorem relayUdpToClient_own (s : Connection) (r : RelayId) (task : RelayTask) (sent : Bool) :
    ∃ as, (s.relayUdpToClient r task sent).log = s.log ++ as ∧
      (s.relayUdpToClient r task sent).tasks = s.tasks ∧ ∀ a ∈ as, a.ofServer := by
  unfold relayUdpToClient
  dsimp only
  repeat' split
  all_goals first
    | exact ⟨[], (List.append_nil _).symm, rfl, List.forall_mem_nil _⟩
    | refine ⟨_, rfl, rfl, fun a ha => ?_⟩
      rw [List.mem_singleton.mp ha]
      trivial

/-- What stands behind the gate is a packet, a Connect command, or nothing outside. -/
theorem pass_cases (s : Connection) {t : TaskId} {e : Event} {k : Gated} (h : k.For t e) :
    (∃ info payload mode, e.Carries info payload ∧ e.mode = some mode ∧
      s.pass t k = s.setTask t (.packet info payload mode)) ∨
    (∃ addr, e.Connects addr ∧ s.pass t k = s.setTask t (.connect addr)) ∨
    e.Idle ∧ s.pass t k = s.endTask t := by
  cases k with
  | packetStream info recv =>
    obtain ⟨hfits, rfl⟩ := h
    unfold pass
    dsimp only
    split
    · rename_i payload rest hread
      obtain ⟨rfl, hlen⟩ := readExact_eq_some.mp hread
      refine .inl ⟨info, payload, .quic, ⟨hfits, hlen, rest, ?_⟩, rfl, rfl⟩
      rw [List.append_assoc]
    · rename_i hshort
      refine .inr (.inr ⟨idle_acceptUni fun info' payload h => ?_, rfl⟩)
      obtain ⟨rest, hread, hpayload⟩ := carries_acceptUni_iff.mp h
      have hinfo : readFromSync (info.toBytes ++ recv) = .ok (.packet info, recv) :=
        readFromSync_packet_iff.mpr ⟨hfits, rfl⟩
      rw [hread] at hinfo
      simp only [Except.ok.injEq, Prod.mk.injEq, Command.packet.injEq] at hinfo
      obtain ⟨rfl, rfl⟩ := hinfo
      rw [hpayload] at hshort
      cases hshort
  | bi ver cmd recv =>
    subst h
    unfold pass
    dsimp only
    split
    · rename_i addr rest hparse
      obtain ⟨hfits, hrecv⟩ := parseCommandWithPrefix_connect_iff.mp hparse
      exact .inr (.inl ⟨addr, ⟨hfits, rest, hrecv⟩, rfl⟩)
    · rename_i other hne hparse
      refine .inr (.inr ⟨idle_acceptBi fun addr h => ?_, rfl⟩)
      obtain ⟨hfits, rest, hrecv⟩ := h
      rw [parseCommandWithPrefix_connect_iff.mpr ⟨hfits, hrecv⟩] at hparse
      exact hne addr rest (Except.ok.inj hparse).symm
    · rename_i hparse
      refine .inr (.inr ⟨idle_acceptBi fun addr h => ?_, rfl⟩)
      obtain ⟨hfits, rest, hrecv⟩ := h
      rw [parseCommandWithPrefix_connect_iff.mpr ⟨hfits, hrecv⟩] at hparse
      cases hparse
  | datagram dg =>
    subst h
    by_cases hpacket : ∃ info rest, readFromSync dg = .ok (.packet info, rest)
    · obtain ⟨info, rest, hread⟩ := hpacket
      exact .inl ⟨info, rest, .native, readFromSync_packet_iff.mp hread, rfl,
        pass_datagram s t hread⟩
    · refine .inr (.inr ⟨idle_readDatagram fun info payload h => hpacket
        ⟨info, payload, readFromSync_packet_iff.mpr h⟩, ?_⟩)
      unfold pass
      dsimp only
      split
      · rename_i info hread
        obtain ⟨hfits, rest, hdg⟩ := readFromDatagram_packet_iff.mp hread
        exact absurd ⟨info, rest, readFromSync_packet_iff.mpr ⟨hfits, hdg⟩⟩ hpacket
      · rfl
      · rfl

end Connection

/-! ## One step -/

/-- A request with a packet that gets in nobody's way is performed when the packet is sent. -/
theorem Event.Carries.performed {e : Event} {info : PacketInfo} {payload : Bytes}
    {acts : List Action} (h : e.Carries info payload)
    (hsent : info.fragTotal = 1 → info.addr ≠ .none →
      ∃ g target, .udpSend g payload target ∈ acts) : Performed e acts where
  packet info' payload' h' := by
    obtain ⟨rfl, rfl⟩ := h.unique h'
    exact hsent
  connect addr hconnects := absurd hconnects (h.not_connects addr)

theorem Event.Connects.performed {e : Event} {addr : Address} {acts : List Action}
    (h : e.Connects addr) (hdialed : addr ≠ .none → ∃ sa, .dial sa ∈ acts) :
    Performed e acts where
  packet info payload hcarries := absurd h (hcarries.not_connects addr)
  connect addr' h' := by
    obtain rfl := h.unique h'
    exact hdialed

namespace History

variable {c : Config} {es : List Event} {s s' : Connection} {l : Ledger TaskId Action}
  {t : TaskId}

theorem uni (h : History c es s l) {recv : Bytes} (ht : s.tasks.lookup t = some (.uni recv))
    (hstep : Connection.step c s (.advance t) = some (s.handleUni t recv)) :
    ∃ l', History c (es ++ [.advance t]) (s.handleUni t recv) l' := by
  rcases s.handleUni_cases t recv with ⟨info, rest, hfits, rfl, heq⟩ |
    ⟨hidle, ⟨auth, hauth, heq⟩ | ⟨assocId, heq⟩ | heq⟩ <;> rw [heq] at hstep ⊢
  · refine h.moves hstep rfl ht _ (List.append_nil _).symm rfl ?_
    rintro i e acts - ⟨rfl, rfl⟩
    exact ⟨⟨hfits, rfl⟩, rfl⟩
  · refine h.moves hstep rfl ht _ (List.append_nil _).symm rfl ?_
    rintro i e acts - ⟨rfl, rfl⟩
    exact ⟨hidle, hauth, rfl⟩
  · refine h.moves hstep rfl ht _ (List.append_nil _).symm rfl ?_
    rintro i e acts - ⟨rfl, rfl⟩
    exact ⟨hidle, rfl⟩
  · refine h.ends hstep rfl ht (List.append_nil _).symm rfl ?_
    rintro i e acts ⟨rfl, rfl⟩
    exact ⟨.silent, fun _ => hidle.performed _⟩

theorem bi (h : History c es s l) {recv : Bytes} (ht : s.tasks.lookup t = some (.bi recv))
    (hstep : Connection.step c s (.advance t) = some (s.handleBi t recv)) :
    ∃ l', History c (es ++ [.advance t]) (s.handleBi t recv) l' := by
  rcases s.handleBi_cases t recv with ⟨ver, cmd, rest, rfl, heq⟩ | ⟨hidle, heq⟩ <;>
    rw [heq] at hstep ⊢
  · refine h.moves hstep rfl ht _ (List.append_nil _).symm rfl ?_
    rintro i e acts - ⟨rfl, rfl⟩
    exact ⟨rfl, rfl⟩
  · refine h.ends hstep rfl ht (List.append_nil _).symm rfl ?_
    rintro i e acts ⟨rfl, rfl⟩
    exact ⟨.silent, fun _ => hidle.performed _⟩

theorem datagram (h : History c es s l) {dg : Bytes}
    (ht : s.tasks.lookup t = some (.datagram dg))
    (hstep : Connection.step c s (.advance t) = some (s.handleDatagram t dg)) :
    ∃ l', History c (es ++ [.advance t]) (s.handleDatagram t dg) l' := by
  rcases s.handleDatagram_cases t dg with heq | ⟨hidle, heq⟩ <;> rw [heq] at hstep ⊢
  · refine h.moves hstep rfl ht _ (List.append_nil _).symm rfl ?_
    rintro i e acts - ⟨rfl, rfl⟩
    exact ⟨rfl, rfl⟩
  · refine h.ends hstep rfl ht (List.append_nil _).symm rfl ?_
    rintro i e acts ⟨rfl, rfl⟩
    exact ⟨.silent, fun _ => hidle.performed _⟩

theorem authenticate (h : History c es s l) {auth : AuthInfo}
    (ht : s.tasks.lookup t = some (.authenticate auth))
    (hstep : Connection.step c s (.advance t) = some (Connection.handleAuthenticate c s t auth)) :
    ∃ l', History c (es ++ [.advance t]) (Connection.handleAuthenticate c s t auth) l' := by
  rcases Connection.handleAuthenticate_cases c s t auth with heq | heq | heq <;>
    rw [heq] at hstep ⊢
  · refine h.ends hstep rfl ht (List.append_nil _).symm rfl ?_
    rintro i e acts ⟨hidle, hauth, rfl⟩
    exact ⟨.silent, fun _ => hidle.performed _⟩
  · refine h.moves hstep rfl ht _ rfl rfl ?_
    rintro i e acts - ⟨hidle, hauth, rfl⟩
    exact ⟨hidle, auth, hauth, rfl⟩
  · refine h.ends hstep rfl ht (List.append_assoc ..) rfl ?_
    rintro i e acts ⟨hidle, hauth, rfl⟩
    exact ⟨.authenticate auth hauth _ (.inr rfl), fun _ => hidle.performed _⟩

theorem pass (h : History c es s l) {k : Gated} (ht : s.tasks.lookup t = some (.passed k))
    (hstep : Connection.step c s (.advance t) = some (s.pass t k)) :
    ∃ l', History c (es ++ [.advance t]) (s.pass t k) l' := by
  obtain ⟨i, hi⟩ := h.exists_held ht
  obtain ⟨e, -, hk, -⟩ := h.working t _ i ht hi
  rcases s.pass_cases hk with ⟨info, payload, mode, hcarries, hmode, heq⟩ | ⟨addr, hconnects, heq⟩ |
    ⟨hidle, heq⟩ <;> rw [heq] at hstep ⊢
  · refine h.moves hstep rfl ht _ (List.append_nil _).symm rfl ?_
    rintro j e' acts - ⟨hk', rfl⟩
    obtain rfl := hk.unique hk'
    exact ⟨hcarries, hmode, rfl⟩
  · refine h.moves hstep rfl ht _ (List.append_nil _).symm rfl ?_
    rintro j e' acts - ⟨hk', rfl⟩
    obtain rfl := hk.unique hk'
    exact ⟨hconnects, rfl⟩
  · refine h.ends hstep rfl ht (List.append_nil _).symm rfl ?_
    rintro j e' acts ⟨hk', rfl⟩
    obtain rfl := hk.unique hk'
    exact ⟨.silent, fun _ => hidle.performed _⟩

theorem gate (h : History c es s l) {g : Gate} {k : Gated}
    (ht : s.tasks.lookup t = some (.gate g k)) {task' : Task}
    (htask' : task' = .passed k ∨ ∃ g', task' = .gate g' k)
    (hstep : Connection.step c s (.advance t) = some (s.setTask t task')) :
    ∃ l', History c (es ++ [.advance t]) (s.setTask t task') l' := by
  refine h.moves hstep rfl ht _ (List.append_nil _).symm rfl ?_
  rintro i e acts - ⟨hk, rfl⟩
  rcases htask' with rfl | ⟨g', rfl⟩
  · exact ⟨hk, rfl⟩
  · exact ⟨hk, rfl⟩

theorem connect (h : History c es s l) {addr : Address}
    (ht : s.tasks.lookup t = some (.connect addr))
    (hstep : Connection.step c s (.advance t) = some (s.handleConnect t addr)) :
    ∃ l', History c (es ++ [.advance t]) (s.handleConnect t addr) l' := by
  cases addr with
  | none =>
    refine h.ends hstep rfl ht (List.append_nil _).symm rfl ?_
    rintro i e acts ⟨hconnects, rfl⟩
    exact ⟨.silent, fun _ => hconnects.performed fun hne => absurd rfl hne⟩
  | socket addr =>
    refine h.moves hstep rfl ht _ rfl rfl ?_
    rintro i e acts - ⟨hconnects, rfl⟩
    exact ⟨.socket addr, [addr], hconnects, .socket addr, List.cons_ne_nil _ _, rfl⟩
  | domain name port =>
    refine h.moves hstep rfl ht _ rfl rfl ?_
    rintro i e acts - ⟨hconnects, rfl⟩
    exact ⟨name, port, hconnects, rfl⟩

theorem packet (h : History c es s l) {info : PacketInfo} {payload : Bytes} {mode : UdpMode}
    (ht : s.tasks.lookup t = some (.packet info payload mode))
    (hstep : Connection.step c s (.advance t) = some (s.handlePacketData t info payload mode)) :
    ∃ l', History c (es ++ [.advance t]) (s.handlePacketData t info payload mode) l' := by
  unfold Connection.handlePacketData at hstep ⊢
  dsimp only at hstep ⊢
  split at hstep <;> rename_i hfrag
  · rw [if_pos hfrag]
    refine h.ends hstep rfl ht (List.append_nil _).symm rfl ?_
    rintro i e acts ⟨hcarries, -, rfl⟩
    exact ⟨.silent, fun _ => hcarries.performed fun hone => absurd hone hfrag⟩
  rw [if_neg hfrag]
  split at hstep <;> rename_i haddr
  · refine h.ends hstep rfl ht (List.append_nil _).symm rfl ?_
    rintro i e acts ⟨hcarries, -, rfl⟩
    exact ⟨.silent, fun _ => hcarries.performed fun _ hne => absurd haddr hne⟩
  · rename_i addr
    refine h.moves hstep rfl ht _ (List.append_nil _).symm rfl ?_
    rintro i e acts - ⟨hcarries, -, rfl⟩
    refine ⟨info, [addr], hcarries, not_not.mp hfrag, rfl, ?_, rfl, ?_⟩
    · rw [haddr]
      exact .socket addr
    · rw [haddr]
      rfl
  · rename_i name port
    refine h.moves hstep rfl ht _ rfl rfl ?_
    rintro i e acts - ⟨hcarries, -, rfl⟩
    exact ⟨info, name, port, hcarries, not_not.mp hfrag, rfl, haddr, by rw [haddr]; rfl⟩

theorem packetSend (h : History c es s l) {g : SessionId} {payload : Bytes} {target : SocketAddr}
    (ht : s.tasks.lookup t = some (.packetSend g payload target))
    (hstep : Connection.step c s (.advance t) = some (s.packetSend t g payload target)) :
    ∃ l', History c (es ++ [.advance t]) (s.packetSend t g payload target) l' := by
  unfold Connection.packetSend at hstep ⊢
  split at hstep
  · rename_i x hx
    split at hstep <;> rename_i hsocket
    · have hgrows := Connection.step_grows h.sessions hstep
      rw [if_pos hsocket]
      refine h.ends hstep rfl ht rfl rfl ?_
      rintro i e acts ⟨info, answer, opened, hcarries, hfrag, hg, hanswer, htarget, hopened, rfl⟩
      rw [List.append_assoc]
      refine ⟨.packet info payload answer opened _ hcarries hfrag (hanswer.mono _) hopened
        (.inr ⟨g, target, hgrows g _ hg, htarget, rfl⟩), fun _ => hcarries.performed fun _ _ => ?_⟩
      exact ⟨g, unmap target, by simp⟩
    · rw [if_neg hsocket]
      refine h.ends hstep rfl ht (List.append_nil _).symm rfl ?_
      rintro i e acts ⟨info, answer, opened, hcarries, hfrag, hg, hanswer, htarget, hopened, rfl⟩
      rw [List.append_assoc]
      refine ⟨.packet info payload answer opened [] hcarries hfrag (hanswer.mono _) hopened
        (.inl rfl), fun hkind => ?_⟩
      simp only [Kind, ht] at hkind
      exact absurd (hkind x hx) hsocket
  · rename_i hnone
    refine h.ends hstep rfl ht (List.append_nil _).symm rfl ?_
    rintro i e acts ⟨info, answer, opened, hcarries, hfrag, ⟨x, hx, -⟩, -⟩
    rw [hnone] at hx
    cases hx

theorem dissociate (h : History c es s l) {assocId : UInt16}
    (ht : s.tasks.lookup t = some (.dissociate assocId))
    (hstep : Connection.step c s (.advance t) = some (s.handleDissociate t assocId)) :
    ∃ l', History c (es ++ [.advance t]) (s.handleDissociate t assocId) l' := by
  have htasks : (s.handleDissociate t assocId).tasks = s.tasks.erase t := by
    unfold Connection.handleDissociate
    dsimp only
    repeat' split
    all_goals rfl
  have hlog : (s.handleDissociate t assocId).log = s.log ++ [] := by
    rw [Connection.handleDissociate_log, List.append_nil]
  refine h.ends hstep rfl ht hlog htasks ?_
  rintro i e acts ⟨hidle, rfl⟩
  exact ⟨.silent, fun _ => hidle.performed _⟩

/-- The task of an `advance` event moves. -/
theorem advance (h : History c es s l) {task : Task} (ht : s.tasks.lookup t = some task)
    (hadvance : Connection.advance c s t task = some s')
    (hstep : Connection.step c s (.advance t) = some s') :
    ∃ l', History c (es ++ [.advance t]) s' l' := by
  cases task with
  | uni recv =>
    cases hadvance
    exact h.uni ht hstep
  | bi recv =>
    cases hadvance
    exact h.bi ht hstep
  | datagram dg =>
    cases hadvance
    exact h.datagram ht hstep
  | authenticate auth =>
    cases hadvance
    exact h.authenticate ht hstep
  | setUuid | setFlag =>
    cases hadvance
    refine h.moves hstep rfl ht _ (List.append_nil _).symm rfl ?_
    rintro i e acts - ⟨hidle, auth, hauth, rfl⟩
    exact ⟨hidle, auth, hauth, rfl⟩
  | setNotify =>
    cases hadvance
    refine h.ends hstep rfl ht (List.append_nil _).symm rfl ?_
    rintro i e acts ⟨hidle, auth, hauth, rfl⟩
    exact ⟨.authenticate auth hauth [] (.inl rfl), fun _ => hidle.performed _⟩
  | dissociate assocId =>
    cases hadvance
    exact h.dissociate ht hstep
  | gate g k =>
    simp only [Connection.advance] at hadvance
    split at hadvance
    · cases hadvance
      exact h.gate ht (.inl rfl) hstep
    · cases hadvance
      exact h.gate ht (.inr ⟨_, rfl⟩) hstep
    · cases hadvance
  | passed k =>
    cases hadvance
    exact h.pass ht hstep
  | connect addr =>
    cases hadvance
    exact h.connect ht hstep
  | packet info payload mode =>
    cases hadvance
    exact h.packet ht hstep
  | packetSend g payload target =>
    cases hadvance
    exact h.packetSend ht hstep
  | connectResolving | connecting | packetResolving | packetSession => cases hadvance

/-- `lookup_host` returns. -/
theorem resolved (h : History c es s l) {addrs : Option (List SocketAddr)}
    (hstep : Connection.step c s (.resolved t addrs) = some s') :
    ∃ l', History c (es ++ [.resolved t addrs]) s' l' := by
  have hfull := hstep
  -- the answer is the last event
  have hanswer : ∀ {i name port answer}, HandledBy es i t → addrs = some answer →
      Answer (es ++ [.resolved t addrs]) i (.domain name port) answer := by
    rintro i name port answer hi rfl
    exact .domain name port answer t es.length (by rwa [List.take_left]) (by simp)
  simp only [Connection.step] at hstep
  split at hstep
  · rename_i ht
    cases addrs with
    | none =>
      cases hstep
      refine h.ends hfull rfl ht (List.append_nil _).symm rfl ?_
      rintro i e acts ⟨name, port, hconnects, rfl⟩
      exact ⟨.connect _ [] [] hconnects (.unknown _) List.prefix_rfl,
        fun hkind => absurd rfl hkind⟩
    | some answer =>
      cases answer with
      | nil =>
        cases hstep
        refine h.ends hfull rfl ht (List.append_nil _).symm rfl ?_
        rintro i e acts ⟨name, port, hconnects, rfl⟩
        exact ⟨.connect _ [] [] hconnects (.unknown _) List.prefix_rfl,
          fun hkind => absurd rfl hkind⟩
      | cons addr addrs =>
        cases hstep
        refine h.moves hfull rfl ht _ rfl rfl ?_
        rintro i e acts hi ⟨name, port, hconnects, rfl⟩
        exact ⟨.domain name port, [addr], hconnects, hanswer hi rfl, List.cons_ne_nil _ _, rfl⟩
  · rename_i assocId payload ht
    split at hstep
    · rename_i addr rest haddrs
      cases hstep
      refine h.moves hfull rfl ht _ (List.append_nil _).symm rfl ?_
      rintro i e acts hi ⟨info, name, port, hcarries, hfrag, hassoc, haddr, rfl⟩
      have hsome : addrs = some (addr :: rest) := by
        cases addrs with
        | none => cases haddrs
        | some answer => exact congrArg some haddrs
      refine ⟨info, addr :: rest, hcarries, hfrag, hassoc, ?_, rfl, List.append_nil _⟩
      rw [haddr]
      exact hanswer hi hsome
    · rename_i haddrs
      cases hstep
      refine h.ends hfull rfl ht (List.append_nil _).symm rfl ?_
      rintro i e acts ⟨info, name, port, hcarries, hfrag, hassoc, haddr, rfl⟩
      exact ⟨.packet info payload [] [] [] hcarries hfrag (.unknown _) (.inl rfl) (.inl rfl),
        fun hkind => absurd haddrs hkind⟩
  · cases hstep

/-- `TcpStream::connect` returns. -/
theorem connected (h : History c es s l) {ok : Bool}
    (hstep : Connection.step c s (.connected t ok) = some s') :
    ∃ l', History c (es ++ [.connected t ok]) s' l' := by
  have hfull := hstep
  simp only [Connection.step] at hstep
  split at hstep
  · rename_i addrs ht
    -- a handler ends with a connection, or when all addresses were dialled
    have hends : s' = s.endTask t → ∃ l', History c (es ++ [.connected t ok]) s' l' := by
      rintro rfl
      refine h.ends hfull rfl ht (List.append_nil _).symm rfl ?_
      rintro i e acts ⟨addr, dialed, hconnects, hanswer, hne, rfl⟩
      rw [List.append_nil]
      refine ⟨.connect addr _ dialed hconnects (hanswer.mono _) (List.prefix_append ..),
        fun _ => hconnects.performed fun _ => ?_⟩
      obtain ⟨sa, hsa⟩ := List.exists_mem_of_ne_nil dialed hne
      exact ⟨sa, List.mem_append_right _ (List.mem_map_of_mem hsa)⟩
    cases ok with
    | true =>
      cases hstep
      exact hends rfl
    | false =>
      cases addrs with
      | nil =>
        cases hstep
        exact hends rfl
      | cons addr addrs =>
        cases hstep
        refine h.moves hfull rfl ht _ rfl rfl ?_
        rintro i e acts - ⟨addr', dialed, hconnects, hanswer, hne, rfl⟩
        refine ⟨addr', dialed ++ [addr], hconnects, ?_, by simp, by simp⟩
        rw [List.append_assoc]
        exact hanswer.mono _
  · cases hstep

/-- A packet gets the lock of `udp_sessions`. -/
theorem session (h : History c es s l) {sockets : Bool}
    (hstep : Connection.step c s (.session t sockets) = some s') :
    ∃ l', History c (es ++ [.session t sockets]) s' l' := by
  have hfull := hstep
  simp only [Connection.step] at hstep
  split at hstep
  · rename_i assocId payload target ht
    cases hstep
    unfold Connection.packetSession at hfull ⊢
    split at hfull <;> rename_i hlookup
    · rename_i g
      refine h.moves hfull rfl ht _ (List.append_nil _).symm rfl ?_
      rintro i e acts - ⟨info, answer, hcarries, hfrag, rfl, hanswer, htarget, rfl⟩
      obtain ⟨x, hx, hassoc, -⟩ := h.sessions.stored _ g hlookup
      exact ⟨info, answer, [], hcarries, hfrag, ⟨x, hx, hassoc⟩, hanswer.mono _, htarget, .inl rfl,
        rfl⟩
    · cases sockets with
      | true =>
        refine h.moves hfull rfl ht _ rfl rfl ?_
        rintro i e acts - ⟨info, answer, hcarries, hfrag, rfl, hanswer, htarget, rfl⟩
        exact ⟨info, answer, _, hcarries, hfrag, ⟨_, Function.update_self .., rfl⟩,
          hanswer.mono _, htarget, .inr rfl, rfl⟩
      | false =>
        refine h.ends hfull rfl ht (List.append_nil _).symm rfl ?_
        rintro i e acts ⟨info, answer, hcarries, hfrag, rfl, hanswer, htarget, rfl⟩
        exact ⟨.packet info payload answer [] [] hcarries hfrag (hanswer.mono _) (.inl rfl)
          (.inl rfl), fun hkind => absurd hkind Bool.false_ne_true⟩
  · cases hstep

/-- A handler that reads is broken off, or one at the gate times out, before it has done
anything. -/
theorem gaveUp (h : History c es s l) {ev : Event} {task : Task}
    (hstep : Connection.step c s ev = some (s.endTask t)) (hev : ev.handler = none)
    (ht : s.tasks.lookup t = some task)
    (hsilent : ∀ i e acts, task.For es s i e t acts → acts = []) (hkind : ¬ Kind s ev) :
    ∃ l', History c (es ++ [ev]) (s.endTask t) l' := by
  refine h.ends hstep hev ht (List.append_nil _).symm rfl fun i e acts hfor => ?_
  obtain rfl := hsilent i e acts hfor
  exact ⟨.silent, fun h => absurd h hkind⟩

theorem step {ev : Event} (h : History c es s l) (hstep : Connection.step c s ev = some s') :
    ∃ l', History c (es ++ [ev]) s' l' := by
  have hfull := hstep
  cases ev with
  | acceptUni t recv | acceptBi t recv | readDatagram t recv =>
    simp only [Connection.step, Connection.spawn] at hstep
    split at hstep
    · cases hstep
    · rename_i hfree
      cases hstep
      rw [Bool.not_eq_true, Option.isSome_eq_false_iff, Option.isNone_iff_eq_none] at hfree
      exact ⟨_, h.spawn hfull hfree rfl rfl rfl ⟨rfl, rfl⟩⟩
  | advance t =>
    simp only [Connection.step] at hstep
    split at hstep
    · rename_i task ht
      exact h.advance ht hstep hfull
    · cases hstep
  | broken t =>
    simp only [Connection.step] at hstep
    split at hstep
    case h_2 => cases hstep
    rename_i task ht
    split at hstep
    · rename_i hreads
      cases hstep
      refine h.gaveUp hfull rfl ht (fun i e acts hfor => ?_) id
      cases task with
      | passed k => exact hfor.2
      | uni | bi => exact hfor.2
      | _ => cases hreads
    · cases hstep
  | timeout t =>
    simp only [Connection.step] at hstep
    split at hstep
    · rename_i g k ht
      split at hstep
      · cases hstep
      · cases hstep
        exact h.gaveUp hfull rfl ht (fun i e acts hfor => hfor.2) id
    · cases hstep
  | resolved t addrs => exact h.resolved hfull
  | connected t ok => exact h.connected hfull
  | session t sockets => exact h.session hfull
  | relay r sent =>
    simp only [Connection.step] at hstep
    repeat' split at hstep
    all_goals first
      | contradiction
      | cases hstep
        obtain ⟨as, hlog, htasks, hown⟩ := Connection.relayUdpToClient_own s r _ sent
        exact ⟨_, h.stay hfull rfl hlog htasks hown⟩
  | opened r ok =>
    simp only [Connection.step] at hstep
    repeat' split at hstep
    all_goals first
      | contradiction
      | cases hstep
        exact ⟨_, h.stay hfull rfl (List.append_nil _).symm rfl (List.forall_mem_nil _)⟩
  | written r n =>
    simp only [Connection.step] at hstep
    repeat' split at hstep
    all_goals first
      | contradiction
      | cases hstep
        refine ⟨_, h.stay hfull rfl rfl rfl fun a ha => ?_⟩
        rw [List.mem_singleton.mp ha]
        trivial
  | reply g | recvError g | tick g | closed g =>
    simp only [Connection.step] at hstep
    repeat' split at hstep
    all_goals first
      | contradiction
      | cases hstep
        exact ⟨_, h.stay hfull rfl (List.append_nil _).symm rfl
          (List.forall_mem_nil _)⟩
  | watchdog =>
    simp only [Connection.step] at hstep
    split at hstep
    · cases hstep
      exact ⟨_, h.stay hfull rfl (List.append_nil _).symm rfl
        (List.forall_mem_nil _)⟩
    · cases hstep
      refine ⟨_, h.stay hfull rfl rfl rfl fun a ha => ?_⟩
      rw [List.mem_singleton.mp ha]
      rfl
  | wait ms =>
    cases hstep
    exact ⟨_, h.stay hfull rfl (List.append_nil _).symm rfl
      (List.forall_mem_nil _)⟩

end History

/-! ## Every run -/

namespace Connection

/-- Every run has a ledger. -/
theorem exists_history {c : Config} {es : List Event} {s : Connection}
    (h : run (step c) new es = some s) : ∃ l, History c es s l := by
  refine @history_of_run _ _ _ (fun es s => ∃ l, History c es s l) ?_ _ _ _ ⟨_, .start c⟩ h
  rintro es s e s' ⟨l, hl⟩ hstep
  exact hl.step hstep

/-- **Requests.**  However its handlers interleave, the log of a connection consists of the
scripts of its streams and datagrams and of what the server does of its own.  In a run in
which nothing gets in the way, everything was done for each of them when no handler is left. -/
theorem run_log_interleaves (c : Config) (es : List Event) (s : Connection)
    (h : run (step c) new es = some s) :
    ∃ l : Ledger TaskId Action, l.log = s.log ∧
      (∀ i e, es[i]? = some e → Script es s i e (l.entriesOf (some i))) ∧
      (∀ i, es.length ≤ i → l.entriesOf (some i) = []) ∧
      (∀ a ∈ l.entriesOf none, a.ofServer) ∧
      (Every (step c) Kind new es → s.tasks = ∅ →
        ∀ i e, es[i]? = some e → Performed e (l.entriesOf (some i))) := by
  obtain ⟨l, hl⟩ := exists_history h
  refine ⟨l, hl.log, fun i e hi => hl.script hi, fun i hi => hl.sound.entries_lt hi, hl.own,
    fun hev hdone i e hi => (hl.finished i e hi fun t ht => ?_).2 hev⟩
  have hnone := hl.held t
  rw [ht, hdone, AList.lookup_empty] at hnone
  cases hnone

/-- The datagram that came before its client was authenticated has been sent in the end. -/
theorem run_log_interleaves_earlyRun :
    ∃ s, run (step sampleConfig) new earlyRun = some s ∧
      ∃ l : Ledger TaskId Action, l.log = s.log ∧
        ∃ g target, .udpSend g [104, 105] target ∈ l.entriesOf (some 0) := by
  have hend : (run (step sampleConfig) new earlyRun).map (fun s => s.tasks.entries) = some [] := by
    decide +kernel
  obtain ⟨s, hrun, hs⟩ := Option.map_eq_some_iff.mp hend
  obtain ⟨l, hlog, -, -, -, hperformed⟩ := run_log_interleaves sampleConfig earlyRun s hrun
  have hcarries : (Event.readDatagram 1 samplePacket).Carries
      ⟨7, 1, 1, 0, 2, .socket ⟨.v4 (.new 192 0 2 1), 53⟩⟩ [104, 105] :=
    ⟨trivial, by decide +kernel⟩
  have hdone := hperformed (by decide +kernel) (AList.ext hs) 0 (.readDatagram 1 samplePacket) rfl
  exact ⟨s, hrun, l, hlog, hdone.packet _ _ hcarries rfl nofun⟩

end Connection

end Ruproxy.Tuic
