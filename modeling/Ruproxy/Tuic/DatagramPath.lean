/-
  Tuic/DatagramPath.lean --- a datagram on its way to the UDP send.

  The path of an authenticated connection from `handle_datagram` through the parser and
  `handle_packet_data` to `UdpSession::send`, with every index, slice and addition of a
  fixed width on it.  The slices are in range whatever the datagram holds; of the
  additions only the fragment number in the log lines can overflow.
-/
import Ruproxy.Tuic.Checked

set_option autoImplicit false

namespace Ruproxy.Tuic

open Ruproxy.Foundation
open Ruproxy.Foundation.Outcome (slice index)

namespace Checked

variable {ε : Type}

/-! ## The path -/

/-- `a + b` on `u8`, with an overflow check. -/
def addU8 (a b : UInt8) : Outcome ε UInt8 :=
  if a.toNat + b.toNat < 256 then .ok (a + b) else .panic

/-- The levels whose log lines are written. -/
structure LogLevels where
  info : Bool
  warn : Bool

/-- The argument of a log line is computed if the line is written. -/
def logLine (written : Bool) (arg : Outcome ε UInt8) : Outcome ε Unit :=
  if written then do
    let _ ← arg
    return ()
  else return ()

/-- `Address::to_bytes`, with the capacity of its vector. -/
def toBytes (addr : Address) : Outcome ε Bytes :=
  match addr with
  | .domain name _ => do
      let _ ← addUsize 4 (asBytes name).length
      return addr.toBytes
  | .none | .socket _ => return addr.toBytes

/-- `handle_datagram` of an authenticated connection, by what it gives to
`handle_packet_data`. -/
def handleDatagram (dg : Bytes) : Outcome ε (Option (PacketInfo × Bytes)) :=
  if dg.length < 2 then return none
  else do
    let ver ← index dg 0
    let cmd ← index dg 1
    if isTuicPrefix ver cmd then
      match readFromSync (Cursor.new dg) with
      | .ok (.packet info, _) => do
          let hdrLen ← addUsize (2 + 8) (← toBytes info.addr).length
          if dg.length < hdrLen then return none
          else return some (info, ← slice dg hdrLen dg.length)
      | .ok _ | .err _ => return none
      | .panic => .panic
    else return none

/-- `handle_packet_data`, by what it gives to `UdpSession::send` of which association;
`lookupHost` resolves a name. -/
def handlePacketData (levels : LogLevels)
    (lookupHost : String → UInt16 → Option (List SocketAddr)) (info : PacketInfo)
    (payload : Bytes) : Outcome ε (Option (UInt16 × Bytes × SocketAddr)) := do
  logLine levels.info (addU8 info.fragId 1)
  if info.fragTotal ≠ 1 then
    logLine levels.warn (addU8 info.fragId 1)
    return none
  else
    match info.addr with
    | .none => return none
    | .socket addr => return some (info.assocId, payload, unmap addr)
    | .domain name port =>
        match (lookupHost name port).getD [] with
        | addr :: _ => return some (info.assocId, payload, unmap addr)
        | [] => return none

/-- The whole path. -/
def datagramPath (levels : LogLevels)
    (lookupHost : String → UInt16 → Option (List SocketAddr)) (dg : Bytes) :
    Outcome ε (Option (UInt16 × Bytes × SocketAddr)) := do
  match ← handleDatagram dg with
  | some (info, payload) => handlePacketData levels lookupHost info payload
  | none => return none

/-! ## Slices -/

theorem length_toBytes_le {addr : Address} (hfits : addr.Fits) : addr.toBytes.length ≤ 259 := by
  cases addr with
  | none => simp [Address.toBytes]
  | domain name port =>
    have hname : (asBytes name).length ≤ 255 := hfits
    simp only [Address.toBytes, List.length_cons, List.length_append, u16ToBe_length]
    omega
  | socket sa =>
    obtain ⟨ip, port⟩ := sa
    cases ip with
    | v4 ip => simp [Address.toBytes]
    | v6 ip => simp [Address.toBytes, List.length_flatMap]

theorem toBytes_eq {addr : Address} (hfits : addr.Fits) :
    (toBytes addr : Outcome ε Bytes) = .ok addr.toBytes := by
  cases addr with
  | none => rfl
  | domain name port =>
    have hname : (asBytes name).length ≤ 255 := hfits
    rw [toBytes, addUsize_of_lt (by omega)]
    rfl
  | socket sa => rfl

/-- The payload of a packet is what stands behind its command. -/
theorem payload_eq {info : PacketInfo} (hfits : info.addr.Fits) (payload : Bytes) :
    (do
      let hdrLen ← addUsize (2 + 8) (← toBytes info.addr).length
      if (info.toBytes ++ payload).length < hdrLen then return none
      else return some (info, ← slice (info.toBytes ++ payload) hdrLen
        (info.toBytes ++ payload).length) : Outcome ε (Option (PacketInfo × Bytes))) =
      .ok (some (info, payload)) := by
  have hle := length_toBytes_le hfits
  have hlen : 2 + 8 + info.addr.toBytes.length = info.toBytes.length :=
    info.length_toBytes.symm
  have happ : (info.toBytes ++ payload).length = info.toBytes.length + payload.length :=
    List.length_append
  rw [toBytes_eq hfits, Outcome.ok_bind, addUsize_of_lt (by omega), Outcome.ok_bind, hlen,
    if_neg (by omega), Outcome.slice_of_le (by omega) (Nat.le_refl _), Outcome.ok_bind,
    List.drop_left, happ, Nat.add_sub_cancel_left, List.take_length]
  rfl

/-- **Slices.**  `handle_datagram` does not panic, and hands on what stands behind the
PACKET command of the datagram. -/
theorem handleDatagram_eq (dg : Bytes) :
    ∃ o, (handleDatagram dg : Outcome ε _) = .ok o ∧ ∀ info payload,
      o = some (info, payload) ↔ info.addr.Fits ∧ info.toBytes ++ payload = dg := by
  have hpacket : ∀ {info : PacketInfo} {payload : Bytes}, info.toBytes ++ payload = dg →
      dg[0]? = some version ∧ dg[1]? = some cmdPacket := by
    rintro info payload rfl
    exact ⟨rfl, rfl⟩
  have hnone : (∀ (info : PacketInfo) payload, ¬ (info.addr.Fits ∧ info.toBytes ++ payload = dg)) →
      ∀ (info : PacketInfo) payload, (none : Option (PacketInfo × Bytes)) = some (info, payload) ↔
        info.addr.Fits ∧ info.toBytes ++ payload = dg := fun h info payload =>
    iff_of_false (Option.some_ne_none _).symm (h info payload)
  unfold handleDatagram
  by_cases hlen : dg.length < 2
  · refine ⟨none, if_pos hlen, hnone fun info payload h => ?_⟩
    have hone := (hpacket h.2).2
    rw [List.getElem?_eq_none (by omega)] at hone
    cases hone
  rw [if_neg hlen, Outcome.index_of_lt (by omega), Outcome.ok_bind,
    Outcome.index_of_lt (by omega), Outcome.ok_bind]
  by_cases htuic : isTuicPrefix dg[0] dg[1]
  · rw [if_pos htuic]
    have hparse : ∀ info payload, (Tuic.readFromSync dg).toOption =
        some (.packet info, payload) ↔ info.addr.Fits ∧ info.toBytes ++ payload = dg := by
      intro info payload
      rw [Except.toOption_eq_some]
      exact readFromSync_packet_iff
    have hfollows := follows_readFromSync (Cursor.new dg)
    change Follows _ (Tuic.readFromSync dg).toOption at hfollows
    cases hread : (Tuic.readFromSync dg).toOption with
    | none =>
      rw [hread] at hfollows hparse
      obtain ⟨e, he⟩ := hfollows
      rw [he]
      refine ⟨none, rfl, hnone fun info payload h => ?_⟩
      cases (hparse info payload).mpr h
    | some r =>
      obtain ⟨command, left⟩ := r
      rw [hread] at hfollows hparse
      obtain ⟨c, hc, -⟩ := hfollows
      rw [hc]
      cases command with
      | packet info =>
        obtain ⟨hfits, hdg⟩ := (hparse info left).mp rfl
        refine ⟨some (info, left), ?_, fun info' payload => ?_⟩
        · have hpayload := @payload_eq ε info hfits left
          rwa [hdg] at hpayload
        · rw [← hparse info' payload]
          simp
      | authenticate auth =>
        refine ⟨none, rfl, hnone fun info payload h => ?_⟩
        cases (hparse info payload).mpr h
      | connect addr =>
        refine ⟨none, rfl, hnone fun info payload h => ?_⟩
        cases (hparse info payload).mpr h
      | dissociate assocId =>
        refine ⟨none, rfl, hnone fun info payload h => ?_⟩
        cases (hparse info payload).mpr h
      | heartbeat =>
        refine ⟨none, rfl, hnone fun info payload h => ?_⟩
        cases (hparse info payload).mpr h
  · rw [if_neg htuic]
    refine ⟨none, rfl, hnone fun info payload h => htuic ?_⟩
    obtain ⟨hzero, hone⟩ := hpacket h.2
    rw [List.getElem?_eq_getElem (by omega), Option.some.injEq] at hzero hone
    rw [hzero, hone]
    decide

/-- The step of the connection hands on the same. -/
theorem pass_datagram_eq (s : Connection) (t : TaskId) {dg : Bytes}
    {o : Option (PacketInfo × Bytes)} (h : (handleDatagram dg : Outcome ε _) = .ok o) :
    s.pass t (.datagram dg) =
      o.elim (s.endTask t) fun r => s.setTask t (.packet r.1 r.2 .native) := by
  obtain ⟨o', ho', hpacket⟩ := @handleDatagram_eq ε dg
  obtain rfl := Outcome.ok.inj (h.symm.trans ho')
  cases o with
  | some r =>
    obtain ⟨info, payload⟩ := r
    exact pass_datagram s t (readFromSync_packet_iff.mpr ((hpacket info payload).mp rfl))
  | none =>
    cases hread : readFromDatagram dg with
    | error e => simp [Connection.pass, hread]
    | ok command =>
      cases command with
      | packet info =>
        obtain ⟨hfits, payload, hdg⟩ := readFromDatagram_packet_iff.mp hread
        cases (hpacket info payload).mpr ⟨hfits, hdg⟩
      | authenticate auth => simp [Connection.pass, hread]
      | connect addr => simp [Connection.pass, hread]
      | dissociate assocId => simp [Connection.pass, hread]
      | heartbeat => simp [Connection.pass, hread]

/-! ## Additions -/

/-- A log line that is written prints one more than the largest fragment id. -/
def PrintsOverflow (levels : LogLevels) (info : PacketInfo) : Prop :=
  info.fragId = 255 ∧ (levels.info ∨ (info.fragTotal ≠ 1 ∧ levels.warn))

theorem addU8_one_eq_panic {a : UInt8} : (addU8 a 1 : Outcome ε UInt8) = .panic ↔ a = 255 := by
  have hlt := a.toNat_lt
  unfold addU8
  rw [← UInt8.toNat_inj]
  show _ ↔ a.toNat = 255
  split
  · rename_i h
    change a.toNat + 1 < 256 at h
    simp only [reduceCtorEq, false_iff]
    omega
  · rename_i h
    change ¬ a.toNat + 1 < 256 at h
    simp only [true_iff]
    omega

theorem logLine_cases (written : Bool) (a : UInt8) :
    (logLine written (addU8 a 1) : Outcome ε Unit) = .ok () ∧ ¬ (written ∧ a = 255) ∨
      (logLine written (addU8 a 1) : Outcome ε Unit) = .panic ∧ written ∧ a = 255 := by
  cases written with
  | false => exact .inl ⟨rfl, by simp⟩
  | true =>
    by_cases ha : a = 255
    · refine .inr ⟨?_, rfl, ha⟩
      rw [logLine, addU8_one_eq_panic.mpr ha]
      rfl
    · refine .inl ⟨?_, fun h => ha h.2⟩
      have hlt : a.toNat + (1 : UInt8).toNat < 256 := by
        by_contra hge
        exact ha (addU8_one_eq_panic.mp (if_neg hge : (addU8 a 1 : Outcome ε UInt8) = .panic))
      rw [logLine, addU8, if_pos hlt]
      rfl

/-- `handle_packet_data` panics in its log lines only. -/
theorem handlePacketData_ne_panic_iff {levels : LogLevels}
    {lookupHost : String → UInt16 → Option (List SocketAddr)} {info : PacketInfo}
    {payload : Bytes} :
    (handlePacketData levels lookupHost info payload : Outcome ε _) ≠ .panic ↔
      ¬ PrintsOverflow levels info := by
  unfold handlePacketData PrintsOverflow
  obtain ⟨hinfo, hno⟩ | ⟨hinfo, hlevel, hmax⟩ := @logLine_cases ε levels.info info.fragId
  · rw [hinfo, Outcome.ok_bind]
    by_cases htotal : info.fragTotal ≠ 1
    · rw [if_pos htotal]
      obtain ⟨hwarn, hno'⟩ | ⟨hwarn, hlevel, hmax⟩ := @logLine_cases ε levels.warn info.fragId
      · rw [hwarn]
        refine iff_of_true (by simp) ?_
        rintro ⟨hmax, hlevel | ⟨-, hlevel⟩⟩
        · exact hno ⟨hlevel, hmax⟩
        · exact hno' ⟨hlevel, hmax⟩
      · rw [hwarn]
        exact iff_of_false (by simp) (not_not.mpr ⟨hmax, .inr ⟨htotal, hlevel⟩⟩)
    · rw [if_neg htotal]
      refine iff_of_true ?_ ?_
      · cases info.addr with
        | none => simp
        | socket addr => simp
        | domain name port =>
          dsimp only
          split
          · simp
          · simp
      · rintro ⟨hmax, hlevel | ⟨hne, -⟩⟩
        · exact hno ⟨hlevel, hmax⟩
        · exact htotal hne
  · rw [hinfo]
    exact iff_of_false (by simp) (not_not.mpr ⟨hmax, .inl hlevel⟩)

/-- **The path.**  A datagram gets to the UDP send, or is dropped, without a slice out of
range and without an overflow exactly if it is no packet of which an overflow is printed. -/
theorem datagramPath_ne_panic_iff (levels : LogLevels)
    (lookupHost : String → UInt16 → Option (List SocketAddr)) (dg : Bytes) :
    (datagramPath levels lookupHost dg : Outcome ε _) ≠ .panic ↔
      ¬ ∃ info payload, info.addr.Fits ∧ info.toBytes ++ payload = dg ∧
        PrintsOverflow levels info := by
  obtain ⟨o, ho, hpacket⟩ := @handleDatagram_eq ε dg
  unfold datagramPath
  rw [ho, Outcome.ok_bind]
  cases o with
  | none =>
    refine iff_of_true (by simp) ?_
    rintro ⟨info, payload, hfits, hdg, -⟩
    cases (hpacket info payload).mpr ⟨hfits, hdg⟩
  | some r =>
    obtain ⟨info, payload⟩ := r
    refine handlePacketData_ne_panic_iff.trans (not_congr ?_)
    obtain ⟨hfits, hdg⟩ := (hpacket info payload).mp rfl
    constructor
    · exact fun h => ⟨info, payload, hfits, hdg, h⟩
    · rintro ⟨info', payload', hfits', hdg', h⟩
      cases (hpacket info' payload').mpr ⟨hfits', hdg'⟩
      exact h

/-- A fragment with the number 255 of 1, for 192.0.2.1:53. -/
def lastFragment : PacketInfo := ⟨7, 1, 1, 255, 1, .socket ⟨.v4 (.new 192 0 2 1), 53⟩⟩

theorem not_datagramPath_lastFragment :
    (datagramPath ⟨true, true⟩ (fun _ _ => none) (lastFragment.toBytes ++ [104]) :
      Outcome Unit _) = .panic := by
  decide +kernel

end Checked

end Ruproxy.Tuic
