/-
  Vless/KeyShare.lean --- the key share of a well-formed ClientHello.

  `ClientHello` is the record as a client writes it, with its cipher suites, compression
  methods and extensions in any number and order.  `extract_x25519_from_key_share` finds
  in its bytes the key that `x25519Key` names: the loop over the extensions stops at the
  first key_share, and the loop over its shares carries the last hybrid share that it
  passed, for the case that no plain one follows.
-/
import Ruproxy.Foundation.Position
import Ruproxy.Vless.ClientHello

set_option autoImplicit false

namespace Ruproxy.Vless

open Ruproxy.Foundation
open Ruproxy.Foundation.Outcome

/-! ## The record -/

/-- A share of the key_share extension. -/
structure KeyShareEntry where
  group : UInt16
  keyExchange : Bytes
  keyExchange_lt : keyExchange.length < 65536

/-- A share, with the length of its key exchange. -/
def KeyShareEntry.bytes (s : KeyShareEntry) : Bytes :=
  u16ToBe s.group ++ (u16ToBe (UInt16.ofNat s.keyExchange.length) ++ s.keyExchange)

/-- An extension; its data have a length of two bytes. -/
inductive Extension where
  | keyShare (shares : List KeyShareEntry)
      (shares_lt : 2 + (shares.flatMap KeyShareEntry.bytes).length < 65536)
  | other (type : UInt16) (data : Bytes) (type_ne : type ≠ 0x0033)
      (data_lt : data.length < 65536)

/-- `extension_type`. -/
def Extension.type : Extension → UInt16
  | .keyShare _ _ => 0x0033
  | .other type _ _ _ => type

/-- `extension_data`. -/
def Extension.data : Extension → Bytes
  | .keyShare shares _ =>
      u16ToBe (UInt16.ofNat (shares.flatMap KeyShareEntry.bytes).length) ++
        shares.flatMap KeyShareEntry.bytes
  | .other _ data _ _ => data

def Extension.bytes (e : Extension) : Bytes :=
  u16ToBe e.type ++ (u16ToBe (UInt16.ofNat e.data.length) ++ e.data)

/-- The shares of a key_share extension. -/
def Extension.shares : Extension → Option (List KeyShareEntry)
  | .keyShare shares _ => some shares
  | .other _ _ _ _ => none

/-- A ClientHello record with a session id of 32 bytes. -/
structure ClientHello where
  recordVersion : UInt16
  legacyVersion : UInt16
  random : Vector UInt8 32
  sessionId : Vector UInt8 32
  cipherSuites : List UInt16
  compressionMethods : Bytes
  extensions : List Extension
  cipherSuites_lt : 2 * cipherSuites.length < 65536
  compressionMethods_lt : compressionMethods.length < 256
  extensions_lt : (extensions.flatMap Extension.bytes).length < 65536

namespace ClientHello

/-- What stands behind the session id. -/
def tail (h : ClientHello) : Bytes :=
  u16ToBe (UInt16.ofNat (2 * h.cipherSuites.length)) ++ (h.cipherSuites.flatMap u16ToBe ++
    (UInt8.ofNat h.compressionMethods.length :: (h.compressionMethods ++
      (u16ToBe (UInt16.ofNat (h.extensions.flatMap Extension.bytes).length) ++
        h.extensions.flatMap Extension.bytes))))

/-- The handshake message behind its header. -/
def body (h : ClientHello) : Bytes :=
  u16ToBe h.legacyVersion ++ (h.random.toList ++ (32 :: (h.sessionId.toList ++ h.tail)))

/-- The record: its header, the header of the handshake message and the message. -/
def bytes (h : ClientHello) : Bytes :=
  0x16 :: (u16ToBe h.recordVersion ++ (u16ToBe (UInt16.ofNat (4 + h.body.length)) ++
    (0x01 :: UInt8.ofNat (h.body.length / 65536) :: u16ToBe (UInt16.ofNat h.body.length) ++
      h.body)))

end ClientHello

/-! ## The key -/

/-- The key of an X25519 share. -/
def KeyShareEntry.x25519 (s : KeyShareEntry) : Option X25519Key :=
  if s.group = 0x001d ∧ s.keyExchange.length = 32 then tryInto 32 s.keyExchange else none

/-- The X25519 key at the end of an X25519MLKEM768 share. -/
def KeyShareEntry.mlkemX25519 (s : KeyShareEntry) : Option X25519Key :=
  if s.group = 0x11ec ∧ 1120 ≤ s.keyExchange.length then
    tryInto 32 (s.keyExchange.drop (s.keyExchange.length - 32))
  else none

/-- The key of the first X25519 share, else that of the last X25519MLKEM768 share. -/
def sharedKey (shares : List KeyShareEntry) : Option X25519Key :=
  (shares.findSome? KeyShareEntry.x25519).or
    (shares.reverse.findSome? KeyShareEntry.mlkemX25519)

/-- The key of a hello: that of its first key_share extension. -/
def ClientHello.x25519Key (h : ClientHello) : Outcome KeyShareError X25519Key :=
  orErr .noKeyShare (h.extensions.findSome? Extension.shares) >>= fun shares =>
    orErr .noX25519 (sharedKey shares)

/-! ## The loop over the shares -/

theorem KeyShareEntry.length_bytes (s : KeyShareEntry) :
    s.bytes.length = 4 + s.keyExchange.length := by
  simp only [KeyShareEntry.bytes, List.length_append, u16ToBe_length]
  omega

/-- **Shares.**  Behind the shares that it passed, the loop finds the key of the shares that
are left, or that of the last hybrid share that it passed. -/
theorem keyShares_eq {data : Bytes} {stop : Nat} (hstop : stop ≤ data.length)
    (shares : List KeyShareEntry) (pos : Nat) (mlkem : Option X25519Key)
    (hat : StandsAt data pos (shares.flatMap KeyShareEntry.bytes))
    (hend : pos + (shares.flatMap KeyShareEntry.bytes).length = stop) :
    keyShares data stop pos mlkem = orErr .noX25519
      ((shares.findSome? KeyShareEntry.x25519).or
        ((shares.reverse.findSome? KeyShareEntry.mlkemX25519).or mlkem)) := by
  induction shares generalizing pos mlkem with
  | nil =>
    rw [List.flatMap_nil, List.length_nil] at hend
    rw [keyShares, if_neg (by omega)]
    rfl
  | cons s shares ih =>
    rw [List.flatMap_cons, List.length_append, s.length_bytes] at hend
    rw [List.flatMap_cons, standsAt_append, s.length_bytes] at hat
    obtain ⟨hshare, hshares⟩ := hat
    rw [KeyShareEntry.bytes, standsAt_append, standsAt_append, u16ToBe_length,
      u16ToBe_length] at hshare
    obtain ⟨hgroup, hlen, hkey⟩ := hshare
    obtain ⟨a, b, ha, hb, hab⟩ := @index_u16_of_standsAt KeyShareError _ _ _ hgroup
    obtain ⟨c, d, hc, hd, hcd⟩ := @index_u16_of_standsAt KeyShareError _ _ _ hlen
    have hkeLen := UInt16.toNat_ofNat_of_lt' s.keyExchange_lt
    have hih := fun mlkem => ih (pos + (4 + s.keyExchange.length)) mlkem hshares (by omega)
    rw [← Nat.add_assoc] at hih
    rw [keyShares, if_pos (by omega), ha, ok_bind, hb, ok_bind, hc, ok_bind, hd, ok_bind, hab, hcd,
      hkeLen]
    dsimp only
    rw [if_neg (by omega), List.findSome?_cons, List.reverse_cons, List.findSome?_append,
      List.findSome?_cons, List.findSome?_nil]
    split
    · rename_i hx
      obtain ⟨key, hkeyList⟩ := exists_toList_eq hx.2
      have hinto := tryInto_eq_some.mpr hkeyList
      have hslice := @slice_of_standsAt KeyShareError _ _ _ (by omega) hkey
      rw [hx.2] at hslice
      rw [hslice, ok_bind, hinto, unwrap_some, KeyShareEntry.x25519, if_pos hx, hinto]
      rfl
    rename_i hx
    have hnone : s.x25519 = none := if_neg hx
    rw [hnone]
    dsimp only
    split
    · rename_i hhybrid
      have hlong : 1120 ≤ s.keyExchange.length := hhybrid.2
      have hlast : (s.keyExchange.drop (s.keyExchange.length - 32)).length = 32 := by
        rw [List.length_drop]
        omega
      obtain ⟨key, hkeyList⟩ := exists_toList_eq hlast
      have hinto := tryInto_eq_some.mpr hkeyList
      have hslice := @slice_of_standsAt KeyShareError _ _ _ (by omega)
        (StandsAt.drop hkey (Nat.sub_le s.keyExchange.length 32))
      rw [hlast] at hslice
      rw [hslice, ok_bind, hinto, unwrap_some, ok_bind, hih, KeyShareEntry.mlkemX25519,
        if_pos hhybrid, hinto]
      rw [Option.or_assoc]
      rfl
    · rename_i hhybrid
      have hnone' : s.mlkemX25519 = none := if_neg hhybrid
      rw [hih, hnone', Option.or_none]

/-- The data of a key_share extension give the key of its shares. -/
theorem parseX25519KeyShare_eq {shares : List KeyShareEntry}
    (hlt : 2 + (shares.flatMap KeyShareEntry.bytes).length < 65536) :
    parseX25519KeyShare (Extension.keyShare shares hlt).data =
      orErr .noX25519 (sharedKey shares) := by
  obtain ⟨data, hdata⟩ : ∃ data, data = (Extension.keyShare shares hlt).data := ⟨_, rfl⟩
  have hat : StandsAt data 0 (Extension.keyShare shares hlt).data := by
    rw [hdata]
    exact standsAt_zero.mpr (List.prefix_refl _)
  have hlen : data.length = 2 + (shares.flatMap KeyShareEntry.bytes).length := by
    rw [hdata, Extension.data, List.length_append, u16ToBe_length]
  rw [Extension.data, standsAt_append, u16ToBe_length] at hat
  obtain ⟨hsharesLen, hshares⟩ := hat
  obtain ⟨a, b, ha, hb, hab⟩ := @index_u16_of_standsAt KeyShareError _ _ _ hsharesLen
  rw [← hdata, parseX25519KeyShare, if_neg (by omega), ha, ok_bind, hb, ok_bind, hab,
    UInt16.toNat_ofNat_of_lt' (show _ < 65536 by omega)]
  dsimp only
  rw [← hlen, Nat.min_self, keyShares_eq (Nat.le_refl _) shares 2 none hshares hlen.symm,
    Option.or_none]
  rfl

/-! ## The loop over the extensions -/

theorem Extension.data_length_lt (e : Extension) : e.data.length < 65536 := by
  cases e with
  | keyShare shares hlt =>
    rw [Extension.data, List.length_append, u16ToBe_length]
    exact hlt
  | other type data hne hlt => exact hlt

theorem Extension.length_bytes (e : Extension) : e.bytes.length = 4 + e.data.length := by
  simp only [Extension.bytes, List.length_append, u16ToBe_length]
  omega

/-- **Extensions.**  The loop finds the key of the first key_share that is left. -/
theorem keyShareExtension_eq {record : Bytes} {extEnd : Nat} (hend : extEnd ≤ record.length)
    (extensions : List Extension) (pos : Nat)
    (hat : StandsAt record pos (extensions.flatMap Extension.bytes))
    (hpos : pos + (extensions.flatMap Extension.bytes).length = extEnd) :
    keyShareExtension record extEnd pos =
      (orErr .noKeyShare (extensions.findSome? Extension.shares) >>= fun shares =>
        orErr .noX25519 (sharedKey shares)) := by
  induction extensions generalizing pos with
  | nil =>
    rw [List.flatMap_nil, List.length_nil] at hpos
    rw [keyShareExtension, if_neg (by omega)]
    rfl
  | cons e extensions ih =>
    rw [List.flatMap_cons, List.length_append, e.length_bytes] at hpos
    rw [List.flatMap_cons, standsAt_append, e.length_bytes] at hat
    obtain ⟨hext, hrest⟩ := hat
    rw [Extension.bytes, standsAt_append, standsAt_append, u16ToBe_length,
      u16ToBe_length] at hext
    obtain ⟨htype, hlen, hdata⟩ := hext
    obtain ⟨a, b, ha, hb, hab⟩ := @index_u16_of_standsAt KeyShareError _ _ _ htype
    obtain ⟨c, d, hc, hd, hcd⟩ := @index_u16_of_standsAt KeyShareError _ _ _ hlen
    have hih := ih (pos + (4 + e.data.length)) hrest (by omega)
    rw [← Nat.add_assoc] at hih
    rw [keyShareExtension, if_pos (by omega), ha, ok_bind, hb, ok_bind, hc, ok_bind, hd, ok_bind,
      hab, hcd, UInt16.toNat_ofNat_of_lt' e.data_length_lt]
    dsimp only
    rw [if_neg (by omega), List.findSome?_cons]
    cases e with
    | keyShare shares hlt =>
      rw [show (Extension.keyShare shares hlt).type = 0x0033 from rfl, if_pos rfl,
        slice_of_standsAt (by omega) hdata, ok_bind, parseX25519KeyShare_eq]
      rfl
    | other type data hne hlt =>
      rw [show (Extension.other type data hne hlt).type = type from rfl, if_neg hne]
      exact hih

/-! ## The record -/

/-- In front of the cipher suites stand 76 bytes. -/
theorem ClientHello.tail_standsAt {h : ClientHello} {record : Bytes}
    (hrecord : h.bytes <+: record) : StandsAt record 76 h.tail := by
  have hbytes := standsAt_zero.mpr hrecord
  rw [ClientHello.bytes, standsAt_cons, standsAt_append, standsAt_append] at hbytes
  have hmessage := hbytes.2.2.2
  rw [List.cons_append, standsAt_cons, List.cons_append, standsAt_cons, standsAt_append] at hmessage
  have hbody := hmessage.2.2.2
  rw [ClientHello.body, standsAt_append, standsAt_append, standsAt_cons, standsAt_append] at hbody
  have htail := hbody.2.2.2.2
  simp only [u16ToBe_length, Vector.length_toList] at htail
  exact htail

/-- The bytes from the cipher suites on, with the lengths that stand in them. -/
theorem ClientHello.tail_fields {h : ClientHello} {record : Bytes} (hrecord : h.bytes <+: record) :
    ∃ a b c d e, record[76]? = some a ∧ record[77]? = some b ∧
      (u16OfBe a b).toNat = 2 * h.cipherSuites.length ∧
      record[78 + 2 * h.cipherSuites.length]? = some c ∧
      c.toNat = h.compressionMethods.length ∧
      record[79 + 2 * h.cipherSuites.length + h.compressionMethods.length]? = some d ∧
      record[80 + 2 * h.cipherSuites.length + h.compressionMethods.length]? = some e ∧
      (u16OfBe d e).toNat = (h.extensions.flatMap Extension.bytes).length ∧
      StandsAt record (81 + 2 * h.cipherSuites.length + h.compressionMethods.length)
        (h.extensions.flatMap Extension.bytes) := by
  have htail := ClientHello.tail_standsAt hrecord
  rw [ClientHello.tail, standsAt_append, standsAt_append, standsAt_cons, standsAt_append,
    standsAt_append, length_flatMap_u16ToBe, u16ToBe_length, u16ToBe_length] at htail
  obtain ⟨hcs, -, hcm, -, hext, hexts⟩ := htail
  obtain ⟨a, b, ha, hb, hab⟩ := @index_u16_of_standsAt KeyShareError _ _ _ hcs
  obtain ⟨d, e, hd, he, hde⟩ := @index_u16_of_standsAt KeyShareError _ _ _ hext
  have hmethods := h.compressionMethods_lt
  have hat : ∀ {i j : Nat} {v : UInt8}, i = j →
      (index record i : Outcome KeyShareError UInt8) = ok v → record[j]? = some v := by
    rintro i j v rfl hi
    exact index_eq_ok.mp hi
  refine ⟨a, b, _, d, e, hat rfl ha, hat rfl hb, ?_, hat (by omega) (index_eq_ok.mpr hcm), ?_,
    hat (by omega) hd, hat (by omega) he, ?_, ?_⟩
  · rw [hab, UInt16.toNat_ofNat_of_lt' h.cipherSuites_lt]
  · rw [UInt8.toNat_ofNat']
    omega
  · rw [hde, UInt16.toNat_ofNat_of_lt' h.extensions_lt]
  · have hpos : 76 + 2 + 2 * h.cipherSuites.length + 1 + h.compressionMethods.length + 2 =
        81 + 2 * h.cipherSuites.length + h.compressionMethods.length := by omega
    rw [← hpos]
    exact hexts

/-- Where the extensions of a hello end, it ends. -/
theorem ClientHello.length_bytes (h : ClientHello) :
    h.bytes.length = 81 + 2 * h.cipherSuites.length + h.compressionMethods.length +
      (h.extensions.flatMap Extension.bytes).length := by
  simp only [ClientHello.bytes, ClientHello.body, ClientHello.tail, List.length_append,
    List.length_cons, u16ToBe_length, Vector.length_toList, length_flatMap_u16ToBe]
  omega

/-- **The key share.**  In the bytes of a hello, whatever follows them, the key is found that
the hello shares. -/
theorem extractX25519FromKeyShare_clientHello (h : ClientHello) (rest : Bytes) :
    extractX25519FromKeyShare (h.bytes ++ rest) = h.x25519Key := by
  obtain ⟨record, hrecord⟩ : ∃ record, record = h.bytes ++ rest := ⟨_, rfl⟩
  have hprefix : h.bytes <+: record := by
    rw [hrecord]
    exact List.prefix_append _ _
  have hlen := hprefix.length_le
  rw [h.length_bytes] at hlen
  obtain ⟨a, b, c, d, e, ha, hb, hab, hc, hcLen, hd, he, hde, hexts⟩ :=
    ClientHello.tail_fields hprefix
  rw [← hrecord]
  clear hrecord
  unfold extractX25519FromKeyShare
  rw [show sidOffset + 32 = 76 from rfl]
  dsimp only
  rw [if_neg (by omega), index_eq_ok.mpr ha, ok_bind, index_eq_ok.mpr hb, ok_bind, hab,
    ← Nat.add_assoc 76, if_neg (by omega), index_eq_ok.mpr hc, ok_bind, hcLen]
  have hext : 76 + 2 + 2 * h.cipherSuites.length + (1 + h.compressionMethods.length) =
      79 + 2 * h.cipherSuites.length + h.compressionMethods.length := by omega
  rw [hext, if_neg (by omega), index_eq_ok.mpr hd, ok_bind]
  have hnext : 79 + 2 * h.cipherSuites.length + h.compressionMethods.length + 1 =
      80 + 2 * h.cipherSuites.length + h.compressionMethods.length := by omega
  have hstart : 79 + 2 * h.cipherSuites.length + h.compressionMethods.length + 2 =
      81 + 2 * h.cipherSuites.length + h.compressionMethods.length := by omega
  rw [hnext, hstart, index_eq_ok.mpr he, ok_bind, hde, if_neg (by omega)]
  exact keyShareExtension_eq (by omega) h.extensions _ hexts rfl

/-- A key share is found only where the whole hello is. -/
theorem ClientHello.eq_of_extract_eq_ok {h : ClientHello} {p : Bytes} {share : X25519Key}
    (hp : p <+: h.bytes) (hshare : extractX25519FromKeyShare p = ok share) : p = h.bytes := by
  have hat : ∀ {i : Nat} {v : UInt8}, p[i]? = some v → h.bytes[i]? = some v := by
    intro i v hi
    exact index_eq_ok.mp (@index_below KeyShareError _ _ hp i v (index_eq_ok.mpr hi))
  obtain ⟨a, b, c, d, e, ha, hb, hab, hc, hcLen, hd, he, hde, -⟩ :=
    ClientHello.tail_fields (List.prefix_refl h.bytes)
  obtain ⟨a', b', c', d', e', ha', hb', hc', hd', he', hfit⟩ := extensions_of_extract_eq_ok hshare
  obtain rfl : a' = a := Option.some.inj ((hat ha').symm.trans ha)
  obtain rfl : b' = b := Option.some.inj ((hat hb').symm.trans hb)
  rw [hab] at hc' hd' he' hfit
  obtain rfl : c' = c := Option.some.inj ((hat hc').symm.trans hc)
  rw [hcLen] at hd' he' hfit
  obtain rfl : d' = d := Option.some.inj ((hat hd').symm.trans hd)
  obtain rfl : e' = e := Option.some.inj ((hat he').symm.trans he)
  rw [hde, ← h.length_bytes] at hfit
  exact hp.eq_of_length_le hfit

end Ruproxy.Vless
