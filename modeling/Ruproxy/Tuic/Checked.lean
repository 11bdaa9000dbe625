/-
  Tuic/Checked.lean --- the two command parsers, line by line.

  `proto.rs` parses the commands of a datagram from a cursor, `connection.rs` those of a
  stream as its chunks arrive, each with an address parser of its own.  The two copies
  are written down here one by one, over any reader and with the places where an index,
  a slice or an `unwrap` could panic.  Each follows its counterpart of `Proto`, where
  the common parts are shared.
-/
import Ruproxy.Foundation.Reader
import Ruproxy.Tuic.Codec

set_option autoImplicit false

namespace Ruproxy.Tuic

open Ruproxy.Foundation
open Ruproxy.Foundation.Outcome (err orErr unwrap slice index tryInto)

namespace Checked

variable {ρ : Type} [Reader ρ] {ε : Type}

/-! ## Arithmetic -/

/-- `a + b` on `usize`, with an overflow check.  A `usize` has 16 bits or more. -/
def addUsize (a b : Nat) : Outcome ε Nat :=
  if a + b < 65536 then .ok (a + b) else .panic

theorem addUsize_of_lt {a b : Nat} (h : a + b < 65536) :
    (addUsize a b : Outcome ε Nat) = .ok (a + b) := if_pos h

/-! ## Datagrams -/

/-- `Command::read_address_sync`. -/
def readAddressSync (r : ρ) : Outcome IoError (Address × ρ) := do
  let (buf, r) ← readArray .unexpectedEof 1 r
  if buf[0] = 0xff then return (.none, r)
  else if buf[0] = 0x00 then
    let (buf, r) ← readArray .unexpectedEof 1 r
    let len := buf[0].toNat
    let size ← addUsize len 2
    let (domainBuf, r) ← readArray .unexpectedEof size r
    let last ← addUsize len 1
    let port := u16OfBe (← index domainBuf.toList len) (← index domainBuf.toList last)
    let domain ← orErr .utf8 (fromUtf8 (domainBuf.toList.take len))
    return (.domain domain port, r)
  else if buf[0] = 0x01 then
    let (b, r) ← readArray .unexpectedEof 6 r
    let port := u16OfBe b[4] b[5]
    return (.socket ⟨.v4 (.new b[0] b[1] b[2] b[3]), port⟩, r)
  else if buf[0] = 0x02 then
    let (b, r) ← readArray .unexpectedEof 18 r
    let ip := Ipv6Addr.new (u16OfBe b[0] b[1]) (u16OfBe b[2] b[3]) (u16OfBe b[4] b[5])
      (u16OfBe b[6] b[7]) (u16OfBe b[8] b[9]) (u16OfBe b[10] b[11]) (u16OfBe b[12] b[13])
      (u16OfBe b[14] b[15])
    let port := u16OfBe b[16] b[17]
    return (.socket ⟨.v6 ip, port⟩, r)
  else err (.invalidData ("unknown address type " ++ dec buf[0].toNat))

/-- `Command::read_from_sync`. -/
def readFromSync (r : ρ) : Outcome IoError (Command × ρ) := do
  let (hdr, r) ← readArray .unexpectedEof 2 r
  let ver := hdr[0]
  let cmd := hdr[1]
  if ver ≠ version then
    err (.invalidData ("unsupported TUIC version: " ++ dec ver.toNat))
  else if cmd = cmdAuthenticate then
    let (buf, r) ← readArray .unexpectedEof 48 r
    let uuid ← unwrap (tryInto 16 (← slice buf.toList 0 16))
    let token ← unwrap (tryInto 32 (← slice buf.toList 16 48))
    return (.authenticate ⟨uuid.toList, token.toList⟩, r)
  else if cmd = cmdPacket then
    let (buf, r) ← readArray .unexpectedEof 8 r
    let assocId := u16OfBe buf[0] buf[1]
    let pktId := u16OfBe buf[2] buf[3]
    let fragTotal := buf[4]
    let fragId := buf[5]
    let size := u16OfBe buf[6] buf[7]
    let (addr, r) ← readAddressSync r
    return (.packet ⟨assocId, pktId, fragTotal, fragId, size, addr⟩, r)
  else if cmd = cmdHeartbeat then return (.heartbeat, r)
  else if cmd = cmdDissociate then
    let (buf, r) ← readArray .unexpectedEof 2 r
    return (.dissociate (u16OfBe buf[0] buf[1]), r)
  else err (.invalidData ("unexpected cmd " ++ dec cmd.toNat ++ " in datagram"))

/-! ## Streams -/

/-- `Address::read_from`. -/
def readFrom (r : ρ) : Outcome IoError (Address × ρ) := do
  let (buf, r) ← readArray .unexpectedEof 1 r
  if buf[0] = 0xff then return (.none, r)
  else if buf[0] = 0x00 then
    let (buf, r) ← readArray .unexpectedEof 1 r
    let len := buf[0].toNat
    let size ← addUsize len 2
    let (domainBuf, r) ← readArray .unexpectedEof size r
    let last ← addUsize len 1
    let port := u16OfBe (← index domainBuf.toList len) (← index domainBuf.toList last)
    let domain ← orErr .utf8 (fromUtf8 (domainBuf.toList.take len))
    return (.domain domain port, r)
  else if buf[0] = 0x01 then
    let (b, r) ← readArray .unexpectedEof 6 r
    let port := u16OfBe b[4] b[5]
    return (.socket ⟨.v4 (.new b[0] b[1] b[2] b[3]), port⟩, r)
  else if buf[0] = 0x02 then
    let (b, r) ← readArray .unexpectedEof 18 r
    let ip := Ipv6Addr.new (u16OfBe b[0] b[1]) (u16OfBe b[2] b[3]) (u16OfBe b[4] b[5])
      (u16OfBe b[6] b[7]) (u16OfBe b[8] b[9]) (u16OfBe b[10] b[11]) (u16OfBe b[12] b[13])
      (u16OfBe b[14] b[15])
    let port := u16OfBe b[16] b[17]
    return (.socket ⟨.v6 ip, port⟩, r)
  else err (.invalidData ("unknown address type: " ++ dec buf[0].toNat))

/-- `parse_command_with_prefix`. -/
def parseCommandWithPrefix (ver cmd : UInt8) (recv : ρ) : Outcome Error (Command × ρ) :=
  if ver ≠ version then
    err (.protocol ("unsupported TUIC version: " ++ dec ver.toNat))
  else if cmd = cmdAuthenticate then do
    let (buf, recv) ← readArray (.io .unexpectedEof) 48 recv
    let uuid ← unwrap (tryInto 16 (← slice buf.toList 0 16))
    let token ← unwrap (tryInto 32 (← slice buf.toList 16 48))
    return (.authenticate ⟨uuid.toList, token.toList⟩, recv)
  else if cmd = cmdConnect then do
    let (addr, recv) ← (readFrom recv).mapErr .io
    return (.connect addr, recv)
  else if cmd = cmdPacket then do
    let (buf, recv) ← readArray (.io .unexpectedEof) 8 recv
    let assocId := u16OfBe buf[0] buf[1]
    let pktId := u16OfBe buf[2] buf[3]
    let fragTotal := buf[4]
    let fragId := buf[5]
    let size := u16OfBe buf[6] buf[7]
    let (addr, recv) ← (readFrom recv).mapErr .io
    return (.packet ⟨assocId, pktId, fragTotal, fragId, size, addr⟩, recv)
  else if cmd = cmdDissociate then do
    let (buf, recv) ← readArray (.io .unexpectedEof) 2 recv
    return (.dissociate (u16OfBe buf[0] buf[1]), recv)
  else if cmd = cmdHeartbeat then return (.heartbeat, recv)
  else err (.protocol ("unknown command: " ++ dec cmd.toNat))

/-! ## What the parsers follow -/

open Reader (rest)

theorem toOption_read_bind {α : Type} (n : Nat) (r : Bytes)
    (f : Bytes × Bytes → Except IoError α) :
    (read n r >>= f).toOption = (readExact n r).bind fun p => (f p).toOption := by
  unfold read
  cases readExact n r with
  | none => rfl
  | some p => rfl

/-- The two halves of an AUTHENTICATE command are where the slices are. -/
theorem follows_authenticate (v : Vector UInt8 48) (s : ρ) :
    Follows (do
      let uuid ← unwrap (tryInto 16 (← slice v.toList 0 16))
      let token ← unwrap (tryInto 32 (← slice v.toList 16 48))
      return (.authenticate ⟨uuid.toList, token.toList⟩, s) : Outcome ε (Command × ρ))
      (some (.authenticate ⟨v.toList.take 16, v.toList.drop 16⟩, rest s)) := by
  have huuid : (slice v.toList 0 16 : Outcome ε Bytes) = .ok (v.toList.take 16) :=
    Outcome.slice_of_le (by decide) (by rw [v.length_toList]; decide)
  have htoken : (slice v.toList 16 48 : Outcome ε Bytes) = .ok (v.toList.drop 16) := by
    rw [Outcome.slice_of_le (by decide) (by rw [v.length_toList]), List.take_of_length_le]
    rw [List.length_drop, v.length_toList]
  obtain ⟨uuid, hu⟩ := exists_toList_eq (n := 16) (b := v.toList.take 16) (by simp)
  obtain ⟨token, ht⟩ := exists_toList_eq (n := 32) (b := v.toList.drop 16) (by simp)
  rw [huuid, Outcome.ok_bind, Outcome.tryInto_eq_some.mpr hu, Outcome.unwrap_some,
    Outcome.ok_bind, htoken, Outcome.ok_bind, Outcome.tryInto_eq_some.mpr ht,
    Outcome.unwrap_some, Outcome.ok_bind, ← hu, ← ht]
  exact follows_ok _ s

/-- Both address parsers, up to the text for an unknown type. -/
def readAddressWith (unknown : UInt8 → String) (r : ρ) : Outcome IoError (Address × ρ) := do
  let (buf, r) ← readArray .unexpectedEof 1 r
  if buf[0] = 0xff then return (.none, r)
  else if buf[0] = 0x00 then
    let (buf, r) ← readArray .unexpectedEof 1 r
    let len := buf[0].toNat
    let size ← addUsize len 2
    let (domainBuf, r) ← readArray .unexpectedEof size r
    let last ← addUsize len 1
    let port := u16OfBe (← index domainBuf.toList len) (← index domainBuf.toList last)
    let domain ← orErr .utf8 (fromUtf8 (domainBuf.toList.take len))
    return (.domain domain port, r)
  else if buf[0] = 0x01 then
    let (b, r) ← readArray .unexpectedEof 6 r
    let port := u16OfBe b[4] b[5]
    return (.socket ⟨.v4 (.new b[0] b[1] b[2] b[3]), port⟩, r)
  else if buf[0] = 0x02 then
    let (b, r) ← readArray .unexpectedEof 18 r
    let ip := Ipv6Addr.new (u16OfBe b[0] b[1]) (u16OfBe b[2] b[3]) (u16OfBe b[4] b[5])
      (u16OfBe b[6] b[7]) (u16OfBe b[8] b[9]) (u16OfBe b[10] b[11]) (u16OfBe b[12] b[13])
      (u16OfBe b[14] b[15])
    let port := u16OfBe b[16] b[17]
    return (.socket ⟨.v6 ip, port⟩, r)
  else err (.invalidData (unknown buf[0]))

/-- The index of the port is inside the array of a domain. -/
theorem follows_domain {len : Nat} (hlt : len < 256) (v : Vector UInt8 (len + 2)) (s : ρ) :
    Follows (do
      let last ← addUsize len 1
      let port := u16OfBe (← index v.toList len) (← index v.toList last)
      let domain ← orErr .utf8 (fromUtf8 (v.toList.take len))
      return (.domain domain port, s) : Outcome IoError (Address × ρ))
      (match v.toList.drop len, fromUtf8 (v.toList.take len) with
        | [p, q], some name => return (.domain name (u16OfBe p q), rest s)
        | _, _ => throw .utf8 : Except IoError (Address × Bytes)).toOption := by
  have hlen : v.toList.length = len + 2 := v.length_toList
  have hport : v.toList.drop len = [v.toList[len], v.toList[len + 1]] := by
    rw [List.drop_eq_getElem_cons (by omega), List.drop_eq_getElem_cons (by omega),
      List.drop_of_length_le (by omega)]
  rw [hport, addUsize_of_lt (by omega), Outcome.ok_bind, Outcome.index_of_lt (by omega),
    Outcome.ok_bind, Outcome.index_of_lt (by omega), Outcome.ok_bind]
  cases fromUtf8 (v.toList.take len) with
  | none => exact follows_err _
  | some name => exact follows_ok _ s

/-- **Addresses.** -/
theorem follows_readAddressWith (unknown : UInt8 → String) (r : ρ) :
    Follows (readAddressWith unknown r) (readAddress unknown (rest r)).toOption := by
  unfold readAddressWith readAddress
  rw [toOption_read_bind]
  refine follows_readArray_bind fun v s => ?_
  have hv : v.toList = [v[0]] := by
    rw [toList_eq_ofFn]
    simp [List.ofFn_succ]
  rw [hv]
  dsimp only
  split
  · exact follows_ok _ s
  split
  · rw [toOption_read_bind]
    refine follows_readArray_bind fun v s => ?_
    have hv : v.toList = [v[0]] := by
      rw [toList_eq_ofFn]
      simp [List.ofFn_succ]
    have hlt : v[0].toNat < 256 := v[0].toNat_lt
    rw [hv]
    unfold readDomain
    rw [toOption_read_bind]
    dsimp only
    rw [addUsize_of_lt (by omega), Outcome.ok_bind]
    exact follows_readArray_bind fun v s => follows_domain hlt v s
  split
  · rw [toOption_read_bind]
    refine follows_readArray_bind fun v s => ?_
    have hv : v.toList = [v[0], v[1], v[2], v[3], v[4], v[5]] := by
      rw [toList_eq_ofFn]
      simp [List.ofFn_succ]
    rw [hv]
    exact follows_ok _ s
  split
  · rw [toOption_read_bind]
    refine follows_readArray_bind fun v s => ?_
    have hv : v.toList = [v[0], v[1], v[2], v[3], v[4], v[5], v[6], v[7], v[8], v[9], v[10],
        v[11], v[12], v[13], v[14], v[15], v[16], v[17]] := by
      rw [toList_eq_ofFn]
      simp [List.ofFn_succ]
    rw [hv]
    exact follows_ok _ s
  · exact follows_err _

theorem readAddressSync_eq (r : ρ) :
    readAddressSync r = readAddressWith (fun t => "unknown address type " ++ dec t.toNat) r := rfl

theorem readFrom_eq (r : ρ) :
    readFrom r = readAddressWith (fun t => "unknown address type: " ++ dec t.toNat) r := rfl

theorem follows_readAddressSync (r : ρ) :
    Follows (readAddressSync r) (Tuic.readAddressSync (rest r)).toOption := by
  rw [readAddressSync_eq, Tuic.readAddressSync]
  exact follows_readAddressWith _ r

theorem follows_readFrom (r : ρ) :
    Follows ((readFrom r).mapErr Error.io) (Address.readFrom (rest r)).toOption := by
  rw [readFrom_eq, Address.readFrom]
  exact (follows_readAddressWith _ r).mapErr Error.io

/-- The fields of a PACKET command; the address parsers are those of the two copies. -/
theorem follows_packet {eof : ε} {readAddr : ρ → Outcome ε (Address × ρ)}
    {readAddr' : Bytes → Except IoError (Address × Bytes)}
    (haddr : ∀ r, Follows (readAddr r) (readAddr' (rest r)).toOption) (r : ρ) :
    Follows (do
      let (buf, r) ← readArray eof 8 r
      let (addr, r) ← readAddr r
      return (.packet ⟨u16OfBe buf[0] buf[1], u16OfBe buf[2] buf[3], buf[4], buf[5],
        u16OfBe buf[6] buf[7], addr⟩, r) : Outcome ε (Command × ρ))
      (readPacketInfo readAddr' (rest r)).toOption := by
  unfold readPacketInfo
  rw [toOption_read_bind]
  refine follows_readArray_bind fun v s => ?_
  have hv : v.toList = [v[0], v[1], v[2], v[3], v[4], v[5], v[6], v[7]] := by
    rw [toList_eq_ofFn]
    simp [List.ofFn_succ]
  rw [hv]
  dsimp only
  rw [Except.toOption_bind]
  exact (haddr s).bind fun addr s => follows_ok _ s

theorem follows_dissociate {eof : ε} (r : ρ) :
    Follows (do
      let (buf, r) ← readArray eof 2 r
      return (.dissociate (u16OfBe buf[0] buf[1]), r) : Outcome ε (Command × ρ))
      (readDissociate (rest r)).toOption := by
  unfold readDissociate
  rw [toOption_read_bind]
  refine follows_readArray_bind fun v s => ?_
  have hv : v.toList = [v[0], v[1]] := by
    rw [toList_eq_ofFn]
    simp [List.ofFn_succ]
  rw [hv]
  exact follows_ok _ s

theorem follows_authInfo {eof : ε} (r : ρ) :
    Follows (do
      let (buf, r) ← readArray eof 48 r
      let uuid ← unwrap (tryInto 16 (← slice buf.toList 0 16))
      let token ← unwrap (tryInto 32 (← slice buf.toList 16 48))
      return (.authenticate ⟨uuid.toList, token.toList⟩, r) : Outcome ε (Command × ρ))
      (readAuthInfo (rest r)).toOption := by
  unfold readAuthInfo
  rw [toOption_read_bind]
  exact follows_readArray_bind fun v s => follows_authenticate v s

/-- **Datagrams.**  The parser of the datagrams follows that of `Proto`. -/
theorem follows_readFromSync (r : ρ) :
    Follows (readFromSync r) (Tuic.readFromSync (rest r)).toOption := by
  unfold readFromSync Tuic.readFromSync
  rw [toOption_read_bind]
  refine follows_readArray_bind fun v s => ?_
  have hv : v.toList = [v[0], v[1]] := by
    rw [toList_eq_ofFn]
    simp [List.ofFn_succ]
  rw [hv]
  dsimp only
  split
  · exact follows_err _
  split
  · exact follows_authInfo s
  split
  · exact follows_packet follows_readAddressSync s
  split
  · exact follows_ok _ s
  split
  · exact follows_dissociate s
  · exact follows_err _

/-- **Streams.**  The parser of the streams follows that of `Proto`. -/
theorem follows_parseCommandWithPrefix (ver cmd : UInt8) (r : ρ) :
    Follows (parseCommandWithPrefix ver cmd r)
      (Tuic.parseCommandWithPrefix ver cmd (rest r)).toOption := by
  unfold parseCommandWithPrefix Tuic.parseCommandWithPrefix
  split
  · exact follows_err _
  split
  · rw [Except.toOption_mapError]
    exact follows_authInfo r
  split
  · rw [Except.toOption_mapError]
    have haddr := follows_readFrom r
    cases hread : Address.readFrom (rest r) with
    | error e =>
      rw [hread] at haddr
      obtain ⟨e', he'⟩ := haddr
      rw [he']
      exact follows_err e'
    | ok a =>
      rw [hread] at haddr
      obtain ⟨s, hs, hrest⟩ := haddr
      rw [hs]
      exact ⟨s, rfl, hrest⟩
  split
  · rw [Except.toOption_mapError]
    exact follows_packet follows_readFrom r
  split
  · rw [Except.toOption_mapError]
    exact follows_dissociate r
  split
  · exact follows_ok _ r
  · exact follows_err _

/-! ## Agreement -/

/-- The text for an unknown address type does not matter to a PACKET command. -/
theorem toOption_readPacketInfo (unknown unknown' : UInt8 → String) (r : Bytes) :
    (readPacketInfo (readAddress unknown) r).toOption =
      (readPacketInfo (readAddress unknown') r).toOption := by
  refine Option.ext fun p => ?_
  obtain ⟨cmd, rest⟩ := p
  rw [Except.toOption_eq_some, Except.toOption_eq_some, readPacketInfo_eq_ok_iff, readPacketInfo_eq_ok_iff]

/-- What a command is parsed from stands in front of what is left. -/
theorem suffix_of_parseCommandWithPrefix {ver cmd : UInt8} {b left : Bytes} {command : Command}
    (hcmd : cmd ≠ cmdConnect)
    (h : Tuic.parseCommandWithPrefix ver cmd b = .ok (command, left)) : left <:+ b := by
  unfold Tuic.parseCommandWithPrefix at h
  split at h
  · cases h
  split at h
  · obtain ⟨buf, r, -, rfl, hauth⟩ := read_bind_eq_ok.mp (Except.mapError_eq_ok.mp h)
    cases hauth
    exact List.suffix_append _ _
  split at h
  · obtain ⟨info, -, rfl, -⟩ := readPacketInfo_eq_ok_iff.mp (Except.mapError_eq_ok.mp h)
    exact List.suffix_append _ _
  split at h
  · obtain ⟨buf, r, -, rfl, hbuf⟩ := read_bind_eq_ok.mp (Except.mapError_eq_ok.mp h)
    dsimp only at hbuf
    split at hbuf
    · cases hbuf
      exact List.suffix_append _ _
    · cases hbuf
  split at h
  · cases h
    exact List.suffix_refl _
  · cases h

/-- Of the commands that both parsers know they make the same. -/
theorem toOption_parseCommandWithPrefix {ver cmd : UInt8} (htuic : isTuicPrefix ver cmd = true)
    (hcmd : cmd ≠ cmdConnect) (b : Bytes) :
    (Tuic.parseCommandWithPrefix ver cmd b).toOption =
      (Tuic.readFromSync (ver :: cmd :: b)).toOption := by
  have hver : ¬ ver ≠ version := by
    rw [isTuicPrefix, Bool.and_eq_true, decide_eq_true_eq] at htuic
    exact not_not.mpr htuic.1
  have hread : read 2 (ver :: cmd :: b) = .ok ([ver, cmd], b) := by
    simp [read, readExact]
  unfold Tuic.parseCommandWithPrefix Tuic.readFromSync
  rw [hread]
  show _ = (if ver ≠ version then _ else _ : Except IoError (Command × Bytes)).toOption
  rw [if_neg hver, if_neg hver]
  split
  · exact Except.toOption_mapError _ _
  split
  · exact (Except.toOption_mapError _ _).trans (toOption_readPacketInfo _ _ b)
  split
  · rename_i hdissociate
    rw [hdissociate, if_neg (by decide), Except.toOption_mapError]
  split
  · rfl
  · rfl

/-- **The two parsers.**  On the same bytes, in whatever chunks the stream delivers them,
both fail or both make the same command from as many bytes. -/
theorem parsers_agree {ver cmd : UInt8} (htuic : isTuicPrefix ver cmd = true)
    (hcmd : cmd ≠ cmdConnect) (recv : RecvStream) :
    (∃ e e', readFromSync (Cursor.new (ver :: cmd :: recv.rest)) = err e ∧
      parseCommandWithPrefix ver cmd recv = err e') ∨
    ∃ command c recv', readFromSync (Cursor.new (ver :: cmd :: recv.rest)) =
        .ok (command, c) ∧
      parseCommandWithPrefix ver cmd recv = .ok (command, recv') ∧
      c.pos = 2 + (recv.rest.length - recv'.rest.length) := by
  have hsync := follows_readFromSync (Cursor.new (ver :: cmd :: recv.rest))
  have hasync := follows_parseCommandWithPrefix ver cmd recv
  have hagree := toOption_parseCommandWithPrefix htuic hcmd recv.rest
  change Follows _ (Tuic.readFromSync (ver :: cmd :: recv.rest)).toOption at hsync
  change Follows _ (Tuic.parseCommandWithPrefix ver cmd recv.rest).toOption at hasync
  rw [hagree] at hasync
  cases hparse : (Tuic.readFromSync (ver :: cmd :: recv.rest)).toOption with
  | none =>
    rw [hparse] at hsync hasync
    obtain ⟨e, he⟩ := hsync
    obtain ⟨e', he'⟩ := hasync
    exact .inl ⟨e, e', he, he'⟩
  | some r =>
    obtain ⟨command, left⟩ := r
    rw [hparse] at hsync hasync
    obtain ⟨c, hc, hleft⟩ := hsync
    obtain ⟨recv', hrecv', hleft'⟩ := hasync
    refine .inr ⟨command, c, recv', hc, hrecv', ?_⟩
    have hpos := c.pos_add_length_rest
    change c.rest = left at hleft
    change recv'.rest = left at hleft'
    rw [hleft, ← hleft'] at hpos
    simp only [List.length_cons] at hpos
    have hle := (suffix_of_parseCommandWithPrefix hcmd
      (Except.toOption_eq_some.mp (hagree.trans hparse))).length_le
    rw [← hleft'] at hle
    omega

/-- A packet for 192.0.2.1:53 that arrives in two chunks, cut inside its packet id. -/
def splitPacket : RecvStream := ⟨[[0, 7, 0], [1, 1, 0, 0, 2, 1, 192, 0, 2, 1, 0, 53, 104, 105]]⟩

theorem parsers_agree_splitPacket :
    (∃ e e', readFromSync (Cursor.new (version :: cmdPacket :: splitPacket.rest)) = err e ∧
      parseCommandWithPrefix version cmdPacket splitPacket = err e') ∨
    ∃ command c recv', readFromSync (Cursor.new (version :: cmdPacket :: splitPacket.rest)) =
        .ok (command, c) ∧
      parseCommandWithPrefix version cmdPacket splitPacket = .ok (command, recv') ∧
      c.pos = 2 + (splitPacket.rest.length - recv'.rest.length) :=
  parsers_agree (by decide) (by decide) splitPacket

end Checked

end Ruproxy.Tuic
