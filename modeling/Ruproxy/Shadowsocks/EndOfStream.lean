/-
  Shadowsocks/EndOfStream.lean --- what it means when `read_plain` returns 0.

  `fill_buf` takes every end of the transport while it reads an encrypted length for the
  end of the stream, and `read_plain` returns the length of what it has in its buffer, also
  when the chunk that it has just opened was empty.  The uplink of `process` stops at
  either.

  `aligned` is not in the source: whether what the calls have consumed are whole chunks.
-/
import Ruproxy.Foundation.Transition
import Ruproxy.Shadowsocks.StreamRoundTrip

set_option autoImplicit false

namespace Ruproxy.Shadowsocks

open Ruproxy.Foundation Ruproxy.Foundation.Transition

/-- A reader at work. -/
structure Uplink where
  reader : AeadReader
  aligned : Bool

section Property

variable (crypto : Crypto)

namespace AeadReader

/-- The transport holds a whole chunk: an encrypted length, and as many bytes behind it
as it says. -/
def hasChunk (r : AeadReader) : Bool :=
  match readExact (2 + r.cipher.tagLen) r.inner with
  | none => false
  | some (lenCt, inner) =>
      match aeadDecrypt crypto r.cipher r.subkey r.nonce lenCt with
      | .ok (a :: b :: _) => (u16OfBe a b).toNat + r.cipher.tagLen ≤ inner.length
      | _ => false

/-- Nothing is left, neither of a chunk nor of the transport. -/
def AtEnd (r : AeadReader) : Prop := r.buf = [] ∧ r.inner = []

/-- The transport ends inside of the next chunk, or what it has does not begin one. -/
def CutInside (r : AeadReader) : Prop :=
  r.buf = [] ∧ r.inner ≠ [] ∧ r.hasChunk crypto = false

end AeadReader

namespace Uplink

/-- A call of `read_plain` into a buffer of `n` bytes. -/
def step (s : Uplink) (n : Nat) : Option Uplink :=
  some {
    reader := (s.reader.readPlain crypto n).2
    aligned := s.aligned &&
      (!s.reader.buf.isEmpty || s.reader.inner.isEmpty || s.reader.hasChunk crypto) }

/-- With a buffer that is not empty, the call returns 0 only at the end of the transport
behind whole chunks, and an error where the transport ends inside of a chunk. -/
def TellsEnd (s : Uplink) (n : Nat) : Prop :=
  0 < n →
    ((s.reader.readPlain crypto n).1 = .ok [] → s.reader.AtEnd ∧ s.aligned = true) ∧
      (s.reader.CutInside crypto → ∃ e, (s.reader.readPlain crypto n).1 = .error e)

/-- A call that has to read from the transport finds it at its end behind whole chunks, or
finds an encrypted length, and no chunk without a payload. -/
def Clean (s : Uplink) (n : Nat) : Prop :=
  0 < n → s.reader.buf = [] →
    (s.reader.inner = [] ∧ s.aligned = true) ∨
      (2 + s.reader.cipher.tagLen ≤ s.reader.inner.length ∧
        (s.reader.readHeaderChunk crypto).1 ≠ .ok [])

end Uplink

end Property

variable {crypto : Crypto}

/-! ## One call -/

namespace AeadReader

/-- `read_exact` fails exactly when too few bytes are left. -/
theorem readExact_eq_none_iff {n : Nat} {s : Bytes} : readExact n s = none ↔ s.length < n := by
  unfold readExact
  split
  · rename_i hle
    exact iff_of_false (by simp) (Nat.not_lt_of_le hle)
  · rename_i hlt
    exact iff_of_true rfl (Nat.lt_of_not_le hlt)

/-- A chunk that is opened was whole. -/
theorem hasChunk_of_readHeaderChunk {r : AeadReader} {payload : Bytes}
    (h : (r.readHeaderChunk crypto).1 = .ok payload) : r.hasChunk crypto = true := by
  unfold readHeaderChunk openChunk at h
  unfold hasChunk
  cases hread : readExact (2 + r.cipher.tagLen) r.inner with
  | none =>
    rw [hread] at h
    cases h
  | some split =>
    obtain ⟨lenCt, inner⟩ := split
    rw [hread] at h
    dsimp only at h ⊢
    cases hlen : aeadDecrypt crypto r.cipher r.subkey r.nonce lenCt with
    | error e =>
      rw [hlen] at h
      cases h
    | ok lenPt =>
      rw [hlen] at h
      rcases lenPt with _ | ⟨a, _ | ⟨b, more⟩⟩
      · cases h
      · cases h
      · dsimp only at h ⊢
        cases hpayload : readExact ((u16OfBe a b).toNat + r.cipher.tagLen) inner with
        | none =>
          rw [hpayload] at h
          cases h
        | some split =>
          obtain ⟨hsplit, hcount⟩ := readExact_eq_some.mp hpayload
          rw [hsplit, List.length_append, hcount]
          simp

/-- A chunk that is opened does not go into the buffer yet. -/
theorem openChunk_buf (r : AeadReader) (lenCt : Bytes) :
    (r.openChunk crypto lenCt).2.buf = r.buf := by
  unfold openChunk
  split
  · rfl
  · dsimp only
    split
    · rfl
    · split <;> rfl
  · rfl

/-- What `read_plain` returns when it has to read from the transport. -/
theorem readPlain_of_empty {r : AeadReader} (hbuf : r.buf = []) (n : Nat) :
    (r.readPlain crypto n).1 =
      if r.inner.length < 2 + r.cipher.tagLen then .ok []
      else (r.readHeaderChunk crypto).1.map fun payload => payload.take n := by
  have hensure : r.ensureBuf crypto = r.fillBuf crypto := by
    rw [ensureBuf, hbuf]
    rfl
  unfold readPlain readHeaderChunk
  rw [hensure, fillBuf]
  cases hread : readExact (2 + r.cipher.tagLen) r.inner with
  | none => rw [if_pos (readExact_eq_none_iff.mp hread)]
  | some split =>
    obtain ⟨lenCt, inner⟩ := split
    have hlong : ¬ r.inner.length < 2 + r.cipher.tagLen := by
      rw [← readExact_eq_none_iff, hread]
      exact Option.some_ne_none _
    rw [if_neg hlong]
    dsimp only
    have hkept : (openChunk crypto { r with inner := inner } lenCt).2.buf = r.buf :=
      openChunk_buf _ _
    generalize openChunk crypto { r with inner := inner } lenCt = opened at hkept ⊢
    obtain ⟨_ | payload, r'⟩ := opened
    · rfl
    · have hbuf' : r'.buf = [] := hkept.trans hbuf
      simp only [takeBuf, hbuf', List.nil_append]
      rfl

/-- Otherwise it returns bytes of its buffer. -/
theorem readPlain_of_buffered {r : AeadReader} (hbuf : r.buf ≠ []) (n : Nat) :
    (r.readPlain crypto n).1 = .ok (r.buf.take n) := by
  simp [readPlain, ensureBuf, takeBuf, hbuf]

end AeadReader

/-- **One call.**  It tells the end of the stream exactly if it is clean. -/
theorem Uplink.tellsEnd_iff_clean (s : Uplink) (n : Nat) :
    s.TellsEnd crypto n ↔ s.Clean crypto n := by
  obtain ⟨r, aligned⟩ := s
  refine imp_congr_right fun hn => ?_
  have htake : ∀ {b : Bytes}, b.take n = [] ↔ b = [] := by
    intro b
    rw [List.take_eq_nil_iff]
    exact or_iff_right (Nat.ne_of_gt hn)
  rcases eq_or_ne r.buf [] with hbuf | hbuf
  swap
  · -- the buffer has bytes
    dsimp only
    rw [AeadReader.readPlain_of_buffered hbuf]
    refine iff_of_true ⟨fun hnil => ?_, fun hcut => absurd hcut.1 hbuf⟩ fun hnil => absurd hnil hbuf
    exact absurd (htake.mp (Except.ok.inj hnil)) hbuf
  · dsimp only
    rw [AeadReader.readPlain_of_empty hbuf]
    by_cases hshort : r.inner.length < 2 + r.cipher.tagLen
    · -- the end of the transport, or an encrypted length that is cut
      rw [if_pos hshort]
      constructor
      · rintro ⟨hzero, -⟩ -
        obtain ⟨⟨-, hinner⟩, haligned⟩ := hzero rfl
        exact .inl ⟨hinner, haligned⟩
      · intro hclean
        obtain ⟨hinner, haligned⟩ :=
          (hclean hbuf).resolve_right fun hlong => Nat.not_lt_of_le hlong.1 hshort
        exact ⟨fun _ => ⟨⟨hbuf, hinner⟩, haligned⟩, fun hcut => absurd hinner hcut.2.1⟩
    · -- a chunk, or an error
      rw [if_neg hshort]
      have hlong : 2 + r.cipher.tagLen ≤ r.inner.length := Nat.le_of_not_lt hshort
      have hinner : r.inner ≠ [] := by
        intro hnil
        rw [hnil] at hlong
        cases hlong
      cases hchunk : (r.readHeaderChunk crypto).1 with
      | error e =>
        refine iff_of_true ⟨fun hnil => ?_, fun _ => ⟨e, rfl⟩⟩ fun _ => .inr ⟨hlong, by simp⟩
        cases hnil
      | ok payload =>
        have hwhole := AeadReader.hasChunk_of_readHeaderChunk hchunk
        rcases eq_or_ne payload [] with rfl | hpayload
        · refine iff_of_false (fun htells => ?_) fun hclean => ?_
          · have hnil : Except.map (fun payload => payload.take n) (.ok []) =
                (.ok [] : Except Error Bytes) := by simp [Except.map]
            exact hinner (htells.1 hnil).1.2
          · rcases hclean hbuf with ⟨hnil, -⟩ | ⟨-, hne⟩
            · exact hinner hnil
            · exact hne rfl
        · refine iff_of_true ⟨fun hnil => ?_, fun hcut => ?_⟩ fun _ => .inr ⟨hlong, ?_⟩
          · exact absurd (htake.mp (Except.ok.inj hnil)) hpayload
          · have hno := hcut.2.2
            rw [hwhole] at hno
            cases hno
          · exact fun hok => hpayload (Except.ok.inj hok)

/-! ## Every sequence of calls -/

/-- **End of stream.**  Of a transport that holds any bytes, read from a chunk boundary on
with any buffers, every call of `read_plain` tells the end of the stream, exactly if every
call is clean. -/
theorem Uplink.every_tellsEnd_iff (r : AeadReader) (lens : List Nat) :
    Every (Uplink.step crypto) (Uplink.TellsEnd crypto) ⟨r, true⟩ lens ↔
      Every (Uplink.step crypto) (Uplink.Clean crypto) ⟨r, true⟩ lens :=
  every_congr (fun s len _ => s.tellsEnd_iff_clean len) _

/-- An empty chunk and one with the byte 104. -/
def emptyChunk : Bytes :=
  ((AeadWriter.new .blake3Aes128Gcm (List.replicate 16 0)).writeChunks sampleCrypto
    [[], [104]]).2.inner

/-- **Wrong ends.**  One byte of an encrypted length is taken for the end of the stream,
and so is an empty chunk with another one behind it. -/
theorem Uplink.not_every_tellsEnd :
    ¬ Every (Uplink.step sampleCrypto) (Uplink.TellsEnd sampleCrypto)
        ⟨.new [0] .blake3Aes128Gcm (List.replicate 16 0), true⟩ [16] ∧
      ¬ Every (Uplink.step sampleCrypto) (Uplink.TellsEnd sampleCrypto)
        ⟨.new emptyChunk .blake3Aes128Gcm (List.replicate 16 0), true⟩ [16] := by
  constructor
  · intro hall
    obtain ⟨⟨-, hinner⟩, -⟩ := (hall.1 (by decide)).1 rfl
    cases hinner
  · intro hall
    obtain ⟨⟨-, hinner⟩, -⟩ := (hall.1 (by decide)).1 rfl
    cases hinner

end Ruproxy.Shadowsocks
