/-
  Shadowsocks/StreamRoundTrip.lean --- an `AeadReader` undoes an `AeadWriter`.

  `Wire` describes the bytes of a sequence of sealed chunks together with the
  nonces between them.  The writer produces such bytes, whatever the sizes of the
  buffers it is given; the reader takes them apart, whatever the sizes of the
  buffers it fills.  What is left to read is an invariant of the reader
  (`Reading`), and a call takes its result off the front of it.
-/
import Ruproxy.Foundation.Transition
import Ruproxy.Shadowsocks.Aead

set_option autoImplicit false

namespace Ruproxy.Shadowsocks

open Ruproxy.Foundation
open Ruproxy.Foundation.Transition

section Wire

variable {crypto : Crypto} {cipher : ShadowsocksCipher} {key : Bytes}

/-! ## The bytes of a sequence of chunks -/

/-- A message that fits into a chunk is sealed. -/
theorem aeadEncrypt_ok (hcrypto : crypto.Lawful) (hkey : key.length = cipher.keyLen)
    (nonce : Nonce) {pt : Bytes} (hlen : pt.length ≤ 65535) :
    ∃ ct, aeadEncrypt crypto cipher key nonce pt = .ok ct := by
  have hsome := hcrypto.encrypt_isSome cipher key nonce pt (by omega)
  obtain ⟨ct, hct⟩ := Option.isSome_iff_exists.mp hsome
  exact ⟨ct, by simp [aeadEncrypt, hkey, hct]⟩

/-- What was sealed is a tag longer and opens to the message. -/
theorem aeadDecrypt_of_encrypt (hcrypto : crypto.Lawful) {nonce : Nonce} {pt ct : Bytes}
    (h : aeadEncrypt crypto cipher key nonce pt = .ok ct) :
    ct.length = pt.length + cipher.tagLen ∧
      aeadDecrypt crypto cipher key nonce ct = .ok pt := by
  unfold aeadEncrypt at h
  split at h
  · cases h
  · rename_i hkey
    split at h
    · rename_i ct' hct
      cases h
      refine ⟨hcrypto.encrypt_length _ _ _ _ _ hct, ?_⟩
      rw [aeadDecrypt, if_neg hkey, hcrypto.decrypt_encrypt _ _ _ _ _ hct]
    · cases h

/-- The length field of a chunk reads back. -/
theorem u16OfBe_lenPt {n : Nat} (hn : n ≤ 65535) :
    (u16OfBe (UInt8.ofNat (n / 256)) (UInt8.ofNat n)).toNat = n := by
  simp only [u16OfBe, UInt8.toNat_ofNat', UInt16.toNat_ofNat']
  omega

/-- The bytes of chunks sealed one after the other from one nonce to another, with the
nonces after each chunk. -/
inductive Wire (crypto : Crypto) (cipher : ShadowsocksCipher) (key : Bytes) :
    Nonce → Bytes → List Bytes → List Nonce → Nonce → Prop where
  | nil {n : Nonce} : Wire crypto cipher key n [] [] [] n
  | cons {n n' : Nonce} {chunk lenCt payloadCt bytes : Bytes} {rest : List Bytes}
      {after : List Nonce} : chunk.length ≤ 65535 →
      aeadEncrypt crypto cipher key n (lenPt chunk.length) = .ok lenCt →
      aeadEncrypt crypto cipher key (incrementNonce n) chunk = .ok payloadCt →
      Wire crypto cipher key (incrementNonce (incrementNonce n)) bytes rest after n' →
      Wire crypto cipher key n (lenCt ++ payloadCt ++ bytes) (chunk :: rest)
        (incrementNonce (incrementNonce n) :: after) n'

/-! ## The writer -/

namespace AeadWriter

variable {w : AeadWriter}

/-- **Writing chunks.**  Chunks of at most 65535 bytes are written as they lie on the
wire. -/
theorem writeChunks_wire (hcrypto : crypto.Lawful) (hkey : w.subkey.length = w.cipher.keyLen)
    {chunks : List Bytes} (hlen : ∀ c ∈ chunks, c.length ≤ 65535) :
    ∃ bytes after n', w.writeChunks crypto chunks =
        (.ok (), { w with inner := w.inner ++ bytes, nonce := n', sealed := w.sealed ++ after }) ∧
      Wire crypto w.cipher w.subkey w.nonce bytes chunks after n' := by
  induction chunks generalizing w with
  | nil => exact ⟨[], [], w.nonce, by simp [writeChunks], .nil⟩
  | cons chunk chunks ih =>
    have hchunk := hlen chunk List.mem_cons_self
    have hlenPt : (lenPt chunk.length).length ≤ 65535 := by simp [lenPt]
    obtain ⟨lenCt, hlenCt⟩ := aeadEncrypt_ok hcrypto hkey w.nonce hlenPt
    obtain ⟨payloadCt, hpayloadCt⟩ :=
      aeadEncrypt_ok hcrypto hkey (incrementNonce w.nonce) hchunk
    let w' : AeadWriter := { w with
      inner := w.inner ++ lenCt ++ payloadCt
      nonce := incrementNonce (incrementNonce w.nonce)
      sealed := w.sealed ++ [incrementNonce (incrementNonce w.nonce)] }
    have hstep : w.writeChunk crypto chunk = (.ok (), w') := by
      simp [writeChunk, hlenCt, hpayloadCt, w']
    obtain ⟨bytes, after, n', hrest, hwire⟩ :=
      ih (w := w') hkey (fun c hc => hlen c (List.mem_cons_of_mem _ hc))
    refine ⟨lenCt ++ payloadCt ++ bytes, incrementNonce (incrementNonce w.nonce) :: after, n',
      ?_, .cons hchunk hlenCt hpayloadCt hwire⟩
    rw [writeChunks, hstep]
    dsimp only
    rw [hrest]
    simp [w']

theorem writeChunks_append (w : AeadWriter) (as bs : List Bytes) :
    w.writeChunks crypto (as ++ bs) =
      match w.writeChunks crypto as with
      | (.error e, w) => (.error e, w)
      | (.ok (), w) => w.writeChunks crypto bs := by
  induction as generalizing w with
  | nil => rfl
  | cons a as ih =>
    simp only [List.cons_append, writeChunks]
    split
    · rfl
    · exact ih _

/-- `write_data` on one buffer after the other until a call fails. -/
def writeAll (crypto : Crypto) (w : AeadWriter) : List Bytes → Except Error Unit × AeadWriter
  | [] => (.ok (), w)
  | data :: bufs =>
      match w.writeData crypto data with
      | (.error e, w) => (.error e, w)
      | (.ok (), w) => w.writeAll crypto bufs

/-- `write_header_chunk`, then `write_data` on one buffer after the other. -/
def writeStream (crypto : Crypto) (w : AeadWriter) (header : Bytes) (bufs : List Bytes) :
    Except Error Unit × AeadWriter :=
  match w.writeHeaderChunk crypto header with
  | (.error e, w) => (.error e, w)
  | (.ok (), w) => w.writeAll crypto bufs

theorem writeAll_eq (w : AeadWriter) (bufs : List Bytes) :
    w.writeAll crypto bufs = w.writeChunks crypto (bufs.flatMap (chunks maxChunk)) := by
  induction bufs generalizing w with
  | nil => rfl
  | cons data bufs ih =>
    rw [List.flatMap_cons, writeChunks_append, writeAll, writeData]
    split
    · rfl
    · exact ih _

/-- The calls of a stream write its header and the chunks of its buffers. -/
theorem writeStream_eq (w : AeadWriter) (header : Bytes) (bufs : List Bytes) :
    w.writeStream crypto header bufs =
      w.writeChunks crypto (header :: bufs.flatMap (chunks maxChunk)) := by
  rw [writeStream, writeHeaderChunk, writeChunks]
  rcases w.writeChunk crypto header with ⟨_ | _, w'⟩
  · rfl
  · exact writeAll_eq w' bufs

end AeadWriter

/-! ## The reader -/

namespace AeadReader

variable {r : AeadReader}

/-- What is left to read: the buffer and the payloads on the wire.  `nonces` are the
nonces of the writer after its chunks; the reader has had the first of them. -/
structure Reading (crypto : Crypto) (cipher : ShadowsocksCipher) (key : Bytes)
    (nonces : List Nonce) (r : AeadReader) (rest : Bytes) : Prop where
  same : r.cipher = cipher ∧ r.subkey = key
  last : r.opened.getLast? = some r.nonce
  wire : ∃ chunks after n', Wire crypto cipher key r.nonce r.inner chunks after n' ∧
    (∀ c ∈ chunks, c ≠ []) ∧ rest = r.buf ++ chunks.flatten ∧ nonces = r.opened ++ after

/-- **One chunk.**  The first chunk on the wire is opened, and the reader comes to the
nonce the writer had after it. -/
theorem openChunk_wire (hcrypto : crypto.Lawful) {n : Nonce} {chunk lenCt payloadCt : Bytes}
    (hchunk : chunk.length ≤ 65535)
    (hlenCt : aeadEncrypt crypto r.cipher r.subkey n (lenPt chunk.length) = .ok lenCt)
    (hpayloadCt : aeadEncrypt crypto r.cipher r.subkey (incrementNonce n) chunk = .ok payloadCt)
    (bytes : Bytes) (hn : r.nonce = n) (hinner : r.inner = payloadCt ++ bytes) :
    r.openChunk crypto lenCt = (.ok chunk, { r with
      inner := bytes
      nonce := incrementNonce (incrementNonce n)
      opened := r.opened ++ [incrementNonce (incrementNonce n)] }) := by
  obtain ⟨-, hlenPt⟩ := aeadDecrypt_of_encrypt hcrypto hlenCt
  obtain ⟨hpayloadLen, hpayloadPt⟩ := aeadDecrypt_of_encrypt hcrypto hpayloadCt
  subst hn
  have hread : readExact (chunk.length + r.cipher.tagLen) r.inner = some (payloadCt, bytes) := by
    rw [hinner]
    exact readExact_append hpayloadLen bytes
  simp only [openChunk, hlenPt, lenPt, u16OfBe_lenPt hchunk, hread, hpayloadPt]

/-- The encrypted length of the first chunk on the wire is read. -/
theorem readExact_lenCt (hcrypto : crypto.Lawful) {n : Nonce} {chunk lenCt : Bytes}
    (hlenCt : aeadEncrypt crypto cipher key n (lenPt chunk.length) = .ok lenCt)
    (bytes : Bytes) : readExact (2 + cipher.tagLen) (lenCt ++ bytes) = some (lenCt, bytes) :=
  readExact_append (aeadDecrypt_of_encrypt hcrypto hlenCt).1 bytes

/-- **The header.**  The first chunk on the wire is the header. -/
theorem readHeaderChunk_wire (hcrypto : crypto.Lawful) {header : Bytes}
    {chunks : List Bytes} {nonces : List Nonce} {n' : Nonce}
    (hwire : Wire crypto r.cipher r.subkey r.nonce r.inner (header :: chunks) nonces n')
    (hchunks : ∀ c ∈ chunks, c ≠ []) (hbuf : r.buf = []) (hopened : r.opened = []) :
    ∃ r', r.readHeaderChunk crypto = (.ok header, r') ∧
      Reading crypto r.cipher r.subkey nonces r' chunks.flatten := by
  generalize hinner : r.inner = inner at hwire
  generalize hn : r.nonce = n at hwire
  cases hwire with
  | @cons _ _ _ lenCt payloadCt bytes _ after hheader hlenCt hpayloadCt hrest =>
    have hread := readExact_lenCt hcrypto hlenCt (payloadCt ++ bytes)
    rw [← List.append_assoc, ← hinner] at hread
    have hopen := openChunk_wire (r := { r with inner := payloadCt ++ bytes }) hcrypto hheader
      hlenCt hpayloadCt bytes hn rfl
    refine ⟨{ r with
        inner := bytes
        nonce := incrementNonce (incrementNonce n)
        opened := r.opened ++ [incrementNonce (incrementNonce n)] }, ?_, ⟨rfl, rfl⟩, by simp,
      chunks, after, n', hrest, hchunks, ?_, ?_⟩
    · simp only [readHeaderChunk, hread, hopen]
    · simp [hbuf]
    · simp [hopened]

variable {nonces : List Nonce} {rest : Bytes}

/-- A call goes on with a buffer that is not empty, or nothing is left to read. -/
theorem Reading.ensureBuf (hcrypto : crypto.Lawful) (h : Reading crypto cipher key nonces r rest) :
    (∃ r', r.ensureBuf crypto = (.ok true, r') ∧ r'.buf ≠ [] ∧
      Reading crypto cipher key nonces r' rest) ∨
    (∃ r', r.ensureBuf crypto = (.ok false, r') ∧ rest = [] ∧
      Reading crypto cipher key nonces r' rest) := by
  obtain ⟨hsame, hlast, chunks, after, n', hwire, hchunks, hrest, hnonces⟩ := h
  unfold AeadReader.ensureBuf
  split
  · rename_i hbuf
    have hbuf : r.buf = [] := by simpa using hbuf
    obtain ⟨rfl, rfl⟩ := hsame
    generalize hinner : r.inner = inner at hwire
    generalize hn : r.nonce = n at hwire
    cases hwire with
    | nil =>
      right
      refine ⟨{ r with inner := [] }, ?_, by simpa [hbuf] using hrest, ⟨rfl, rfl⟩, hlast, [], [],
        r.nonce, .nil, hchunks, hrest, hnonces⟩
      simp [fillBuf, hinner, readExact]
    | @cons _ _ chunk lenCt payloadCt bytes rest' after hchunk hlenCt hpayloadCt hwire' =>
      left
      have hread := readExact_lenCt hcrypto hlenCt (payloadCt ++ bytes)
      rw [← List.append_assoc, ← hinner] at hread
      have hopen := openChunk_wire (r := { r with inner := payloadCt ++ bytes }) hcrypto hchunk
        hlenCt hpayloadCt bytes hn rfl
      refine ⟨{ r with
          inner := bytes
          nonce := incrementNonce (incrementNonce n)
          buf := r.buf ++ chunk
          opened := r.opened ++ [incrementNonce (incrementNonce n)] }, ?_, ?_, ⟨rfl, rfl⟩, by simp,
        rest', after, n', hwire', fun c hc => hchunks c (List.mem_cons_of_mem _ hc), ?_, ?_⟩
      · simp only [fillBuf, hread, hopen]
      · simpa [hbuf] using hchunks chunk List.mem_cons_self
      · simpa using hrest
      · simpa using hnonces
  · rename_i hbuf
    exact .inl ⟨r, rfl, by simpa using hbuf, hsame, hlast, chunks, after, n', hwire, hchunks,
      hrest, hnonces⟩

/-- Taking bytes out of the buffer takes them off what is left to read. -/
theorem Reading.takeBuf (h : Reading crypto cipher key nonces r rest) (n : Nat) :
    rest = (r.takeBuf n).1 ++ rest.drop (r.takeBuf n).1.length ∧
      Reading crypto cipher key nonces (r.takeBuf n).2 (rest.drop (r.takeBuf n).1.length) := by
  obtain ⟨hsame, hlast, chunks, after, n', hwire, hchunks, hrest, hnonces⟩ := h
  have hdrop : rest.drop (r.buf.take n).length = r.buf.drop n ++ chunks.flatten := by
    calc rest.drop (r.buf.take n).length
        = (r.buf.take n ++ (r.buf.drop n ++ chunks.flatten)).drop (r.buf.take n).length := by
          rw [← List.append_assoc, List.take_append_drop, hrest]
      _ = r.buf.drop n ++ chunks.flatten := List.drop_left
  refine ⟨?_, hsame, hlast, chunks, after, n', hwire, hchunks, hdrop, hnonces⟩
  show rest = r.buf.take n ++ rest.drop (r.buf.take n).length
  rw [hdrop, ← List.append_assoc, List.take_append_drop]
  exact hrest

/-- **`read_plain`.**  It takes bytes off the front of what is left, none only when
nothing is left. -/
theorem Reading.readPlain (hcrypto : crypto.Lawful) (h : Reading crypto cipher key nonces r rest)
    {n : Nat} (hn : 0 < n) :
    ∃ out r', r.readPlain crypto n = (.ok out, r') ∧ out.length ≤ n ∧
      (out = [] ↔ rest = []) ∧ rest = out ++ rest.drop out.length ∧
      Reading crypto cipher key nonces r' (rest.drop out.length) := by
  rcases h.ensureBuf hcrypto with ⟨r', hready, hbuf, h'⟩ | ⟨r', hready, hrest, h'⟩
  · obtain ⟨hsplit, htaken⟩ := h'.takeBuf n
    refine ⟨(r'.takeBuf n).1, (r'.takeBuf n).2, by simp only [AeadReader.readPlain, hready],
      List.length_take_le n _, ?_, hsplit, htaken⟩
    have hout : (r'.takeBuf n).1 ≠ [] := by
      simp only [AeadReader.takeBuf, ne_eq, List.take_eq_nil_iff, not_or]
      exact ⟨Nat.ne_of_gt hn, hbuf⟩
    refine iff_of_false hout fun hrest => hout ?_
    rw [hrest] at hsplit
    exact (List.append_eq_nil_iff.mp hsplit.symm).1
  · subst hrest
    exact ⟨[], r', by simp only [AeadReader.readPlain, hready], Nat.zero_le _, iff_of_true rfl rfl,
      rfl, h'⟩

/-- **`read_exact_plain`.**  It takes exactly as many bytes as it is asked for, when so
many are left. -/
theorem Reading.readExactPlain (hcrypto : crypto.Lawful) {n : Nat}
    (h : Reading crypto cipher key nonces r rest) (hn : n ≤ rest.length) :
    ∃ r', r.readExactPlain crypto n = (.ok (rest.take n), r') ∧
      Reading crypto cipher key nonces r' (rest.drop n) := by
  induction n using Nat.strongRecOn generalizing r rest with
  | ind n ih =>
    rcases Nat.eq_zero_or_pos n with rfl | hpos
    · exact ⟨r, by rw [readExactPlain_zero, List.take_zero], by simpa using h⟩
    rcases h.ensureBuf hcrypto with ⟨r₁, hready, hbuf, h₁⟩ | ⟨r₁, -, hrest, -⟩
    · obtain ⟨hsplit, htaken⟩ := h₁.takeBuf n
      generalize hpart : (r₁.takeBuf n).1 = part at hsplit htaken
      have hlen : part.length = min n r₁.buf.length := by
        rw [← hpart, AeadReader.takeBuf, List.length_take]
      have hbufLen : 0 < r₁.buf.length := List.length_pos_iff.mpr hbuf
      obtain ⟨r₂, hrec, h₂⟩ := ih (n - part.length) (by omega) htaken
        (by rw [List.length_drop]; omega)
      refine ⟨r₂, ?_, ?_⟩
      · rw [readExactPlain_of_pos crypto hpos hready]
        simp only [hpart, hrec, Except.map]
        congr 2
        conv_rhs => rw [hsplit, List.take_append, List.take_of_length_le (by omega)]
      · rw [List.drop_drop] at h₂
        rwa [show part.length + (n - part.length) = n by omega] at h₂
    · rw [hrest, List.length_nil] at hn
      omega

/-- When nothing is left, the reader has had every nonce of the writer. -/
theorem Reading.opened_eq (h : Reading crypto cipher key nonces r []) : r.opened = nonces := by
  obtain ⟨-, -, chunks, after, n', hwire, hchunks, hrest, hnonces⟩ := h
  generalize r.inner = inner at hwire
  generalize r.nonce = n at hwire
  cases hwire with
  | nil => simpa using hnonces.symm
  | @cons _ _ chunk _ _ _ rest' _ _ _ _ _ =>
    have hchunk : chunk = [] := by
      have := (List.append_eq_nil_iff.mp hrest.symm).2
      rw [List.flatten_cons] at this
      exact (List.append_eq_nil_iff.mp this).1
    exact absurd hchunk (hchunks chunk List.mem_cons_self)

end AeadReader

end Wire

/-! ## Sequences of read calls -/

/-- A call that reads plaintext, with the length of its buffer. -/
inductive ReadCall where
  | plain (n : Nat)
  | exact (n : Nat)
  deriving DecidableEq

/-- A call of `read_plain`. -/
def ReadCall.isPlain : ReadCall → Bool
  | .plain _ => true
  | .exact _ => false

/-- A reader and what its calls have returned. -/
structure Progress where
  reader : AeadReader
  returned : Bytes

section Calls

variable (crypto : Crypto)

/-- The call on a reader. -/
def ReadCall.run (r : AeadReader) : ReadCall → Except Error Bytes × AeadReader
  | .plain n => r.readPlain crypto n
  | .exact n => r.readExactPlain crypto n

/-- The next call, `none` where it fails. -/
def readStep (s : Progress) (call : ReadCall) : Option Progress :=
  match call.run crypto s.reader with
  | (.ok out, r) => some ⟨r, s.returned ++ out⟩
  | (.error _, _) => none

end Calls

/-- `read_plain` is called with a buffer that is not empty, `read_exact_plain` for no
more than what remains of the data. -/
def Admissible (data : Bytes) (s : Progress) : ReadCall → Prop
  | .plain n => 0 < n
  | .exact n => n ≤ data.length - s.returned.length

/-- Of the data, some is returned and the reader holds the rest. -/
def Reads (crypto : Crypto) (cipher : ShadowsocksCipher) (key : Bytes) (nonces : List Nonce)
    (data : Bytes) (s : Progress) : Prop :=
  ∃ rest, data = s.returned ++ rest ∧ s.reader.Reading crypto cipher key nonces rest

section Calls

variable {crypto : Crypto} {cipher : ShadowsocksCipher} {key : Bytes} {nonces : List Nonce}
  {data : Bytes} {s : Progress}

/-- **One call.**  An admissible call succeeds and returns the next bytes of the data;
`read_plain` returns at least one as long as some remain. -/
theorem Reads.step (hcrypto : crypto.Lawful) (h : Reads crypto cipher key nonces data s)
    {call : ReadCall} (hcall : Admissible data s call) :
    ∃ s', readStep crypto s call = some s' ∧ Reads crypto cipher key nonces data s' ∧
      min data.length (s.returned.length + if call.isPlain then 1 else 0) ≤
        s'.returned.length := by
  obtain ⟨rest, hdata, hreading⟩ := h
  have hlen : data.length = s.returned.length + rest.length := by
    rw [hdata, List.length_append]
  cases call with
  | plain n =>
    obtain ⟨out, r', hread, -, hout, hsplit, hreading'⟩ := hreading.readPlain hcrypto hcall
    refine ⟨⟨r', s.returned ++ out⟩, by simp only [readStep, ReadCall.run, hread],
      ⟨rest.drop out.length, ?_, hreading'⟩, ?_⟩
    · rw [List.append_assoc, ← hsplit]
      exact hdata
    · have hpos : rest ≠ [] → 0 < out.length := fun hne =>
        List.length_pos_iff.mpr fun hnil => hne (hout.mp hnil)
      rw [List.length_append, hlen, ReadCall.isPlain, if_pos rfl]
      rcases Nat.eq_zero_or_pos rest.length with hzero | hrest
      · omega
      · have := hpos (List.length_pos_iff.mp hrest)
        omega
  | exact n =>
    have hn : n ≤ rest.length := by
      have : n ≤ data.length - s.returned.length := hcall
      omega
    obtain ⟨r', hread, hreading'⟩ := hreading.readExactPlain hcrypto hn
    refine ⟨⟨r', s.returned ++ rest.take n⟩, by simp only [readStep, ReadCall.run, hread],
      ⟨rest.drop n, ?_, hreading'⟩, ?_⟩
    · rw [List.append_assoc, List.take_append_drop]
      exact hdata
    · simp [ReadCall.isPlain]

theorem sum_isPlain (calls : List ReadCall) :
    (calls.map fun call => if call.isPlain then 1 else 0).sum = calls.countP ReadCall.isPlain := by
  induction calls with
  | nil => rfl
  | cons call calls ih =>
    rw [List.map_cons, List.sum_cons, ih, List.countP_cons, Nat.add_comm]

end Calls

/-- **Stream round trip.**  For every cipher and subkey, every header of at most 65535
bytes and every sequence of written buffers, a reader with the same subkey returns the
header, and every sequence of read calls after it returns the written data: no call
fails, `read_plain` returns nothing exactly when all was returned, and after each chunk
the reader has the nonce that the writer had. -/
theorem readStep_writeStream (crypto : Crypto) (hcrypto : crypto.Lawful)
    (cipher : ShadowsocksCipher) (subkey : Bytes) (hkey : subkey.length = cipher.keyLen)
    (header : Bytes) (hheader : header.length ≤ 65535) (bufs : List Bytes) :
    let written := (AeadWriter.new cipher subkey).writeStream crypto header bufs
    let opened := (AeadReader.new written.2.inner cipher subkey).readHeaderChunk crypto
    let data := bufs.flatten
    written.1 = .ok () ∧ opened.1 = .ok header ∧
      ∀ calls, Every (readStep crypto) (Admissible data) ⟨opened.2, []⟩ calls →
        ∃ s, run (readStep crypto) ⟨opened.2, []⟩ calls = some s ∧
          s.returned <+: data ∧
          (data.length ≤ calls.countP ReadCall.isPlain → s.returned = data) ∧
          (∀ n, 0 < n → ∃ out r, s.reader.readPlain crypto n = (.ok out, r) ∧
            (out = [] ↔ s.returned = data)) ∧
          s.reader.opened <+: written.2.sealed ∧
          s.reader.opened.getLast? = some s.reader.nonce ∧
          (s.returned = data → s.reader.opened = written.2.sealed) := by
  intro written opened data
  have hsplit : (bufs.flatMap (chunks maxChunk)).flatten = data :=
    flatten_flatMap_chunks (by decide) bufs
  have hshort : ∀ c ∈ header :: bufs.flatMap (chunks maxChunk), c.length ≤ 65535 := by
    intro c hc
    rcases List.mem_cons.mp hc with rfl | hc
    · exact hheader
    · obtain ⟨b, -, hcb⟩ := List.mem_flatMap.mp hc
      exact Nat.le_trans (length_le_of_mem_chunks hcb) (by decide)
  have hnonempty : ∀ c ∈ bufs.flatMap (chunks maxChunk), c ≠ [] := by
    intro c hc
    obtain ⟨b, -, hcb⟩ := List.mem_flatMap.mp hc
    exact ne_nil_of_mem_chunks (by decide) hcb
  -- what the writer leaves on the wire
  obtain ⟨bytes, after, n', hwritten, hwire⟩ :=
    AeadWriter.writeChunks_wire (w := .new cipher subkey) hcrypto hkey hshort
  rw [← AeadWriter.writeStream_eq] at hwritten
  have hinner : written.2.inner = bytes := by
    show ((AeadWriter.new cipher subkey).writeStream crypto header bufs).2.inner = bytes
    rw [hwritten]
    rfl
  have hsealed : written.2.sealed = after := by
    show ((AeadWriter.new cipher subkey).writeStream crypto header bufs).2.sealed = after
    rw [hwritten]
    rfl
  -- the reader after the header
  obtain ⟨r, hread, hreading⟩ := AeadReader.readHeaderChunk_wire
    (r := .new bytes cipher subkey) hcrypto hwire hnonempty rfl rfl
  have hopened : opened = (.ok header, r) := by
    show (AeadReader.new written.2.inner cipher subkey).readHeaderChunk crypto = _
    rw [hinner, hread]
  refine ⟨congrArg Prod.fst hwritten, congrArg Prod.fst hopened, fun calls hev => ?_⟩
  rw [hopened] at hev ⊢
  have hstart : Reads crypto cipher subkey after data ⟨r, []⟩ := ⟨_, hsplit.symm, hreading⟩
  obtain ⟨s, hrun, ⟨rest, hdata, hrest⟩, hlen⟩ := exists_run_growing
    (Reads crypto cipher subkey after data) (fun s => s.returned.length)
    (fun call => if call.isPlain then 1 else 0) data.length
    (fun hinv hcall => hinv.step hcrypto hcall) hstart hev
  have hall : s.returned = data ↔ rest = [] := by
    rw [hdata]
    exact List.self_eq_append_right
  refine ⟨s, hrun, ⟨rest, hdata.symm⟩, fun hcount => ?_, fun n hn => ?_, ?_, hrest.last, ?_⟩
  · rw [sum_isPlain, List.length_nil, Nat.zero_add, Nat.min_eq_left hcount, hdata,
      List.length_append] at hlen
    exact hall.mpr (List.eq_nil_of_length_eq_zero (by omega))
  · obtain ⟨out, r', hout, -, hnil, -⟩ := hrest.readPlain hcrypto hn
    exact ⟨out, r', hout, hnil.trans hall.symm⟩
  · obtain ⟨_, ahead, _, _, _, _, hnonces⟩ := hrest.wire
    exact ⟨ahead, by rw [hsealed, hnonces]⟩
  · intro hdone
    rw [hall.mp hdone] at hrest
    rw [hsealed]
    exact hrest.opened_eq

/-! ## An instance -/

/-- Ciphers that append a tag made of the nonce and open only what bears it. -/
def sampleCrypto : Crypto where
  encrypt _ _ nonce plain := some (plain ++ nonce.toList ++ [0, 0, 0, 0])
  decrypt _ _ nonce ct :=
    if ct.drop (ct.length - 16) = nonce.toList ++ [0, 0, 0, 0] then
      some (ct.take (ct.length - 16))
    else none

theorem sampleCrypto_lawful : sampleCrypto.Lawful where
  encrypt_isSome c key nonce plain _ := rfl
  encrypt_length c key nonce plain ct h := by
    cases h
    simp [ShadowsocksCipher.tagLen]
  decrypt_encrypt c key nonce plain ct h := by
    cases h
    simp [sampleCrypto]

/-- Two buffers come back through a reader with small buffers. -/
theorem readStep_writeStream_hi :
    ∃ s, run (readStep sampleCrypto) ⟨((AeadReader.new
        ((AeadWriter.new .blake3Aes128Gcm (List.replicate 16 0)).writeStream sampleCrypto [1]
          [[104], [], [105]]).2.inner .blake3Aes128Gcm (List.replicate 16 0)).readHeaderChunk
            sampleCrypto).2, []⟩ [.exact 1, .plain 7, .plain 7] = some s ∧
      s.returned <+: [104, 105] := by
  obtain ⟨-, -, hall⟩ := readStep_writeStream sampleCrypto sampleCrypto_lawful .blake3Aes128Gcm
    (List.replicate 16 0) rfl [1] (by decide) [[104], [], [105]]
  obtain ⟨s, hrun, hreturned, -⟩ := hall [.exact 1, .plain 7, .plain 7]
    ⟨(by decide : 1 ≤ 2 - 0), fun _ _ => ⟨Nat.zero_lt_succ 6, fun _ _ =>
      ⟨Nat.zero_lt_succ 6, fun _ _ => trivial⟩⟩⟩
  exact ⟨s, hrun, hreturned⟩

end Ruproxy.Shadowsocks
