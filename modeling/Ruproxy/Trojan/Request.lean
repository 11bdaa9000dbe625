/-
  Trojan/Request.lean --- the request of `trojan/mod.rs`.

  `decode_trojan` reads a line with the digest of the password, the command, the target and
  two more bytes.  The line ends at the first CR LF, and after 257 bytes without one the
  request is refused.  The two bytes behind the target are not compared with CR LF.

  The digest SHA-224 is a parameter: a function from bytes to 28 bytes.
-/
import Ruproxy.Address.Agreement
import Ruproxy.Address.Grammar
import Ruproxy.Foundation.Lossy

set_option autoImplicit false

namespace Ruproxy.Trojan

open Ruproxy.Foundation Ruproxy.Address

/-! ## The decoder -/

/-- `hex::encode`. -/
def hexEncode (b : Bytes) : String :=
  String.ofList (b.flatMap fun x => [Nat.digitChar (x.toNat / 16), Nat.digitChar (x.toNat % 16)])

/-- `b"\r\n"`. -/
def crlf : Bytes := [13, 10]

/-- How the loop over the line stops. -/
inductive LineStop where
  /-- at CR LF -/
  | crlf
  /-- at the limit for its length -/
  | badAuth
  /-- at the end of the stream -/
  | eof
  deriving DecidableEq

/-- What the loop has read, what it leaves on the stream, and how it stopped. -/
structure AuthLine where
  line : Bytes
  rest : Bytes
  stop : LineStop
  deriving DecidableEq

/-- The loop of `decode_trojan`, with `line` read. -/
def authLoop (line : Bytes) : Bytes → AuthLine
  | [] => ⟨line, [], .eof⟩
  | b :: s =>
      let line := line ++ [b]
      if crlf.isSuffixOf line then ⟨line, s, .crlf⟩
      else if 256 < line.length then ⟨line, s, .badAuth⟩
      else authLoop line s

variable (sha224 : Bytes → Vector UInt8 28)

/-- `decode_trojan`. -/
def decodeTrojan (s : Bytes) (password : String) : Except AddrError (String × Bytes) :=
  let auth := authLoop [] s
  match auth.stop with
  | .eof => .error .unexpectedEof
  | .badAuth => .error (.bail "bad auth")
  | .crlf => do
      let got := fromUtf8Lossy (auth.line.take (auth.line.length - 2))
      let expected := hexEncode (sha224 (asBytes password)).toList
      if got ≠ expected then throw (.bail "invalid password")
      else do
        let (cmd, s) ← readU8 auth.rest
        if cmd ≠ 1 then throw (.bail "only tcp supported")
        else do
          let (target, s) ← decodeTarget s
          let (_, s) ← readN 2 s
          return (target, s)

/-! ## The format -/

/-- The request up to its closing CR LF. -/
def IsHead (password : String) (head : Bytes) (target : String) : Prop :=
  ∃ (addr : SocksAddr) (port : UInt16),
    head = asBytes (hexEncode (sha224 (asBytes password)).toList) ++ (crlf ++
      1 :: (addr.bytes ++ u16ToBe port)) ∧ hostPort addr.host port = target

/-- A request for `target`, and `rest` behind it. -/
def IsRequest (password : String) (s : Bytes) (target : String) (rest : Bytes) : Prop :=
  ∃ head, s = head ++ (crlf ++ rest) ∧ IsHead sha224 password head target

/-! ## Hexadecimal text -/

theorem mem_hexEncode {c : Char} {b : Bytes} (h : c ∈ (hexEncode b).toList) :
    ∃ n < 16, c = Nat.digitChar n := by
  rw [hexEncode, String.toList_ofList, List.mem_flatMap] at h
  obtain ⟨x, -, hc⟩ := h
  have hx := x.toNat_lt
  rw [List.mem_cons, List.mem_singleton] at hc
  rcases hc with rfl | rfl
  · exact ⟨_, by omega, rfl⟩
  · exact ⟨_, by omega, rfl⟩

theorem length_hexEncode (b : Bytes) : (asBytes (hexEncode b)).length = 2 * b.length := by
  have hdigit : ∀ n < 16, (Nat.digitChar n).utf8Size = 1 := by decide
  rw [asBytes_length_of_ascii, hexEncode, String.toList_ofList, List.length_flatMap]
  · simp [Nat.mul_comm]
  · intro c hc
    obtain ⟨n, hn, rfl⟩ := mem_hexEncode hc
    exact hdigit n hn

theorem replacement_notMem_hexEncode (b : Bytes) : replacement ∉ (hexEncode b).toList := by
  have hdigit : ∀ n < 16, replacement ≠ Nat.digitChar n := by decide
  intro h
  obtain ⟨n, hn, heq⟩ := mem_hexEncode h
  exact hdigit n hn heq

theorem lf_notMem_hexEncode (b : Bytes) : 10 ∉ asBytes (hexEncode b) := by
  have hdigit : ∀ n < 16, (10 : UInt8) ∉ String.utf8EncodeChar (Nat.digitChar n) := by decide
  intro h
  obtain ⟨c, hc, hmem⟩ := mem_asBytes.mp h
  obtain ⟨n, hn, rfl⟩ := mem_hexEncode hc
  exact hdigit n hn hmem

/-! ## The line -/

theorem crlf_isSuffixOf_iff {line : Bytes} : crlf.isSuffixOf line = true ↔ ∃ l, line = l ++ crlf := by
  rw [List.isSuffixOf_iff_suffix]
  exact ⟨fun ⟨l, h⟩ => ⟨l, h.symm⟩, fun ⟨l, h⟩ => ⟨l, h.symm⟩⟩

/-- The loop takes the line off the front of the stream, at most 257 bytes of it. -/
theorem authLoop_spec (line s : Bytes) (h : line.length ≤ 256) :
    (authLoop line s).line ++ (authLoop line s).rest = line ++ s ∧
      (authLoop line s).line.length ≤ 257 := by
  induction s generalizing line with
  | nil => exact ⟨rfl, by rw [authLoop]; exact h.trans (by decide)⟩
  | cons b s ih =>
    have hlen : (line ++ [b]).length = line.length + 1 := List.length_append
    rw [authLoop]
    split
    · exact ⟨by simp, by dsimp only; omega⟩
    split
    · exact ⟨by simp, by dsimp only; omega⟩
    · rename_i hle
      obtain ⟨hsplit, hmax⟩ := ih (line ++ [b]) (by omega)
      exact ⟨by rw [hsplit, List.append_assoc]; rfl, hmax⟩

/-- Where the loop stops at CR LF, that is the end of the line. -/
theorem authLoop_crlf (line s : Bytes) (h : (authLoop line s).stop = .crlf) :
    ∃ l, (authLoop line s).line = l ++ crlf := by
  induction s generalizing line with
  | nil => cases h
  | cons b s ih =>
    rw [authLoop] at h ⊢
    split at h
    · rename_i hsuffix
      rw [if_pos hsuffix]
      exact crlf_isSuffixOf_iff.mp hsuffix
    · rename_i hsuffix
      rw [if_neg hsuffix]
      split at h
      · cases h
      · rename_i hle
        rw [if_neg hle]
        exact ih _ h

/-- A line without a line feed is read up to the CR LF behind it. -/
theorem authLoop_append {line b : Bytes} (hlf : 10 ∉ b) (hlen : (line ++ b).length ≤ 255)
    (rest : Bytes) : authLoop line (b ++ (crlf ++ rest)) = ⟨line ++ b ++ crlf, rest, .crlf⟩ := by
  have hstep : ∀ (l : Bytes) (x : UInt8) (s : Bytes), x ≠ 10 → l.length < 256 →
      authLoop l (x :: s) = authLoop (l ++ [x]) s := by
    intro l x s hx hl
    have hsuffix : ¬ crlf.isSuffixOf (l ++ [x]) = true := by
      rw [crlf_isSuffixOf_iff]
      rintro ⟨l', heq⟩
      have hlast := congrArg List.getLast? heq
      simp [crlf] at hlast
      exact hx hlast
    rw [authLoop]
    rw [if_neg hsuffix, if_neg (by rw [List.length_append, List.length_singleton]; omega)]
  induction b generalizing line with
  | nil =>
    rw [List.append_nil] at hlen
    have hsuffix : crlf.isSuffixOf (line ++ [13] ++ [10]) = true :=
      crlf_isSuffixOf_iff.mpr ⟨line, by simp [crlf]⟩
    rw [List.nil_append, List.append_nil, crlf, List.cons_append, List.cons_append,
      hstep line 13 _ (by decide) (by omega), authLoop, List.nil_append, if_pos hsuffix,
      List.append_assoc]
    rfl
  | cons x b ih =>
    rw [List.mem_cons, not_or] at hlf
    have hcons : line ++ x :: b = line ++ [x] ++ b := by simp
    rw [List.length_append, List.length_cons] at hlen
    rw [List.cons_append, hstep line x _ (Ne.symm hlf.1) (by omega), ih hlf.2, hcons]
    rw [List.length_append, List.length_append, List.length_singleton]
    omega

/-! ## Soundness and completeness -/

section

variable {sha224} {password target : String} {s rest : Bytes}

theorem decodeTarget_eq_ok : decodeTarget s = .ok (target, rest) ↔
    ∃ (addr : SocksAddr) (port : UInt16),
      s = addr.bytes ++ (u16ToBe port ++ rest) ∧ hostPort addr.host port = target := by
  rw [← Except.toOption_eq_some, toOption_decodeTarget, target_eq_some_iff]
  simp only [eq_comm]

/-- **What is accepted.**  A request up to its closing CR LF, two more bytes, and the rest. -/
theorem decodeTrojan_eq_ok : decodeTrojan sha224 s password = .ok (target, rest) ↔
    ∃ head c, s = head ++ (c ++ rest) ∧ c.length = 2 ∧ IsHead sha224 password head target := by
  constructor
  · intro h
    unfold decodeTrojan at h
    dsimp only at h
    obtain ⟨hsplit, -⟩ := authLoop_spec [] s (by decide)
    split at h
    · cases h
    · cases h
    rename_i hstop
    obtain ⟨l, hline⟩ := authLoop_crlf [] s hstop
    have htake : (authLoop [] s).line.take ((authLoop [] s).line.length - 2) = l := by
      rw [hline, List.length_append]
      exact List.take_left
    rw [htake] at h
    split at h
    · cases h
    rename_i hgot
    rw [not_not, fromUtf8Lossy_eq_iff (replacement_notMem_hexEncode _)] at hgot
    obtain ⟨⟨cmd, s1⟩, hcmd, hcmdOk⟩ := Except.bind_eq_ok.mp h
    have hrest := readU8_eq_ok.mp hcmd
    dsimp only at hcmdOk
    split at hcmdOk
    · cases hcmdOk
    rename_i hone
    obtain ⟨⟨target', s2⟩, htarget, htargetOk⟩ := Except.bind_eq_ok.mp hcmdOk
    obtain ⟨addr, port, rfl, rfl⟩ := decodeTarget_eq_ok.mp htarget
    obtain ⟨⟨c, s3⟩, hc, heq⟩ := Except.bind_eq_ok.mp htargetOk
    obtain ⟨rfl, hlen⟩ := readN_eq_ok.mp hc
    cases heq
    rw [not_not] at hone
    refine ⟨_, c, ?_, hlen, addr, port, rfl, rfl⟩
    rw [List.nil_append, hline, hrest, hgot, hone] at hsplit
    rw [← hsplit]
    simp
  · rintro ⟨head, c, rfl, hlen, addr, port, rfl, rfl⟩
    have hshort : ([] ++ asBytes (hexEncode (sha224 (asBytes password)).toList)).length ≤ 255 := by
      rw [List.nil_append, length_hexEncode, Vector.length_toList]
      decide
    have hline := authLoop_append (lf_notMem_hexEncode _) hshort
      (1 :: (addr.bytes ++ (u16ToBe port ++ (c ++ rest))))
    have hstream : asBytes (hexEncode (sha224 (asBytes password)).toList) ++ (crlf ++
        1 :: (addr.bytes ++ u16ToBe port)) ++ (c ++ rest) =
        asBytes (hexEncode (sha224 (asBytes password)).toList) ++ (crlf ++
          1 :: (addr.bytes ++ (u16ToBe port ++ (c ++ rest)))) := by simp
    rw [hstream]
    unfold decodeTrojan
    rw [hline]
    have htake : ∀ l : Bytes, (l ++ crlf).take ((l ++ crlf).length - 2) = l := by
      intro l
      rw [List.length_append]
      exact List.take_left
    dsimp only
    rw [htake, List.nil_append, fromUtf8Lossy_asBytes, if_neg (not_not.mpr rfl)]
    refine Except.bind_eq_ok.mpr ⟨_, readU8_eq_ok.mpr rfl, ?_⟩
    refine Except.bind_eq_ok.mpr ⟨_, decodeTarget_eq_ok.mpr ⟨addr, port, rfl, rfl⟩, ?_⟩
    exact Except.bind_eq_ok.mpr ⟨_, readN_eq_ok.mpr ⟨rfl, hlen⟩, rfl⟩

end

/-! ## Exact acceptance -/

/-- `decode_trojan` accepts exactly the requests at the front of `s`, and leaves what stands
behind them. -/
def Exact (password : String) (s : Bytes) : Prop :=
  ∀ target rest, decodeTrojan sha224 s password = .ok (target, rest) ↔
    IsRequest sha224 password s target rest

section

variable {sha224} {password target : String} {s rest : Bytes}

/-- Where the acceptance is exact, the two bytes behind a head are CR LF. -/
theorem Exact.closing {head c : Bytes} (h : Exact sha224 password (head ++ (c ++ rest)))
    (hc : c.length = 2) (hhead : IsHead sha224 password head target) : c = crlf := by
  obtain ⟨head', heq, -⟩ := (h target rest).mp (decodeTrojan_eq_ok.mpr ⟨head, c, rfl, hc, hhead⟩)
  rw [← List.append_assoc, ← List.append_assoc] at heq
  exact (List.append_inj' (List.append_cancel_right heq) hc).2

end

/-- **Trojan requests.**  The loop over the line ends within 257 bytes on every stream; and
the acceptance is exact on a stream exactly if CR LF stands there wherever two bytes follow
the head of a request. -/
theorem decodeTrojan_exact_iff (password : String) (s : Bytes) :
    (authLoop [] s).line.length ≤ 257 ∧
      (Exact sha224 password s ↔ ∀ head c rest target, s = head ++ (c ++ rest) → c.length = 2 →
        IsHead sha224 password head target → c = crlf) := by
  refine ⟨(authLoop_spec [] s (by decide)).2, ?_⟩
  constructor
  · rintro h head c rest target rfl hc hhead
    exact h.closing hc hhead
  · intro h target rest
    rw [decodeTrojan_eq_ok]
    constructor
    · rintro ⟨head, c, rfl, hc, hhead⟩
      obtain rfl := h head c rest target rfl hc hhead
      exact ⟨head, rfl, hhead⟩
    · rintro ⟨head, rfl, hhead⟩
      exact ⟨head, crlf, rfl, rfl, hhead⟩

/-- The SHA-224 digest of the empty password. -/
def sha224Empty : Vector UInt8 28 :=
  #v[0xd1, 0x4a, 0x02, 0x8c, 0x2a, 0x3a, 0x2b, 0xc9, 0x47, 0x61, 0x02, 0xbb, 0x28, 0x82, 0x34,
    0xc4, 0x15, 0xa2, 0xb0, 0x1f, 0x82, 0x8e, 0xa6, 0x2a, 0xc5, 0xb3, 0xe4, 0x2f]

/-- A request for `127.0.0.1:80` whose closing CR LF is missing: the first two bytes of the
payload are taken for it. -/
theorem not_decodeTrojan_exact :
    ¬ ∀ s, (authLoop [] s).line.length ≤ 257 ∧ Exact (fun _ => sha224Empty) "" s := by
  intro h
  have hhead : IsHead (fun _ => sha224Empty) "" _ _ := ⟨.ipv4 #v[127, 0, 0, 1], 80, rfl, rfl⟩
  have hclosing := (h (_ ++ ([0x47, 0x45] ++ [0x54]))).2.closing rfl hhead
  exact absurd hclosing (by decide)

end Ruproxy.Trojan
