/-
  Address/Agreement.lean --- the four address decoders decode the same format.

  Each decoder is compared with `target`: its result is the value of `target`
  where there is one, and an error where there is none.  For the decoder of
  AnyTLS this is a statement about every way in which the bytes were cut into
  chunks: `Finishes` relates a call on a stream to the same call on its bytes.
-/
import Ruproxy.Address.Decoders

set_option autoImplicit false

namespace Ruproxy.Address

open Ruproxy.Foundation

/-! ## Results without their errors -/

@[simp] theorem toOption_pure {α : Type} (a : α) :
    (pure a : Except AddrError α).toOption = some a := rfl

@[simp] theorem toOption_throw {α : Type} (e : AddrError) :
    (throw e : Except AddrError α).toOption = none := rfl

@[simp] theorem toOption_readN (n : Nat) (s : Bytes) : (readN n s).toOption = readExact n s := by
  unfold readN
  cases readExact n s with
  | none => rfl
  | some r => rfl

@[simp] theorem toOption_utf8 (b : Bytes) : (utf8 b).toOption = fromUtf8 b := by
  unfold utf8
  cases fromUtf8 b with
  | none => rfl
  | some d => rfl

/-! ## The decoders over a connection -/

theorem toOption_decodeHost (atyp : UInt8) (s : Bytes) :
    (Trojan.decodeHost atyp s).toOption = host atyp s := by
  unfold Trojan.decodeHost host
  split
  · rw [Except.toOption_bind, toOption_readN]
    cases readExact 4 s with
    | none => rfl
    | some r => rfl
  · split
    · cases s with
      | nil => rfl
      | cons l s =>
        show (readN l.toNat s >>= _).toOption = (readExact l.toNat s).bind _
        rw [Except.toOption_bind, toOption_readN]
        refine Option.bind_congr fun r _ => ?_
        show (utf8 r.1 >>= _).toOption = _
        rw [Except.toOption_bind, toOption_utf8]
        cases fromUtf8 r.1 with
        | none => rfl
        | some d => rfl
    · split
      · rw [Except.toOption_bind, toOption_readN]
        cases readExact 16 s with
        | none => rfl
        | some r => rfl
      · rfl

/-- The decoder of Trojan decodes the format. -/
theorem toOption_decodeTarget (s : Bytes) : (Trojan.decodeTarget s).toOption = target s := by
  cases s with
  | nil => rfl
  | cons atyp s =>
    show (Trojan.decodeHost atyp s >>= _).toOption = _
    rw [Except.toOption_bind, toOption_decodeHost, target]
    cases hhost : host atyp s with
    | none => rfl
    | some r =>
      obtain ⟨h, rest⟩ := r
      cases rest with
      | nil => rfl
      | cons p rest =>
        cases rest with
        | nil => rfl
        | cons q rest => rfl

/-- The decoder of the SOCKS5 server decodes the format. -/
theorem toOption_handleTarget (s : Bytes) :
    (Socks.handleTarget s).2.toOption = target s := by
  rw [← toOption_decodeTarget]
  cases s with
  | nil => rfl
  | cons atyp s =>
    -- the two decoders differ in what they say of an unknown type
    have hhost : (Socks.handleHost atyp s).2.toOption = (Trojan.decodeHost atyp s).toOption := by
      unfold Socks.handleHost Trojan.decodeHost Socks.atypIpv4 Socks.atypDomain Socks.atypIpv6
      split
      · rfl
      · split
        · rfl
        · split
          · rfl
          · rfl
    show ((Socks.handleHost atyp s).2 >>= _).toOption = (Trojan.decodeHost atyp s >>= _).toOption
    rw [Except.toOption_bind, Except.toOption_bind, hhost]

/-- Only an unknown type is answered. -/
theorem handleTarget_written (s : Bytes) :
    (Socks.handleTarget s).1 = [] ∨
      (Socks.handleTarget s).1 = Socks.sendReply Socks.repAtypNotSupported ∧
        target s = none := by
  rw [← toOption_handleTarget]
  cases s with
  | nil => exact .inl rfl
  | cons atyp s =>
    show (Socks.handleHost atyp s).1 = [] ∨ (Socks.handleHost atyp s).1 = _ ∧
      ((Socks.handleHost atyp s).2 >>= _).toOption = none
    unfold Socks.handleHost
    split
    · exact .inl rfl
    · split
      · exact .inl rfl
      · split
        · exact .inl rfl
        · exact .inr ⟨rfl, rfl⟩

/-! ## The decoder over a buffer -/

/-- A value where the call has one, and an error, not a panic, where it has none. -/
def Decodes {α : Type} (x : Outcome AddrError α) (r : Option α) : Prop :=
  match r with
  | some a => x = .ok a
  | none => ∃ e, x = .err e

theorem decodes_copyToSlice {n : Nat} {buf : Bytes} (h : n ≤ buf.length) :
    Shadowsocks.copyToSlice n buf = .ok (buf.take n, buf.drop n) := by
  rw [Shadowsocks.copyToSlice, readExact, if_pos h, Outcome.unwrap_some]

theorem decodes_parseHost (atyp : UInt8) (buf : Bytes) :
    Decodes (Shadowsocks.parseHost atyp buf) (host atyp buf) := by
  unfold Shadowsocks.parseHost host
  split
  · split
    · rename_i hlt
      rw [readExact, if_neg (by omega)]
      exact ⟨_, rfl⟩
    · rename_i hge
      rw [readExact, if_pos (by omega), decodes_copyToSlice (by omega)]
      rfl
  · split
    · cases buf with
      | nil => exact ⟨_, rfl⟩
      | cons len buf =>
        rw [if_neg (by simp)]
        show Decodes (if buf.length < len.toNat then _ else _) _
        split
        · rename_i hlt
          dsimp only
          rw [readExact, if_neg (by omega)]
          exact ⟨_, rfl⟩
        · rename_i hge
          dsimp only
          rw [readExact, if_pos (by omega), decodes_copyToSlice (by omega)]
          dsimp only [Option.bind]
          cases hd : fromUtf8 (buf.take len.toNat) with
          | none =>
            refine ⟨.fromUtf8, ?_⟩
            simp [hd]
          | some d =>
            show _ = _
            simp [hd]
    · split
      · split
        · rename_i hlt
          rw [readExact, if_neg (by omega)]
          exact ⟨_, rfl⟩
        · rename_i hge
          rw [readExact, if_pos (by omega), decodes_copyToSlice (by omega)]
          rfl
      · exact ⟨_, rfl⟩

/-- The decoder of Shadowsocks decodes the format, and its guards keep every read
inside the buffer. -/
theorem decodes_parseAddress (buf : Bytes) :
    Decodes (Shadowsocks.parseAddress buf) (target buf) := by
  unfold Shadowsocks.parseAddress
  cases buf with
  | nil => exact ⟨_, rfl⟩
  | cons atyp buf =>
    rw [if_neg (by simp), target]
    show Decodes (Shadowsocks.parseHost atyp buf >>= _) _
    have hhost := decodes_parseHost atyp buf
    cases hr : host atyp buf with
    | none =>
      rw [hr] at hhost
      obtain ⟨e, he⟩ := hhost
      rw [he]
      exact ⟨e, rfl⟩
    | some r =>
      rw [hr] at hhost
      obtain ⟨h, rest⟩ := r
      rw [show Shadowsocks.parseHost atyp buf = .ok (h, rest) from hhost]
      cases rest with
      | nil => exact ⟨_, rfl⟩
      | cons p rest =>
        cases rest with
        | nil => exact ⟨_, rfl⟩
        | cons q rest => rfl

end Ruproxy.Address

/-! ## The decoder over a stream -/

namespace Ruproxy.AnyTls

open Ruproxy.Foundation Ruproxy.Address

/-- The bytes that a stream gives before its end, however they were cut. -/
def StreamConn.pending (s : StreamConn) : Bytes :=
  s.buf ++ (s.rx.takeWhile (· ≠ [])).flatten

/-- The end of a stream is in its channel: a reader does not wait. -/
def StreamConn.Ended (s : StreamConn) : Prop := s.rxOpen = false ∨ [] ∈ s.rx

/-- Chunks with the end mark behind them are an ended stream of their bytes. -/
theorem StreamConn.pending_of_chunks {chunks : List Bytes} (h : ∀ c ∈ chunks, c ≠ [])
    (rxOpen : Bool) :
    StreamConn.Ended ⟨chunks ++ [[]], rxOpen, []⟩ ∧
      StreamConn.pending ⟨chunks ++ [[]], rxOpen, []⟩ = chunks.flatten := by
  refine ⟨.inr (by simp), ?_⟩
  have hall : ∀ c ∈ chunks, decide (c ≠ []) = true := fun c hc => decide_eq_true (h c hc)
  rw [pending, List.takeWhile_append_of_pos hall]
  simp

/-- A read of an ended stream gives some of its bytes, or the end when there are none. -/
theorem StreamConn.read_of_ended {s : StreamConn} (hs : s.Ended) {n : Nat} (hn : n ≠ 0) :
    (s.pending = [] ∧ ∃ s', s.read n = some ([], s')) ∨
      ∃ b bs s', s.read n = some (b :: bs, s') ∧ (b :: bs).length ≤ n ∧ s'.Ended ∧
        s.pending = b :: bs ++ s'.pending := by
  have htake : ∀ d : Bytes, d ≠ [] → ∃ b bs, d.take n = b :: bs ∧ (b :: bs).length ≤ n := by
    intro d hd
    cases d with
    | nil => exact absurd rfl hd
    | cons b d =>
      obtain ⟨m, rfl⟩ := Nat.exists_eq_succ_of_ne_zero hn
      exact ⟨b, d.take m, rfl, by simp⟩
  obtain ⟨rx, rxOpen, buf⟩ := s
  rcases eq_or_ne buf [] with rfl | hbuf
  · cases rx with
    | nil =>
      refine .inl ⟨rfl, ⟨[], rxOpen, []⟩, ?_⟩
      have hopen : rxOpen = false := by simpa [Ended] using hs
      simp [read, hopen]
    | cons d rx =>
      rcases eq_or_ne d [] with rfl | hd
      · exact .inl ⟨rfl, ⟨rx, rxOpen, []⟩, rfl⟩
      · right
        obtain ⟨b, bs, heq, hlen⟩ := htake d hd
        refine ⟨b, bs, ⟨rx, rxOpen, d.drop n⟩, ?_, hlen, ?_, ?_⟩
        · simp [read, heq]
        · simpa [Ended, hd.symm] using hs
        · simp only [pending, List.takeWhile_cons, hd, ne_eq, not_false_eq_true,
            decide_true, if_true, List.flatten_cons, List.nil_append, ← heq]
          rw [← List.append_assoc, List.take_append_drop]
  · right
    obtain ⟨b, bs, heq, hlen⟩ := htake buf hbuf
    refine ⟨b, bs, ⟨rx, rxOpen, buf.drop n⟩, ?_, hlen, hs, ?_⟩
    · simp [read, hbuf, heq]
    · simp only [pending, ← heq]
      rw [← List.append_assoc, List.take_append_drop]

/-- A call on an ended stream ends as the call on its bytes: with the same value and
the stream at the same place, or with an error. -/
def Finishes {α : Type} (x : Call (α × StreamConn)) (r : Option (α × Bytes)) : Prop :=
  match r with
  | some (a, rest) => ∃ s : StreamConn, x.run = some (.ok (a, s)) ∧ s.Ended ∧ s.pending = rest
  | none => ∃ e, x.run = some (.error e)

theorem finishes_pure {α : Type} (a : α) {s : StreamConn} (hs : s.Ended) :
    Finishes (pure (a, s)) (some (a, s.pending)) := ⟨s, rfl, hs, rfl⟩

theorem finishes_throw {α : Type} (e : AddrError) :
    Finishes (throw e : Call (α × StreamConn)) none := ⟨e, rfl⟩

/-- Calls one after another end as they do on the bytes. -/
theorem finishes_bind {α β : Type} {x : Call (α × StreamConn)} {r : Option (α × Bytes)}
    {f : α × StreamConn → Call (β × StreamConn)} {g : α × Bytes → Option (β × Bytes)}
    (hx : Finishes x r) (hf : ∀ a s, s.Ended → Finishes (f (a, s)) (g (a, s.pending))) :
    Finishes (x >>= f) (r.bind g) := by
  cases r with
  | none =>
    obtain ⟨e, he⟩ := hx
    refine ⟨e, ?_⟩
    rw [ExceptT.run_bind, he]
    rfl
  | some r =>
    obtain ⟨a, rest⟩ := r
    obtain ⟨s, hs, hended, rfl⟩ := hx
    have hrun : (x >>= f).run = (f (a, s)).run := by
      rw [ExceptT.run_bind, hs]
      rfl
    have hnext := hf a s hended
    unfold Finishes at hnext ⊢
    rwa [hrun]

/-- `read_exact_from` reads what `read_exact` reads from the same bytes. -/
theorem finishes_readExactFrom (n : Nat) {s : StreamConn} (hs : s.Ended) :
    Finishes (readExactFrom n s) (readExact n s.pending) := by
  induction n using Nat.strongRecOn generalizing s with
  | ind n ih =>
    rw [readExactFrom]
    rcases eq_or_ne n 0 with rfl | hn
    · rw [if_pos rfl]
      exact finishes_pure [] hs
    · rw [if_neg hn]
      rcases s.read_of_ended hs hn with ⟨hnil, s', hread⟩ | ⟨b, bs, s', hread, hlen, hs', hpending⟩
      · rw [hread, hnil, readExact, if_neg (by simpa using hn)]
        exact finishes_throw _
      · rw [hread]
        have hsplit : readExact n s.pending =
            (readExact (n - (b :: bs).length) s'.pending).bind
              fun r => some (b :: bs ++ r.1, r.2) := by
          rw [hpending]
          simp only [readExact, List.length_append]
          by_cases h : n - (b :: bs).length ≤ s'.pending.length
          · rw [if_pos h, if_pos (by omega), Option.bind_some, List.take_append,
              List.drop_append, List.take_of_length_le hlen, List.drop_eq_nil_of_le hlen]
            rfl
          · rw [if_neg h, if_neg (by omega)]
            rfl
        rw [hsplit]
        refine finishes_bind (ih _ ?_ hs') fun rest s'' hs'' => ?_
        · rw [List.length_cons]
          omega
        · exact finishes_pure _ hs''

theorem readExact_one (s : Bytes) :
    readExact 1 s = match s with
      | [] => none
      | b :: s => some ([b], s) := by
  cases s with
  | nil => rfl
  | cons b s => simp [readExact]

theorem readExact_two (s : Bytes) :
    readExact 2 s = match s with
      | a :: b :: s => some ([a, b], s)
      | _ => none := by
  match s with
  | [] => rfl
  | [a] => rfl
  | a :: b :: s => simp [readExact]

/-- A domain, with its length read like any other part. -/
theorem host_domain (s : Bytes) :
    host 3 s = (readExact 1 s).bind fun r =>
      (readExact (r.1.getD 0 0).toNat r.2).bind fun r => (fromUtf8 r.1).map fun d => (d, r.2) := by
  rw [readExact_one]
  cases s with
  | nil => rfl
  | cons l s => rfl

theorem finishes_readSocks5Host (atyp : UInt8) {s : StreamConn} (hs : s.Ended) :
    Finishes (readSocks5Host atyp s) (host atyp s.pending) := by
  unfold readSocks5Host
  split
  · rename_i h
    subst h
    show Finishes _ ((readExact 4 s.pending).map _)
    rw [Option.map_eq_bind]
    exact finishes_bind (finishes_readExactFrom 4 hs) fun b s hs => finishes_pure _ hs
  · split
    · rename_i h
      subst h
      rw [host_domain]
      refine finishes_bind (finishes_readExactFrom 1 hs) fun lb s hs => ?_
      refine finishes_bind (finishes_readExactFrom _ hs) fun b s hs => ?_
      dsimp only
      cases fromUtf8 b with
      | none => exact finishes_throw _
      | some d => exact finishes_pure d hs
    · split
      · rename_i h
        subst h
        show Finishes _ ((readExact 16 s.pending).map _)
        rw [Option.map_eq_bind]
        exact finishes_bind (finishes_readExactFrom 16 hs) fun b s hs => finishes_pure _ hs
      · rename_i h1 h3 h4
        unfold host
        rw [if_neg h1, if_neg h3, if_neg h4]
        exact finishes_throw _

/-- The decoder of AnyTLS decodes the format, however the bytes were cut. -/
theorem finishes_readSocks5Addr {s : StreamConn} (hs : s.Ended) :
    Finishes (readSocks5Addr s) (target s.pending) := by
  have htarget : target s.pending =
      (readExact 1 s.pending).bind fun r =>
        (host (r.1.getD 0 0) r.2).bind fun r' =>
          (readExact 2 r'.2).bind fun r'' =>
            some (hostPort r'.1 (u16OfBe (r''.1.getD 0 0) (r''.1.getD 1 0)), r''.2) := by
    rw [readExact_one]
    cases s.pending with
    | nil => rfl
    | cons atyp b =>
      rw [target, Option.bind_some]
      show _ = (host atyp b).bind _
      cases host atyp b with
      | none => rfl
      | some r =>
        rw [Option.bind_some, readExact_two]
        rcases r with ⟨h, _ | ⟨p, _ | ⟨q, rest⟩⟩⟩
        · rfl
        · rfl
        · rfl
  rw [htarget]
  refine finishes_bind (finishes_readExactFrom 1 hs) fun atyp s hs => ?_
  refine finishes_bind (finishes_readSocks5Host _ hs) fun h s hs => ?_
  exact finishes_bind (finishes_readExactFrom 2 hs) fun pb s hs => finishes_pure _ hs

end Ruproxy.AnyTls

/-! ## Agreement -/

namespace Ruproxy.Address

open Ruproxy.Foundation Ruproxy.AnyTls

/-- On every byte string the four decoders all fail, or all return the same target
and leave the same bytes; the stream of AnyTLS may have got them in any chunks. -/
theorem decoders_agree (b : Bytes) :
    ∃ r : Option (String × Bytes),
      (Trojan.decodeTarget b).toOption = r ∧
      (Socks.handleTarget b).2.toOption = r ∧
      (∀ s : StreamConn, s.Ended → s.pending = b → Finishes (readSocks5Addr s) r) ∧
      Decodes (Shadowsocks.parseAddress b) r := by
  refine ⟨target b, toOption_decodeTarget b, toOption_handleTarget b, ?_,
    decodes_parseAddress b⟩
  rintro s hs rfl
  exact finishes_readSocks5Addr hs

end Ruproxy.Address
