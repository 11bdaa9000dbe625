/-
  AnyTls/Framing.lean --- reading a stream does not depend on how it was cut.

  The calls on a `StreamConn` are written here with `&mut self` as a state, so that the
  stream is there also after a call that fails.  On a stream whose sender is gone a call
  is a function of the bytes that the stream holds: it has the same result and leaves the
  same bytes, however they are cut into chunks.
-/
import Ruproxy.AnyTls.Reads
import Ruproxy.Address.Decoders

set_option autoImplicit false

namespace Ruproxy.AnyTls

open Ruproxy.Foundation Ruproxy.Address

/-- A call on a stream, which it changes also when it fails; `none` while it waits for a
chunk. -/
abbrev OnStream (α : Type) : Type := ExceptT AddrError (StateT StreamConn Option) α

namespace OnStream

/-- `StreamConn::read` into `len` bytes. -/
def read (len : Nat) : OnStream Bytes :=
  .mk fun s => (s.read len).map fun r => (.ok r.1, r.2)

/-- `StreamConn::read_exact_from` for `n` bytes. -/
def readExactFrom (n : Nat) : OnStream Bytes :=
  if n = 0 then return []
  else do
    match ← read n with
    | [] => throw .unexpectedEof
    | b :: bs =>
        let rest ← readExactFrom (n - (b :: bs).length)
        return b :: bs ++ rest
termination_by n
decreasing_by
  rw [List.length_cons]
  omega

/-- The `match atyp[0]` of `read_socks5_addr`. -/
def readSocks5Host (atyp : UInt8) : OnStream String :=
  if atyp = 0x01 then do
    let b ← readExactFrom 4
    return ipv4Text b
  else if atyp = 0x03 then do
    let lb ← readExactFrom 1
    let b ← readExactFrom (lb.getD 0 0).toNat
    match fromUtf8 b with
    | some d => return d
    | none => throw .fromUtf8
  else if atyp = 0x04 then do
    let b ← readExactFrom 16
    return ipv6Text b
  else throw (.bail ("anytls: unknown ATYP 0x" ++ hex atyp.toNat))

/-- `read_socks5_addr`. -/
def readSocks5Addr : OnStream String := do
  let atyp ← readExactFrom 1
  let host ← readSocks5Host (atyp.getD 0 0)
  let pb ← readExactFrom 2
  let port := u16OfBe (pb.getD 0 0) (pb.getD 1 0)
  return hostPort host port

/-! ## Calls one after another -/

section
variable {α β : Type}

/-- A call that fails or waits is the end. -/
theorem run_bind (x : OnStream α) (f : α → OnStream β) (s : StreamConn) :
    (x >>= f).run s = (x.run s).bind fun r =>
      match r.1 with
      | .ok a => (f a).run r.2
      | .error e => some (.error e, r.2) := by
  rw [ExceptT.run_bind]
  change (x.run s).bind _ = _
  congr 1
  funext ⟨r, s'⟩
  cases r <;> rfl

/-- The result of a call, with the stream where it succeeds. -/
def toCall (x : OnStream α) (s : StreamConn) : Call (α × StreamConn) :=
  .mk ((x.run s).map fun r => r.1.map fun a => (a, r.2))

theorem toCall_pure (a : α) (s : StreamConn) : toCall (pure a) s = pure (a, s) := rfl

theorem toCall_throw (e : AddrError) (s : StreamConn) :
    toCall (throw e : OnStream α) s = throw e := rfl

theorem toCall_bind (x : OnStream α) (f : α → OnStream β) (s : StreamConn) :
    toCall (x >>= f) s = toCall x s >>= fun r => toCall (f r.1) r.2 := by
  apply ExceptT.ext
  rw [ExceptT.run_bind]
  change Option.map _ ((x >>= f).run s) = ((x.run s).map _).bind _
  rw [run_bind, Option.map_bind, Option.bind_map]
  congr 1
  funext ⟨r, s'⟩
  cases r <;> rfl

end

/-! ## The call that forgets the stream when it fails -/

theorem run_read (len : Nat) (s : StreamConn) :
    (read len).run s = (s.read len).map fun r => (.ok r.1, r.2) := rfl

theorem toCall_readExactFrom (n : Nat) (s : StreamConn) :
    toCall (readExactFrom n) s = AnyTls.readExactFrom n s := by
  induction n using Nat.strongRecOn generalizing s with
  | ind n ih =>
    rw [readExactFrom, AnyTls.readExactFrom]
    rcases eq_or_ne n 0 with rfl | hn
    · rfl
    · rw [if_neg hn, if_neg hn, toCall_bind]
      have hcall : toCall (read n) s = .mk ((s.read n).map .ok) := by
        rw [toCall, run_read, Option.map_map]
        rfl
      rw [hcall]
      cases s.read n with
      | none => rfl
      | some r =>
        obtain ⟨_ | ⟨b, bs⟩, s'⟩ := r
        · rfl
        · have hlt : n - (b :: bs).length < n := by
            rw [List.length_cons]
            omega
          change toCall (readExactFrom _ >>= _) s' = _
          rw [toCall_bind, ih _ hlt]
          rfl

theorem toCall_readSocks5Host (atyp : UInt8) (s : StreamConn) :
    toCall (readSocks5Host atyp) s = AnyTls.readSocks5Host atyp s := by
  unfold readSocks5Host AnyTls.readSocks5Host
  split
  · simp only [toCall_bind, toCall_pure, toCall_readExactFrom]
  · split
    · simp only [toCall_bind, toCall_readExactFrom]
      congr 1
      funext r
      congr 1
      funext r'
      cases fromUtf8 r'.1 <;> rfl
    · split
      · simp only [toCall_bind, toCall_pure, toCall_readExactFrom]
      · exact toCall_throw _ s

/-- `read_socks5_addr`, with and without the stream of a call that fails. -/
theorem toCall_readSocks5Addr (s : StreamConn) :
    toCall readSocks5Addr s = AnyTls.readSocks5Addr s := by
  unfold readSocks5Addr AnyTls.readSocks5Addr
  simp only [toCall_bind, toCall_pure, toCall_readExactFrom, toCall_readSocks5Host]

end OnStream

/-! ## Streams whose sender is gone -/

namespace StreamConn

/-- The sender is gone, and an empty chunk can only be its end mark. -/
structure Closed (s : StreamConn) : Prop where
  rxOpen : s.rxOpen = false
  endMark : ∀ front rest, s.rx = front ++ [] :: rest → rest = []

/-- A `read` gives some of the bytes, or 0 when there are none. -/
theorem read_of_closed {s : StreamConn} (hs : s.Closed) {len : Nat} (hlen : 0 < len) :
    ∃ out s', s.read len = some (out, s') ∧ s'.Closed ∧ s.held = out ++ s'.held ∧
      out.length ≤ len ∧ (out = [] → s.held = []) := by
  obtain ⟨⟨out, s'⟩, hread⟩ : ∃ r, s.read len = some r := by
    rw [← Option.ne_none_iff_exists', ne_eq, read_eq_none_iff]
    rintro ⟨-, -, hopen⟩
    rw [hs.rxOpen] at hopen
    cases hopen
  obtain ⟨hheld, ⟨front, hfront⟩, hopen⟩ := read_takes hread
  refine ⟨out, s', hread, ⟨hopen.trans hs.rxOpen, fun front' rest hrest => ?_⟩, hheld.symm, ?_,
    ?_⟩
  · apply hs.endMark (front ++ front')
    rw [← hfront, hrest, List.append_assoc]
  · rcases read_cases hread with ⟨-, rfl, -⟩ | ⟨data, rx, -, -, rfl, -⟩ | ⟨-, -, -, rfl, -⟩
    · exact List.length_take_le _ _
    · exact List.length_take_le _ _
    · exact Nat.zero_le _
  · rintro rfl
    obtain ⟨hbuf, ⟨rx, hrx⟩ | ⟨hrx, -⟩⟩ := read_zero_cases hlen hread
    · obtain rfl := hs.endMark [] rx hrx
      simp [held, hbuf, hrx]
    · simp [held, hbuf, hrx]

/-- What `read`s return of these bytes: they come in order, and at their end, and only
there, the `read`s return 0. -/
def ReadOut (rest : Bytes) (outs : List Bytes) : Prop :=
  ∃ parts zeros, outs = parts ++ List.replicate zeros [] ∧ [] ∉ parts ∧
    parts.flatten <+: rest ∧ (0 < zeros → parts.flatten = rest) ∧
      (rest.length < outs.length → 0 < zeros)

/-- Chunks that are not empty are at most as many as their bytes. -/
theorem length_le_length_flatten {parts : List Bytes} (h : [] ∉ parts) :
    parts.length ≤ parts.flatten.length := by
  induction parts with
  | nil => exact Nat.zero_le _
  | cons part parts ih =>
    rw [List.mem_cons, not_or] at h
    have hpart := List.length_pos_iff.mpr (Ne.symm h.1)
    have hparts := ih h.2
    simp only [List.length_cons, List.flatten_cons, List.length_append]
    omega

/-- **Reads to the end.**  A stream whose sender is gone is read out by any `read`s with
non-empty buffers. -/
theorem reads_of_closed {s : StreamConn} (hs : s.Closed) {lens : List Nat}
    (hlens : ∀ len ∈ lens, 0 < len) :
    ∃ outs s', s.reads lens = some (outs, s') ∧ ReadOut s.held outs := by
  obtain ⟨outs, s', hreads, parts, zeros, rfl, hparts, hpre, hzeros⟩ :
      ∃ outs s', s.reads lens = some (outs, s') ∧ ∃ parts zeros,
        outs = parts ++ List.replicate zeros [] ∧ [] ∉ parts ∧ parts.flatten <+: s.held ∧
          (0 < zeros → parts.flatten = s.held) := by
    induction lens generalizing s with
    | nil => exact ⟨[], s, rfl, [], 0, rfl, List.not_mem_nil, List.nil_prefix, by simp⟩
    | cons len lens ih =>
      obtain ⟨out, s', hread, hs', hheld, -, hnil⟩ :=
        read_of_closed hs (hlens len List.mem_cons_self)
      obtain ⟨outs, t, hreads, parts, zeros, rfl, hparts, hpre, hzeros⟩ :=
        ih hs' fun len' hlen' => hlens len' (List.mem_cons_of_mem _ hlen')
      refine ⟨out :: (parts ++ List.replicate zeros []), t,
        reads_cons_eq_some.mpr ⟨out, s', _, hread, hreads, rfl⟩, ?_⟩
      rcases eq_or_ne out [] with rfl | hout
      · -- there is nothing any more, so that all that follow return 0
        have hempty : s'.held = [] := by
          rw [← hnil rfl, hheld]
          rfl
        rw [hempty, List.prefix_nil] at hpre
        have hno : parts = [] := by
          apply List.length_eq_zero_iff.mp
          have := length_le_length_flatten hparts
          rw [hpre] at this
          exact Nat.le_zero.mp this
        refine ⟨[], zeros + 1, ?_, List.not_mem_nil, List.nil_prefix, fun _ => (hnil rfl).symm⟩
        rw [hno]
        rfl
      · refine ⟨out :: parts, zeros, rfl, ?_, ?_, fun hpos => ?_⟩
        · rw [List.mem_cons, not_or]
          exact ⟨hout.symm, hparts⟩
        · rw [hheld, List.flatten_cons]
          exact (List.prefix_append_right_inj out).mpr hpre
        · rw [hheld, List.flatten_cons, hzeros hpos]
  refine ⟨_, s', hreads, parts, zeros, rfl, hparts, hpre, hzeros, fun hmany => ?_⟩
  have hle := length_le_length_flatten hparts
  have hle' := hpre.length_le
  simp only [List.length_append, List.length_replicate] at hmany
  omega

end StreamConn

/-! ## Calls that only see the bytes -/

namespace OnStream

variable {α β : Type}

/-- On streams whose sender is gone the call has a result, and leaves the rest, of the
bytes that they hold. -/
def FramingFree (x : OnStream α) : Prop :=
  ∀ b : Bytes, ∃ r rest, rest <:+ b ∧ ∀ s : StreamConn, s.Closed → s.held = b →
    ∃ s', x.run s = some (r, s') ∧ s'.Closed ∧ s'.held = rest

theorem framingFree_pure (a : α) : FramingFree (pure a) := fun b =>
  ⟨.ok a, b, List.suffix_rfl, fun s hs hheld => ⟨s, rfl, hs, hheld⟩⟩

theorem framingFree_throw (e : AddrError) : FramingFree (throw e : OnStream α) := fun b =>
  ⟨.error e, b, List.suffix_rfl, fun s hs hheld => ⟨s, rfl, hs, hheld⟩⟩

theorem FramingFree.bind {x : OnStream α} {f : α → OnStream β} (hx : FramingFree x)
    (hf : ∀ a, FramingFree (f a)) : FramingFree (x >>= f) := by
  intro b
  obtain ⟨r, rest, hsuffix, hrun⟩ := hx b
  cases r with
  | error e =>
    refine ⟨.error e, rest, hsuffix, fun s hs hheld => ?_⟩
    obtain ⟨s', hs', hclosed, hrest⟩ := hrun s hs hheld
    exact ⟨s', by rw [run_bind, hs']; rfl, hclosed, hrest⟩
  | ok a =>
    obtain ⟨r', rest', hsuffix', hrun'⟩ := hf a rest
    refine ⟨r', rest', hsuffix'.trans hsuffix, fun s hs hheld => ?_⟩
    obtain ⟨s', hs', hclosed, hrest⟩ := hrun s hs hheld
    obtain ⟨t, ht, hclosed', hrest'⟩ := hrun' s' hclosed hrest
    exact ⟨t, by rw [run_bind, hs']; exact ht, hclosed', hrest'⟩

/-- `read_exact_from` takes the first bytes, if there are so many, and else all. -/
theorem run_readExactFrom (n : Nat) {s : StreamConn} (hs : s.Closed) :
    ∃ s', (readExactFrom n).run s =
        some (if n ≤ s.held.length then .ok (s.held.take n) else .error .unexpectedEof, s') ∧
      s'.Closed ∧ s'.held = s.held.drop n := by
  induction n using Nat.strongRecOn generalizing s with
  | ind n ih =>
    rw [readExactFrom]
    rcases Nat.eq_zero_or_pos n with rfl | hn
    · exact ⟨s, rfl, hs, rfl⟩
    · obtain ⟨out, s', hread, hs', hheld, hlen, hnil⟩ := StreamConn.read_of_closed hs hn
      rw [if_neg (Nat.ne_of_gt hn), run_bind, run_read, hread]
      cases out with
      | nil =>
        have hempty := hnil rfl
        have hshort : ¬ n ≤ ([] : Bytes).length := Nat.not_le_of_gt hn
        refine ⟨s', ?_, hs', ?_⟩
        · rw [hempty, if_neg hshort]
          rfl
        · rw [hempty, List.drop_nil]
          rw [hempty] at hheld
          exact hheld.symm
      | cons b bs =>
        have hlt : n - (b :: bs).length < n := by
          rw [List.length_cons]
          omega
        obtain ⟨t, ht, hclosed, hrest⟩ := ih _ hlt hs'
        refine ⟨t, ?_, hclosed, ?_⟩
        · change (readExactFrom _ >>= _).run s' = _
          rw [run_bind, ht, hheld]
          have hiff : n - (b :: bs).length ≤ s'.held.length ↔
              n ≤ (b :: bs ++ s'.held).length := by
            rw [List.length_append]
            omega
          by_cases hle : n ≤ (b :: bs ++ s'.held).length
          · rw [if_pos hle, if_pos (hiff.mpr hle), List.take_append,
              List.take_of_length_le hlen]
            rfl
          · rw [if_neg hle, if_neg (fun h => hle (hiff.mp h))]
            rfl
        · rw [hrest, hheld, List.drop_append, List.drop_of_length_le hlen]
          rfl

theorem framingFree_readExactFrom (n : Nat) : FramingFree (readExactFrom n) := by
  intro b
  refine ⟨if n ≤ b.length then .ok (b.take n) else .error .unexpectedEof, b.drop n,
    List.drop_suffix n b, fun s hs hheld => ?_⟩
  rw [← hheld]
  exact run_readExactFrom n hs

theorem framingFree_readSocks5Host (atyp : UInt8) : FramingFree (readSocks5Host atyp) := by
  unfold readSocks5Host
  split
  case isTrue =>
    exact (framingFree_readExactFrom 4).bind fun b => framingFree_pure _
  case isFalse =>
    split
    case isTrue =>
      refine (framingFree_readExactFrom 1).bind fun lb => ?_
      refine (framingFree_readExactFrom _).bind fun b => ?_
      split
      · exact framingFree_pure _
      · exact framingFree_throw _
    case isFalse =>
      split
      case isTrue => exact (framingFree_readExactFrom 16).bind fun b => framingFree_pure _
      case isFalse => exact framingFree_throw _

theorem framingFree_readSocks5Addr : FramingFree readSocks5Addr := by
  unfold readSocks5Addr
  refine (framingFree_readExactFrom 1).bind fun atyp => ?_
  refine (framingFree_readSocks5Host _).bind fun host => ?_
  exact (framingFree_readExactFrom 2).bind fun pb => framingFree_pure _

end OnStream

/-! ## Any two cuttings -/

/-- The bytes, cut into chunks that are not empty. -/
structure Cutting (b : Bytes) where
  chunks : List Bytes
  not_mem : [] ∉ chunks
  flatten_eq : chunks.flatten = b

namespace Cutting

variable {b : Bytes}

/-- A stream with the chunks and the end mark behind them. -/
def stream (c : Cutting b) : StreamConn where
  rx := c.chunks ++ [[]]
  rxOpen := false
  buf := []

theorem held_stream (c : Cutting b) : c.stream.held = b := by
  simp [stream, StreamConn.held, c.flatten_eq]

theorem closed_stream (c : Cutting b) : c.stream.Closed where
  rxOpen := rfl
  endMark _ _ h := StreamConn.eq_nil_of_endMark c.not_mem h

end Cutting

/-- **Framing.**  The address that is read from a byte string, or the error, and the bytes
that it takes are the same for every cutting, and `read`s with non-empty buffers return
the bytes behind them and then 0. -/
theorem readSocks5Addr_framing (b : Bytes) :
    ∃ (r : Except AddrError String) (consumed rest : Bytes), b = consumed ++ rest ∧
      ∀ c : Cutting b, ∃ s, OnStream.readSocks5Addr.run c.stream = some (r, s) ∧
        ∀ lens, (∀ len ∈ lens, 0 < len) →
          ∃ outs s', s.reads lens = some (outs, s') ∧ StreamConn.ReadOut rest outs := by
  obtain ⟨r, rest, ⟨consumed, hsplit⟩, hrun⟩ := OnStream.framingFree_readSocks5Addr b
  refine ⟨r, consumed, rest, hsplit.symm, fun c => ?_⟩
  obtain ⟨s, hs, hclosed, rfl⟩ := hrun c.stream c.closed_stream c.held_stream
  exact ⟨s, hs, fun lens hlens => StreamConn.reads_of_closed hclosed hlens⟩

/-- Cut inside the address, and with address and payload in one chunk. -/
example : (OnStream.readSocks5Addr.run ⟨[[1, 127], [0, 0, 1, 0], [80, 9], []], false, []⟩).map
      (fun r => (r.1.toOption, r.2)) =
    some (some "127.0.0.1:80", ⟨[[]], false, [9]⟩) := by
  decide +kernel

end Ruproxy.AnyTls
