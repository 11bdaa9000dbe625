/-
  AnyTls/Writer.lean --- the writer task of `run_server_session`.

  The writer task takes the messages of the write channel and writes each as a frame.  The
  length field of a frame has 16 bits, into which the length of the data is cut.  PSH data
  fill at most one buffer of a relay, and the other messages are short, but for the padding
  scheme: `PaddingScheme::from_bytes` looks at the lines of a scheme, not at its length.

  The digest of a scheme is a parameter, and its rules, which nothing here reads, are left
  out.
-/
import Ruproxy.AnyTls.Demux

set_option autoImplicit false

namespace Ruproxy.AnyTls

open Ruproxy.Foundation
open Ruproxy.Foundation.Transition

/-! ## The padding scheme -/

/-- A line of `PaddingScheme::from_bytes`, with the `stop` of the lines before it. -/
def schemeLine (stop : Option UInt32) (line : String) : Option (Option UInt32) :=
  let line := trim line
  if line = "" then some stop
  else
    match splitOnce '=' line with
    | none => none
    | some (k, v) => if trim k = "stop" then (parseU32 (trim v)).map some else some stop

variable (md5Hex : Bytes → String)

/-- `PaddingScheme::from_bytes`; `SharedPadding::update` takes what it accepts. -/
def PaddingScheme.fromBytes (raw : Bytes) : Option PaddingScheme := do
  let text ← fromUtf8 raw
  let stop ← (linesOf text).foldlM schemeLine none
  let _ ← stop
  return ⟨raw, md5Hex raw⟩

/-! ## The writer task -/

/-- The frame of a message. -/
def Frame.bytes (f : Frame) : Bytes :=
  f.cmd :: (u32ToBe f.streamId ++ (u16ToBe (UInt16.ofNat f.data.length) ++ f.data))

/-- What the writer task writes for a sequence of messages. -/
def writerOutput (msgs : List Frame) : Bytes := msgs.flatMap Frame.bytes

/-- A message that the session queues on its write channel. -/
inductive Queueable : Frame → Prop where
  /-- `StreamConn::write`, with what fits into a buffer of the relay -/
  | psh (sid : UInt32) (data : Bytes) (hdata : data.length ≤ bufferSize) :
      Queueable ⟨cmdPsh, sid, data⟩
  /-- `StreamConn::close` -/
  | fin (sid : UInt32) : Queueable ⟨cmdFin, sid, []⟩
  | synack (sid : UInt32) : Queueable ⟨cmdSynack, sid, []⟩
  | serverSettings : Queueable ⟨cmdServerSettings, 0, asBytes "v=2"⟩
  | heartResponse (sid : UInt32) : Queueable ⟨cmdHeartResponse, sid, []⟩
  | alert : Queueable
      ⟨cmdAlert, 0, asBytes "client did not send its settings before opening a stream"⟩
  /-- a scheme that `SharedPadding::update` accepted -/
  | updatePadding (raw : Bytes) (scheme : PaddingScheme)
      (haccepted : PaddingScheme.fromBytes md5Hex raw = some scheme) :
      Queueable ⟨cmdUpdatePadding, 0, scheme.raw⟩

/-! ## What the read loop makes of the output -/

/-- The header of a frame is read back, with a length that was cut to 16 bits. -/
theorem readFrame_bytes_append (f : Frame) (rest : Bytes) :
    readFrame (f.bytes ++ rest) =
      (readExact (f.data.length % 65536) (f.data ++ rest)).map fun r =>
        (⟨f.cmd, f.streamId, r.1⟩, r.2) := by
  obtain ⟨a, b, c, d, hsid⟩ := exists_u32OfBe f.streamId
  obtain ⟨p, q, hlen⟩ := exists_u16OfBe (UInt16.ofNat f.data.length)
  have hbytes : f.bytes ++ rest = [f.cmd, a, b, c, d, p, q] ++ (f.data ++ rest) := by
    rw [Frame.bytes, ← hsid, ← hlen, u32ToBe_ofBe, u16ToBe_ofBe]
    simp
  have hheader : readExact headerSize (f.bytes ++ rest) =
      some ([f.cmd, a, b, c, d, p, q], f.data ++ rest) := by
    rw [hbytes]
    exact readExact_append (b := [f.cmd, a, b, c, d, p, q]) rfl _
  rw [readFrame, hheader]
  show (readExact (u16OfBe p q).toNat (f.data ++ rest)).map
    (fun r => ((⟨f.cmd, u32OfBe a b c d, r.1⟩ : Frame), r.2)) = _
  rw [hsid, hlen, UInt16.toNat_ofNat']

/-- Messages are read back exactly if the length of each fits into the length field. -/
theorem framesOf_writerOutput_iff (msgs : List Frame) :
    framesOf (writerOutput msgs) = msgs ↔ ∀ f ∈ msgs, f.data.length < 65536 := by
  induction msgs with
  | nil =>
    refine iff_of_true ?_ (fun f hf => nomatch hf)
    rw [writerOutput, List.flatMap_nil, framesOf]
    rfl
  | cons f msgs ih =>
    have houtput : writerOutput (f :: msgs) = f.bytes ++ writerOutput msgs := List.flatMap_cons
    have hread := readFrame_bytes_append f (writerOutput msgs)
    rw [houtput, List.forall_mem_cons, ← ih]
    by_cases hlt : f.data.length < 65536
    · rw [Nat.mod_eq_of_lt hlt, readExact_append rfl, Option.map_some] at hread
      rw [framesOf_eq_cons hread, List.cons.injEq]
      exact ⟨fun h => ⟨hlt, h.2⟩, fun h => ⟨rfl, h.2⟩⟩
    · refine iff_of_false (fun heq => ?_) fun h => hlt h.1
      have hmod : f.data.length % 65536 < f.data.length :=
        (Nat.mod_lt _ (by decide)).trans_le (Nat.le_of_not_lt hlt)
      have hle : f.data.length % 65536 ≤ (f.data ++ writerOutput msgs).length := by
        rw [List.length_append]
        omega
      rw [readExact, if_pos hle, Option.map_some] at hread
      rw [framesOf_eq_cons hread] at heq
      -- the first frame that is read is too short
      have hdata := congrArg (fun g => g.data.length) (List.cons.inj heq).1
      simp only [List.length_take_of_le hle] at hdata
      omega

variable {md5Hex}

/-- Only a padding scheme can be too long. -/
theorem Queueable.length_lt {f : Frame} (h : Queueable md5Hex f)
    (hcmd : f.cmd ≠ cmdUpdatePadding) : f.data.length < 65536 := by
  cases h with
  | psh sid data hdata => exact lt_of_le_of_lt hdata (by decide)
  | updatePadding raw scheme haccepted => exact absurd rfl hcmd
  | fin | synack | heartResponse => exact Nat.zero_lt_succ _
  | serverSettings | alert => decide

/-- **The frame writer.**  The frames that are read from the output of the writer task are
the messages that were queued, exactly if each padding scheme among them has less than
65536 bytes. -/
theorem framesOf_writerOutput {msgs : List Frame} (h : ∀ f ∈ msgs, Queueable md5Hex f) :
    framesOf (writerOutput msgs) = msgs ↔
      ∀ f ∈ msgs, f.cmd = cmdUpdatePadding → f.data.length < 65536 := by
  rw [framesOf_writerOutput_iff]
  constructor
  · intro hall f hf _
    exact hall f hf
  · intro hpadding f hf
    by_cases hcmd : f.cmd = cmdUpdatePadding
    · exact hpadding f hf hcmd
    · exact (h f hf).length_lt hcmd

/-- Settings and a PSH frame are read back. -/
theorem framesOf_writerOutput_two :
    framesOf (writerOutput [⟨cmdServerSettings, 0, asBytes "v=2"⟩, ⟨cmdPsh, 1, [104, 105]⟩]) =
        [⟨cmdServerSettings, 0, asBytes "v=2"⟩, ⟨cmdPsh, 1, [104, 105]⟩] ↔
      ∀ f ∈ [(⟨cmdServerSettings, 0, asBytes "v=2"⟩ : Frame), ⟨cmdPsh, 1, [104, 105]⟩],
        f.cmd = cmdUpdatePadding → f.data.length < 65536 :=
  @framesOf_writerOutput (fun _ => "")
    [⟨cmdServerSettings, 0, asBytes "v=2"⟩, ⟨cmdPsh, 1, [104, 105]⟩] (by
      intro f hf
      rcases List.mem_cons.mp hf with rfl | hf
      · exact .serverSettings
      · rw [List.mem_singleton.mp hf]
        exact .psh 1 [104, 105] (by decide))

/-! ## What the session queues -/

namespace Session

/-- The session has an accepted scheme, and queued only such messages. -/
structure Writes (md5Hex : Bytes → String) (s : Session) : Prop where
  padding : ∃ raw, PaddingScheme.fromBytes md5Hex raw = some s.padding
  written : ∀ f ∈ s.written, Queueable md5Hex f

theorem Writes.of_eq {s s' : Session} (h : s.Writes md5Hex) (hpadding : s'.padding = s.padding)
    (hwritten : s'.written = s.written) : s'.Writes md5Hex :=
  ⟨hpadding ▸ h.padding, hwritten ▸ h.written⟩

theorem Writes.reply {s : Session} (h : s.Writes md5Hex) {f : Frame}
    (hf : Queueable md5Hex f) : (s.reply f).Writes md5Hex := by
  unfold Session.reply
  split
  · refine ⟨h.padding, fun g hg => ?_⟩
    rcases List.mem_append.mp hg with hg | hg
    · exact h.written g hg
    · rw [List.mem_singleton.mp hg]
      exact hf
  · exact h

theorem Writes.ite_reply {s : Session} (h : s.Writes md5Hex) (c : Prop) [Decidable c] {f : Frame}
    (hf : Queueable md5Hex f) : (if c then s.reply f else s).Writes md5Hex := by
  split
  · exact h.reply hf
  · exact h

theorem Writes.settings {s : Session} (h : s.Writes md5Hex) (data : Bytes) :
    (s.settings data).Writes md5Hex := by
  obtain ⟨raw, hraw⟩ := h.padding
  refine Writes.ite_reply ?_ (2 ≤ _) .serverSettings
  refine Writes.ite_reply ?_ (_ ≠ _) (.updatePadding raw s.padding hraw)
  exact h.of_eq rfl rfl

theorem Writes.openStream {s : Session} (h : s.Writes md5Hex) (sid : UInt32) :
    (s.openStream sid).Writes md5Hex := by
  refine Writes.ite_reply ?_ (2 ≤ s.peerVersion) (.synack sid)
  exact h.of_eq rfl rfl

/-- A frame is answered with such messages. -/
theorem Writes.dispatch {s : Session} (h : s.Writes md5Hex) (f : Frame) :
    (s.dispatch f).Writes md5Hex := by
  fun_cases Session.dispatch s f with
  | case1 | case6 | case8 | case10 | case12 => exact h.of_eq rfl rfl
  | case5 | case7 => exact h.of_eq rfl rfl
  | case2 => exact (h.settings f.data).of_eq rfl rfl
  | case3 => exact (h.openStream f.streamId).of_eq rfl rfl
  | case4 => exact (h.reply .alert).of_eq rfl rfl
  | case9 => exact (h.reply (.heartResponse f.streamId)).of_eq rfl rfl
  | case11 => exact h.of_eq rfl rfl

theorem Writes.trySend {s s' : Session} (h : s.Writes md5Hex) {stream : Nat} {data : Bytes}
    {ok : Bool} (hsend : s.trySend stream data = some (ok, s')) : s'.Writes md5Hex := by
  obtain ⟨ch, -, ⟨-, -, rfl⟩ | ⟨-, -, rfl⟩⟩ := trySend_cases hsend
  · exact h
  · exact h.of_eq rfl rfl

theorem step_writes {s s' : Session} {e : SessionEvent} (h : s.Writes md5Hex) (_ : True)
    (hstep : s.step e = some s') : s'.Writes md5Hex := by
  cases moves_of_step hstep with
  | @reads f input hloop hread =>
    have hread : Writes md5Hex { s with input := input } := h.of_eq rfl rfl
    exact hread.dispatch f
  | ends hloop | receives hch hthere | drops hch hthere | breaks => exact h.of_eq rfl rfl
  | pushes hloop hsend | removes hloop hsend | finishes hloop hsend | drains hloop hsend =>
    exact (h.trySend hsend).of_eq rfl rfl

/-- **The read loop** queues no other messages, in any run with an accepted scheme. -/
theorem queueable_of_run {raw : Bytes} {padding : PaddingScheme}
    (hpadding : PaddingScheme.fromBytes md5Hex raw = some padding) {input : Bytes}
    {es : List SessionEvent} {s : Session} (hrun : run step (init padding input) es = some s) :
    ∀ f ∈ s.written, Queueable md5Hex f := by
  have hinit : (init padding input).Writes md5Hex := ⟨⟨raw, hpadding⟩, fun f hf => (nomatch hf)⟩
  exact (Reachable.invariant step_writes hinit ⟨es, hrun⟩).written

end Session

namespace Relay

/-- The downlink holds at most a buffer, and the stream queued only such messages. -/
structure Writes (md5Hex : Bytes → String) (s : Relay) : Prop where
  holding : ∀ data, s.downlink.holding = some data → data.length ≤ bufferSize
  queued : ∀ f ∈ s.queued, Queueable md5Hex f

theorem Writes.same {s s' : Relay} (h : s.Writes md5Hex)
    (hdown : s'.downlink.holding = none ∨ s'.downlink.holding = s.downlink.holding)
    (hqueued : s'.queued = s.queued) : s'.Writes md5Hex := by
  refine ⟨fun data hdata => ?_, hqueued ▸ h.queued⟩
  rcases hdown with hnone | heq
  · rw [hnone] at hdata
    cases hdata
  · exact h.holding data (heq ▸ hdata)

/-- The stream queues one more message, and holds no data behind it. -/
theorem Writes.send {s s' : Relay} (h : s.Writes md5Hex) {f : Frame}
    (hf : Queueable md5Hex f) (hdown : s'.downlink.holding = none)
    (hqueued : s'.queued = s.queued ++ [f]) : s'.Writes md5Hex := by
  refine ⟨fun data hdata => ?_, fun g hg => ?_⟩
  · rw [hdown] at hdata
    cases hdata
  · rw [hqueued] at hg
    rcases List.mem_append.mp hg with hg | hg
    · exact h.queued g hg
    · rw [List.mem_singleton.mp hg]
      exact hf

theorem step_writes {s s' : Relay} {e : Event} (h : s.Writes md5Hex) (_ : True)
    (hstep : s.step e = some s') : s'.Writes md5Hex := by
  cases e with
  | push | fin | otherFrame | replaced | writerBreaks | write | upRead | upWritten | upShutdown =>
    simp only [step] at hstep
    repeat' split at hstep
    all_goals first
      | contradiction
      | obtain rfl := Option.some.inj hstep
        exact h.same (.inr rfl) rfl
  | locked half =>
    cases half with
    | up =>
      simp only [step] at hstep
      split at hstep
      · obtain rfl := Option.some.inj hstep
        exact h.same (.inr rfl) rfl
      · cases hstep
    | down =>
      simp only [step] at hstep
      split at hstep
      case isFalse => cases hstep
      split at hstep
      · rename_i data hdown
        obtain rfl := Option.some.inj hstep
        exact h.same (.inr (by rw [hdown]; rfl)) rfl
      · obtain rfl := Option.some.inj hstep
        exact h.same (.inl rfl) rfl
      · cases hstep
  | downRead data =>
    simp only [step] at hstep
    split at hstep
    case h_2 => cases hstep
    split at hstep
    · rename_i b bs
      split at hstep
      · rename_i hfits
        obtain rfl := Option.some.inj hstep
        exact ⟨fun data hdata => Option.some.inj hdata ▸ hfits, h.queued⟩
      · cases hstep
    · obtain rfl := Option.some.inj hstep
      exact h.same (.inl rfl) rfl
  | downSent =>
    simp only [step] at hstep
    split at hstep
    case h_3 => cases hstep
    · rename_i data hdown
      have hfits : data.length ≤ bufferSize := h.holding data (by rw [hdown]; rfl)
      split at hstep
      · obtain rfl := Option.some.inj hstep
        exact h.same (.inl rfl) rfl
      split at hstep
      · obtain rfl := Option.some.inj hstep
        exact h.send (.psh s.streamId data hfits) rfl rfl
      · cases hstep
    · split at hstep
      · obtain rfl := Option.some.inj hstep
        exact h.same (.inl rfl) rfl
      split at hstep
      · obtain rfl := Option.some.inj hstep
        exact h.send (.fin s.streamId) rfl rfl
      · cases hstep

/-- **A stream** queues no other messages, in any run of its relay. -/
theorem queueable_of_run {streamId : UInt32} {conn : StreamConn} {writeChannel : List Frame}
    {writerAlive : Bool} {es : List Event} {s : Relay}
    (hrun : run step (start streamId conn writeChannel writerAlive) es = some s) :
    ∀ f ∈ s.queued, Queueable md5Hex f := by
  have hstart : (start streamId conn writeChannel writerAlive).Writes md5Hex :=
    ⟨fun data hdata => (nomatch hdata), fun f hf => (nomatch hf)⟩
  exact (Reachable.invariant step_writes hstart ⟨es, hrun⟩).queued

end Relay

/-! ## A long scheme -/

/-- `stop=8` in front of empty lines. -/
def longScheme (n : Nat) : String :=
  String.ofList (['s', 't', 'o', 'p', '=', '8'] ++ List.replicate (n + 1) '\n')

theorem length_longScheme (n : Nat) : (asBytes (longScheme n)).length = n + 7 := by
  have hascii : ∀ c ∈ (longScheme n).toList, c.utf8Size = 1 := by
    intro c hc
    rw [longScheme, String.toList_ofList, List.mem_append] at hc
    rcases hc with hc | hc
    · simp only [List.mem_cons, List.not_mem_nil, or_false] at hc
      rcases hc with rfl | rfl | rfl | rfl | rfl | rfl <;> rfl
    · rw [List.eq_of_mem_replicate hc]
      rfl
  rw [asBytes_length_of_ascii hascii, longScheme, String.toList_ofList, List.length_append,
    List.length_replicate]
  exact Nat.add_comm 6 (n + 1)

theorem linesOf_longScheme (n : Nat) :
    linesOf (longScheme n) = "stop=8" :: List.replicate n "" := by
  rw [← linesFrom_newlines, linesOf, longScheme, String.toList_ofList, List.replicate_succ]
  simp [linesFrom]

/-- Empty lines are skipped. -/
theorem foldlM_schemeLine_empty (stop : Option UInt32) (n : Nat) :
    (List.replicate n "").foldlM schemeLine stop = some stop := by
  have hempty : schemeLine stop "" = some stop := by
    rw [schemeLine, show trim "" = "" by decide, if_pos rfl]
  induction n with
  | zero => rfl
  | succ n ih =>
    rw [List.replicate_succ, List.foldlM_cons, hempty]
    exact ih

/-- A scheme of any length is accepted. -/
theorem fromBytes_longScheme (n : Nat) :
    PaddingScheme.fromBytes md5Hex (asBytes (longScheme n)) =
      some ⟨asBytes (longScheme n), md5Hex (asBytes (longScheme n))⟩ := by
  have hstop : schemeLine none "stop=8" = some (some 8) := by decide +kernel
  have hlines : (linesOf (longScheme n)).foldlM schemeLine none = some (some 8) := by
    rw [linesOf_longScheme, List.foldlM_cons, hstop]
    exact foldlM_schemeLine_empty (some 8) n
  simp only [PaddingScheme.fromBytes, fromUtf8_asBytes, Option.bind_eq_bind, Option.bind_some,
    hlines]
  rfl

theorem queueable_longScheme (n : Nat) :
    Queueable md5Hex ⟨cmdUpdatePadding, 0, asBytes (longScheme n)⟩ :=
  .updatePadding (asBytes (longScheme n)) _ (fromBytes_longScheme n)

/-- A scheme of 65536 bytes: the header announces none. -/
theorem not_framesOf_writerOutput : ¬ ∀ (md5Hex : Bytes → String) (msgs : List Frame),
    (∀ f ∈ msgs, Queueable md5Hex f) → framesOf (writerOutput msgs) = msgs := by
  intro h
  obtain ⟨n, hn⟩ : ∃ n, n = 65529 := ⟨_, rfl⟩
  have hread := h (fun _ => "") [⟨cmdUpdatePadding, 0, asBytes (longScheme n)⟩]
    (List.forall_mem_singleton.mpr (queueable_longScheme n))
  have hlt := (framesOf_writerOutput_iff _).mp hread _ List.mem_cons_self
  rw [length_longScheme, hn] at hlt
  exact absurd hlt (by decide)

end Ruproxy.AnyTls
