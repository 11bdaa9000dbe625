/-
  AnyTls/Demux.lean --- what the read loop of a session sends into which stream.

  The invariant says that the stream table and the channels agree with the frames
  handled so far: a table entry is an instance whose SYN is the last frame that opens or
  ends its id, and such an instance has an entry unless its receiver is gone or the loop
  is at its end.
-/
import Ruproxy.AnyTls.Payloads

set_option autoImplicit false

namespace Ruproxy.AnyTls

open Ruproxy.Foundation Ruproxy.Foundation.Transition

/-! ## The property -/

/-- The frame that the loop has read and is not done with. -/
def ReadLoop.current : ReadLoop → List Frame
  | .pushing _ f | .finishing _ f => [f]
  | _ => []

/-- The frames handled while the receiver of a channel was there. -/
def Channel.heard (ch : Channel) (handled : List Frame) : List Frame :=
  match ch.droppedAt with
  | none => handled
  | some n => handled.take n

/-- The streams of a session and what was sent to them are those of its frames. -/
structure Demuxed (s : Session) : Prop where
  /-- a stream is opened by each SYN after a SETTINGS frame, and by nothing else -/
  opened : ∀ p, (s.channels p).isSome ↔ OpenedAt s.handled p
  /-- it is sent the payloads for its id up to its end, as long as there is a receiver -/
  sent : ∀ {p syn ch}, s.handled[p]? = some syn → s.channels p = some ch →
    nonEmpty ch.sent = payloads syn.streamId ((ch.heard s.handled).drop (p + 1))

/-! ## The frames that were read -/

theorem framesOf_eq_cons {input rest : Bytes} {f : Frame}
    (h : readFrame input = some (f, rest)) : framesOf input = f :: framesOf rest := by
  rw [framesOf]
  split
  · rename_i hnone
    rw [h] at hnone
    cases hnone
  · rename_i f' rest' hsome
    rw [h] at hsome
    cases hsome
    rfl

namespace Session

/-- What was handled, what the loop has in hand and what is left to read. -/
def frames (s : Session) : List Frame :=
  s.handled ++ s.loop.current ++ framesOf s.input

/-- A frame that is read is handled or in hand. -/
theorem frames_dispatch (s : Session) (f : Frame) :
    (s.dispatch f).frames = s.handled ++ [f] ++ framesOf s.input := by
  fun_cases dispatch s f with
  | case1 => simp [frames, next, ReadLoop.current]
  | case2 =>
    obtain ⟨v, w, hs⟩ := settings_eq s f.data
    simp [frames, next, ReadLoop.current, hs]
  | case3 =>
    obtain ⟨w, hs⟩ := openStream_eq s f.streamId
    simp [frames, next, ReadLoop.current, hs]
  | case4 _ _ _ _ msg =>
    obtain ⟨w, hs⟩ := reply_eq s ⟨cmdAlert, 0, msg⟩
    simp [frames, next, close, ReadLoop.current, hs]
  | case5 | case7 => simp [frames, ReadLoop.current]
  | case6 | case8 | case10 | case12 => simp [frames, next, ReadLoop.current]
  | case9 =>
    obtain ⟨w, hs⟩ := reply_eq s ⟨cmdHeartResponse, f.streamId, []⟩
    simp [frames, next, ReadLoop.current, hs]
  | case11 => simp [frames, next, close, ReadLoop.current]

@[simp] theorem frames_close {s : Session} (h : s.loop = .reading) :
    s.close.frames = s.frames := by
  simp [frames, close, ReadLoop.current, h]

/-- A `tx.send` has nothing to do with the frames. -/
theorem trySend_frames {s s' : Session} {stream : Nat} {data : Bytes} {ok : Bool}
    (h : s.trySend stream data = some (ok, s')) :
    s'.handled = s.handled ∧ s'.loop = s.loop ∧ s'.input = s.input := by
  obtain ⟨ch, -, ⟨-, -, rfl⟩ | ⟨-, -, rfl⟩⟩ := trySend_cases h
  · exact ⟨rfl, rfl, rfl⟩
  · exact ⟨rfl, rfl, rfl⟩

/-- A step does not lose a frame and does not make one up. -/
theorem Moves.frames_eq {s s' : Session} (h : s.Moves s') : s'.frames = s.frames := by
  cases h with
  | reads hloop hread =>
    rw [frames_dispatch, frames, hloop, framesOf_eq_cons hread]
    simp [ReadLoop.current]
  | ends hloop => exact frames_close hloop
  | pushes hloop hsend | removes hloop hsend | finishes hloop hsend | drains hloop hsend =>
    obtain ⟨hhandled, -, hinput⟩ := trySend_frames hsend
    simp [frames, next, ReadLoop.current, hloop, hhandled, hinput]
  | receives | drops | breaks => rfl

end Session

/-! ## One more frame -/

/-- What the channel of the instance at `p` gets with a frame. -/
def Gets (handled : List Frame) (p : Nat) (f : Frame) (ch ch' : Channel) : Prop :=
  ch'.droppedAt = ch.droppedAt ∧ ∀ syn, handled[p]? = some syn →
    nonEmpty ch'.sent = nonEmpty ch.sent ++
      if ch.droppedAt = none ∧ Live handled p syn.streamId then payloads syn.streamId [f] else []

/-- The payloads that an instance should have got, after one more frame. -/
theorem payloads_heard_snoc {handled : List Frame} {p : Nat} {f syn : Frame} {ch : Channel}
    (hsyn : handled[p]? = some syn) (hdropped : ∀ n, ch.droppedAt = some n → n ≤ handled.length) :
    payloads syn.streamId ((ch.heard (handled ++ [f])).drop (p + 1)) =
      payloads syn.streamId ((ch.heard handled).drop (p + 1)) ++
        if ch.droppedAt = none ∧ Live handled p syn.streamId then payloads syn.streamId [f]
        else [] := by
  have hp : p + 1 ≤ handled.length := (List.getElem?_eq_some_iff.mp hsyn).1
  cases hdrop : ch.droppedAt with
  | some n => simp [Channel.heard, hdrop, List.take_append_of_le_length (hdropped n hdrop)]
  | none =>
    simp only [Channel.heard, hdrop, List.drop_append_of_le_length hp, true_and]
    split
    · rename_i hlive
      obtain ⟨-, -, -, hno⟩ := hlive
      exact payloads_append_of_open hno
    · rename_i hdead
      rw [List.append_nil]
      apply payloads_append_of_ended
      by_contra hno
      exact hdead ⟨syn, hsyn, rfl, fun g hg hends => hno ⟨g, hg, hends⟩⟩

/-- What the loop does to the channels with a frame. -/
structure Handles (s s' : Session) (f : Frame) : Prop where
  handled : s'.handled = s.handled ++ [f]
  isSome_eq : ∀ {p}, p ≠ s.handled.length → (s'.channels p).isSome = (s.channels p).isSome
  gets : ∀ {p ch'}, p ≠ s.handled.length → s'.channels p = some ch' →
    ∃ ch, s.channels p = some ch ∧ Gets s.handled p f ch ch'
  isSome_new : (s'.channels s.handled.length).isSome ↔
    f.cmd = cmdSyn ∧ ∃ g ∈ s.handled, g.cmd = cmdSettings
  fresh : ∀ {ch}, s'.channels s.handled.length = some ch → ch.sent = [] ∧ ch.droppedAt = none

theorem demuxed_of_handles {s s' : Session} {f : Frame} (h : Demuxed s)
    (hdropped : ∀ {p ch n}, s.channels p = some ch → ch.droppedAt = some n →
      n ≤ s.handled.length)
    (hs : Handles s s' f) : Demuxed s' where
  opened p := by
    rw [hs.handled]
    rcases lt_trichotomy p s.handled.length with hp | rfl | hp
    · rw [openedAt_snoc_iff hp, ← h.opened p, hs.isSome_eq (Nat.ne_of_lt hp)]
    · rw [openedAt_length_iff]
      exact hs.isSome_new
    · have hle : (s.handled ++ [f]).length ≤ p := by simpa using hp
      rw [hs.isSome_eq (Nat.ne_of_gt hp), h.opened p]
      exact iff_of_false (not_openedAt_of_le (Nat.le_of_lt hp)) (not_openedAt_of_le hle)
  sent := by
    intro p syn ch' hsyn hch'
    rw [hs.handled] at hsyn ⊢
    rcases eq_or_ne p s.handled.length with rfl | hne
    · obtain ⟨hsent, hthere⟩ := hs.fresh hch'
      simp [hsent, nonEmpty, Channel.heard, hthere]
    · have hlt : p < s.handled.length := by
        have := (List.getElem?_eq_some_iff.mp hsyn).1
        simp only [List.length_append, List.length_singleton] at this
        omega
      rw [List.getElem?_append_left hlt] at hsyn
      obtain ⟨ch, hch, hdrop, hgot⟩ := hs.gets hne hch'
      have hheard : ch'.heard (s.handled ++ [f]) = ch.heard (s.handled ++ [f]) := by
        simp only [Channel.heard, hdrop]
      rw [hheard, payloads_heard_snoc hsyn fun n => hdropped hch, hgot syn hsyn,
        h.sent hsyn hch]

/-! ## The invariant -/

/-- The loop does not use the entry of the instance any more. -/
def ReadLoop.Past : ReadLoop → Nat → Prop
  | .finishing stream _, p => stream = p
  | .draining _, _ => True
  | _, _ => False

/-- The stream table, the channels and the loop agree with the frames handled. -/
structure SessionInv (s : Session) : Prop where
  demuxed : Demuxed s
  dropped : ∀ {p ch n}, s.channels p = some ch → ch.droppedAt = some n → n ≤ s.handled.length
  settings : s.receivedSettings = true ↔ ∃ g ∈ s.handled, g.cmd = cmdSettings
  mapped : ∀ {sid p}, s.streams.lookup sid = some p →
    Live s.handled p sid ∧ (s.channels p).isSome
  kept : ∀ {sid p ch}, Live s.handled p sid → s.channels p = some ch → ch.droppedAt = none →
    s.streams.lookup sid = some p ∨ s.loop.Past p
  pushing : ∀ {p f}, s.loop = .pushing p f →
    f.cmd = cmdPsh ∧ s.streams.lookup f.streamId = some p
  finishing : ∀ {p f}, s.loop = .finishing p f →
    f.cmd = cmdFin ∧ Live s.handled p f.streamId ∧ s.streams.lookup f.streamId = none

theorem sessionInv_init (padding : PaddingScheme) (input : Bytes) :
    SessionInv (Session.init padding input) where
  demuxed := {
    opened := fun p => iff_of_false Bool.false_ne_true (not_openedAt_of_le (Nat.zero_le p))
    sent := fun _ hch => by cases hch }
  dropped := fun hch => by cases hch
  settings := iff_of_false Bool.false_ne_true (by rintro ⟨g, hg, -⟩; cases hg)
  mapped := fun h => by cases h
  kept := fun _ hch => by cases hch
  pushing := fun h => by cases h
  finishing := fun h => by cases h

namespace SessionInv

variable {s s' : Session} {f : Frame}

/-- Without a SETTINGS frame there is no stream. -/
theorem lookup_eq_none (h : SessionInv s) (hno : s.receivedSettings = false) (sid : UInt32) :
    s.streams.lookup sid = none := by
  rw [Option.eq_none_iff_forall_ne_some]
  intro p hlookup
  obtain ⟨-, -, -, g, hg, hset⟩ := (h.demuxed.opened p).mp (h.mapped hlookup).2
  have := h.settings.mpr ⟨g, List.mem_of_mem_take hg, hset⟩
  rw [hno] at this
  cases this

/-- At the next frame a live instance with a receiver has its entry. -/
theorem lookup_of_reading (h : SessionInv s) (hloop : s.loop = .reading) {sid : UInt32} {p : Nat}
    {ch : Channel} (hlive : Live s.handled p sid) (hch : s.channels p = some ch)
    (hthere : ch.droppedAt = none) : s.streams.lookup sid = some p := by
  apply (h.kept hlive hch hthere).resolve_right
  rw [hloop]
  exact id

/-- The loop goes back to reading with one more frame handled. -/
theorem handles (h : SessionInv s) (hs : Handles s s' f)
    (hloop : s'.loop = .reading)
    (hsettings : s'.receivedSettings = true ↔ s.receivedSettings = true ∨ f.cmd = cmdSettings)
    (hmapped : ∀ {sid p}, s'.streams.lookup sid = some p →
      (p = s.handled.length ∧ f.streamId = sid ∧ (s'.channels p).isSome) ∨
        (s.streams.lookup sid = some p ∧ ¬ f.Ends sid))
    (hkept : ∀ {sid p ch}, Live s.handled p sid → s.channels p = some ch →
      ch.droppedAt = none → ¬ f.Ends sid → s'.streams.lookup sid = some p)
    (hnew : (s'.channels s.handled.length).isSome →
      s'.streams.lookup f.streamId = some s.handled.length) : SessionInv s' where
  demuxed := demuxed_of_handles h.demuxed h.dropped hs
  dropped := by
    intro p ch' n hch' hn
    rw [hs.handled, List.length_append]
    rcases eq_or_ne p s.handled.length with rfl | hne
    · rw [(hs.fresh hch').2] at hn
      cases hn
    · obtain ⟨ch, hch, hdrop, -⟩ := hs.gets hne hch'
      rw [hdrop] at hn
      exact Nat.le_add_right_of_le (h.dropped hch hn)
  settings := by
    rw [hsettings, h.settings, hs.handled]
    simp [or_and_right, exists_or]
  mapped := by
    intro sid p hlookup
    rw [hs.handled]
    rcases hmapped hlookup with ⟨rfl, hid, hsome⟩ | ⟨hold, hends⟩
    · exact ⟨live_length_iff.mpr hid, hsome⟩
    · obtain ⟨hlive, hsome⟩ := h.mapped hold
      refine ⟨(live_snoc_iff hlive.lt).mpr ⟨hlive, hends⟩, ?_⟩
      rw [hs.isSome_eq (Nat.ne_of_lt hlive.lt)]
      exact hsome
  kept := by
    intro sid p ch' hlive hch' hthere
    apply Or.inl
    rw [hs.handled] at hlive
    rcases eq_or_ne p s.handled.length with rfl | hne
    · obtain rfl := live_length_iff.mp hlive
      exact hnew (Option.isSome_iff_exists.mpr ⟨ch', hch'⟩)
    · have hlt : p < s.handled.length := by
        have := hlive.lt
        simp only [List.length_append, List.length_singleton] at this
        omega
      obtain ⟨hold, hends⟩ := (live_snoc_iff hlt).mp hlive
      obtain ⟨ch, hch, hdrop, -⟩ := hs.gets hne hch'
      exact hkept hold hch (hdrop ▸ hthere) hends
  pushing hl := by
    rw [hloop] at hl
    cases hl
  finishing hl := by
    rw [hloop] at hl
    cases hl

/-- The rest of the session does not matter. -/
theorem withRest (h : SessionInv s) (input : Bytes) (v : UInt8) (w : List Frame) (a : Bool) :
    SessionInv { s with input := input, peerVersion := v, written := w, writerAlive := a } :=
  ⟨⟨h.demuxed.opened, h.demuxed.sent⟩, h.dropped, h.settings, h.mapped, h.kept, h.pushing,
    h.finishing⟩

/-- A channel that still counts as the same. -/
theorem setChannel (h : SessionInv s) {p : Nat} {ch ch' : Channel}
    (hch : s.channels p = some ch) (hsent : nonEmpty ch'.sent = nonEmpty ch.sent)
    (hheard : ch'.heard s.handled = ch.heard s.handled)
    (hdropped : ∀ {n}, ch'.droppedAt = some n → n ≤ s.handled.length)
    (hthere : ch'.droppedAt = none → ch.droppedAt = none) :
    SessionInv { s with channels := Function.update s.channels p (some ch') } where
  demuxed := {
    opened := by
      intro q
      rw [← h.demuxed.opened q]
      rcases eq_or_ne q p with rfl | hne
      · simp [hch]
      · simp [hne]
    sent := by
      intro q syn c hsyn hc
      rcases eq_or_ne q p with rfl | hne
      · obtain rfl : ch' = c := by simpa using hc
        simp only [hsent, hheard]
        exact h.demuxed.sent hsyn hch
      · exact h.demuxed.sent hsyn (by simpa [hne] using hc) }
  dropped := by
    intro q c n hc hn
    rcases eq_or_ne q p with rfl | hne
    · obtain rfl : ch' = c := by simpa using hc
      exact hdropped hn
    · exact h.dropped (p := q) (by simpa [hne] using hc) hn
  settings := h.settings
  mapped := by
    intro sid q hlookup
    obtain ⟨hlive, hsome⟩ := h.mapped hlookup
    refine ⟨hlive, ?_⟩
    rcases eq_or_ne q p with rfl | hne
    · simp
    · simpa [hne] using hsome
  kept := by
    intro sid q c hlive hc hnone
    rcases eq_or_ne q p with rfl | hne
    · obtain rfl : ch' = c := by simpa using hc
      exact h.kept hlive hch (hthere hnone)
    · exact h.kept (p := q) hlive (by simpa [hne] using hc) hnone
  pushing := h.pushing
  finishing := h.finishing

/-- The end mark of a stream is not a payload. -/
theorem endMark (h : SessionInv s) {stream : Nat} {ok : Bool}
    (hsend : s.trySend stream [] = some (ok, s')) : SessionInv s' := by
  obtain ⟨ch, hch, ⟨-, -, rfl⟩ | ⟨-, hthere, rfl⟩⟩ := Session.trySend_cases hsend
  · exact h
  · apply h.setChannel hch
    · simp
    · rfl
    · exact fun hn => h.dropped hch hn
    · exact id

/-- The loop goes somewhere else, with another table. -/
theorem withTable (h : SessionInv s) {streams : Table UInt32 Nat} {loop : ReadLoop}
    (hmapped : ∀ {sid p}, streams.lookup sid = some p →
      Live s.handled p sid ∧ (s.channels p).isSome)
    (hkept : ∀ {sid p ch}, Live s.handled p sid → s.channels p = some ch →
      ch.droppedAt = none → streams.lookup sid = some p ∨ loop.Past p)
    (hpushing : ∀ {p f}, loop = .pushing p f →
      f.cmd = cmdPsh ∧ streams.lookup f.streamId = some p)
    (hfinishing : ∀ {p f}, loop = .finishing p f →
      f.cmd = cmdFin ∧ Live s.handled p f.streamId ∧ streams.lookup f.streamId = none) :
    SessionInv { s with streams := streams, loop := loop } :=
  ⟨⟨h.demuxed.opened, h.demuxed.sent⟩, h.dropped, h.settings, hmapped, hkept, hpushing,
    hfinishing⟩

/-- The loop stops reading. -/
theorem close (h : SessionInv s) : SessionInv s.close := by
  apply h.withTable
  · intro sid p hlookup
    cases hlookup
  · exact fun _ _ _ => .inr trivial
  · intro p f hl
    cases hl
  · intro p f hl
    cases hl

theorem drain (h : SessionInv s) (rest : List Nat) :
    SessionInv { s with loop := .draining rest } := by
  apply h.withTable h.mapped
  · exact fun _ _ _ => .inr trivial
  · intro p f hl
    cases hl
  · intro p f hl
    cases hl

/-! ## The frames, one by one -/

theorem channels_length (h : SessionInv s) : s.channels s.handled.length = none := by
  rw [← Option.not_isSome_iff_eq_none, h.demuxed.opened]
  exact not_openedAt_of_le (Nat.le_refl _)

theorem not_settings (h : SessionInv s) (hno : s.receivedSettings = false) :
    ¬ ∃ g ∈ s.handled, g.cmd = cmdSettings := by
  rw [← h.settings, hno]
  exact Bool.false_ne_true

/-- Nothing is sent to a channel that is not owed the frame. -/
theorem gets_refl {p : Nat} {ch : Channel}
    (hno : ∀ sid, Live s.handled p sid → ch.droppedAt = none → ¬ f.Carries sid) :
    Gets s.handled p f ch ch := by
  refine ⟨rfl, fun syn _ => ?_⟩
  split
  · rename_i hdue
    rw [payloads_singleton_of_not_carries (hno _ hdue.2 hdue.1), List.append_nil]
  · rw [List.append_nil]

/-- A frame that is not sent to any stream. -/
theorem handles_same (h : SessionInv s) (hhandled : s'.handled = s.handled ++ [f])
    (hchannels : s'.channels = s.channels)
    (hsyn : f.cmd = cmdSyn → s.receivedSettings = false)
    (hmiss : ∀ {p ch}, Live s.handled p f.streamId → s.channels p = some ch →
      ch.droppedAt = none → f.cmd ≠ cmdPsh) : Handles s s' f where
  handled := hhandled
  isSome_eq _ := by rw [hchannels]
  gets := by
    intro p ch _ hch
    rw [hchannels] at hch
    refine ⟨ch, hch, gets_refl ?_⟩
    rintro sid hlive hthere ⟨rfl, hpsh⟩
    exact hmiss hlive hch hthere hpsh
  isSome_new := by
    rw [hchannels, h.channels_length]
    apply iff_of_false Bool.false_ne_true
    rintro ⟨hcmd, hset⟩
    exact h.not_settings (hsyn hcmd) hset
  fresh := by
    intro ch hch
    rw [hchannels, h.channels_length] at hch
    cases hch

/-- A frame that has nothing to do with a stream. -/
theorem skip (h : SessionInv s) (hloop : s.loop = .reading)
    (hsyn : f.cmd = cmdSyn → s.receivedSettings = false)
    (hmiss : f.cmd = cmdPsh ∨ f.cmd = cmdFin → s.streams.lookup f.streamId = none)
    {rs : Bool} (hrs : rs = true ↔ s.receivedSettings = true ∨ f.cmd = cmdSettings) :
    SessionInv ({ s with receivedSettings := rs }.next f) := by
  have hh : Handles s ({ s with receivedSettings := rs }.next f) f := by
    refine h.handles_same (by rfl) (by rfl) hsyn ?_
    intro p ch hlive hch hthere hpsh
    have hlookup := h.lookup_of_reading hloop hlive hch hthere
    rw [hmiss (.inl hpsh)] at hlookup
    cases hlookup
  apply h.handles hh rfl hrs
  · intro sid p hlookup
    refine .inr ⟨hlookup, ?_⟩
    rintro ⟨rfl, hfin | hcmd⟩
    · exact absurd (hmiss (.inr hfin) ▸ hlookup) (by simp)
    · exact absurd (h.lookup_eq_none (hsyn hcmd) f.streamId ▸ hlookup) (by simp)
  · intro sid p ch hlive hch hthere _
    exact h.lookup_of_reading hloop hlive hch hthere
  · intro hsome
    rw [Session.next_channels, h.channels_length] at hsome
    cases hsome

/-- A SYN frame after a SETTINGS frame. -/
theorem opens (h : SessionInv s) (hloop : s.loop = .reading) (hcmd : f.cmd = cmdSyn)
    (hset : s.receivedSettings = true) :
    SessionInv ({ s with
      streams := s.streams.insert f.streamId s.handled.length
      channels :=
        Function.update s.channels s.handled.length (some ⟨[], [], none⟩) }.next f) := by
  have hchannel : ∀ {p}, p ≠ s.handled.length →
      Function.update s.channels s.handled.length (some ⟨[], [], none⟩) p = s.channels p :=
    fun hne => Function.update_of_ne hne _ _
  have hnotCarries : ∀ sid, ¬ f.Carries sid := by
    rintro sid ⟨-, hpsh⟩
    exact absurd (hcmd.symm.trans hpsh) (by decide)
  have hends : ∀ {sid}, ¬ f.Ends sid → sid ≠ f.streamId := by
    rintro sid hno rfl
    exact hno ⟨rfl, .inr hcmd⟩
  refine h.handles (f := f) ⟨rfl, ?_, ?_, ?_, ?_⟩ rfl ?_ ?_ ?_ ?_
  · intro p hne
    simp only [Session.next_channels, hchannel hne]
  · intro p ch hne hch
    simp only [Session.next_channels, hchannel hne] at hch
    exact ⟨ch, hch, gets_refl fun sid _ _ => hnotCarries sid⟩
  · refine iff_of_true ?_ ⟨hcmd, h.settings.mp hset⟩
    simp
  · intro ch hch
    obtain rfl : (⟨[], [], none⟩ : Channel) = ch := by simpa using hch
    exact ⟨rfl, rfl⟩
  · simp [hset]
  · intro sid p hlookup
    rcases eq_or_ne sid f.streamId with rfl | hne
    · obtain rfl : s.handled.length = p := by simpa using hlookup
      exact .inl ⟨rfl, rfl, by simp⟩
    · refine .inr ⟨by simpa [hne] using hlookup, ?_⟩
      rintro ⟨hid, -⟩
      exact hne hid.symm
  · intro sid p ch hlive hch hthere hno
    have hlookup := h.lookup_of_reading hloop hlive hch hthere
    simpa [hends hno] using hlookup
  · intro _
    simp

/-- A PSH frame in hand is for the live instance of its id. -/
theorem live_pushing (h : SessionInv s) {stream : Nat} (hloop : s.loop = .pushing stream f) :
    f.Carries f.streamId ∧ Live s.handled stream f.streamId ∧
      ∀ {sid p ch}, Live s.handled p sid → s.channels p = some ch → ch.droppedAt = none →
        s.streams.lookup sid = some p := by
  obtain ⟨hcmd, hlookup⟩ := h.pushing hloop
  refine ⟨⟨rfl, hcmd⟩, (h.mapped hlookup).1, fun hlive hch hthere => ?_⟩
  exact (h.kept hlive hch hthere).resolve_right (by rw [hloop]; exact id)

/-- A PSH frame with its payload sent. -/
theorem pushed (h : SessionInv s) {stream : Nat} (hloop : s.loop = .pushing stream f)
    (hsend : s.trySend stream f.data = some (true, s')) : SessionInv (s'.next f) := by
  obtain ⟨hcarries, hlive, hkept⟩ := h.live_pushing hloop
  obtain ⟨ch, hch, ⟨hok, -⟩ | ⟨-, hthere, rfl⟩⟩ := Session.trySend_cases hsend
  · cases hok
  have hlookup := hkept hlive hch hthere
  have hnew : stream ≠ s.handled.length := Nat.ne_of_lt hlive.lt
  refine h.handles (f := f) ⟨rfl, ?_, ?_, ?_, ?_⟩ rfl ?_ ?_ ?_ ?_
  · intro p _
    rcases eq_or_ne p stream with rfl | hne
    · simp [hch]
    · simp [hne]
  · intro p c _ hc
    rcases eq_or_ne p stream with rfl | hne
    · simp only [Session.next_channels, Function.update_self] at hc
      cases hc
      refine ⟨ch, hch, rfl, fun syn hsyn => ?_⟩
      obtain ⟨syn', hsyn', hid, -⟩ := id hlive
      rw [hsyn] at hsyn'
      cases hsyn'
      rw [hid, if_pos ⟨hthere, hlive⟩, payloads_singleton_of_carries hcarries, nonEmpty_append]
    · refine ⟨c, by simpa [hne] using hc, gets_refl ?_⟩
      rintro sid hlive' hthere' ⟨rfl, -⟩
      have := hkept hlive' (by simpa [hne] using hc) hthere'
      rw [hlookup] at this
      cases this
      exact hne rfl
  · apply iff_of_false
    · simp [hnew.symm, h.channels_length]
    · rintro ⟨hsyn, -⟩
      exact absurd (hcarries.2.symm.trans hsyn) (by decide)
  · intro c hc
    simp [hnew.symm, h.channels_length] at hc
  · simp [hcarries.2, cmdPsh, cmdSettings]
  · exact fun hl => .inr ⟨hl, hcarries.not_ends _⟩
  · exact fun hl hc ht _ => hkept hl hc ht
  · simp [hnew.symm, h.channels_length]

/-- A PSH frame for a stream without a receiver. -/
theorem removed (h : SessionInv s) {stream : Nat} (hloop : s.loop = .pushing stream f)
    (hsend : s.trySend stream f.data = some (false, s')) :
    SessionInv ({ s' with streams := s'.streams.erase f.streamId }.next f) := by
  obtain ⟨hcarries, hlive, hkept⟩ := h.live_pushing hloop
  obtain ⟨ch, hch, ⟨-, hgone, rfl⟩ | ⟨hok, -⟩⟩ := Session.trySend_cases hsend
  swap
  · cases hok
  obtain ⟨-, hlookup⟩ := h.pushing hloop
  have hother : ∀ {p c}, Live s'.handled p f.streamId → s'.channels p = some c →
      c.droppedAt ≠ none := by
    intro p c hlive' hc hthere
    have := hkept hlive' hc hthere
    rw [hlookup] at this
    cases this
    rw [hch] at hc
    cases hc
    exact hgone hthere
  refine h.handles (f := f) (h.handles_same (by rfl) (by rfl) ?_ ?_) rfl ?_ ?_ ?_ ?_
  · intro hsyn
    exact absurd (hcarries.2.symm.trans hsyn) (by decide)
  · intro p c hlive' hc hthere _
    exact hother hlive' hc hthere
  · simp [hcarries.2, cmdPsh, cmdSettings]
  · intro sid p hl
    refine .inr ⟨?_, hcarries.not_ends _⟩
    rcases eq_or_ne sid f.streamId with rfl | hne
    · simp at hl
    · simpa [AList.lookup_erase_ne hne] using hl
  · intro sid p c hlive' hc hthere _
    have hne : sid ≠ f.streamId := by
      rintro rfl
      exact hother hlive' hc hthere
    simpa [AList.lookup_erase_ne hne] using hkept hlive' hc hthere
  · intro hsome
    simp [h.channels_length] at hsome

/-- A FIN frame with the end mark sent. -/
theorem finished (h : SessionInv s) {stream : Nat} (hloop : s.loop = .finishing stream f) :
    SessionInv (s.next f) := by
  obtain ⟨hcmd, hlive, hnone⟩ := h.finishing hloop
  refine h.handles (f := f) (h.handles_same (by rfl) (by rfl) ?_ ?_) rfl ?_ ?_ ?_ ?_
  · intro hsyn
    exact absurd (hcmd.symm.trans hsyn) (by decide)
  · intro p c _ _ _ hpsh
    exact absurd (hcmd.symm.trans hpsh) (by decide)
  · simp [hcmd, cmdFin, cmdSettings]
  · intro sid p hl
    refine .inr ⟨hl, ?_⟩
    rintro ⟨rfl, -⟩
    rw [Session.next_streams, hnone] at hl
    cases hl
  · intro sid p c hlive' hc hthere hends
    apply (h.kept hlive' hc hthere).resolve_right
    rw [hloop]
    rintro rfl
    exact hends ⟨hlive.id_eq hlive', .inl hcmd⟩
  · intro hsome
    simp [h.channels_length] at hsome

/-- A PSH frame for a stream in the table. -/
theorem startPush (h : SessionInv s) {stream : Nat} (hloop : s.loop = .reading)
    (hcmd : f.cmd = cmdPsh) (hlookup : s.streams.lookup f.streamId = some stream) :
    SessionInv { s with loop := .pushing stream f } := by
  apply h.withTable h.mapped
  · intro sid p ch hlive hch hthere
    exact .inl (h.lookup_of_reading hloop hlive hch hthere)
  · intro p g hl
    cases hl
    exact ⟨hcmd, hlookup⟩
  · intro p g hl
    cases hl

/-- A FIN frame for a stream in the table. -/
theorem startFin (h : SessionInv s) {stream : Nat} (hloop : s.loop = .reading)
    (hcmd : f.cmd = cmdFin) (hlookup : s.streams.lookup f.streamId = some stream) :
    SessionInv { s with
      streams := s.streams.erase f.streamId, loop := .finishing stream f } := by
  apply h.withTable
  · intro sid p hl
    rcases eq_or_ne sid f.streamId with rfl | hne
    · simp at hl
    · exact h.mapped (by simpa [AList.lookup_erase_ne hne] using hl)
  · intro sid p ch hlive hch hthere
    have hold := h.lookup_of_reading hloop hlive hch hthere
    rcases eq_or_ne sid f.streamId with rfl | hne
    · rw [hlookup] at hold
      cases hold
      exact .inr rfl
    · exact .inl (by simpa [AList.lookup_erase_ne hne] using hold)
  · intro p g hl
    cases hl
  · intro p g hl
    cases hl
    exact ⟨hcmd, (h.mapped hlookup).1, by simp⟩

theorem dispatch (h : SessionInv s) (hloop : s.loop = .reading) :
    SessionInv (s.dispatch f) := by
  -- the frames that are for no stream, told by their command
  have hskip : ∀ {w : List Frame}, f.cmd ≠ cmdSettings → f.cmd ≠ cmdSyn →
      (f.cmd = cmdPsh ∨ f.cmd = cmdFin → s.streams.lookup f.streamId = none) →
      SessionInv ({ s with written := w }.next f) := by
    intro w hset hsyn hmiss
    apply (h.withRest s.input s.peerVersion w s.writerAlive).skip hloop
    · exact fun hcmd => absurd hcmd hsyn
    · exact hmiss
    · simp [hset]
  fun_cases Session.dispatch s f with
  | case1 hwaste =>
    apply hskip <;> simp [hwaste, cmdWaste, cmdSettings, cmdSyn, cmdPsh, cmdFin]
  | case2 _ hset =>
    obtain ⟨v, w, hs⟩ := Session.settings_eq s f.data
    rw [hs]
    apply (h.withRest s.input v w s.writerAlive).skip hloop
    · simp [hset, cmdSettings, cmdSyn]
    · simp [hset, cmdSettings, cmdPsh, cmdFin]
    · simp [hset]
  | case3 _ _ hsyn hset =>
    obtain ⟨w, hs⟩ := Session.openStream_eq s f.streamId
    rw [hs]
    exact (h.withRest s.input s.peerVersion w s.writerAlive).opens hloop hsyn hset
  | case4 _ _ hsyn hset msg =>
    obtain ⟨w, hs⟩ := Session.reply_eq s ⟨cmdAlert, 0, msg⟩
    rw [hs]
    apply SessionInv.close
    apply (h.withRest s.input s.peerVersion w s.writerAlive).skip hloop
    · exact fun _ => Bool.eq_false_iff.mpr hset
    · simp [hsyn, cmdSyn, cmdPsh, cmdFin]
    · simp [hsyn, cmdSyn, cmdSettings]
  | case5 _ _ _ hpsh stream hlookup => exact h.startPush hloop hpsh hlookup
  | case6 _ hset hsyn _ hlookup => exact hskip hset hsyn fun _ => hlookup
  | case7 _ _ _ _ hfin stream hlookup => exact h.startFin hloop hfin hlookup
  | case8 _ hset hsyn _ _ hlookup => exact hskip hset hsyn fun _ => hlookup
  | case9 _ hset hsyn hpsh hfin =>
    obtain ⟨w, hs⟩ := Session.reply_eq s ⟨cmdHeartResponse, f.streamId, []⟩
    rw [hs]
    exact hskip hset hsyn fun hor => absurd hor (not_or.mpr ⟨hpsh, hfin⟩)
  | case10 _ hset hsyn hpsh hfin =>
    exact hskip hset hsyn fun hor => absurd hor (not_or.mpr ⟨hpsh, hfin⟩)
  | case11 _ hset hsyn hpsh hfin =>
    exact (hskip hset hsyn fun hor => absurd hor (not_or.mpr ⟨hpsh, hfin⟩)).close
  | case12 _ hset hsyn hpsh hfin =>
    exact hskip hset hsyn fun hor => absurd hor (not_or.mpr ⟨hpsh, hfin⟩)

theorem moves (h : SessionInv s) (hs : s.Moves s') : SessionInv s' := by
  cases hs with
  | reads hloop hread =>
    exact (h.withRest _ s.peerVersion s.written s.writerAlive).dispatch hloop
  | ends hloop => exact h.close
  | pushes hloop hsend => exact h.pushed hloop hsend
  | removes hloop hsend => exact h.removed hloop hsend
  | finishes hloop hsend =>
    apply (h.endMark hsend).finished
    rw [(Session.trySend_frames hsend).2.1]
    exact hloop
  | drains hloop hsend => exact (h.endMark hsend).drain _
  | receives hch hthere =>
    apply h.setChannel hch
    · rfl
    · rfl
    · exact fun hn => h.dropped hch hn
    · exact id
  | drops hch hthere =>
    apply h.setChannel hch
    · rfl
    · simp [Channel.heard, hthere]
    · intro n hn
      cases hn
      exact Nat.le_refl _
    · exact fun _ => hthere
  | breaks => exact h.withRest s.input s.peerVersion s.written false

end SessionInv

/-! ## Every run of a session -/

/-- **Demultiplexing.**  In every run, on whatever input, the frames handled, the one in
hand and those left are the frames of the input, and the streams that were opened and
the payloads sent into each are those of the frames handled. -/
theorem Session.run_demuxed {padding : PaddingScheme} {input : Bytes}
    {es : List SessionEvent} {s : Session}
    (h : run Session.step (Session.init padding input) es = some s) :
    s.handled ++ s.loop.current ++ framesOf s.input = framesOf input ∧ Demuxed s := by
  have hpres : Preserves Session.step (fun _ _ => True)
      fun t => SessionInv t ∧ t.frames = framesOf input := by
    intro t e t' ht _ hstep
    have hmoves := Session.moves_of_step hstep
    exact ⟨ht.1.moves hmoves, hmoves.frames_eq.trans ht.2⟩
  have hreach : Reachable Session.step (.init padding input) s := ⟨es, h⟩
  obtain ⟨hinv, hframes⟩ := hreach.invariant hpres ⟨sessionInv_init padding input, rfl⟩
  exact ⟨hframes, hinv.demuxed⟩

/-- SETTINGS, SYN of stream 1, PSH with the byte 7, FIN. -/
def oneStream : Bytes :=
  [4, 0, 0, 0, 0, 0, 0, 1, 0, 0, 0, 1, 0, 0, 2, 0, 0, 0, 1, 0, 1, 7, 3, 0, 0, 0, 1, 0, 0]

theorem Session.run_demuxed_oneStream : ∃ s,
    run Session.step (Session.init ⟨[], ""⟩ oneStream)
      [.read, .read, .read, .send, .read, .send, .recv 1] = some s ∧
    s.handled ++ s.loop.current ++ framesOf s.input = framesOf oneStream ∧ Demuxed s := by
  obtain ⟨s, hs⟩ : ∃ s, run Session.step (Session.init ⟨[], ""⟩ oneStream)
      [.read, .read, .read, .send, .read, .send, .recv 1] = some s :=
    Option.isSome_iff_exists.mp (by decide +kernel)
  exact ⟨s, hs, Session.run_demuxed hs⟩

end Ruproxy.AnyTls
