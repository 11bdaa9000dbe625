/-
  AnyTls/Replies.lean --- what the read loop answers, and when it stops.

  Each frame is answered in its place: SETTINGS with the padding scheme, where the client has
  another one, and with the settings of the server, SYN with SYNACK, and a heartbeat with its
  response.  What a frame is answered with depends on the frames before it only by the version
  that the client has named and by whether it has sent its settings.

  The loop stops behind an ALERT of the client and behind a SYN without settings.
-/
import Ruproxy.AnyTls.Writer

set_option autoImplicit false

namespace Ruproxy.AnyTls

open Ruproxy.Foundation
open Ruproxy.Foundation.Transition

/-! ## The answers to frames -/

/-- A frame with the settings of the client. -/
def SentSettings (frames : List Frame) : Prop := ∃ f ∈ frames, f.cmd = cmdSettings

instance (frames : List Frame) : Decidable (SentSettings frames) :=
  inferInstanceAs (Decidable (∃ f ∈ frames, f.cmd = cmdSettings))

/-- The version of the client: the last one that it named, or 1. -/
def versionAfter (frames : List Frame) : UInt8 :=
  frames.foldl (fun version f =>
    if f.cmd = cmdSettings then (((parseKv f.data).lookup "v").bind parseU8).getD version
    else version) 1

/-- The digest of its padding scheme that a client names. -/
def clientMd5 (f : Frame) : String := ((parseKv f.data).lookup "padding-md5").getD ""

/-- The text of the ALERT. -/
def noSettings : Bytes := asBytes "client did not send its settings before opening a stream"

/-- What a frame is answered with behind the frames `before`. -/
def answersTo (padding : PaddingScheme) (before : List Frame) (f : Frame) : List Frame :=
  if f.cmd = cmdSettings then
    (if clientMd5 f ≠ padding.md5Hex then [⟨cmdUpdatePadding, 0, padding.raw⟩] else []) ++
      if 2 ≤ versionAfter (before ++ [f]) then [⟨cmdServerSettings, 0, asBytes "v=2"⟩] else []
  else if f.cmd = cmdSyn then
    if SentSettings before then
      if 2 ≤ versionAfter before then [⟨cmdSynack, f.streamId, []⟩] else []
    else [⟨cmdAlert, 0, noSettings⟩]
  else if f.cmd = cmdHeartRequest then [⟨cmdHeartResponse, f.streamId, []⟩]
  else []

/-- What frames are answered with, one after the other. -/
def answersFrom (padding : PaddingScheme) (before : List Frame) : List Frame → List Frame
  | [] => []
  | f :: fs => answersTo padding before f ++ answersFrom padding (before ++ [f]) fs

/-- What a session is answered with. -/
def answers (padding : PaddingScheme) (frames : List Frame) : List Frame :=
  answersFrom padding [] frames

theorem answersFrom_append (padding : PaddingScheme) (before fs gs : List Frame) :
    answersFrom padding before (fs ++ gs) =
      answersFrom padding before fs ++ answersFrom padding (before ++ fs) gs := by
  induction fs generalizing before with
  | nil => rw [List.append_nil, List.nil_append, answersFrom, List.nil_append]
  | cons f fs ih =>
    rw [List.cons_append, answersFrom, ih, answersFrom, List.append_assoc, List.append_assoc,
      List.singleton_append]

theorem answers_snoc (padding : PaddingScheme) (fs : List Frame) (f : Frame) :
    answers padding (fs ++ [f]) = answers padding fs ++ answersTo padding fs f := by
  rw [answers, answersFrom_append, answersFrom, answersFrom, List.append_nil]
  rfl

/-- Each answer is one to a frame behind those before it. -/
theorem mem_answersFrom {padding : PaddingScheme} {before fs : List Frame} {g : Frame} :
    g ∈ answersFrom padding before fs ↔
      ∃ front f back, fs = front ++ f :: back ∧ g ∈ answersTo padding (before ++ front) f := by
  induction fs generalizing before with
  | nil =>
    refine iff_of_false (List.not_mem_nil) ?_
    rintro ⟨front, f, back, hsplit, -⟩
    exact absurd (List.append_eq_nil_iff.mp hsplit.symm).2 (List.cons_ne_nil _ _)
  | cons f fs ih =>
    rw [answersFrom, List.mem_append, ih]
    constructor
    · rintro (hg | ⟨front, f', back, rfl, hg⟩)
      · exact ⟨[], f, fs, rfl, by rwa [List.append_nil]⟩
      · refine ⟨f :: front, f', back, rfl, ?_⟩
        rwa [List.append_assoc, List.singleton_append] at hg
    · rintro ⟨_ | ⟨f', front⟩, g', back, hsplit, hg⟩
      · obtain ⟨rfl, rfl⟩ := List.cons.inj hsplit
        rw [List.append_nil] at hg
        exact .inl hg
      · obtain ⟨rfl, rfl⟩ := List.cons.inj hsplit
        refine .inr ⟨front, g', back, rfl, ?_⟩
        rwa [List.append_assoc, List.singleton_append]

/-- What an answer is. -/
theorem mem_answersTo_cases {padding : PaddingScheme} {before : List Frame} {f g : Frame}
    (h : g ∈ answersTo padding before f) :
    (f.cmd = cmdSettings ∧ clientMd5 f ≠ padding.md5Hex ∧ g = ⟨cmdUpdatePadding, 0, padding.raw⟩) ∨
      g = ⟨cmdServerSettings, 0, asBytes "v=2"⟩ ∨ g = ⟨cmdSynack, f.streamId, []⟩ ∨
        g = ⟨cmdAlert, 0, noSettings⟩ ∨ g = ⟨cmdHeartResponse, f.streamId, []⟩ := by
  unfold answersTo at h
  split at h
  · rename_i hsettings
    rcases List.mem_append.mp h with h | h
    · obtain ⟨hmd5, h⟩ := List.mem_ite_nil_right.mp h
      exact .inl ⟨hsettings, hmd5, List.mem_singleton.mp h⟩
    · exact .inr (.inl (List.mem_singleton.mp (List.mem_ite_nil_right.mp h).2))
  split at h
  · split at h
    · exact .inr (.inr (.inl (List.mem_singleton.mp (List.mem_ite_nil_right.mp h).2)))
    · exact .inr (.inr (.inr (.inl (List.mem_singleton.mp h))))
  · exact .inr (.inr (.inr (.inr (List.mem_singleton.mp (List.mem_ite_nil_right.mp h).2))))

/-- Only settings that name another digest are answered with the scheme. -/
theorem update_mem_answersTo {padding : PaddingScheme} {before : List Frame} {f g : Frame} :
    g ∈ answersTo padding before f ∧ g.cmd = cmdUpdatePadding ↔
      f.cmd = cmdSettings ∧ clientMd5 f ≠ padding.md5Hex ∧
        g = ⟨cmdUpdatePadding, 0, padding.raw⟩ := by
  constructor
  · rintro ⟨hg, hcmd⟩
    rcases mem_answersTo_cases hg with h | rfl | rfl | rfl | rfl
    · exact h
    · exact absurd hcmd (by decide)
    · exact absurd hcmd (by simp [cmdSynack, cmdUpdatePadding])
    · exact absurd hcmd (by simp [cmdAlert, cmdUpdatePadding])
    · exact absurd hcmd (by simp [cmdHeartResponse, cmdUpdatePadding])
  · rintro ⟨hsettings, hmd5, rfl⟩
    refine ⟨?_, rfl⟩
    rw [answersTo, if_pos hsettings, if_pos hmd5]
    exact List.mem_append_left _ List.mem_cons_self

/-- An answer is not data of a stream, and only the padding scheme can be too long. -/
theorem answer_rest {padding : PaddingScheme} {before : List Frame} {f g : Frame}
    (h : g ∈ answersTo padding before f) : (g.cmd ≠ cmdPsh ∧ g.cmd ≠ cmdFin) ∧
      (padding.raw.length < 65536 → g.data.length < 65536) := by
  have hcmds : ∀ cmd ∈ [cmdUpdatePadding, cmdServerSettings, cmdSynack, cmdAlert,
      cmdHeartResponse], cmd ≠ cmdPsh ∧ cmd ≠ cmdFin := by decide +kernel
  rcases mem_answersTo_cases h with ⟨-, -, rfl⟩ | rfl | rfl | rfl | rfl
  · exact ⟨hcmds cmdUpdatePadding (by simp), id⟩
  · exact ⟨hcmds cmdServerSettings (by simp), fun _ => by decide +kernel⟩
  · exact ⟨hcmds cmdSynack (by simp), fun _ => Nat.zero_lt_succ _⟩
  · exact ⟨hcmds cmdAlert (by simp), fun _ => by decide +kernel⟩
  · exact ⟨hcmds cmdHeartResponse (by simp), fun _ => Nat.zero_lt_succ _⟩

/-- The loop stops behind the frame. -/
def Closing (before : List Frame) (f : Frame) : Prop :=
  f.cmd = cmdAlert ∨ (f.cmd = cmdSyn ∧ ¬ SentSettings before)

theorem not_closing_of_cmd {before : List Frame} {f : Frame} (halert : f.cmd ≠ cmdAlert)
    (hsyn : f.cmd ≠ cmdSyn) : ¬ Closing before f := by
  rintro (h | ⟨h, -⟩)
  · exact halert h
  · exact hsyn h

theorem versionAfter_snoc (fs : List Frame) (f : Frame) : versionAfter (fs ++ [f]) =
    if f.cmd = cmdSettings then
      (((parseKv f.data).lookup "v").bind parseU8).getD (versionAfter fs)
    else versionAfter fs := by
  rw [versionAfter, List.foldl_append]
  rfl

theorem sentSettings_snoc {fs : List Frame} {f : Frame} :
    SentSettings (fs ++ [f]) ↔ SentSettings fs ∨ f.cmd = cmdSettings := by
  simp [SentSettings, or_and_right, exists_or]

theorem PaddingScheme.fromBytes_eq {md5Hex : Bytes → String} {raw : Bytes}
    {scheme : PaddingScheme} (h : PaddingScheme.fromBytes md5Hex raw = some scheme) :
    scheme.raw = raw ∧ scheme.md5Hex = md5Hex raw := by
  simp only [PaddingScheme.fromBytes, Option.bind_eq_bind, Option.bind_eq_some_iff] at h
  obtain ⟨-, -, -, -, -, -, heq⟩ := h
  cases heq
  exact ⟨rfl, rfl⟩

/-! ## The write channel -/

namespace Session

/-- `write_tx.send` for one frame after the other. -/
def replies (s : Session) (fs : List Frame) : Session :=
  { s with written := s.written ++ if s.writerAlive then fs else [] }

theorem replies_nil (s : Session) : s.replies [] = s := by
  rw [replies, ite_self, List.append_nil]

theorem reply_eq_replies (s : Session) (f : Frame) : s.reply f = s.replies [f] := by
  unfold reply replies
  split
  · rfl
  · rw [List.append_nil]

theorem ite_reply (c : Prop) [Decidable c] (s : Session) (f : Frame) :
    (if c then s.reply f else s) = s.replies (if c then [f] else []) := by
  split
  · exact s.reply_eq_replies f
  · exact s.replies_nil.symm

theorem replies_replies (s : Session) (fs gs : List Frame) :
    (s.replies fs).replies gs = s.replies (fs ++ gs) := by
  unfold replies
  split
  · rw [List.append_assoc]
  · rw [List.append_nil, List.append_nil]

/-- The arm of SETTINGS. -/
theorem settings_eq_replies (s : Session) (f : Frame) (before : List Frame)
    (hcmd : f.cmd = cmdSettings) (hversion : s.peerVersion = versionAfter before) :
    s.settings f.data =
      ({ s with receivedSettings := true, peerVersion := versionAfter (before ++ [f]) } :
        Session).replies (answersTo s.padding before f) := by
  have hafter : versionAfter (before ++ [f]) =
      (((parseKv f.data).lookup "v").bind parseU8).getD s.peerVersion := by
    rw [versionAfter_snoc, if_pos hcmd, hversion]
  rw [answersTo, if_pos hcmd, ← replies_replies, hafter]
  unfold settings
  dsimp only
  rw [ite_reply, ite_reply]
  rfl

/-- The arm of SYN behind settings. -/
theorem openStream_eq_replies (s : Session) (f : Frame) (before : List Frame)
    (hcmd : f.cmd = cmdSyn) (hsettings : SentSettings before)
    (hversion : s.peerVersion = versionAfter before) :
    s.openStream f.streamId =
      ({ s with
        streams := s.streams.insert f.streamId s.handled.length
        channels := Function.update s.channels s.handled.length (some ⟨[], [], none⟩) } :
        Session).replies (answersTo s.padding before f) := by
  have hne : f.cmd ≠ cmdSettings := by
    rw [hcmd]
    decide
  rw [answersTo, if_neg hne, if_pos hcmd, if_pos hsettings, ← hversion]
  unfold openStream
  dsimp only
  rw [ite_reply]

/-! ## The invariant -/

/-- What the loop has put on the write channel answers the frames that it has handled, and
the loop has stopped where it should. -/
structure Answered (padding : PaddingScheme) (s : Session) : Prop where
  scheme : s.padding = padding
  version : s.peerVersion = versionAfter s.handled
  settings : s.receivedSettings = true ↔ SentSettings s.handled
  prefix_answers : s.written <+: answers padding s.handled
  eq_answers : s.writerAlive = true → s.written = answers padding s.handled
  current : ∀ f ∈ s.loop.current, f.cmd = cmdPsh ∨ f.cmd = cmdFin
  closed : ∀ {before f after}, s.handled = before ++ f :: after → Closing before f →
    after = [] ∧ ∃ rest, s.loop = .draining rest

theorem answered_init (padding : PaddingScheme) (input : Bytes) :
    Answered padding (init padding input) where
  scheme := rfl
  version := rfl
  settings := iff_of_false Bool.false_ne_true (by rintro ⟨f, hf, -⟩; cases hf)
  prefix_answers := List.prefix_rfl
  eq_answers _ := rfl
  current f hf := nomatch hf
  closed h := absurd (List.append_eq_nil_iff.mp h.symm).2 (List.cons_ne_nil _ _)

namespace Answered

variable {padding : PaddingScheme} {s s' : Session} {f : Frame}

/-- Nothing that counts has changed, or the writer task has broken. -/
theorem same (h : s.Answered padding) (hpadding : s'.padding = s.padding)
    (hversion : s'.peerVersion = s.peerVersion)
    (hsettings : s'.receivedSettings = s.receivedSettings) (hwritten : s'.written = s.written)
    (hhandled : s'.handled = s.handled) (halive : s'.writerAlive = true → s.writerAlive = true)
    (hcurrent : ∀ f ∈ s'.loop.current, f.cmd = cmdPsh ∨ f.cmd = cmdFin)
    (hloop : ∀ rest, s.loop = .draining rest → ∃ rest', s'.loop = .draining rest') :
    s'.Answered padding where
  scheme := hpadding.trans h.scheme
  version := by rw [hversion, hhandled, h.version]
  settings := by rw [hsettings, hhandled, h.settings]
  prefix_answers := by
    rw [hwritten, hhandled]
    exact h.prefix_answers
  eq_answers ha := by
    rw [hwritten, hhandled]
    exact h.eq_answers (halive ha)
  current := hcurrent
  closed hsplit hclosing := by
    rw [hhandled] at hsplit
    obtain ⟨rfl, rest, hdraining⟩ := h.closed hsplit hclosing
    exact ⟨rfl, hloop rest hdraining⟩

/-- One more frame is handled, and answered. -/
theorem handle (h : s.Answered padding) (hgoes : ∀ rest, s.loop ≠ .draining rest)
    (hpadding : s'.padding = s.padding)
    (hversion : s'.peerVersion = versionAfter (s.handled ++ [f]))
    (hsettings : s'.receivedSettings = true ↔ SentSettings (s.handled ++ [f]))
    (hhandled : s'.handled = s.handled ++ [f]) (halive : s'.writerAlive = s.writerAlive)
    (hwritten : s'.written = s.written ++
      if s.writerAlive then answersTo s.padding s.handled f else [])
    (hcurrent : s'.loop.current = [])
    (hclosed : Closing s.handled f → ∃ rest, s'.loop = .draining rest) : s'.Answered padding where
  scheme := hpadding.trans h.scheme
  version := by rw [hversion, hhandled]
  settings := by rw [hsettings, hhandled]
  prefix_answers := by
    rw [hwritten, h.scheme, hhandled, answers_snoc]
    split
    · rename_i ha
      rw [h.eq_answers ha]
    · rw [List.append_nil]
      exact h.prefix_answers.trans (List.prefix_append _ _)
  eq_answers ha := by
    rw [halive] at ha
    rw [hwritten, h.scheme, hhandled, answers_snoc, if_pos ha, h.eq_answers ha]
  current f hf := by
    rw [hcurrent] at hf
    cases hf
  closed {before g after} hsplit hclosing := by
    rw [hhandled] at hsplit
    rcases List.eq_nil_or_concat' after with rfl | ⟨after, last, rfl⟩
    · obtain ⟨hbefore, hg⟩ := List.append_inj' hsplit rfl
      obtain rfl := List.singleton_inj.mp hg
      exact ⟨rfl, hclosed (hbefore ▸ hclosing)⟩
    · -- the loop would have stopped before the last frame
      rw [← List.cons_append, ← List.append_assoc] at hsplit
      obtain ⟨rest, hrest⟩ := (h.closed (List.append_inj' hsplit rfl).1 hclosing).2
      exact absurd hrest (hgoes rest)

/-- A frame that is read is handled and answered, or in hand. -/
theorem dispatch (h : s.Answered padding) (hloop : s.loop = .reading) (f : Frame) :
    (s.dispatch f).Answered padding := by
  have hgoes : ∀ rest, s.loop ≠ .draining rest := fun rest hrest => by
    rw [hloop] at hrest
    cases hrest
  -- neither the version nor the settings
  have hversion : f.cmd ≠ cmdSettings → s.peerVersion = versionAfter (s.handled ++ [f]) := by
    intro hne
    rw [h.version, versionAfter_snoc, if_neg hne]
  have hsettings : f.cmd ≠ cmdSettings →
      (s.receivedSettings = true ↔ SentSettings (s.handled ++ [f])) := by
    intro hne
    rw [h.settings, sentSettings_snoc]
    exact (or_iff_left hne).symm
  have hquiet : f.cmd ≠ cmdSettings → answersTo s.padding s.handled f = [] →
      ¬ Closing s.handled f → (s.next f).Answered padding := by
    intro hne hnone hgo
    refine h.handle hgoes rfl (hversion hne) (hsettings hne) rfl rfl ?_ rfl (absurd · hgo)
    rw [hnone, ite_self, List.append_nil]
    rfl
  have hhand : ∀ {streams : Table UInt32 Nat} {loop : ReadLoop},
      (∀ f ∈ loop.current, f.cmd = cmdPsh ∨ f.cmd = cmdFin) →
        ({ s with streams := streams, loop := loop } : Session).Answered padding := by
    intro streams loop hcurrent
    exact h.same rfl rfl rfl rfl rfl id hcurrent fun rest hrest => absurd hrest (hgoes rest)
  fun_cases Session.dispatch s f with
  | case1 hcmd =>
    refine hquiet ?_ ?_ ?_
    all_goals simp [hcmd, answersTo, Closing, cmdWaste, cmdSettings, cmdSyn, cmdHeartRequest,
      cmdAlert]
  | case2 _ hcmd =>
    rw [settings_eq_replies s f s.handled hcmd h.version]
    refine h.handle hgoes rfl rfl (iff_of_true rfl ?_) rfl rfl rfl rfl fun hclosing => ?_
    · exact sentSettings_snoc.mpr (.inr hcmd)
    · refine absurd hclosing (not_closing_of_cmd ?_ ?_)
      · rw [hcmd]
        decide
      · rw [hcmd]
        decide
  | case3 _ hne hcmd hreceived =>
    have hsent := h.settings.mp hreceived
    rw [openStream_eq_replies s f s.handled hcmd hsent h.version]
    refine h.handle hgoes rfl (hversion hne) (hsettings hne) rfl rfl rfl rfl ?_
    rintro (halert | ⟨-, hno⟩)
    · rw [hcmd] at halert
      exact absurd halert (by decide)
    · exact absurd hsent hno
  | case4 _ hne hcmd hreceived msg =>
    have hno : ¬ SentSettings s.handled := fun hsent => hreceived (h.settings.mpr hsent)
    rw [reply_eq_replies]
    refine h.handle hgoes rfl (hversion hne) (hsettings hne) rfl rfl ?_ rfl fun _ => ⟨_, rfl⟩
    rw [answersTo, if_neg hne, if_pos hcmd, if_neg hno]
    rfl
  | case5 _ _ _ hcmd stream =>
    refine @hhand s.streams _ fun g hg => ?_
    obtain rfl := List.mem_singleton.mp hg
    exact .inl hcmd
  | case6 _ _ _ hcmd | case8 _ _ _ _ hcmd | case10 _ _ _ _ _ _ hcmd =>
    refine hquiet ?_ ?_ ?_
    all_goals simp [hcmd, answersTo, Closing, cmdPsh, cmdFin, cmdHeartResponse, cmdSettings, cmdSyn,
      cmdHeartRequest, cmdAlert]
  | case7 _ _ _ _ hcmd stream =>
    refine hhand fun g hg => ?_
    obtain rfl := List.mem_singleton.mp hg
    exact .inr hcmd
  | case9 _ hne hnsyn _ _ hcmd =>
    rw [reply_eq_replies]
    refine h.handle hgoes rfl (hversion hne) (hsettings hne) rfl rfl ?_ rfl fun hclosing => ?_
    · rw [answersTo, if_neg hne, if_neg hnsyn, if_pos hcmd]
      rfl
    · refine absurd hclosing (not_closing_of_cmd ?_ hnsyn)
      rw [hcmd]
      decide
  | case11 _ hne hnsyn _ _ hnheart _ hcmd =>
    refine h.handle hgoes rfl (hversion hne) (hsettings hne) rfl rfl ?_ rfl fun _ => ⟨_, rfl⟩
    rw [answersTo, if_neg hne, if_neg hnsyn, if_neg hnheart, ite_self, List.append_nil]
    rfl
  | case12 _ hne hnsyn _ _ hnheart _ hnalert =>
    refine hquiet hne ?_ (not_closing_of_cmd hnalert hnsyn)
    rw [answersTo, if_neg hne, if_neg hnsyn, if_neg hnheart]

/-- A frame in hand is done with. -/
theorem done (h : s.Answered padding) {s' : Session} (hcurrent : f ∈ s.loop.current)
    (hpadding : s'.padding = s.padding) (hversion : s'.peerVersion = s.peerVersion)
    (hsettings : s'.receivedSettings = s.receivedSettings)
    (halive : s'.writerAlive = s.writerAlive) (hwritten : s'.written = s.written)
    (hhandled : s'.handled = s.handled) : (s'.next f).Answered padding := by
  have hgoes : ∀ rest, s.loop ≠ .draining rest := fun rest hrest => by
    rw [hrest] at hcurrent
    cases hcurrent
  have hcmd : f.cmd ≠ cmdSettings ∧ f.cmd ≠ cmdSyn ∧ f.cmd ≠ cmdHeartRequest ∧
      f.cmd ≠ cmdAlert := by
    rcases h.current f hcurrent with heq | heq
    · rw [heq]
      decide
    · rw [heq]
      decide
  obtain ⟨hne, hnsyn, hnheart, hnalert⟩ := hcmd
  refine h.handle hgoes hpadding ?_ ?_ (congrArg (· ++ [f]) hhandled) halive ?_ rfl ?_
  · rw [versionAfter_snoc, if_neg hne, ← h.version]
    exact hversion
  · rw [sentSettings_snoc, ← h.settings, or_iff_left hne, ← hsettings]
    rfl
  · rw [answersTo, if_neg hne, if_neg hnsyn, if_neg hnheart, ite_self, List.append_nil]
    exact hwritten
  · rintro (halert | ⟨hsyn, -⟩)
    · exact absurd halert hnalert
    · exact absurd hsyn hnsyn

theorem moves (h : s.Answered padding) (hmoves : s.Moves s') : s'.Answered padding := by
  have hsend : ∀ {t : Session} {stream : Nat} {data : Bytes} {ok : Bool},
      s.trySend stream data = some (ok, t) →
        ∃ channels, t = { s with channels := channels } := by
    intro t stream data ok hsend
    obtain ⟨ch, -, ⟨-, -, rfl⟩ | ⟨-, -, rfl⟩⟩ := trySend_cases hsend
    · exact ⟨t.channels, rfl⟩
    · exact ⟨_, rfl⟩
  cases hmoves with
  | @reads f input hloop hread =>
    have hs : Answered padding { s with input := input } :=
      h.same rfl rfl rfl rfl rfl id h.current fun rest hrest => ⟨rest, hrest⟩
    exact hs.dispatch hloop f
  | ends hloop =>
    refine h.same rfl rfl rfl rfl rfl id (fun f hf => nomatch hf) fun rest hrest => ⟨_, rfl⟩
  | pushes hloop hsent | removes hloop hsent | finishes hloop hsent =>
    obtain ⟨channels, rfl⟩ := hsend hsent
    refine h.done ?_ rfl rfl rfl rfl rfl rfl
    rw [hloop]
    exact List.mem_singleton_self _
  | drains hloop hsent =>
    obtain ⟨channels, rfl⟩ := hsend hsent
    exact h.same rfl rfl rfl rfl rfl id (fun f hf => nomatch hf) fun rest hrest => ⟨_, rfl⟩
  | receives hch hthere | drops hch hthere =>
    exact h.same rfl rfl rfl rfl rfl id h.current fun rest hrest => ⟨rest, hrest⟩
  | breaks =>
    exact h.same rfl rfl rfl rfl rfl nofun h.current fun rest hrest => ⟨rest, hrest⟩

end Answered

variable {padding : PaddingScheme} {input : Bytes} {es : List SessionEvent} {s : Session}

theorem answered_of_run (h : run step (init padding input) es = some s) : s.Answered padding := by
  have hpres : Preserves step (fun _ _ => True) (Answered padding) :=
    fun hanswered _ hstep => hanswered.moves (moves_of_step hstep)
  exact Reachable.invariant hpres (answered_init padding input) ⟨es, h⟩

/-- **Replies.**  In every run, on whatever input, what the loop has put on the write channel
are the answers to the frames that it has handled, as far as the writer task was there, and
the loop has stopped behind the first frame that closes the session. -/
theorem run_replies (h : run step (init padding input) es = some s) :
    s.written <+: answers padding s.handled ∧
      (s.writerAlive = true → s.written = answers padding s.handled) ∧
      ∀ before f after, s.handled = before ++ f :: after → Closing before f →
        after = [] ∧ ∃ rest, s.loop = .draining rest :=
  ⟨(answered_of_run h).prefix_answers, (answered_of_run h).eq_answers,
    fun _ _ _ => (answered_of_run h).closed⟩

/-- SETTINGS with version 2 and a digest, a heartbeat, SYN of stream 1. -/
def newClient : Bytes :=
  [4, 0, 0, 0, 0, 0, 18] ++ asBytes "v=2\npadding-md5=00" ++
    [8, 0, 0, 0, 0, 0, 0, 1, 0, 0, 0, 1, 0, 0]

/-- It is sent the scheme of a server with another digest, and a reply to each frame. -/
theorem run_replies_newClient : ∃ s,
    run step (init ⟨asBytes "stop=8", "01"⟩ newClient) [.read, .read, .read] = some s ∧
      s.written.map Frame.cmd =
        [cmdUpdatePadding, cmdServerSettings, cmdHeartResponse, cmdSynack] ∧
      s.written = answers ⟨asBytes "stop=8", "01"⟩ s.handled := by
  have hend : (run step (init ⟨asBytes "stop=8", "01"⟩ newClient) [.read, .read, .read]).map
      (fun s => (s.writerAlive, s.written.map Frame.cmd)) =
        some (true, [cmdUpdatePadding, cmdServerSettings, cmdHeartResponse, cmdSynack]) := by
    decide +kernel
  obtain ⟨s, hs, heq⟩ := Option.map_eq_some_iff.mp hend
  obtain ⟨halive, hwritten⟩ := Prod.mk.inj heq
  exact ⟨s, hs, hwritten, (run_replies hs).2.1 halive⟩

/-! ## The padding scheme -/

variable {md5Hex : Bytes → String} {raw : Bytes}

/-- What the client reads of the loop's answers is what the loop wrote. -/
theorem framesOf_written (hshort : padding.raw.length < 65536)
    (h : run step (init padding input) es = some s) :
    framesOf (writerOutput s.written) = s.written := by
  refine (framesOf_writerOutput_iff _).mpr fun f hf => ?_
  obtain ⟨before, g, -, -, hg⟩ := mem_answersFrom.mp ((answered_of_run h).prefix_answers.subset hf)
  exact (answer_rest hg).2 hshort

/-- **Negotiation.**  The client is sent a padding scheme exactly if it sent settings that name
the digest of another one, or none; it is sent the scheme of the server, and is sent none where
it names the digest of what it was sent. -/
theorem run_negotiates (haccepted : PaddingScheme.fromBytes md5Hex raw = some padding)
    (hshort : raw.length < 65536) (h : run step (init padding input) es = some s)
    (halive : s.writerAlive = true) :
    ((∃ f ∈ framesOf (writerOutput s.written), f.cmd = cmdUpdatePadding) ↔
      ∃ g ∈ s.handled, g.cmd = cmdSettings ∧ clientMd5 g ≠ md5Hex raw) ∧
    ∀ f ∈ framesOf (writerOutput s.written), f.cmd = cmdUpdatePadding →
      PaddingScheme.fromBytes md5Hex f.data = some padding ∧ md5Hex f.data = md5Hex raw := by
  obtain ⟨hraw, hmd5⟩ := PaddingScheme.fromBytes_eq haccepted
  rw [framesOf_written (hraw ▸ hshort) h, (answered_of_run h).eq_answers halive, ← hmd5]
  constructor
  · constructor
    · rintro ⟨f, hf, hcmd⟩
      obtain ⟨front, g, back, hsplit, hg⟩ := mem_answersFrom.mp hf
      obtain ⟨hsettings, hne, -⟩ := update_mem_answersTo.mp ⟨hg, hcmd⟩
      refine ⟨g, ?_, hsettings, hne⟩
      rw [hsplit]
      exact List.mem_append_right _ List.mem_cons_self
    · rintro ⟨g, hg, hsettings, hne⟩
      obtain ⟨front, back, hsplit⟩ := List.append_of_mem hg
      refine ⟨⟨cmdUpdatePadding, 0, padding.raw⟩, ?_, rfl⟩
      exact mem_answersFrom.mpr ⟨front, g, back, hsplit,
        (update_mem_answersTo.mpr ⟨hsettings, hne, rfl⟩).1⟩
  · intro f hf hcmd
    obtain ⟨front, g, back, -, hg⟩ := mem_answersFrom.mp hf
    obtain ⟨-, -, rfl⟩ := update_mem_answersTo.mp ⟨hg, hcmd⟩
    rw [hraw]
    exact ⟨haccepted, hmd5.symm⟩

/-- `oneStream` has settings without a digest. -/
theorem run_negotiates_oneStream : ∃ s,
    run step (init ⟨asBytes (longScheme 0), "0"⟩ oneStream) [.read] = some s ∧
      ((∃ f ∈ framesOf (writerOutput s.written), f.cmd = cmdUpdatePadding) ↔
        ∃ g ∈ s.handled, g.cmd = cmdSettings ∧ clientMd5 g ≠ "0") := by
  obtain ⟨s, hs⟩ : ∃ s,
      run step (init ⟨asBytes (longScheme 0), "0"⟩ oneStream) [.read] = some s :=
    Option.isSome_iff_exists.mp (by decide +kernel)
  have halive : (run step (init ⟨asBytes (longScheme 0), "0"⟩ oneStream) [.read]).map
      Session.writerAlive = some true := by decide +kernel
  rw [hs] at halive
  have hshort : (asBytes (longScheme 0)).length < 65536 := by
    rw [length_longScheme]
    decide
  exact ⟨s, hs, (run_negotiates (@fromBytes_longScheme (fun _ => "0") 0) hshort hs
    (Option.some.inj halive)).1⟩

end Session

end Ruproxy.AnyTls
