/-
  Xhttp/Upload.lean --- which stream an answered upload reaches.

  A packet-up POST puts its packet on the channel of the session that it found when it
  came, and its answer is 200 whether the packet was put there or not.  It misses the
  stream that is held under its session id when that stream belongs to another session,
  or when its body failed.
-/
import Ruproxy.Xhttp.Records

set_option autoImplicit false

namespace Ruproxy.Xhttp

open Ruproxy.Foundation
open Ruproxy.Foundation.Transition

namespace Server

/-- Every packet that was answered 200 while a stream of its session id was held was put
on the channel of that stream. -/
def UploadsReach (s : Server) : Prop :=
  ∀ a ∈ s.answers, ∀ g ∈ a.held, a.put = some g

instance (s : Server) : Decidable s.UploadsReach :=
  inferInstanceAs (Decidable (∀ a ∈ s.answers, ∀ g ∈ a.held, a.put = some g))

end Server

/-- A packet-up POST is answered when the streams held under its session id are those of
the session it has looked up, or when its body failed and none is held. -/
def AnswersLive (s : Server) : Event → Prop
  | .send t =>
      match s.requests.lookup t with
      | some (.sending sid g _ _) => ∀ g' ∈ s.heldStreams sid, g' = g
      | _ => True
  | .collected t none =>
      match s.requests.lookup t with
      | some (.collecting sid _ _) => s.heldStreams sid = []
      | _ => True
  | _ => True

namespace Server

theorem mem_heldStreams {s : Server} {sid : String} {g : SessionRef} :
    g ∈ s.heldStreams sid ↔
      g < s.nextSession ∧ ∃ x, s.sessions g = some x ∧ x.sid = sid ∧ x.upRx = .held := by
  rw [heldStreams, List.mem_filter, List.mem_range]
  refine and_congr_right fun _ => ?_
  cases s.sessions g with
  | none => simp
  | some x => simp

/-- Putting an item on a channel hands no stream over. -/
theorem heldStreams_push {s : Server} {g : SessionRef} {x : Session}
    (hx : s.sessions g = some x) (item : UploadPacket) (sid : String) :
    (s.setSession g { x with up := x.up ++ [item] }).heldStreams sid = s.heldStreams sid := by
  refine List.filter_congr fun j _ => ?_
  dsimp only [setSession]
  by_cases hj : j = g
  · subst hj
    rw [Function.update_self, hx]
  · rw [Function.update_of_ne hj]

/-- The channel of a stream that is held is open. -/
theorem not_closed_of_held {s : Server} {g : SessionRef} {x : Session} (hrx : x.upRx = .held) :
    s.closed g x = false := by
  simp [closed, hrx]

/-- One more answer. -/
theorem uploadsReach_answer {s s₁ : Server} {t : TaskId} {sid : String}
    {put : Option SessionRef} (hs : s.UploadsReach) (hanswers : s₁.answers = s.answers) :
    (s₁.answer t sid put).UploadsReach ↔ ∀ g ∈ s₁.heldStreams sid, put = some g := by
  have hnew : (s₁.answer t sid put).answers =
      s.answers ++ [{ sid := sid, put := put, held := s₁.heldStreams sid }] := by
    rw [← hanswers]
    rfl
  unfold UploadsReach
  rw [hnew]
  constructor
  · intro hall
    exact hall _ (List.mem_append_right _ (List.mem_singleton_self _))
  · intro hput a ha
    rcases List.mem_append.mp ha with ha | ha
    · exact hs a ha
    · obtain rfl := List.mem_singleton.mp ha
      exact hput

/-! ## Steps that answer no packet -/

@[simp] theorem getOrCreateSession_answers (s : Server) (sid : String) :
    (s.getOrCreateSession sid).1.answers = s.answers := by
  unfold getOrCreateSession
  split <;> rfl

@[simp] theorem serveGet_answers (s : Server) (t : TaskId) (g : SessionRef) (x : Session) :
    (s.serveGet t g x).answers = s.answers := by
  unfold serveGet
  split
  · split <;> rfl
  · rfl

@[simp] theorem servePost_answers (s : Server) (t : TaskId) (sid : String) (g : SessionRef)
    (upload : Upload) : (s.servePost t sid g upload).answers = s.answers := by
  unfold servePost
  split <;> rfl

@[simp] theorem ttlDone_answers (s : Server) (k : SessionRef) :
    (s.ttlDone k).answers = s.answers := by
  unfold ttlDone
  split <;> rfl

theorem expireSession_answers {s s' : Server} {k : SessionRef} {x : Session}
    (h : s.expireSession k x = some s') : s'.answers = s.answers := by
  unfold expireSession at h
  dsimp only at h
  split at h
  · obtain rfl := Option.some.inj h
    simp
  · split at h
    · cases h
    split at h
    · obtain rfl := Option.some.inj h
      simp
    split at h
    · obtain rfl := Option.some.inj h
      simp [setSession]
    split at h
    · obtain rfl := Option.some.inj h
      rfl
    · cases h

/-- A packet-up POST is answered where its body failed or its upload returned. -/
def Answering (s : Server) : Event → Prop
  | .send t => ∃ sid g seq data, s.requests.lookup t = some (.sending sid g seq data)
  | .collected t none => ∃ sid g seq, s.requests.lookup t = some (.collecting sid g seq)
  | _ => False

theorem step_answers {s s' : Server} {e : Event} (he : ¬ s.Answering e)
    (h : s.step e = some s') : s'.answers = s.answers := by
  cases e with
  | lookup t =>
    simp only [step] at h
    split at h
    · cases h
    split at h
    · obtain rfl := Option.some.inj h
      simp [setRequest]
    · obtain rfl := Option.some.inj h
      simp [setRequest]
    · cases h
  | lock t =>
    simp only [step] at h
    repeat' split at h
    all_goals first
      | contradiction
      | obtain rfl := Option.some.inj h
        simp
  | send t =>
    simp only [step] at h
    split at h
    case h_1 sid g seq data hreq => exact absurd ⟨sid, g, seq, data, hreq⟩ he
    case h_3 => cases h
    repeat' split at h
    all_goals first
      | contradiction
      | obtain rfl := Option.some.inj h
        rfl
  | collected t body =>
    simp only [step] at h
    split at h
    case h_2 => cases h
    rename_i sid g seq hreq
    cases body with
    | none => exact absurd ⟨sid, g, seq, hreq⟩ he
    | some data =>
      obtain rfl := Option.some.inj h
      rfl
  | takeMap k =>
    simp only [step] at h
    split at h
    · cases h
    split at h
    case h_2 => cases h
    split at h
    · exact expireSession_answers h
    · obtain rfl := Option.some.inj h
      simp
    · cases h
  | eofSent k =>
    simp only [step] at h
    repeat' split at h
    all_goals first
      | contradiction
      | obtain rfl := Option.some.inj h
        simp [setSession]
  | get | post | frame | cancel | ready | accept | consume | dropStream | notified | expire
  | lingerEnd | wait =>
    simp only [step] at h
    repeat' split at h
    all_goals first
      | contradiction
      | obtain rfl := Option.some.inj h
        rfl

/-! ## Steps that answer a packet -/

/-- A step that answers a packet adds one answer.  It is good for the streams that are
held exactly under the condition: the channel of a held stream is open, so what was not
put anywhere belongs to none. -/
theorem step_answering {s s' : Server} {e : Event} (he : s.Answering e)
    (h : s.step e = some s') :
    ∃ (s₁ : Server) (t : TaskId) (sid : String) (put : Option SessionRef),
      s' = s₁.answer t sid put ∧ s₁.answers = s.answers ∧
      ((∀ g ∈ s₁.heldStreams sid, put = some g) ↔ AnswersLive s e) := by
  cases e with
  | send t =>
    obtain ⟨sid, g, seq, data, hreq⟩ := he
    simp only [step, hreq] at h
    split at h
    case h_2 => cases h
    rename_i x hx
    split at h
    case isTrue hclosed =>
      obtain rfl := Option.some.inj h
      refine ⟨s, t, sid, none, rfl, rfl, ?_⟩
      simp only [AnswersLive, hreq]
      constructor
      · intro hnone g' hg'
        cases hnone g' hg'
      · intro hlive g' hg'
        obtain ⟨-, x', hx', -, hrx⟩ := mem_heldStreams.mp hg'
        rw [hlive g' hg', hx] at hx'
        obtain rfl := Option.some.inj hx'
        rw [not_closed_of_held hrx] at hclosed
        cases hclosed
    split at h
    case isFalse => cases h
    obtain rfl := Option.some.inj h
    refine ⟨_, t, sid, some g, rfl, rfl, ?_⟩
    rw [heldStreams_push hx]
    simp only [AnswersLive, hreq, Option.some.injEq]
    exact forall₂_congr fun g' _ => eq_comm
  | collected t body =>
    cases body with
    | some data => exact he.elim
    | none =>
      obtain ⟨sid, g, seq, hreq⟩ := he
      simp only [step, hreq] at h
      obtain rfl := Option.some.inj h
      refine ⟨s, t, sid, none, rfl, rfl, ?_⟩
      simp only [AnswersLive, hreq, List.eq_nil_iff_forall_not_mem]
      exact forall₂_congr fun g' _ => iff_of_false (Option.some_ne_none g').symm id
  | _ => exact he.elim

/-! ## The step -/

/-- **One step.**  A step misses a stream that is held exactly if it answers a packet
for another session. -/
theorem uploadsReach_step_iff {s s' : Server} {e : Event} (hs : s.UploadsReach)
    (h : s.step e = some s') : s'.UploadsReach ↔ AnswersLive s e := by
  by_cases he : s.Answering e
  · obtain ⟨s₁, t, sid, put, rfl, hanswers, hlive⟩ := step_answering he h
    rw [uploadsReach_answer hs hanswers]
    exact hlive
  · refine iff_of_true (fun a ha => hs a (step_answers he h ▸ ha)) ?_
    unfold AnswersLive
    split
    · split
      · exact absurd ⟨_, _, _, _, ‹_›⟩ he
      · trivial
    · split
      · exact absurd ⟨_, _, _, ‹_›⟩ he
      · trivial
    · trivial

end Server

/-! ## Requests -/

/-- A GET that makes session `g` and whose stream is accepted by its consumer. -/
def getRun (g : SessionRef) (sid : String) : List Event :=
  [.get 1 sid, .lookup 1, .lock 1, .ready g, .accept g, .notified g]

/-- A packet-up POST, from its first line to the answer. -/
def packetRun (t : TaskId) (sid : String) (seq : UInt64) (data : Bytes) : List Event :=
  [.post t sid (.packetUp (some seq)), .lookup t, .lock t, .collected t (some data), .send t]

end Ruproxy.Xhttp
