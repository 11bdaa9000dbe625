/-
  Xhttp/EndOfStream.lean --- how the end of a stream gets across a session.

  A consumer that drops its stream gives up one sender of the downlink, and a stream-up
  POST one of the upload channel.  The record of the session has another one of each, so
  that the receiver learns of the end only after the TTL task has dropped the record:
  300 seconds after the GET, whether the connection is still there or not.  In a run that
  ends its streams after that, both ends get across; one that comes earlier is not seen.
-/
import Ruproxy.Xhttp.Requests
import Ruproxy.Xhttp.Upload

set_option autoImplicit false

namespace Ruproxy.Xhttp

open Ruproxy.Foundation
open Ruproxy.Foundation.Transition

/-! ## A stream with nothing left -/

namespace XhttpStream

/-- All that was queued has been read. -/
structure Spent (s : XhttpStream) : Prop where
  queue : s.upRx.queue = []
  leftover : s.pktQueue.leftover = []
  streamBuf : s.streamBuf = []
  heap : ∀ top ∈ s.pktQueue.heap.head?, top.seq ≠ s.pktQueue.nextSeq

theorem Spent.readBuffered {s : XhttpStream} (hs : s.Spent) (remaining : Nat) :
    s.readBuffered remaining = if s.eof then some (.ready [], s) else none := by
  unfold XhttpStream.readBuffered
  simp only [hs.leftover, hs.streamBuf, ne_eq, not_true_eq_false, if_false]
  cases hheap : s.pktQueue.heap with
  | nil => rfl
  | cons top heap =>
    have hne := hs.heap top (by rw [hheap]; rfl)
    simp only [hne, if_false]

/-- There the next poll tells the end if it was seen before or no sender is left. -/
theorem Spent.pollRead {s : XhttpStream} (hs : s.Spent) (remaining : Nat) :
    s.pollRead remaining =
      if s.eof || s.upRx.closed then (.ready [], { s with eof := true }) else (.pending, s) := by
  rw [XhttpStream.pollRead, hs.queue, pollLoop, hs.readBuffered]
  cases heof : s.eof
  · cases hclosed : s.upRx.closed
    · rfl
    · rfl
  · obtain ⟨upRx, pktQueue, streamBuf, eof⟩ := s
    cases heof
    rfl

end XhttpStream

/-- No other request than `t` has a sender of the upload channel. -/
def Server.NoUpload (s : Server) (t : TaskId) (g : SessionRef) : Prop :=
  ∀ t' r, s.requests.lookup t' = some r → t' ≠ t → r.upTx ≠ some g

instance (s : Server) (t : TaskId) (g : SessionRef) : Decidable (s.NoUpload t g) :=
  decidable_of_iff (∀ e ∈ s.requests.entries, e.1 ≠ t → e.2.upTx ≠ some g)
    (Table.forall_lookup_iff (P := fun t' r => t' ≠ t → Request.upTx r ≠ some g)).symm

namespace Transport

/-! ## The property -/

/-- Once the consumer has dropped the stream of a session and the queued items were
taken, no sender of the downlink is left, and the body of the answer to the GET ends. -/
def BodyEnds (w : Transport) : Prop :=
  ∀ g x, w.server.sessions g = some x → w.body g = true → x.upRx = .dropped → w.down g = [] →
    w.server.downSender g x = false ∧ (w.responseBody g x).pollFrame.1 = .ready none

/-- Once the body of a stream-up POST of a session has ended and all that was queued has
been read, the stream of the session is at its end. -/
def UploadEnds (w : Transport) : Prop :=
  ∀ g x, w.server.sessions g = some x → w.upEnded g = true → x.upRx = .held →
    (w.stream g x).Spent → ∀ remaining,
      ((w.stream g x).pollRead remaining).1 = .ready [] ∧
        ((w.stream g x).pollRead remaining).2.eof = true

/-- The end of a stream gets across. -/
def EndsPropagate (w : Transport) : Prop := w.BodyEnds ∧ w.UploadEnds

/-- While the answer to the GET is taken, the consumer drops its stream only after the record
of the session is gone; and the body of a stream-up POST ends only after that, as the last
upload of the session, or after the stream was dropped. -/
def EndsAfterCleanUp (w : Transport) : TransportEvent → Prop
  | .server (.dropStream g) =>
      ∀ x ∈ w.server.sessions g, w.body g = true → w.server.RecordGone g x
  | .server (.frame t none) =>
      match w.server.requests.lookup t with
      | some (.streamReading g) => ∃ x ∈ w.server.sessions g, x.upRx = .dropped ∨
          (w.server.RecordGone g x ∧ w.server.NoUpload t g)
      | _ => True
  | _ => True

instance (w : Transport) (e : TransportEvent) : Decidable (EndsAfterCleanUp w e) := by
  unfold EndsAfterCleanUp
  split
  · infer_instance
  · split
    · infer_instance
    · infer_instance
  · infer_instance

/-! ## What a step does -/

/-- The session table stays as it is but for what is queued. -/
structure Local (w w' : Transport) : Prop where
  placed : w.server.Placed → w'.server.Placed
  sessions : ∀ g x, w.server.sessions g = some x → ∃ x', w'.server.sessions g = some x' ∧
    x'.upRx = x.upRx ∧ x'.ttl = x.ttl
  requests : w'.server.requests = w.server.requests
  body : ∀ g, w'.body g = true → w.body g = true
  upEnded : w'.upEnded = w.upEnded

theorem local_of_eq {w w' : Transport} (hserver : w'.server = w.server)
    (hbody : ∀ g, w'.body g = true → w.body g = true) (hended : w'.upEnded = w.upEnded) :
    w.Local w' where
  placed hw := hserver ▸ hw
  sessions _ x hx := ⟨x, hserver ▸ hx, rfl, rfl⟩
  requests := congrArg Server.requests hserver
  body := hbody
  upEnded := hended

/-- A read takes from the upload channel of a stream that is held. -/
theorem local_read {w : Transport} {g : SessionRef} {x : Session} {up : List UploadPacket}
    {reads : SessionRef → ReadState} (hx : w.server.sessions g = some x) (hheld : x.upRx = .held) :
    w.Local { w with server := w.server.setSession g { x with up := up }, reads := reads } where
  placed hw := by
    have hout : x.upRx ≠ .inSession := by rw [hheld]; nofun
    have hgoes : x.Goes { x with up := up } :=
      ⟨fun _ => .rfl, rfl, fun _ hin => hin, fun hin => absurd hin hout⟩
    have hmoves : w.server.Moves (.consume g) (w.server.setSession g { x with up := up }) :=
      .stays rfl (Server.places_setSession_eq hx rfl)
    exact hw.moves (hw.inv.quiet (Server.quiet_update hx rfl hgoes rfl rfl)) hmoves
  sessions j y hy := by
    dsimp only [Server.setSession]
    rcases eq_or_ne j g with rfl | hne
    · rw [hx] at hy
      cases hy
      exact ⟨_, Function.update_self .., rfl, rfl⟩
    · exact ⟨y, (Function.update_of_ne hne ..).trans hy, rfl, rfl⟩
  requests := rfl
  body _ h := h
  upEnded := rfl

/-- A step of the transport is one of the session table, or leaves it as it is. -/
theorem step_cases {w w' : Transport} {e : TransportEvent} (h : w.step e = some w') :
    (∃ e', e = .server e' ∧ w.server.step e' = some w'.server ∧
      (w'.body = w.body ∨ ∃ g, e' = .ready g ∧ w'.body = Function.update w.body g true) ∧
      (w'.upEnded = w.upEnded ∨ ∃ t data, e' = .frame t data ∧ w'.upEnded = w.endedBy t data)) ∨
    w.Local w' := by
  cases e with
  | server e' =>
    left
    refine ⟨e', rfl, ?_⟩
    simp only [step] at h
    split at h
    · cases h
    · obtain ⟨s, hs, rfl⟩ := Option.map_eq_some_iff.mp h
      exact ⟨hs, .inr ⟨_, rfl, rfl⟩, .inl rfl⟩
    · obtain ⟨s, hs, rfl⟩ := Option.map_eq_some_iff.mp h
      exact ⟨hs, .inl rfl, .inr ⟨_, _, rfl, rfl⟩⟩
    · obtain ⟨s, hs, rfl⟩ := Option.map_eq_some_iff.mp h
      exact ⟨hs, .inl rfl, .inl rfl⟩
  | write g buf | pollFrame g =>
    right
    simp only [step] at h
    split at h
    · split at h
      · cases h
        exact local_of_eq rfl (fun _ hbody => hbody) rfl
      · cases h
    · cases h
  | read g remaining =>
    right
    simp only [step] at h
    split at h
    · rename_i x hx
      split at h
      · cases h
        exact local_read hx ‹_›
      · cases h
    · cases h
  | dropBody g =>
    right
    simp only [step] at h
    split at h
    · cases h
      refine local_of_eq rfl (fun j hj => ?_) rfl
      rcases eq_or_ne j g with rfl | hne
      · dsimp only at hj
        rw [Function.update_self] at hj
        cases hj
      · dsimp only at hj
        rwa [Function.update_of_ne hne] at hj
    · cases h

/-! ## Who is left to send -/

end Transport

namespace Server

variable {s : Server} {g : SessionRef} {x : Session}

theorem Placed.recordHeld_eq_false (hs : s.Placed) (hx : s.sessions g = some x)
    (hget : x.upRx ≠ .withGet) : s.recordHeld g x = false ↔ s.RecordGone g x := by
  rw [recordHeld, Bool.or_eq_false_iff, ← Bool.not_eq_true, hs.referenced_iff hx, not_not]
  exact and_iff_left (decide_eq_false hget)

/-- After its stream, only the record of a session has a sender of the downlink. -/
theorem Placed.downSender_eq_false (hs : s.Placed) (hx : s.sessions g = some x)
    (hdropped : x.upRx = .dropped) : s.downSender g x = false ↔ s.RecordGone g x := by
  rw [downSender, Bool.or_eq_false_iff, hs.recordHeld_eq_false hx (by rw [hdropped]; nofun)]
  rw [hdropped]
  exact and_iff_left rfl

/-- The record of a session and the POSTs that go on have senders of its upload channel. -/
theorem Placed.upSender_eq_false (hs : s.Placed) (hx : s.sessions g = some x)
    (hheld : x.upRx = .held) : s.upSender g x = false ↔
      s.RecordGone g x ∧ ∀ t r, s.requests.lookup t = some r → r.upTx ≠ some g := by
  rw [upSender, Bool.or_eq_false_iff, hs.recordHeld_eq_false hx (by rw [hheld]; nofun)]
  refine and_congr Iff.rfl ?_
  rw [List.any_eq_false]
  constructor
  · intro hall t r hr
    have hne := hall ⟨t, r⟩ (AList.mem_lookup_iff.mp hr)
    rwa [decide_eq_true_eq] at hne
  · intro hall e he
    rw [decide_eq_true_eq]
    exact hall e.1 e.2 (AList.mem_lookup_iff.mpr he)

end Server

namespace Transport

variable {w : Transport} {g : SessionRef} {x : Session}

/-- An empty downlink ends as soon as its last sender is gone. -/
theorem pollFrame_empty (hdown : w.down g = []) (hsender : w.server.downSender g x = false) :
    (w.responseBody g x).pollFrame.1 = .ready none := by
  simp only [responseBody, ResponseBody.pollFrame, hdown, hsender, Bool.not_false, if_true]

theorem bodyEnds_iff (hw : w.server.Placed) : w.BodyEnds ↔
    ∀ g x, w.server.sessions g = some x → w.body g = true → x.upRx = .dropped →
      w.down g = [] → w.server.RecordGone g x := by
  constructor
  · intro hends g x hx hbody hdropped hdown
    exact (hw.downSender_eq_false hx hdropped).mp (hends g x hx hbody hdropped hdown).1
  · intro hgone g x hx hbody hdropped hdown
    have hsender := (hw.downSender_eq_false hx hdropped).mpr (hgone g x hx hbody hdropped hdown)
    exact ⟨hsender, pollFrame_empty hdown hsender⟩

/-- A stream with nothing left is at its end if it has seen one, or no sender is left. -/
theorem spent_ends_iff (hspent : (w.stream g x).Spent) :
    (∀ remaining, ((w.stream g x).pollRead remaining).1 = .ready [] ∧
        ((w.stream g x).pollRead remaining).2.eof = true) ↔
      (w.reads g).eof = true ∨ w.server.upSender g x = false := by
  have hcond : ((w.stream g x).eof || (w.stream g x).upRx.closed) = true ↔
      (w.reads g).eof = true ∨ w.server.upSender g x = false := by
    rw [Bool.or_eq_true]
    exact or_congr Iff.rfl (iff_of_eq (Bool.not_eq_true' _))
  rw [← hcond]
  simp only [hspent.pollRead]
  cases (w.stream g x).eof || (w.stream g x).upRx.closed
  · simp
  · simp

theorem uploadEnds_iff (hw : w.server.Placed) : w.UploadEnds ↔
    ∀ g x, w.server.sessions g = some x → w.upEnded g = true → x.upRx = .held →
      (w.stream g x).Spent → (w.reads g).eof = true ∨ (w.server.RecordGone g x ∧
        ∀ t r, w.server.requests.lookup t = some r → r.upTx ≠ some g) := by
  refine forall₂_congr fun g x => ?_
  refine forall₄_congr fun hx hended hheld hspent => ?_
  rw [spent_ends_iff hspent, hw.upSender_eq_false hx hheld]

/-! ## The invariant -/

/-- The record of a session whose stream was dropped is gone as long as the answer to its GET
is there, and so is the record and every sender of a session with an ended upload. -/
structure Cleaned (w : Transport) : Prop where
  placed : w.server.Placed
  down : ∀ g, w.body g = true → ∃ x, w.server.sessions g = some x ∧ x.upRx ≠ .inSession ∧
    x.upRx ≠ .withGet ∧ (x.upRx = .dropped → w.server.RecordGone g x)
  up : ∀ g, w.upEnded g = true → ∃ x, w.server.sessions g = some x ∧
    (x.upRx = .dropped ∨ (w.server.RecordGone g x ∧ w.server.NoSender g))

theorem cleaned_init : init.Cleaned where
  placed := Server.placed_init
  down _ h := by cases h
  up _ h := by cases h

theorem Cleaned.local {w w' : Transport} (hw : w.Cleaned) (h : w.Local w') : w'.Cleaned := by
  have hgone : ∀ {g x x'}, x'.ttl = x.ttl → w.server.RecordGone g x →
      w'.server.RecordGone g x' := fun httl hgone =>
    ⟨httl.trans hgone.1, fun t r hr => hgone.2 t r (h.requests ▸ hr)⟩
  refine ⟨h.placed hw.placed, fun g hg => ?_, fun g hg => ?_⟩
  · obtain ⟨x, hx, hin, hget, hdropped⟩ := hw.down g (h.body g hg)
    obtain ⟨x', hx', hrx, httl⟩ := h.sessions g x hx
    rw [← hrx] at hin hget hdropped
    exact ⟨x', hx', hin, hget, fun hd => hgone httl (hdropped hd)⟩
  · obtain ⟨x, hx, hleft⟩ := hw.up g (h.upEnded ▸ hg)
    obtain ⟨x', hx', hrx, httl⟩ := h.sessions g x hx
    rw [← hrx] at hleft
    refine ⟨x', hx', hleft.imp_right fun hleft => ⟨hgone httl hleft.1, ?_⟩⟩
    exact fun t r hr => hleft.2 t r (h.requests ▸ hr)

/-- The answer to a GET goes out with its stream in the queue. -/
theorem ready_queued {s s' : Server} {g : SessionRef} (h : s.step (.ready g) = some s') :
    ∃ x', s'.sessions g = some x' ∧ x'.upRx = .queued := by
  simp only [Server.step] at h
  split at h
  · split at h
    · cases h
      exact ⟨_, Function.update_self .., rfl⟩
    · cases h
  · cases h

/-- Where the answer to a GET is there before a step of the session table. -/
theorem Cleaned.step_down {w : Transport} {s' : Server} {e : Event} {g : SessionRef}
    (hw : w.Cleaned) (hok : w.EndsAfterCleanUp (.server e)) (h : w.server.step e = some s')
    (hg : w.body g = true) : ∃ x', s'.sessions g = some x' ∧ x'.upRx ≠ .inSession ∧
      x'.upRx ≠ .withGet ∧ (x'.upRx = .dropped → s'.RecordGone g x') := by
  obtain ⟨x, hx, hin, hget, hdropped⟩ := hw.down g hg
  obtain ⟨x', hx', hwent⟩ := Server.step_session hw.placed h hx
  refine ⟨x', hx', ?_⟩
  cases hwent with
  | stayed hrx =>
    rw [hrx]
    exact ⟨hin, hget, fun hd => (hdropped hd).step hw.placed h hx hx'⟩
  | taken t he hreq hin' hrx => exact absurd hin' hin
  | ready he hrx hrx' => exact absurd hrx hget
  | accepted he hrx hrx' =>
    rw [hrx']
    exact ⟨nofun, nofun, nofun⟩
  | dropped he hrx hrx' =>
    subst he
    have hgone : w.server.RecordGone g x := hok x hx hg
    rw [hrx']
    exact ⟨nofun, nofun, fun _ => hgone.step hw.placed h hx hx'⟩

/-- Where an upload has ended before a step of the session table. -/
theorem Cleaned.step_up {w : Transport} {s' : Server} {e : Event} {g : SessionRef}
    (hw : w.Cleaned) (h : w.server.step e = some s') (hg : w.upEnded g = true) :
    ∃ x', s'.sessions g = some x' ∧
      (x'.upRx = .dropped ∨ (s'.RecordGone g x' ∧ s'.NoSender g)) := by
  obtain ⟨x, hx, hleft⟩ := hw.up g hg
  obtain ⟨x', hx', hwent⟩ := Server.step_session hw.placed h hx
  refine ⟨x', hx', ?_⟩
  rcases hleft with hdropped | ⟨hgone, hno⟩
  · left
    cases hwent with
    | stayed hrx => exact hrx.trans hdropped
    | taken t he hreq hrx hrx' | ready he hrx hrx' | accepted he hrx hrx' =>
      rw [hdropped] at hrx
      cases hrx
    | dropped he hrx hrx' => exact hrx'
  · exact .inr ⟨hgone.step hw.placed h hx hx', hno.step h hgone⟩

/-- An upload ends where its task reads the end of the body. -/
theorem of_endedBy {w : Transport} {t : TaskId} {data : Option Bytes} {g : SessionRef}
    (hg : w.endedBy t data g = true) :
    w.upEnded g = true ∨
      (data = none ∧ w.server.requests.lookup t = some (.streamReading g)) := by
  cases hreq : w.server.requests.lookup t with
  | none => exact .inl (by simpa only [endedBy, hreq] using hg)
  | some r =>
    cases r with
    | streamReading g₀ =>
      cases data with
      | some data => exact .inl (by simpa only [endedBy, hreq] using hg)
      | none =>
        simp only [endedBy, hreq] at hg
        rcases eq_or_ne g g₀ with rfl | hne
        · exact .inr ⟨rfl, rfl⟩
        · rw [Function.update_of_ne hne] at hg
          exact .inl hg
    | _ => exact .inl (by simpa only [endedBy, hreq] using hg)

/-- Where an upload ends in a step. -/
theorem Cleaned.step_ended {w : Transport} {s' : Server} {t : TaskId} {data : Option Bytes}
    {g : SessionRef} (hw : w.Cleaned) (hok : w.EndsAfterCleanUp (.server (.frame t data)))
    (h : w.server.step (.frame t data) = some s') (hg : w.endedBy t data g = true) :
    ∃ x', s'.sessions g = some x' ∧
      (x'.upRx = .dropped ∨ (s'.RecordGone g x' ∧ s'.NoSender g)) := by
  rcases of_endedBy hg with hbefore | ⟨rfl, hreq⟩
  · exact hw.step_up h hbefore
  simp only [EndsAfterCleanUp, hreq] at hok
  obtain ⟨x, hx, hleft⟩ := hok
  have hs' : s' = w.server.endRequest t := by
    simp only [Server.step, hreq] at h
    exact (Option.some.inj h).symm
  obtain ⟨x', hx', hwent⟩ := Server.step_session hw.placed h hx
  refine ⟨x', hx', hleft.imp (fun hdropped => ?_) fun hleft => ⟨?_, ?_⟩⟩
  · rw [hs'] at hx'
    cases hx.symm.trans hx'
    exact hdropped
  · exact hleft.1.step hw.placed h hx hx'
  · intro t' r hr
    rw [hs', Server.endRequest] at hr
    rcases eq_or_ne t' t with rfl | hne
    · rw [AList.lookup_erase] at hr
      cases hr
    · rw [AList.lookup_erase_ne hne] at hr
      exact hleft.2 t' r hr hne

theorem step_cleaned : Preserves step EndsAfterCleanUp Cleaned := by
  intro w e w' hw hok h
  rcases step_cases h with ⟨e', rfl, hstep, hbody, hended⟩ | hlocal
  · refine ⟨Server.step_placed hw.placed hstep, fun g hg => ?_, fun g hg => ?_⟩
    · rcases hbody with hbody | ⟨g₀, rfl, hbody⟩
      · exact hw.step_down hok hstep (hbody ▸ hg)
      · rw [hbody] at hg
        rcases eq_or_ne g g₀ with rfl | hne
        · obtain ⟨x', hx', hqueued⟩ := ready_queued hstep
          exact ⟨x', hx', by rw [hqueued]; exact ⟨nofun, nofun, nofun⟩⟩
        · rw [Function.update_of_ne hne] at hg
          exact hw.step_down hok hstep hg
    · rcases hended with hended | ⟨t, data, rfl, hended⟩
      · exact hw.step_up hstep (hended ▸ hg)
      · rw [hended] at hg
        exact hw.step_ended hok hstep hg
  · exact hw.local hlocal

/-! ## Every run -/

/-- **The end of a stream.**  In every run in which streams are dropped and uploads end only
after the session was cleaned up, the end gets across wherever it should. -/
theorem always_endsPropagate_of_every {es : List TransportEvent}
    (hev : Every step EndsAfterCleanUp init es) : Always step EndsPropagate init es := by
  refine always_of_every step_cleaned (fun {w} hw => ⟨?_, ?_⟩) cleaned_init hev
  · refine (bodyEnds_iff hw.placed).mpr fun g x hx hbody hdropped _ => ?_
    obtain ⟨x₁, hx₁, -, -, hgone⟩ := hw.down g hbody
    rw [hx] at hx₁
    cases hx₁
    exact hgone hdropped
  · refine (uploadEnds_iff hw.placed).mpr fun g x hx hended hheld _ => .inr ?_
    obtain ⟨x₁, hx₁, hleft⟩ := hw.up g hended
    rw [hx] at hx₁
    cases hx₁
    refine hleft.resolve_left fun hdropped => ?_
    rw [hheld] at hdropped
    cases hdropped

/-! ## Before the clean-up -/

/-- The body of an answer takes what is queued, frame by frame. -/
theorem run_pollFrames {w : Transport} {g : SessionRef} {x : Session}
    (hx : w.server.sessions g = some x) (hbody : w.body g = true) :
    ∃ t, run step w (List.replicate (w.down g).length (.pollFrame g)) = some t ∧
      t.down g = [] ∧ t.server = w.server ∧ t.body = w.body := by
  induction hdown : w.down g generalizing w with
  | nil => exact ⟨w, rfl, hdown, rfl, rfl⟩
  | cons data queue ih =>
    let w₁ : Transport := { w with down := Function.update w.down g queue }
    have hstep : w.step (.pollFrame g) = some w₁ := by
      simp only [step, hx, hbody, if_true, responseBody, hdown, ResponseBody.pollFrame,
        ResponseBody.queue, w₁]
    obtain ⟨t, hrun, hempty, hserver, hbody'⟩ := ih (w := w₁) hx hbody (Function.update_self ..)
    exact ⟨t, run_cons_eq_some.mpr ⟨w₁, hstep, hrun⟩, hempty, hserver, hbody'⟩

/-- **Dropping a stream too early.**  When the consumer drops its stream while the record of
the session is there, the body of the answer to the GET stays open once it has taken all. -/
theorem exists_bodyOpen {w w' : Transport} {g : SessionRef} {x : Session}
    (hw : w.server.Placed) (hx : w.server.sessions g = some x) (hbody : w.body g = true)
    (hkept : ¬ w.server.RecordGone g x) (h : w.step (.server (.dropStream g)) = some w') :
    ∃ es t, run step w' es = some t ∧ ¬ t.BodyEnds := by
  have hw' : w' = { w with server := w.server.setSession g { x with upRx := .dropped } } := by
    simp only [step, Server.step, hx] at h
    split at h
    · exact (Option.some.inj h).symm
    · cases h
  have hplaced : w'.server.Placed := by
    rcases step_cases h with ⟨e', he, hstep, -⟩ | hlocal
    · exact Server.step_placed hw hstep
    · exact hlocal.placed hw
  have hx' : w'.server.sessions g = some { x with upRx := .dropped } := by
    rw [hw']
    exact Function.update_self ..
  have hbody' : w'.body g = true := by rwa [hw']
  obtain ⟨t, hrun, hempty, hserver, htbody⟩ := run_pollFrames hx' hbody'
  refine ⟨_, t, hrun, fun hends => hkept ?_⟩
  rw [← hserver] at hplaced hx'
  have hgone := (bodyEnds_iff hplaced).mp hends g _ hx' (htbody ▸ hbody') rfl hempty
  rw [hserver, hw'] at hgone
  exact ⟨hgone.1, hgone.2⟩

/-- **Ending an upload too early.**  When the body of a stream-up POST ends while someone else
has a sender of the upload channel, a stream with nothing left to read waits for more. -/
theorem not_uploadEnds_of_early {w w' : Transport} {t : TaskId} {g : SessionRef} {x : Session}
    (hw : w.server.Placed) (hx : w.server.sessions g = some x) (hheld : x.upRx = .held)
    (hreq : w.server.requests.lookup t = some (.streamReading g))
    (hspent : (w.stream g x).Spent) (heof : (w.reads g).eof = false)
    (hkept : ¬ (w.server.RecordGone g x ∧ w.server.NoUpload t g))
    (h : w.step (.server (.frame t none)) = some w') : ¬ w'.UploadEnds := by
  have hw' : w' = { w with
      server := w.server.endRequest t
      upEnded := Function.update w.upEnded g true } := by
    simp only [step, Server.step, hreq, Option.map_some, endedBy] at h
    exact (Option.some.inj h).symm
  have hplaced : w'.server.Placed := by
    rcases step_cases h with ⟨e', he, hstep, -⟩ | hlocal
    · exact Server.step_placed hw hstep
    · exact hlocal.placed hw
  have hother : ∀ {t' r}, t' ≠ t → w.server.requests.lookup t' = some r →
      w'.server.requests.lookup t' = some r := by
    intro t' r hne hr
    rw [hw']
    exact (AList.lookup_erase_ne hne).trans hr
  intro hends
  have hended : w'.upEnded g = true := by
    rw [hw']
    exact Function.update_self ..
  have hspent' : (w'.stream g x).Spent := by
    rw [hw']
    exact ⟨hspent.queue, hspent.leftover, hspent.streamBuf, hspent.heap⟩
  have hx' : w'.server.sessions g = some x := by rwa [hw']
  rcases (uploadEnds_iff hplaced).mp hends g x hx' hended hheld hspent' with heof' | ⟨hgone, hno⟩
  · rw [hw', heof] at heof'
    cases heof'
  · refine hkept ⟨⟨hgone.1, fun t' r hr hlocks => ?_⟩, fun t' r hr hne hup => ?_⟩
    · rcases eq_or_ne t' t with rfl | hne
      · rw [hreq] at hr
        cases hr
        cases hlocks
      · exact hgone.2 t' r (hother hne hr) hlocks
    · exact hno t' r (hother hne hr) hup

/-! ## Two ends that get across, and two that do not -/

/-- An upload that ends and a stream that is dropped after the clean-up of their session, with
a byte each way. -/
def cleanedRun : List TransportEvent :=
  (getRun 0 "a" ++ ([.post 1 "a" .streamUp, .lookup 1, .lock 1, .frame 1 (some [104]), .send 1,
    .wait 300000, .lingerEnd 0, .takeMap 0, .frame 1 none] : List Event)).map .server ++
      [.read 0 1, .read 0 1, .write 0 [105], .server (.dropStream 0), .pollFrame 0, .pollFrame 0]

/-- Both ends get across. -/
theorem always_endsPropagate_of_every_cleanedRun :
    (run step init cleanedRun).map (fun w => (w.upEnded 0, w.body 0, w.down 0)) =
      some (true, true, []) ∧ Always step EndsPropagate init cleanedRun := by
  constructor
  · decide +kernel
  · exact always_endsPropagate_of_every (by decide +kernel)

/-- A GET whose consumer drops the stream. -/
def droppedRun : List TransportEvent :=
  (getRun 0 "a").map .server ++ [.server (.dropStream 0)]

/-- A GET, and a stream-up POST with an empty body. -/
def endedRun : List TransportEvent :=
  (getRun 0 "a").map .server ++ [.server (.post 1 "a" .streamUp), .server (.lookup 1),
    .server (.lock 1), .server (.frame 1 none)]

/-- The body of the GET goes on, and the stream waits for more. -/
theorem not_always_endsPropagate :
    ¬ Always step EndsPropagate init droppedRun ∧ ¬ Always step EndsPropagate init endedRun := by
  constructor
  · intro hall
    have hend : (run step init droppedRun).map (fun w => (w.server.sessions 0).map fun x =>
        (x.upRx, w.body 0, w.responseBody 0 x)) =
          some (some (.dropped, true, .stream { queue := [], closed := false })) := by
      decide +kernel
    obtain ⟨w, hrun, hw⟩ := Option.map_eq_some_iff.mp hend
    obtain ⟨x, hx, hstate⟩ := Option.map_eq_some_iff.mp hw
    simp only [Prod.mk.injEq] at hstate
    obtain ⟨hdropped, hbody, hresponse⟩ := hstate
    have hdown : w.down 0 = [] := congrArg ResponseBody.queue hresponse
    have hpoll := ((hall _ w List.prefix_rfl hrun).1 0 x hx hbody hdropped hdown).2
    rw [hresponse] at hpoll
    cases hpoll
  · intro hall
    have hend : (run step init endedRun).map (fun w => (w.server.sessions 0).map fun x =>
        (w.upEnded 0, x.upRx, w.stream 0 x)) =
          some (some (true, .held, .new { queue := [], closed := false })) := by decide +kernel
    obtain ⟨w, hrun, hw⟩ := Option.map_eq_some_iff.mp hend
    obtain ⟨x, hx, hstate⟩ := Option.map_eq_some_iff.mp hw
    simp only [Prod.mk.injEq] at hstate
    obtain ⟨hended, hheld, hstream⟩ := hstate
    have hspent : (w.stream 0 x).Spent := by
      rw [hstream]
      exact ⟨rfl, rfl, rfl, fun top htop => by cases htop⟩
    have hpoll := ((hall _ w List.prefix_rfl hrun).2 0 x hx hended hheld hspent 1).1
    rw [hstream] at hpoll
    cases hpoll

end Transport

end Ruproxy.Xhttp
