/-
  Xhttp/InUse.lean --- when the TTL task removes a session that is in use.

  A session id and the stream that was built for it belong together as long as the map
  leads from the one to the other.  Only a TTL task breaks the link, and it does so by
  the clock: 30 seconds after the session was made when no GET has come, 300 seconds
  after the GET otherwise, whoever uses the session then.  When it only ever removes
  sessions that nobody uses, each answered packet is on the stream that is held under its
  session id; when it removes a session whose stream is held, the next packet misses it.
-/
import Ruproxy.Xhttp.Requests
import Ruproxy.Xhttp.Upload

set_option autoImplicit false

namespace Ruproxy.Xhttp

open Ruproxy.Foundation
open Ruproxy.Foundation.Transition

/-! ## Sessions in use -/

/-- The stream of the session was built and not dropped. -/
def Session.streaming (x : Session) : Bool :=
  x.upRx = .withGet || x.upRx = .queued || x.upRx = .held

/-- What a request needs a session for. -/
inductive Use where
  /-- a GET that waits for the lock is about to build the stream -/
  | build (g : SessionRef)
  /-- a packet-up POST for a session id is not answered -/
  | packet (sid : String) (g : SessionRef)
  deriving DecidableEq

def Request.use : Request → Option Use
  | .getLocking g => some (.build g)
  | .postLocking sid g (.packetUp (some _)) | .collecting sid g _ | .sending sid g _ _ =>
      some (.packet sid g)
  | _ => none

/-- The session is needed; a GET can build a stream once. -/
def Session.neededFor (x : Session) (g : SessionRef) : Use → Bool
  | .build g' => g' = g && x.upRx = .inSession
  | .packet _ g' => g' = g

/-- A session has a stream, or a request needs it. -/
def Server.inUse (s : Server) (g : SessionRef) (x : Session) : Bool :=
  x.streaming || s.requests.entries.any fun e => e.2.use.any (x.neededFor g)

/-- When a TTL task removes its session, the session is not in use; and when the body of a
packet-up POST fails, no stream of its session id is held. -/
def RemovesUnused (s : Server) : Event → Prop
  | .takeMap k => ∀ x ∈ s.sessions k, s.inUse k x = false
  | .collected t none =>
      match s.requests.lookup t with
      | some (.collecting sid _ _) => s.heldStreams sid = []
      | _ => True
  | _ => True

instance (s : Server) (e : Event) : Decidable (RemovesUnused s e) := by
  unfold RemovesUnused
  split
  · infer_instance
  · split <;> infer_instance
  · infer_instance

namespace Server

/-- Some request has this use for a session. -/
def Uses (s : Server) (u : Use) : Prop :=
  ∃ t r, s.requests.lookup t = some r ∧ r.use = some u

theorem inUse_iff {s : Server} {g : SessionRef} {x : Session} :
    s.inUse g x = true ↔ x.streaming = true ∨ ∃ u, s.Uses u ∧ x.neededFor g u = true := by
  rw [inUse, Bool.or_eq_true, List.any_eq_true]
  refine or_congr Iff.rfl ⟨?_, ?_⟩
  · rintro ⟨⟨t, r⟩, hmem, hr⟩
    obtain ⟨u, hu, hneeded⟩ := (Option.any_eq_true _ _).mp hr
    exact ⟨u, ⟨t, r, AList.mem_lookup_iff.mpr hmem, hu⟩, hneeded⟩
  · rintro ⟨u, ⟨t, r, hr, hu⟩, hneeded⟩
    exact ⟨⟨t, r⟩, AList.mem_lookup_iff.mp hr, (Option.any_eq_true _ _).mpr ⟨u, hu, hneeded⟩⟩

/-- A session stays in the map unless its own TTL task takes the map. -/
theorem Moves.lookup {s s' : Server} {e : Event} {sid : String} {g : SessionRef}
    (hs : s.Placed) (h : s.Moves e s') (hg : s.map.lookup sid = some g) :
    s'.map.lookup sid = some g ∨ e = .takeMap g := by
  cases h with
  | stays hmap h => exact .inl (hmap ▸ hg)
  | creates sid' hnone hmap h =>
    left
    have hne : sid ≠ sid' := by
      rintro rfl
      rw [hnone] at hg
      cases hg
    rw [hmap, AList.lookup_insert_ne hne]
    exact hg
  | removes k sid' place he hk hplace hmap h =>
    rcases eq_or_ne sid sid' with rfl | hne
    · right
      rw [(hs.mapped sid k).mpr hk] at hg
      cases hg
      exact he
    · left
      rw [hmap, AList.lookup_erase_ne hne]
      exact hg
  | ends k sid' g' hk hmap h => exact .inl (hmap ▸ hg)

/-! ## What comes into use -/

/-- **Uses.**  A use is there before a step, or is one of the session that the map has. -/
theorem step_uses {s s' : Server} {e : Event} {u : Use} (h : s.step e = some s')
    (hu : s'.Uses u) :
    s.Uses u ∨ ∃ sid g, s'.map.lookup sid = some g ∧ (u = .build g ∨ u = .packet sid g) := by
  obtain ⟨t, r', hr', huse⟩ := hu
  cases step_requests h hr' with
  | stayed hr => exact .inl ⟨t, r', hr, huse⟩
  | wentOn r hr hgo =>
    cases hgo with
    | stream sid g | frame g data | chunk g data => cases huse
    | packet sid g seq | body sid g seq data => exact .inl ⟨t, _, hr, huse⟩
  | arrived harrived =>
    rcases harrived with ⟨sid, rfl⟩ | ⟨sid, upload, rfl⟩
    · cases huse
    · cases huse
  | found sid g hg hfound =>
    right
    rcases hfound with rfl | ⟨upload, rfl⟩
    · cases huse
      exact ⟨sid, g, hg, .inl rfl⟩
    · refine ⟨sid, g, hg, .inr ?_⟩
      cases upload with
      | streamUp => cases huse
      | packetUp seq =>
        cases seq with
        | none => cases huse
        | some seq =>
          cases huse
          rfl

/-- A session that a GET or a packet needs is in use. -/
theorem inUse_of_uses {s : Server} {g : SessionRef} {x : Session} {u : Use} (hu : s.Uses u)
    (hneeded : x.neededFor g u = true) : s.inUse g x = true :=
  inUse_iff.mpr (.inr ⟨u, hu, hneeded⟩)

theorem inUse_of_streaming {s : Server} {g : SessionRef} {x : Session}
    (hstreaming : x.streaming = true) : s.inUse g x = true :=
  inUse_iff.mpr (.inl hstreaming)

/-- A stream is only built where a GET needs the session. -/
theorem Went.inUse {s : Server} {e : Event} {g : SessionRef} {x x' : Session}
    (h : s.Went e g x x') (hstreaming : x'.streaming = true) : s.inUse g x = true := by
  cases h with
  | stayed hrx =>
    rw [Session.streaming, hrx] at hstreaming
    exact inUse_of_streaming hstreaming
  | taken t he hreq hin hrx =>
    exact inUse_of_uses ⟨t, _, hreq, rfl⟩ (by simp [Session.neededFor, hin])
  | ready he hrx hrx' => exact inUse_of_streaming (by simp [Session.streaming, hrx])
  | accepted he hrx hrx' => exact inUse_of_streaming (by simp [Session.streaming, hrx])
  | dropped he hrx hrx' =>
    rw [Session.streaming, hrx'] at hstreaming
    cases hstreaming

/-- A session that can still be built could be before. -/
theorem Went.neededFor {s : Server} {e : Event} {g : SessionRef} {x x' : Session} {u : Use}
    (h : s.Went e g x x') (hneeded : x'.neededFor g u = true) : x.neededFor g u = true := by
  cases u with
  | packet sid g' => exact hneeded
  | build g' =>
    rw [Session.neededFor, Bool.and_eq_true, decide_eq_true_eq, decide_eq_true_eq] at hneeded ⊢
    refine hneeded.imp_right fun hin => ?_
    cases h with
    | stayed hrx => rwa [← hrx]
    | taken t he hreq hin hrx => exact hin
    | ready he hrx hrx' | accepted he hrx hrx' | dropped he hrx hrx' =>
      rw [hrx'] at hin
      cases hin

/-! ## The invariant -/

/-- Every session in use is in the map under its session id, and so is the session that a
packet has found. -/
structure Bound (s : Server) : Prop where
  placed : s.Placed
  inUse : ∀ g x, s.sessions g = some x → s.inUse g x = true → s.map.lookup x.sid = some g
  packet : ∀ sid g, s.Uses (.packet sid g) → s.map.lookup sid = some g

theorem bound_init : init.Bound where
  placed := placed_init
  inUse _ _ h := by cases h
  packet _ _ h := by
    obtain ⟨t, r, hr, -⟩ := h
    cases hr

/-- The map has a session under its session id. -/
theorem Placed.sid_eq {s : Server} (hs : s.Placed) {sid : String} {g : SessionRef} {x : Session}
    (h : s.map.lookup sid = some g) (hx : s.sessions g = some x) : x.sid = sid := by
  have hplace := (hs.mapped sid g).mp h
  rw [places, hx, Option.map_some] at hplace
  exact congrArg Prod.fst (Option.some.inj hplace)

/-- Sessions in use stay in the map. -/
theorem Bound.stays {s s' : Server} {e : Event} (hs : s.Bound) (hok : RemovesUnused s e)
    (h : s.step e = some s') {sid : String} {g : SessionRef} (hg : s.map.lookup sid = some g)
    (huse : ∀ x, s.sessions g = some x → s.inUse g x = true) : s'.map.lookup sid = some g := by
  rcases (step_moves h).lookup hs.placed hg with hg' | rfl
  · exact hg'
  · obtain ⟨x, hx, -⟩ := Option.map_eq_some_iff.mp ((hs.placed.mapped sid g).mp hg)
    have hunused := hok x hx
    rw [huse x hx] at hunused
    cases hunused

theorem step_bound {s s' : Server} {e : Event} (hs : s.Bound) (hok : RemovesUnused s e)
    (h : s.step e = some s') : s'.Bound := by
  have hplaced := step_placed hs.placed h
  refine ⟨hplaced, fun g x' hx' huse => ?_, fun sid g hu => ?_⟩
  · rcases step_receiver h hx' with ⟨x, hx, hsid, hwent⟩ | ⟨-, hnew, -⟩
    · have hold : s.inUse g x = true → s'.map.lookup x'.sid = some g := by
        intro huse
        rw [hsid]
        refine hs.stays hok h (hs.inUse g x hx huse) fun x₁ hx₁ => ?_
        rw [hx] at hx₁
        cases hx₁
        exact huse
      rcases inUse_iff.mp huse with hstreaming | ⟨u, hu, hneeded⟩
      · exact hold (hwent.inUse hstreaming)
      · rcases step_uses h hu with hu | ⟨sid, g', hg', hfound⟩
        · exact hold (inUse_of_uses hu (hwent.neededFor hneeded))
        · obtain rfl : g' = g := by
            rcases hfound with rfl | rfl
            · exact of_decide_eq_true (Bool.and_eq_true_iff.mp hneeded).1
            · exact of_decide_eq_true hneeded
          rw [hplaced.sid_eq hg' hx']
          exact hg'
    · exact hnew
  · rcases step_uses h hu with hu | ⟨sid', g', hg', hfound⟩
    · exact hs.stays hok h (hs.packet sid g hu) fun x _ => inUse_of_uses hu (decide_eq_true rfl)
    · rcases hfound with hbuild | hpacket
      · cases hbuild
      · cases hpacket
        exact hg'

/-! ## Every run -/

/-- With every session in use in the map, a packet has found the session whose stream is
held. -/
theorem Bound.answersLive {s : Server} {e : Event} (hs : s.Bound) (hok : RemovesUnused s e) :
    AnswersLive s e := by
  unfold AnswersLive
  split
  · split
    · rename_i t _ sid g seq data hreq
      intro g' hg'
      obtain ⟨-, x, hx, rfl, hheld⟩ := mem_heldStreams.mp hg'
      have hpacket := hs.packet _ g ⟨t, _, hreq, rfl⟩
      have hstreaming : x.streaming = true := by simp [Session.streaming, hheld]
      have hmapped := hs.inUse g' x hx (inUse_of_streaming hstreaming)
      rw [hpacket] at hmapped
      exact (Option.some.inj hmapped).symm
    · trivial
  · exact hok
  · trivial

/-- **Uploads.**  In every run in which the TTL tasks remove only sessions that are not in
use, and no body fails while the stream is held, every packet that was answered 200 while a
stream of its session id was held is on the channel of that stream. -/
theorem uploadsReach_of_every {es : List Event} {s : Server}
    (hev : Every step RemovesUnused init es) (h : run step init es = some s) :
    s.UploadsReach := by
  have hpres : Preserves step RemovesUnused fun s => s.Bound ∧ s.UploadsReach := by
    intro s e s' hs hok hst
    exact ⟨step_bound hs.1 hok hst, (uploadsReach_step_iff hs.2 hst).mpr (hs.1.answersLive hok)⟩
  have hinit : init.Bound ∧ init.UploadsReach := ⟨bound_init, fun _ ha => nomatch ha⟩
  exact (ReachableBy.invariant hpres hinit ⟨es, hev, h⟩).2

/-! ## Removing a session in use -/

/-- A packet-up POST for a session id that is not in the map is answered with its packet in
a new session, whatever streams are held. -/
theorem run_packet_new {s : Server} {t : TaskId} {sid : String} (hfree : s.mapHolder = none)
    (hnew : s.map.lookup sid = none) (ht : s.requests.lookup t = none) (seq : UInt64)
    (data : Bytes) :
    ∃ s' a, run step s (packetRun t sid seq data) = some s' ∧ a ∈ s'.answers ∧
      a.put = some s.nextSession ∧ ∀ g ∈ s.heldStreams sid, g ∈ a.held := by
  let x₀ : Session :=
    { sid := sid, locked := false, up := [], upRx := .inSession, downTaken := false,
      getArrived := false, ttl := .waitingGet (s.now + getTimeout) }
  let s₁ : Server :=
    { s with
      map := s.map.insert sid s.nextSession
      sessions := Function.update s.sessions s.nextSession (some x₀)
      nextSession := s.nextSession + 1
      requests := s.requests.insert t (.sending sid s.nextSession seq data) }
  have hsent : run step s [.post t sid (.packetUp (some seq)), .lookup t, .lock t,
      .collected t (some data)] = some s₁ := by
    simp [run_cons, step, setRequest, getOrCreateSession, servePost, hfree, hnew, ht, s₁, x₀]
  let s₂ : Server := s₁.setSession s.nextSession { x₀ with up := [.packet seq data] }
  have hanswer : s₁.step (.send t) = some (s₂.answer t sid (some s.nextSession)) := by
    have hroom : 0 < upCapacity := by decide
    simp [step, closed, referenced, hroom, s₁, s₂, x₀]
  refine ⟨s₂.answer t sid (some s.nextSession), ⟨sid, some s.nextSession, s₂.heldStreams sid⟩, ?_,
    List.mem_append_right _ (List.mem_singleton_self _), rfl, fun g hg => ?_⟩
  · have hsplit := @run_append _ _ step s [.post t sid (.packetUp (some seq)), .lookup t,
      .lock t, .collected t (some data)] [.send t]
    rw [hsent, Option.bind_some] at hsplit
    exact hsplit.trans (run_cons_eq_some.mpr ⟨_, hanswer, rfl⟩)
  · obtain ⟨hlt, x, hx, hsid, hheld⟩ := mem_heldStreams.mp hg
    refine mem_heldStreams.mpr ⟨Nat.lt_succ_of_lt hlt, x, ?_, hsid, hheld⟩
    have hne : g ≠ s.nextSession := Nat.ne_of_lt hlt
    dsimp only [setSession, s₁, s₂]
    rw [Function.update_of_ne hne, Function.update_of_ne hne]
    exact hx

/-- **The removal of a held session.**  When the session whose stream is held is removed
from the map, the next packet for its session id misses the stream. -/
theorem exists_missed {s s' : Server} {k : SessionRef} {x : Session} (hs : s.Placed)
    (hx : s.sessions k = some x) (hheld : x.upRx = .held) (h : s.step (.takeMap k) = some s')
    (hfree : s'.mapHolder = none) {t : TaskId} (ht : s'.requests.lookup t = none) (seq : UInt64)
    (data : Bytes) :
    ∃ s₁, run step s' (packetRun t x.sid seq data) = some s₁ ∧ ¬ s₁.UploadsReach := by
  obtain ⟨x₁, hx₁, hmap, hreceivers⟩ := takeMap_spec h
  rw [hx] at hx₁
  cases hx₁
  have hnew : s'.map.lookup x.sid = none := by
    rw [hmap, AList.lookup_erase]
  have hkept := congrFun hreceivers k
  rw [receivers, receivers, hx, Option.map_some, Option.map_eq_some_iff] at hkept
  obtain ⟨x', hx', heq⟩ := hkept
  rw [Prod.mk.injEq] at heq
  have hlt : k < s'.nextSession := by
    by_contra hge
    have hnone := (step_placed hs h).inv.fresh k (Nat.le_of_not_lt hge)
    rw [hx'] at hnone
    cases hnone
  have hmem : k ∈ s'.heldStreams x.sid :=
    mem_heldStreams.mpr ⟨hlt, x', hx', heq.1, heq.2.trans hheld⟩
  obtain ⟨s₁, a, hrun, ha, hput, hall⟩ := run_packet_new hfree hnew ht seq data
  refine ⟨s₁, hrun, fun hreach => ?_⟩
  have hk := hreach a ha k (hall k hmem)
  rw [hput] at hk
  cases hk
  exact Nat.lt_irrefl _ hlt

end Server

/-! ## Instances -/

/-- A connection whose stream is dropped before the clean-up, and another one under the
same session id, with a packet each. -/
def twiceRun : List Event :=
  getRun 0 "a" ++ packetRun 0 "a" 0 [104] ++
    [.dropStream 0, .wait 300000, .lingerEnd 0, .takeMap 0] ++
      getRun 1 "a" ++ packetRun 0 "a" 0 [105]

/-- Either packet reaches the stream of its own connection. -/
theorem uploadsReach_of_every_twiceRun :
    ∃ s, run Server.step .init twiceRun = some s ∧
      s.answers = [⟨"a", some 0, [0]⟩, ⟨"a", some 1, [1]⟩] ∧ s.UploadsReach := by
  have hend : (run Server.step .init twiceRun).map (·.answers) =
      some [⟨"a", some 0, [0]⟩, ⟨"a", some 1, [1]⟩] := by decide +kernel
  have hev : Every Server.step RemovesUnused .init twiceRun := by decide +kernel
  obtain ⟨s, hrun, hs⟩ := Option.map_eq_some_iff.mp hend
  exact ⟨s, hrun, hs, Server.uploadsReach_of_every hev hrun⟩

/-- A stream that is held for more than 300 seconds, and a packet for it. -/
def longRun : List Event :=
  getRun 0 "a" ++ [.wait 300000, .lingerEnd 0, .takeMap 0] ++ packetRun 0 "a" 0 [104]

/-- The packet is answered 200 and waits in a new session. -/
theorem not_uploadsReach_longRun :
    ¬ ∀ es s, run Server.step .init es = some s → s.UploadsReach := by
  intro hall
  have hend : (run Server.step .init longRun).map (·.answers) =
      some [⟨"a", some 1, [0]⟩] := by decide +kernel
  obtain ⟨s, hrun, hs⟩ := Option.map_eq_some_iff.mp hend
  have hreach := hall longRun s hrun
  unfold Server.UploadsReach at hreach
  rw [hs] at hreach
  exact absurd hreach (by decide)

end Ruproxy.Xhttp
