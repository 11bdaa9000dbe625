/-
  Xhttp/Records.lean --- how long the record of a session is kept.

  The map has a session from its creation until its TTL task removes it, and no
  other task removes it.  Its `Arc` is held from then on by that task, as long as
  it sends `Eof`, and by the handlers that have found the session and wait for its
  lock.
-/
import Ruproxy.Xhttp.Deadlock

set_option autoImplicit false

namespace Ruproxy.Xhttp

open Ruproxy.Foundation
open Ruproxy.Foundation.Transition

/-! ## Places -/

/-- Where the TTL task of a session has it. -/
inductive Place where
  | inMap
  /-- the task holds the session that it removed -/
  | expiring (target : SessionRef)
  | removed
  deriving DecidableEq

def TtlTask.place : TtlTask → Place
  | .waitingGet _ | .expired | .lingering _ | .removing => .inMap
  | .sendingEof g => .expiring g
  | .done => .removed

/-- The session id of a session and its place. -/
def Session.place (x : Session) : String × Place := (x.sid, x.ttl.place)

/-- The session whose `Arc` a request holds as it waits for the lock. -/
def Request.locks : Request → Option SessionRef
  | .getLocking g | .postLocking _ g _ => some g
  | _ => none

namespace Server

/-- The places of all sessions. -/
def places (s : Server) (g : SessionRef) : Option (String × Place) :=
  (s.sessions g).map Session.place

/-- The TTL task of a session is over, and no handler waits for its lock. -/
def RecordGone (s : Server) (g : SessionRef) (x : Session) : Prop :=
  x.ttl = .done ∧ ∀ t r, s.requests.lookup t = some r → r.locks ≠ some g

instance (s : Server) (g : SessionRef) (x : Session) : Decidable (s.RecordGone g x) :=
  decidable_of_iff (x.ttl = .done ∧ ∀ e ∈ s.requests.entries, e.2.locks ≠ some g)
    (and_congr_right fun _ =>
      (Table.forall_lookup_iff (P := fun _ r => Request.locks r ≠ some g)).symm)

theorem places_setSession (s : Server) (g : SessionRef) (x : Session) :
    (s.setSession g x).places = Function.update s.places g (some x.place) := by
  funext j
  simp only [places, setSession]
  rcases eq_or_ne j g with rfl | hj
  · rw [Function.update_self, Function.update_self]
    rfl
  · rw [Function.update_of_ne hj, Function.update_of_ne hj]
    rfl

/-- A session that keeps its place. -/
theorem places_setSession_eq {s : Server} {g : SessionRef} {x x' : Session}
    (hx : s.sessions g = some x) (h : x'.place = x.place) :
    (s.setSession g x').places = s.places := by
  have hg : s.places g = some x'.place := by
    rw [places, hx, h]
    rfl
  rw [places_setSession, ← hg, Function.update_eq_self]

theorem ttlDone_map (s : Server) (k : SessionRef) : (s.ttlDone k).map = s.map := by
  unfold ttlDone
  split
  · rfl
  · rfl

theorem places_ttlDone {s : Server} {k : SessionRef} {x : Session}
    (hx : s.sessions k = some x) :
    (s.ttlDone k).places = Function.update s.places k (some (x.sid, .removed)) := by
  rw [ttlDone_of hx]
  exact places_setSession s k _

/-! ## What a step does -/

/-- What a step does to the map and to the places of the sessions. -/
inductive Moves (s : Server) (e : Event) (s' : Server) : Prop where
  | stays (hmap : s'.map = s.map) (h : s'.places = s.places)
  | creates (sid : String) (hnone : s.map.lookup sid = none)
      (hmap : s'.map = s.map.insert sid s.nextSession)
      (h : s'.places = Function.update s.places s.nextSession (some (sid, .inMap)))
  | removes (k : SessionRef) (sid : String) (place : Place) (he : e = .takeMap k)
      (hk : s.places k = some (sid, .inMap))
      (hplace : place = .removed ∨ ∃ g, s.map.lookup sid = some g ∧ place = .expiring g)
      (hmap : s'.map = s.map.erase sid)
      (h : s'.places = Function.update s.places k (some (sid, place)))
  | ends (k : SessionRef) (sid : String) (g : SessionRef)
      (hk : s.places k = some (sid, .expiring g)) (hmap : s'.map = s.map)
      (h : s'.places = Function.update s.places k (some (sid, .removed)))

/-- Requests have no part in it. -/
theorem Moves.setRequest {s s' : Server} {e : Event} (h : s.Moves e s') (t : TaskId)
    (r : Request) : s.Moves e (s'.setRequest t r) := by
  cases h with
  | stays hmap h => exact .stays hmap h
  | creates sid hnone hmap h => exact .creates sid hnone hmap h
  | removes k sid place he hk hplace hmap h => exact .removes k sid place he hk hplace hmap h
  | ends k sid g hk hmap h => exact .ends k sid g hk hmap h

theorem moves_getOrCreateSession (s : Server) (e : Event) (sid : String) :
    s.Moves e (s.getOrCreateSession sid).1 := by
  unfold getOrCreateSession
  split
  · exact .stays rfl rfl
  · exact .creates sid ‹_› rfl (places_setSession s _ _)

theorem moves_lock {s s' : Server} {t : TaskId} (h : s.step (.lock t) = some s') :
    s.Moves (.lock t) s' := by
  simp only [step] at h
  split at h
  · split at h
    · rename_i x hx
      split at h
      · cases h
      cases h
      unfold serveGet
      split
      · split
        · exact .stays rfl (places_setSession_eq hx rfl)
        · exact .stays rfl (places_setSession_eq hx rfl)
      · exact .stays rfl rfl
    · cases h
  · split at h
    · split at h
      · cases h
      cases h
      unfold servePost
      split
      · exact .stays rfl rfl
      · exact .stays rfl rfl
      · exact .stays rfl rfl
    · cases h
  · cases h

theorem moves_send {s s' : Server} {t : TaskId} (h : s.step (.send t) = some s') :
    s.Moves (.send t) s' := by
  simp only [step] at h
  split at h
  case h_3 => cases h
  all_goals
    split at h
    case h_2 => cases h
    rename_i x hx
    split at h
    case isTrue =>
      cases h
      exact .stays rfl rfl
    split at h
    case isFalse => cases h
    cases h
    exact .stays rfl (places_setSession_eq hx rfl)

/-- The streams move and the TTL tasks sleep in the map. -/
theorem moves_session {s s' : Server} {g : SessionRef} {e : Event}
    (he : e = .ready g ∨ e = .accept g ∨ e = .consume g ∨ e = .dropStream g ∨ e = .notified g ∨
      e = .expire g ∨ e = .lingerEnd g)
    (h : s.step e = some s') : s.Moves e s' := by
  rcases he with rfl | rfl | rfl | rfl | rfl | rfl | rfl
  all_goals
    simp only [step] at h
    split at h
    case h_2 => cases h
    rename_i x hx
    split at h
    all_goals try contradiction
  iterate 4
    cases h
    exact .stays rfl (places_setSession_eq hx rfl)
  all_goals
    rename_i hold
    split at h
    case isFalse => cases h
    cases h
    exact .stays rfl (places_setSession_eq hx (by simp only [Session.place, hold, TtlTask.place]))

theorem moves_expireSession {s s' : Server} {k : SessionRef} {x : Session}
    (hx : s.sessions k = some x) (httl : x.ttl = .expired)
    (h : s.expireSession k x = some s') : s.Moves (.takeMap k) s' := by
  have hk : s.places k = some (x.sid, .inMap) := by
    rw [places, hx, Option.map_some, Session.place, httl]
    rfl
  unfold expireSession at h
  dsimp only at h
  split at h
  · cases h
    exact .removes k x.sid .removed rfl hk (.inl rfl) (ttlDone_map _ k) (places_ttlDone hx)
  rename_i g hlookup
  split at h
  · cases h
  rename_i y hy
  -- the target changes, and keeps its place
  have hsame : ∀ y', y'.place = y.place →
      ({ s with map := s.map.erase x.sid }.setSession g y').places = s.places :=
    fun y' hy' => places_setSession_eq (s := { s with map := s.map.erase x.sid }) hy hy'
  split at h
  · cases h
    exact .removes k x.sid .removed rfl hk (.inl rfl) (ttlDone_map _ k) (places_ttlDone hx)
  split at h
  · cases h
    have hplaces := hsame { y with up := y.up ++ [UploadPacket.eof] } rfl
    have hk₁ := congrFun hplaces k
    rw [hk, places, Option.map_eq_some_iff] at hk₁
    obtain ⟨x', hx', hplace⟩ := hk₁
    have hsid : x'.sid = x.sid := congrArg Prod.fst hplace
    refine .removes k x.sid .removed rfl hk (.inl rfl) (ttlDone_map _ k) ?_
    rw [places_ttlDone hx', hplaces, hsid]
  · split at h
    · rename_i x' hx'
      cases h
      have hplaces := hsame { y with locked := true } rfl
      have hk₁ := congrFun hplaces k
      rw [hk, places, hx', Option.map_some] at hk₁
      have hsid : x'.sid = x.sid := congrArg Prod.fst (Option.some.inj hk₁)
      refine .removes k x.sid (.expiring g) rfl hk (.inr ⟨g, hlookup, rfl⟩) rfl ?_
      rw [← hplaces, ← hsid]
      exact places_setSession _ k _
    · cases h

theorem moves_takeMap {s s' : Server} {k : SessionRef} (h : s.step (.takeMap k) = some s') :
    s.Moves (.takeMap k) s' := by
  simp only [step] at h
  split at h
  · cases h
  split at h
  · rename_i x hx
    split at h
    · exact moves_expireSession hx ‹_› h
    · rename_i httl
      cases h
      have hk : s.places k = some (x.sid, .inMap) := by
        rw [places, hx, Option.map_some, Session.place, httl]
        rfl
      exact .removes k x.sid .removed rfl hk (.inl rfl) (ttlDone_map _ k) (places_ttlDone hx)
    · cases h
  · cases h

theorem moves_eofSent {s s' : Server} {k : SessionRef} (h : s.step (.eofSent k) = some s') :
    s.Moves (.eofSent k) s' := by
  simp only [step] at h
  split at h
  case h_2 => cases h
  rename_i x hx
  split at h
  case h_2 => cases h
  rename_i g httl
  split at h
  case h_2 => cases h
  rename_i y hy
  have hk : s.places k = some (x.sid, .expiring g) := by
    rw [places, hx, Option.map_some, Session.place, httl]
    rfl
  have hdone : ∀ y', y'.place = y.place →
      s.Moves (.eofSent k) ((s.setSession g y').ttlDone k) := by
    intro y' hy'
    have hplaces := places_setSession_eq hy hy'
    have hk₁ := congrFun hplaces k
    rw [hk, places, Option.map_eq_some_iff] at hk₁
    obtain ⟨x', hx', hplace⟩ := hk₁
    have hsid : x'.sid = x.sid := congrArg Prod.fst hplace
    refine .ends k x.sid g hk (ttlDone_map _ k) ?_
    rw [places_ttlDone hx', hplaces, hsid]
  split at h
  · cases h
    exact hdone _ rfl
  split at h
  · cases h
    exact hdone _ rfl
  · cases h

theorem step_moves {s s' : Server} {e : Event} (h : s.step e = some s') : s.Moves e s' := by
  cases e with
  | get t sid | post t sid upload =>
    simp only [step] at h
    split at h
    · cases h
    cases h
    exact .stays rfl rfl
  | lookup t =>
    simp only [step] at h
    split at h
    · cases h
    split at h
    · cases h
      exact (moves_getOrCreateSession s _ _).setRequest t _
    · cases h
      exact (moves_getOrCreateSession s _ _).setRequest t _
    · cases h
  | lock t => exact moves_lock h
  | send t => exact moves_send h
  | collected t body | frame t body =>
    simp only [step] at h
    split at h
    · split at h
      · cases h
        exact .stays rfl rfl
      · cases h
        exact .stays rfl rfl
    · cases h
  | cancel t =>
    simp only [step] at h
    split at h
    · cases h
    · cases h
    · cases h
      exact .stays rfl rfl
    · cases h
  | takeMap k => exact moves_takeMap h
  | eofSent k => exact moves_eofSent h
  | wait ms =>
    cases h
    exact .stays rfl rfl
  | ready g | accept g | consume g | dropStream g | notified g | expire g | lingerEnd g =>
    exact moves_session (g := g) (by simp) h

/-! ## The invariant -/

/-- The map has exactly the sessions whose TTL task has not removed them, and a TTL task
removes its own session. -/
structure Placed (s : Server) : Prop where
  inv : s.Inv
  mapped : ∀ sid g, s.map.lookup sid = some g ↔ s.places g = some (sid, .inMap)
  own : ∀ k sid g, s.places k = some (sid, .expiring g) → g = k

theorem placed_init : init.Placed where
  inv := inv_init
  mapped _ _ := iff_of_false (fun h => by cases h) (fun h => by cases h)
  own _ _ _ h := by cases h

theorem Placed.fresh {s : Server} (h : s.Placed) : s.places s.nextSession = none := by
  rw [places, h.inv.fresh _ (Nat.le_refl _)]
  rfl

theorem Placed.moves {s s' : Server} {e : Event} (hs : s.Placed) (hinv : s'.Inv)
    (h : s.Moves e s') : s'.Placed := by
  cases h with
  | stays hmap h =>
    exact ⟨hinv, by rw [hmap, h]; exact hs.mapped, by rw [h]; exact hs.own⟩
  | creates sid hnone hmap h =>
    refine ⟨hinv, fun sid' g => ?_, fun k sid' g hk => ?_⟩
    · rw [hmap, h]
      rcases eq_or_ne g s.nextSession with rfl | hg
      · rw [Function.update_self]
        rcases eq_or_ne sid' sid with rfl | hsid
        · rw [AList.lookup_insert]
          simp
        · rw [AList.lookup_insert_ne hsid, hs.mapped, hs.fresh]
          simp [hsid.symm]
      · rw [Function.update_of_ne hg]
        rcases eq_or_ne sid' sid with rfl | hsid
        · rw [AList.lookup_insert, ← hs.mapped, hnone]
          simp [hg.symm]
        · rw [AList.lookup_insert_ne hsid]
          exact hs.mapped sid' g
    · rw [h] at hk
      rcases eq_or_ne k s.nextSession with rfl | hne
      · rw [Function.update_self] at hk
        cases hk
      · rw [Function.update_of_ne hne] at hk
        exact hs.own k sid' g hk
  | removes k sid place _ hk hplace hmap h =>
    have hlookup := (hs.mapped sid k).mpr hk
    refine ⟨hinv, fun sid' g => ?_, fun j sid' g hj => ?_⟩
    · rw [hmap, h]
      rcases eq_or_ne g k with rfl | hg
      · rw [Function.update_self]
        refine iff_of_false ?_ ?_
        · rcases eq_or_ne sid' sid with rfl | hsid
          · rw [AList.lookup_erase]
            simp
          · rw [AList.lookup_erase_ne hsid, hs.mapped, hk]
            simp [hsid.symm]
        · rintro heq
          cases heq
          rcases hplace with hremoved | ⟨g', -, hexpiring⟩
          · cases hremoved
          · cases hexpiring
      · rw [Function.update_of_ne hg]
        rcases eq_or_ne sid' sid with rfl | hsid
        · rw [AList.lookup_erase, ← hs.mapped, hlookup]
          simp [hg.symm]
        · rw [AList.lookup_erase_ne hsid]
          exact hs.mapped sid' g
    · rw [h] at hj
      rcases eq_or_ne j k with rfl | hne
      · rw [Function.update_self] at hj
        cases hj
        rcases hplace with hremoved | ⟨g', hg', hexpiring⟩
        · cases hremoved
        · cases hexpiring
          rw [hlookup] at hg'
          exact (Option.some.inj hg').symm
      · rw [Function.update_of_ne hne] at hj
        exact hs.own j sid' g hj
  | ends k sid g hk hmap h =>
    refine ⟨hinv, fun sid' j => ?_, fun j sid' g' hj => ?_⟩
    · rw [hmap, h, hs.mapped]
      rcases eq_or_ne j k with rfl | hne
      · rw [Function.update_self, hk]
        exact iff_of_false (fun heq => by cases heq) (fun heq => by cases heq)
      · rw [Function.update_of_ne hne]
    · rw [h] at hj
      rcases eq_or_ne j k with rfl | hne
      · rw [Function.update_self] at hj
        cases hj
      · rw [Function.update_of_ne hne] at hj
        exact hs.own j sid' g' hj

theorem step_placed {s s' : Server} {e : Event} (hs : s.Placed) (h : s.step e = some s') :
    s'.Placed :=
  hs.moves (step_inv hs.inv trivial h) (step_moves h)

/-! ## Who holds the record -/

theorem any_locks_iff {s : Server} {g : SessionRef} :
    (s.requests.entries.any fun e => match e.2 with
      | .getLocking g' | .postLocking _ g' _ => g' = g
      | _ => false) = true ↔ ∃ t r, s.requests.lookup t = some r ∧ r.locks = some g := by
  rw [List.any_eq_true]
  constructor
  · rintro ⟨⟨t, r⟩, hmem, hr⟩
    refine ⟨t, r, AList.mem_lookup_iff.mpr hmem, ?_⟩
    cases r <;> simp_all [Request.locks]
  · rintro ⟨t, r, hr, hlocks⟩
    refine ⟨⟨t, r⟩, AList.mem_lookup_iff.mp hr, ?_⟩
    cases r <;> simp_all [Request.locks]

/-- A TTL task holds the session that it has not removed, and the one it sends `Eof`. -/
theorem Placed.ttl_ne_done_iff {s : Server} (hs : s.Placed) {g : SessionRef} {x : Session}
    (hx : s.sessions g = some x) :
    x.ttl ≠ .done ↔ s.map.lookup x.sid = some g ∨
      ∃ k y, s.mapHolder = some k ∧ s.sessions k = some y ∧ y.ttl = .sendingEof g := by
  have hg : s.places g = some (x.sid, x.ttl.place) := by
    rw [places, hx]
    rfl
  constructor
  · intro hne
    rw [hs.mapped, hg]
    cases httl : x.ttl with
    | waitingGet _ | expired | lingering _ | removing => exact .inl rfl
    | sendingEof g' =>
      rw [httl] at hg
      obtain rfl := hs.own g x.sid g' hg
      exact .inr ⟨g', x, (hs.inv.sending g' x g' hx httl).1, hx, httl⟩
    | done => exact absurd httl hne
  · rintro (hmap | ⟨k, y, -, hy, httl⟩) hdone
    · rw [hs.mapped, hg, hdone] at hmap
      cases hmap
    · have hk : s.places k = some (y.sid, .expiring g) := by
        rw [places, hy, Option.map_some, Session.place, httl]
        rfl
      obtain rfl := hs.own k y.sid g hk
      rw [hx] at hy
      cases hy
      rw [hdone] at httl
      cases httl

/-- **The record.**  Someone holds the `Arc` of a session exactly as long as its TTL task
is not over or a handler waits for its lock. -/
theorem Placed.referenced_iff {s : Server} (hs : s.Placed) {g : SessionRef} {x : Session}
    (hx : s.sessions g = some x) : s.referenced g x = true ↔ ¬ s.RecordGone g x := by
  rw [referenced, Bool.or_eq_true, Bool.or_eq_true, decide_eq_true_eq]
  refine (or_congr (or_congr Iff.rfl any_locks_iff) (?_ : _ ↔ ∃ k y,
    s.mapHolder = some k ∧ s.sessions k = some y ∧ y.ttl = .sendingEof g)).trans ?_
  · cases hk : s.mapHolder with
    | none => simp
    | some k =>
      cases hy : s.sessions k with
      | none => simp [hy]
      | some y => simp [hy]
  rw [or_right_comm, ← hs.ttl_ne_done_iff hx, RecordGone, not_and_or]
  refine or_congr Iff.rfl ?_
  simp only [not_forall, ne_eq, not_not, exists_prop]

end Server

end Ruproxy.Xhttp
