/-
  Xhttp/Requests.lean --- where requests and receivers go in a step.

  A request comes to a session through the map and goes on with the session it has
  found.  The receiver of a session goes from the session to the GET that builds the
  stream, to the queue, to the consumer, and is dropped.  The invariants about who uses
  a session are read off the two lemmas `step_requests` and `step_receiver`.
-/
import Ruproxy.Xhttp.Records
import Ruproxy.Xhttp.Transport

set_option autoImplicit false

namespace Ruproxy.Xhttp

open Ruproxy.Foundation

/-- A request that has its session goes from one `await` to the next. -/
inductive Request.GoesOn : Request → Request → Prop where
  | stream (sid : String) (g : SessionRef) :
      GoesOn (.postLocking sid g .streamUp) (.streamReading g)
  | packet (sid : String) (g : SessionRef) (seq : UInt64) :
      GoesOn (.postLocking sid g (.packetUp (some seq))) (.collecting sid g seq)
  | body (sid : String) (g : SessionRef) (seq : UInt64) (data : Bytes) :
      GoesOn (.collecting sid g seq) (.sending sid g seq data)
  | frame (g : SessionRef) (data : Bytes) : GoesOn (.streamReading g) (.streamSending g data)
  | chunk (g : SessionRef) (data : Bytes) : GoesOn (.streamSending g data) (.streamReading g)

namespace Server

/-- How a request has come to the `await` it is at after a step. -/
inductive Came (s s' : Server) (t : TaskId) (r' : Request) : Prop where
  | stayed (h : s.requests.lookup t = some r')
  | wentOn (r : Request) (h : s.requests.lookup t = some r) (hgo : r.GoesOn r')
  | arrived (h : (∃ sid, r' = .getLookup sid) ∨ ∃ sid upload, r' = .postLookup sid upload)
  | found (sid : String) (g : SessionRef) (hg : s'.map.lookup sid = some g)
      (h : r' = .getLocking g ∨ ∃ upload, r' = .postLocking sid g upload)

/-- Where the receiver of a session has gone in a step. -/
inductive Went (s : Server) (e : Event) (g : SessionRef) (x x' : Session) : Prop where
  | stayed (h : x'.upRx = x.upRx)
  | taken (t : TaskId) (he : e = .lock t) (hreq : s.requests.lookup t = some (.getLocking g))
      (h : x.upRx = .inSession) (h' : x'.upRx = .withGet ∨ x'.upRx = .dropped)
  | ready (he : e = .ready g) (h : x.upRx = .withGet) (h' : x'.upRx = .queued)
  | accepted (he : e = .accept g) (h : x.upRx = .queued) (h' : x'.upRx = .held)
  | dropped (he : e = .dropStream g) (h : x.upRx = .held ∨ x.upRx = .withGet)
      (h' : x'.upRx = .dropped)

/-! ## Requests -/

theorem came_erase {s s' : Server} {t t₀ : TaskId} {r' : Request}
    (hrequests : s'.requests = s.requests.erase t₀) (h : s'.requests.lookup t = some r') :
    s.Came s' t r' := by
  rw [hrequests] at h
  rcases eq_or_ne t t₀ with rfl | hne
  · rw [AList.lookup_erase] at h
    cases h
  · rw [AList.lookup_erase_ne hne] at h
    exact .stayed h

theorem came_insert {s s' : Server} {t t₀ : TaskId} {r₀ r' : Request}
    (hrequests : s'.requests = s.requests.insert t₀ r₀) (hnew : s.Came s' t₀ r₀)
    (h : s'.requests.lookup t = some r') : s.Came s' t r' := by
  rw [hrequests] at h
  rcases eq_or_ne t t₀ with rfl | hne
  · rw [AList.lookup_insert] at h
    cases h
    exact hnew
  · rw [AList.lookup_insert_ne hne] at h
    exact .stayed h

theorem came_of_eq {s s' : Server} {t : TaskId} {r' : Request} (hrequests : s'.requests = s.requests)
    (h : s'.requests.lookup t = some r') : s.Came s' t r' :=
  .stayed (hrequests ▸ h)

theorem requests_ttlDone (s : Server) (k : SessionRef) : (s.ttlDone k).requests = s.requests := by
  unfold ttlDone
  split
  · rfl
  · rfl

theorem requests_serveGet (s : Server) (t : TaskId) (g : SessionRef) (x : Session) :
    (s.serveGet t g x).requests = s.requests.erase t := by
  unfold serveGet
  split
  · split
    · rfl
    · rfl
  · rfl

/-- The map has the session that was found or made. -/
theorem getOrCreateSession_found (s : Server) (sid : String) :
    (s.getOrCreateSession sid).1.map.lookup sid = some (s.getOrCreateSession sid).2 ∧
      (s.getOrCreateSession sid).1.requests = s.requests := by
  unfold getOrCreateSession
  split
  · exact ⟨‹_›, rfl⟩
  · exact ⟨AList.lookup_insert _, rfl⟩

theorem requests_expireSession {s s' : Server} {k : SessionRef} {x : Session}
    (h : s.expireSession k x = some s') : s'.requests = s.requests := by
  unfold expireSession at h
  dsimp only at h
  split at h
  · cases h
    exact requests_ttlDone _ k
  split at h
  · cases h
  split at h
  · cases h
    exact requests_ttlDone _ k
  split at h
  · cases h
    exact requests_ttlDone _ k
  split at h
  · cases h
    rfl
  · cases h

/-- **Requests.**  What a step does to the requests. -/
theorem step_requests {s s' : Server} {e : Event} {t : TaskId} {r' : Request}
    (h : s.step e = some s') (hr' : s'.requests.lookup t = some r') : s.Came s' t r' := by
  cases e with
  | get t₀ sid =>
    simp only [step] at h
    split at h
    · cases h
    cases h
    exact came_insert rfl (.arrived (.inl ⟨sid, rfl⟩)) hr'
  | post t₀ sid upload =>
    simp only [step] at h
    split at h
    · cases h
    cases h
    exact came_insert rfl (.arrived (.inr ⟨sid, upload, rfl⟩)) hr'
  | lookup t₀ =>
    simp only [step] at h
    split at h
    · cases h
    have hfound : ∀ (sid : String) (r₀ : Request),
        (r₀ = .getLocking (s.getOrCreateSession sid).2 ∨
          ∃ upload, r₀ = .postLocking sid (s.getOrCreateSession sid).2 upload) →
        s' = (s.getOrCreateSession sid).1.setRequest t₀ r₀ → s.Came s' t r' := by
      rintro sid r₀ hr₀ rfl
      obtain ⟨hmap, hrequests⟩ := s.getOrCreateSession_found sid
      have hinsert : ((s.getOrCreateSession sid).1.setRequest t₀ r₀).requests =
          s.requests.insert t₀ r₀ := by
        rw [← hrequests]
        rfl
      exact came_insert hinsert (.found sid _ hmap hr₀) hr'
    split at h
    · cases h
      exact hfound _ _ (.inl rfl) rfl
    · cases h
      exact hfound _ _ (.inr ⟨_, rfl⟩) rfl
    · cases h
  | lock t₀ =>
    simp only [step] at h
    split at h
    case h_3 => cases h
    case h_1 g hreq =>
      split at h
      case h_2 => cases h
      split at h
      · cases h
      cases h
      exact came_erase (requests_serveGet s t₀ g _) hr'
    case h_2 sid g upload hreq =>
      split at h
      case h_2 => cases h
      split at h
      · cases h
      cases h
      cases upload with
      | streamUp => exact came_insert rfl (.wentOn _ hreq (.stream sid g)) hr'
      | packetUp seq =>
        cases seq with
        | none => exact came_erase rfl hr'
        | some seq => exact came_insert rfl (.wentOn _ hreq (.packet sid g seq)) hr'
  | collected t₀ body =>
    simp only [step] at h
    split at h
    case h_2 => cases h
    rename_i sid g seq hreq
    split at h
    · cases h
      exact came_insert rfl (.wentOn _ hreq (.body sid g seq _)) hr'
    · cases h
      exact came_erase rfl hr'
  | frame t₀ data =>
    simp only [step] at h
    split at h
    case h_2 => cases h
    rename_i g hreq
    split at h
    · cases h
      exact came_insert rfl (.wentOn _ hreq (.frame g _)) hr'
    · cases h
      exact came_erase rfl hr'
  | send t₀ =>
    simp only [step] at h
    split at h
    case h_3 => cases h
    all_goals
      split at h
      case h_2 => cases h
      split at h
      case isTrue =>
        cases h
        exact came_erase rfl hr'
      split at h
      case isFalse => cases h
      cases h
    · exact came_erase rfl hr'
    · exact came_insert rfl (.wentOn _ ‹_› (.chunk _ _)) hr'
  | cancel t₀ =>
    simp only [step] at h
    split at h
    · cases h
    · cases h
    · cases h
      exact came_erase rfl hr'
    · cases h
  | ready g | accept g | dropStream g | consume g =>
    simp only [step] at h
    split at h
    case h_2 => cases h
    split at h
    all_goals try contradiction
    cases h
    exact .stayed hr'
  | notified g | expire g | lingerEnd g =>
    simp only [step] at h
    split at h
    case h_2 => cases h
    split at h
    case h_2 => cases h
    split at h
    case isFalse => cases h
    cases h
    exact .stayed hr'
  | takeMap k =>
    simp only [step] at h
    split at h
    · cases h
    split at h
    case h_2 => cases h
    split at h
    · exact came_of_eq (requests_expireSession h) hr'
    · cases h
      exact came_of_eq (requests_ttlDone _ k) hr'
    · cases h
  | eofSent k =>
    simp only [step] at h
    split at h
    case h_2 => cases h
    split at h
    case h_2 => cases h
    split at h
    case h_2 => cases h
    split at h
    · cases h
      exact came_of_eq (requests_ttlDone _ k) hr'
    split at h
    · cases h
      exact came_of_eq (requests_ttlDone _ k) hr'
    · cases h
  | wait ms =>
    cases h
    exact .stayed hr'

/-! ## Receivers -/

/-- The session ids and the places of the receivers. -/
def receivers (s : Server) (g : SessionRef) : Option (String × Receiver) :=
  (s.sessions g).map fun x => (x.sid, x.upRx)

/-- A session that keeps its receiver. -/
theorem receivers_setSession {s : Server} {g : SessionRef} {x : Session}
    (hx : s.sessions g = some x) (x₁ : Session) (hsid : x₁.sid = x.sid) (hrx : x₁.upRx = x.upRx) :
    (s.setSession g x₁).receivers = s.receivers := by
  funext j
  simp only [receivers, setSession]
  rcases eq_or_ne j g with rfl | hne
  · rw [Function.update_self, hx, Option.map_some, Option.map_some, hsid, hrx]
  · rw [Function.update_of_ne hne]

theorem receivers_ttlDone (s : Server) (k : SessionRef) :
    (s.ttlDone k).receivers = s.receivers := by
  unfold ttlDone
  split
  · rename_i x hx
    exact receivers_setSession hx { x with ttl := .done } rfl rfl
  · rfl

/-- An expiry takes the session from the map and leaves the receivers where they are. -/
theorem expireSession_spec {s s' : Server} {k : SessionRef} {x : Session}
    (h : s.expireSession k x = some s') :
    s'.map = s.map.erase x.sid ∧ s'.receivers = s.receivers := by
  unfold expireSession at h
  dsimp only at h
  split at h
  · cases h
    exact ⟨ttlDone_map _ k, receivers_ttlDone _ k⟩
  rename_i g hlookup
  split at h
  · cases h
  rename_i y hy
  have htarget : ∀ y₁ : Session, y₁.sid = y.sid → y₁.upRx = y.upRx →
      ({ s with map := s.map.erase x.sid }.setSession g y₁).receivers = s.receivers :=
    fun y₁ hsid hrx =>
      receivers_setSession (s := { s with map := s.map.erase x.sid }) hy y₁ hsid hrx
  split at h
  · cases h
    exact ⟨ttlDone_map _ k, receivers_ttlDone _ k⟩
  split at h
  · cases h
    exact ⟨ttlDone_map _ k, (receivers_ttlDone _ k).trans (htarget _ rfl rfl)⟩
  split at h
  · rename_i x₁ hx₁
    cases h
    have hsending := receivers_setSession hx₁ { x₁ with ttl := .sendingEof g } rfl rfl
    exact ⟨rfl, hsending.trans (htarget { y with locked := true } rfl rfl)⟩
  · cases h

/-- The step that takes the map removes a session from it. -/
theorem takeMap_spec {s s' : Server} {k : SessionRef} (h : s.step (.takeMap k) = some s') :
    ∃ x, s.sessions k = some x ∧ s'.map = s.map.erase x.sid ∧ s'.receivers = s.receivers := by
  simp only [step] at h
  split at h
  · cases h
  split at h
  case h_2 => cases h
  rename_i x hx
  split at h
  · exact ⟨x, hx, expireSession_spec h⟩
  · cases h
    exact ⟨x, hx, ttlDone_map _ k, receivers_ttlDone _ k⟩
  · cases h

/-- What a step does to the receiver of a session that was there before. -/
def Kept (s : Server) (e : Event) (g : SessionRef) (x' : Session) : Prop :=
  ∃ x, s.sessions g = some x ∧ x'.sid = x.sid ∧ s.Went e g x x'

theorem kept_of_receivers {s s' : Server} {e : Event} {g : SessionRef} {x' : Session}
    (h : s'.receivers = s.receivers) (hx' : s'.sessions g = some x') : s.Kept e g x' := by
  have hg := congrFun h g
  rw [receivers, hx', Option.map_some, eq_comm, receivers, Option.map_eq_some_iff] at hg
  obtain ⟨x, hx, heq⟩ := hg
  rw [Prod.mk.injEq] at heq
  exact ⟨x, hx, heq.1.symm, .stayed heq.2.symm⟩

theorem kept_update {s : Server} {e : Event} {g j : SessionRef} {x x₁ x' : Session}
    (hx : s.sessions g = some x) (hx' : Function.update s.sessions g (some x₁) j = some x')
    (hsid : x₁.sid = x.sid) (hwent : s.Went e g x x₁) : s.Kept e j x' := by
  rcases eq_or_ne j g with rfl | hne
  · rw [Function.update_self] at hx'
    cases hx'
    exact ⟨x, hx, hsid, hwent⟩
  · rw [Function.update_of_ne hne] at hx'
    exact ⟨x', hx', rfl, .stayed rfl⟩

/-- A GET takes the receiver. -/
theorem kept_serveGet {s : Server} {t : TaskId} {g j : SessionRef} {x x' : Session}
    (hreq : s.requests.lookup t = some (.getLocking g)) (hx : s.sessions g = some x)
    (hx' : (s.serveGet t g x).sessions j = some x') : s.Kept (.lock t) j x' := by
  unfold serveGet at hx'
  split at hx'
  · rename_i hin
    split at hx'
    · exact kept_update hx hx' rfl (.taken t rfl hreq hin (.inr rfl))
    · exact kept_update hx hx' rfl (.taken t rfl hreq hin (.inl rfl))
  · exact ⟨x', hx', rfl, .stayed rfl⟩

/-- A session that was made is in the map. -/
theorem getOrCreateSession_sessions {s : Server} {sid : String} {g : SessionRef} {x' : Session}
    (hx' : (s.getOrCreateSession sid).1.sessions g = some x') :
    s.sessions g = some x' ∨ (g = s.nextSession ∧
      (s.getOrCreateSession sid).1.map.lookup x'.sid = some g ∧ x'.upRx = .inSession) := by
  unfold getOrCreateSession at hx' ⊢
  split
  · rename_i g₀ hg₀
    simp only [hg₀] at hx'
    exact .inl hx'
  · rename_i hnone
    simp only [hnone] at hx'
    rcases eq_or_ne g s.nextSession with rfl | hne
    · right
      rw [Function.update_self] at hx'
      cases hx'
      exact ⟨rfl, AList.lookup_insert _, rfl⟩
    · left
      rw [Function.update_of_ne hne] at hx'
      exact hx'

/-- **Receivers.**  What a step does to the receivers of the upload channels; a new session
is in the map with its receiver. -/
theorem step_receiver {s s' : Server} {e : Event} {g : SessionRef} {x' : Session}
    (h : s.step e = some s') (hx' : s'.sessions g = some x') :
    s.Kept e g x' ∨
      (g = s.nextSession ∧ s'.map.lookup x'.sid = some g ∧ x'.upRx = .inSession) := by
  cases e with
  | lookup t =>
    have hfound : ∀ sid, (s.getOrCreateSession sid).1.sessions g = some x' →
        s.Kept (.lookup t) g x' ∨ (g = s.nextSession ∧
          (s.getOrCreateSession sid).1.map.lookup x'.sid = some g ∧ x'.upRx = .inSession) :=
      fun sid hg =>
      (getOrCreateSession_sessions hg).imp_left fun hx => ⟨x', hx, rfl, .stayed rfl⟩
    simp only [step] at h
    split at h
    · cases h
    split at h
    · cases h
      exact hfound _ hx'
    · cases h
      exact hfound _ hx'
    · cases h
  | lock t =>
    left
    simp only [step] at h
    split at h
    case h_3 => cases h
    case h_1 g₀ hreq =>
      split at h
      case h_2 => cases h
      rename_i x hx
      split at h
      · cases h
      cases h
      exact kept_serveGet hreq hx hx'
    case h_2 sid g₀ upload hreq =>
      split at h
      case h_2 => cases h
      split at h
      · cases h
      cases h
      unfold servePost at hx'
      split at hx'
      · exact ⟨x', hx', rfl, .stayed rfl⟩
      · exact ⟨x', hx', rfl, .stayed rfl⟩
      · exact ⟨x', hx', rfl, .stayed rfl⟩
  | get t sid | post t sid upload =>
    simp only [step] at h
    split at h
    · cases h
    cases h
    exact .inl ⟨x', hx', rfl, .stayed rfl⟩
  | collected t data | frame t data =>
    simp only [step] at h
    split at h
    case h_2 => cases h
    split at h
    · cases h
      exact .inl ⟨x', hx', rfl, .stayed rfl⟩
    · cases h
      exact .inl ⟨x', hx', rfl, .stayed rfl⟩
  | send t =>
    left
    simp only [step] at h
    split at h
    case h_3 => cases h
    all_goals
      split at h
      case h_2 => cases h
      rename_i x hx
      split at h
      case isTrue =>
        cases h
        exact ⟨x', hx', rfl, .stayed rfl⟩
      split at h
      case isFalse => cases h
      cases h
      exact kept_update hx hx' rfl (.stayed rfl)
  | cancel t =>
    simp only [step] at h
    split at h
    · cases h
    · cases h
    · cases h
      exact .inl ⟨x', hx', rfl, .stayed rfl⟩
    · cases h
  | ready g₀ =>
    left
    simp only [step] at h
    split at h
    case h_2 => cases h
    rename_i x hx
    split at h
    case isFalse => cases h
    rename_i hrx
    cases h
    exact kept_update hx hx' rfl (.ready rfl hrx rfl)
  | accept g₀ =>
    left
    simp only [step] at h
    split at h
    case h_2 => cases h
    rename_i x hx
    split at h
    case isFalse => cases h
    rename_i hrx
    cases h
    exact kept_update hx hx' rfl (.accepted rfl hrx rfl)
  | dropStream g₀ =>
    left
    simp only [step] at h
    split at h
    case h_2 => cases h
    rename_i x hx
    split at h
    case isFalse => cases h
    rename_i hrx
    cases h
    exact kept_update hx hx' rfl (.dropped rfl hrx rfl)
  | consume g₀ =>
    left
    simp only [step] at h
    split at h
    case h_2 => cases h
    rename_i x hx
    split at h
    · cases h
      exact kept_update hx hx' rfl (.stayed rfl)
    · cases h
  | notified g₀ | expire g₀ | lingerEnd g₀ =>
    left
    simp only [step] at h
    split at h
    case h_2 => cases h
    rename_i x hx
    split at h
    case h_2 => cases h
    split at h
    case isFalse => cases h
    cases h
    exact kept_update hx hx' rfl (.stayed rfl)
  | takeMap k =>
    obtain ⟨x, -, -, hreceivers⟩ := takeMap_spec h
    exact .inl (kept_of_receivers hreceivers hx')
  | eofSent k =>
    left
    simp only [step] at h
    split at h
    case h_2 => cases h
    split at h
    case h_2 => cases h
    split at h
    case h_2 => cases h
    rename_i g₀ _ _ y hy
    have hdone : ∀ y₁ : Session, ((s.setSession g₀ y₁).ttlDone k).sessions g = some x' →
        y₁.sid = y.sid → y₁.upRx = y.upRx → s.Kept (.eofSent k) g x' := fun y₁ hx' hsid hrx =>
      kept_of_receivers
        ((receivers_ttlDone _ k).trans (receivers_setSession hy y₁ hsid hrx)) hx'
    split at h
    · cases h
      exact hdone _ hx' rfl rfl
    split at h
    · cases h
      exact hdone _ hx' rfl rfl
    · cases h
  | wait ms =>
    cases h
    exact .inl ⟨x', hx', rfl, .stayed rfl⟩

/-! ## Sessions that stay -/

/-- Sessions are never taken back. -/
theorem Moves.places_ne_none {s s' : Server} {e : Event} {g : SessionRef} (h : s.Moves e s')
    (hg : s.places g ≠ none) : s'.places g ≠ none := by
  have hother : ∀ {k p}, s'.places = Function.update s.places k (some p) →
      s'.places g ≠ none := by
    intro k p hplaces
    rw [hplaces]
    rcases eq_or_ne g k with rfl | hne
    · rw [Function.update_self]
      nofun
    · rwa [Function.update_of_ne hne]
  cases h with
  | stays hmap h => rwa [h]
  | creates sid hnone hmap h => exact hother h
  | removes k sid place he hk hplace hmap h => exact hother h
  | ends k sid g' hk hmap h => exact hother h

/-- A session after a step. -/
theorem step_session {s s' : Server} {e : Event} {g : SessionRef} {x : Session}
    (hs : s.Placed) (h : s.step e = some s') (hx : s.sessions g = some x) :
    ∃ x', s'.sessions g = some x' ∧ s.Went e g x x' := by
  have hplace : s.places g ≠ none := by
    rw [places, hx]
    exact Option.some_ne_none _
  have hplace' := (step_moves h).places_ne_none hplace
  cases hx' : s'.sessions g with
  | none =>
    rw [places, hx'] at hplace'
    exact absurd rfl hplace'
  | some x' =>
    rcases step_receiver h hx' with ⟨x₁, hx₁, -, hwent⟩ | ⟨rfl, -⟩
    · rw [hx] at hx₁
      cases hx₁
      exact ⟨x', rfl, hwent⟩
    · exact absurd hs.fresh hplace

/-! ## Records that are gone -/

/-- A session that was removed stays removed. -/
theorem Moves.removed {s s' : Server} {e : Event} {g : SessionRef} {sid : String}
    (hs : s.Placed) (h : s.Moves e s') (hg : s.places g = some (sid, .removed)) :
    s'.places g = some (sid, .removed) := by
  have hother : ∀ {k p}, s.places k ≠ some (sid, .removed) →
      s'.places = Function.update s.places k p → s'.places g = some (sid, .removed) := by
    rintro k p hk hplaces
    have hne : g ≠ k := by
      rintro rfl
      exact hk hg
    rw [hplaces, Function.update_of_ne hne]
    exact hg
  cases h with
  | stays hmap h => rwa [h]
  | creates sid' hnone hmap h => exact hother (by rw [hs.fresh]; nofun) h
  | removes k sid' place he hk hplace hmap h => exact hother (by rw [hk]; nofun) h
  | ends k sid' g' hk hmap h => exact hother (by rw [hk]; nofun) h

/-- A session is removed when its TTL task is over. -/
theorem places_removed_iff {s : Server} {g : SessionRef} {x : Session}
    (hx : s.sessions g = some x) : s.places g = some (x.sid, .removed) ↔ x.ttl = .done := by
  rw [places, hx, Option.map_some, Session.place]
  cases x.ttl <;> simp [TtlTask.place]

/-- A record that is gone stays gone: no request can find the session any more. -/
theorem RecordGone.step {s s' : Server} {e : Event} {g : SessionRef} {x x' : Session}
    (hs : s.Placed) (h : s.step e = some s') (hx : s.sessions g = some x)
    (hx' : s'.sessions g = some x') (hgone : s.RecordGone g x) : s'.RecordGone g x' := by
  have hremoved := (step_moves h).removed hs ((places_removed_iff hx).mpr hgone.1)
  have hdone : x'.ttl = .done := by
    have hsid : x'.sid = x.sid := by
      rw [places, hx', Option.map_some] at hremoved
      exact congrArg Prod.fst (Option.some.inj hremoved)
    rw [← hsid] at hremoved
    exact (places_removed_iff hx').mp hremoved
  refine ⟨hdone, fun t r' hr' hlocks => ?_⟩
  cases step_requests h hr' with
  | stayed hr => exact hgone.2 t r' hr hlocks
  | wentOn r hr hgo => cases hgo <;> cases hlocks
  | arrived harrived =>
    rcases harrived with ⟨sid, rfl⟩ | ⟨sid, upload, rfl⟩
    · cases hlocks
    · cases hlocks
  | found sid g' hg' hfound =>
    have hmapped := ((step_placed hs h).mapped sid g').mp hg'
    rcases hfound with rfl | ⟨upload, rfl⟩
    all_goals
      cases hlocks
      rw [hremoved] at hmapped
      cases hmapped

/-- No request has a sender of the upload channel of a session. -/
def NoSender (s : Server) (g : SessionRef) : Prop :=
  ∀ t r, s.requests.lookup t = some r → r.upTx ≠ some g

/-- Without the record, no request comes to a sender. -/
theorem NoSender.step {s s' : Server} {e : Event} {g : SessionRef} {x : Session}
    (h : s.step e = some s') (hgone : s.RecordGone g x) (hno : s.NoSender g) : s'.NoSender g := by
  intro t r' hr' hup
  cases step_requests h hr' with
  | stayed hr => exact hno t r' hr hup
  | wentOn r hr hgo =>
    cases hgo with
    | stream sid g' | packet sid g' seq =>
      cases hup
      exact hgone.2 t _ hr rfl
    | body sid g' seq data | frame g' data | chunk g' data =>
      cases hup
      exact hno t _ hr rfl
  | arrived harrived =>
    rcases harrived with ⟨sid, rfl⟩ | ⟨sid, upload, rfl⟩
    · cases hup
    · cases hup
  | found sid g' hg' hfound =>
    rcases hfound with rfl | ⟨upload, rfl⟩
    · cases hup
    · cases hup

end Server

end Ruproxy.Xhttp
