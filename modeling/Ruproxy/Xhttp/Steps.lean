/-
  Xhttp/Steps.lean --- what a step does to the map and to the sessions.

  Nearly all steps are quiet for the lock of the map: its holder stays, a session
  keeps its part in an expiry, and its channel only shrinks where a stream has the
  receiver.  The two that are not are the expiry that finds a full channel, which
  takes the map with it into `up_tx.send`, and the end of that send.
-/
import Ruproxy.Xhttp.Session

set_option autoImplicit false

namespace Ruproxy.Xhttp

open Ruproxy.Foundation
open Ruproxy.Foundation.Transition

/-- When the expiry of a session takes the map, fewer than 64 items wait in the upload
channel of the session it removes, or a GET has taken the receiver. -/
def ExpiryHasRoom (s : Server) (e : Event) : Prop :=
  match e with
  | .takeMap k =>
      ∀ x g y, s.sessions k = some x → x.ttl = .expired → s.map.lookup x.sid = some g →
        s.sessions g = some y → y.up.length < upCapacity ∨ y.upRx ≠ .inSession
  | _ => True

/-! ## Sessions -/

/-- What a step that is not about the end of a TTL task does to a session. -/
structure Session.Goes (x x' : Session) : Prop where
  ttl : ∀ g, x'.ttl = .sendingEof g ↔ x.ttl = .sendingEof g
  locked : x'.locked = x.locked
  stays : x.locked = true → x.upRx = .inSession → x'.upRx = .inSession
  inSession : x'.upRx = .inSession → x.upRx = .inSession ∧ x.up.length ≤ x'.up.length

theorem Session.Goes.refl (x : Session) : x.Goes x :=
  ⟨fun _ => .rfl, rfl, fun _ h => h, fun h => ⟨h, Nat.le_refl _⟩⟩

theorem Session.Goes.trans {x y z : Session} (hxy : x.Goes y) (hyz : y.Goes z) : x.Goes z where
  ttl g := (hyz.ttl g).trans (hxy.ttl g)
  locked := hyz.locked.trans hxy.locked
  stays hl hx := hyz.stays (hxy.locked ▸ hl) (hxy.stays hl hx)
  inSession hz := by
    obtain ⟨hy, hle⟩ := hyz.inSession hz
    obtain ⟨hx, hle'⟩ := hxy.inSession hy
    exact ⟨hx, Nat.le_trans hle' hle⟩

namespace Server

/-- The map holder stays, sessions go on, and new ones have a fresh TTL task. -/
structure Quiet (s s' : Server) : Prop where
  holder : s'.mapHolder = s.mapHolder
  goes : ∀ g x, s.sessions g = some x → ∃ x', s'.sessions g = some x' ∧ x.Goes x'
  origin : ∀ g x', s'.sessions g = some x' →
    (∃ x, s.sessions g = some x ∧ x.Goes x') ∨ ∀ k, x'.ttl ≠ .sendingEof k
  fresh : (∀ g, s.nextSession ≤ g → s.sessions g = none) →
    ∀ g, s'.nextSession ≤ g → s'.sessions g = none

theorem ne_of_none {s : Server} {j g : SessionRef} {x : Session} (hj : s.sessions j = none)
    (hg : s.sessions g = some x) : j ≠ g := by
  rintro rfl
  rw [hj] at hg
  exact nomatch hg

theorem quiet_of_eq {s s' : Server} (hholder : s'.mapHolder = s.mapHolder)
    (hsessions : s'.sessions = s.sessions) (hnext : s'.nextSession = s.nextSession) :
    s.Quiet s' where
  holder := hholder
  goes g x hx := ⟨x, by rw [hsessions]; exact hx, .refl x⟩
  origin g x' hx' := .inl ⟨x', by rw [← hsessions]; exact hx', .refl x'⟩
  fresh hfresh g hg := by
    rw [hsessions]
    exact hfresh g (hnext ▸ hg)

theorem quiet_update {s s' : Server} {g : SessionRef} {x x' : Session}
    (hx : s.sessions g = some x) (hsessions : s'.sessions = Function.update s.sessions g (some x'))
    (hgoes : x.Goes x') (hholder : s'.mapHolder = s.mapHolder)
    (hnext : s'.nextSession = s.nextSession) : s.Quiet s' where
  holder := hholder
  goes j y hy := by
    rw [hsessions]
    by_cases hj : j = g
    · subst hj
      rw [hx] at hy
      obtain rfl := Option.some.inj hy
      exact ⟨x', Function.update_self .., hgoes⟩
    · exact ⟨y, by rw [Function.update_of_ne hj]; exact hy, .refl y⟩
  origin j y' hy' := by
    left
    rw [hsessions] at hy'
    by_cases hj : j = g
    · subst hj
      rw [Function.update_self] at hy'
      obtain rfl := Option.some.inj hy'
      exact ⟨x, hx, hgoes⟩
    · rw [Function.update_of_ne hj] at hy'
      exact ⟨y', hy', .refl y'⟩
  fresh hfresh j hj := by
    have hnone := hfresh j (hnext ▸ hj)
    rw [hsessions, Function.update_of_ne (ne_of_none hnone hx)]
    exact hnone

theorem Quiet.trans {s s₁ s' : Server} (h₁ : s.Quiet s₁) (h₂ : s₁.Quiet s') : s.Quiet s' where
  holder := h₂.holder.trans h₁.holder
  goes g x hx := by
    obtain ⟨x₁, hx₁, hgo₁⟩ := h₁.goes g x hx
    obtain ⟨x', hx', hgo₂⟩ := h₂.goes g x₁ hx₁
    exact ⟨x', hx', hgo₁.trans hgo₂⟩
  origin g x' hx' := by
    rcases h₂.origin g x' hx' with ⟨x₁, hx₁, hgo₂⟩ | hne
    · rcases h₁.origin g x₁ hx₁ with ⟨x, hx, hgo₁⟩ | hne
      · exact .inl ⟨x, hx, hgo₁.trans hgo₂⟩
      · exact .inr fun k => mt (hgo₂.ttl k).mp (hne k)
    · exact .inr hne
  fresh hfresh := h₂.fresh (h₁.fresh hfresh)

/-- Finding or creating a session leaves those there are alone. -/
theorem quiet_getOrCreateSession {s : Server}
    (hfresh : ∀ g, s.nextSession ≤ g → s.sessions g = none) (sid : String) :
    s.Quiet (s.getOrCreateSession sid).1 := by
  unfold getOrCreateSession
  split
  · exact quiet_of_eq rfl rfl rfl
  · have hne : ∀ {g x}, s.sessions g = some x → g ≠ s.nextSession :=
      fun hx => (ne_of_none (hfresh _ (Nat.le_refl _)) hx).symm
    dsimp only
    refine ⟨rfl, fun g x hx => ?_, fun g x' hx' => ?_, fun _ g hg => ?_⟩
    · exact ⟨x, (Function.update_of_ne (hne hx) ..).trans hx, .refl x⟩
    · dsimp only at hx'
      by_cases hg : g = s.nextSession
      · right
        subst hg
        rw [Function.update_self] at hx'
        obtain rfl := Option.some.inj hx'
        exact fun _ => nofun
      · rw [Function.update_of_ne hg] at hx'
        exact .inl ⟨x', hx', .refl x'⟩
    · have hlt : s.nextSession < g := hg
      show Function.update s.sessions _ _ g = none
      rw [Function.update_of_ne (Nat.ne_of_gt hlt)]
      exact hfresh g (Nat.le_of_lt hlt)

/-! ## What a step does -/

/-- The TTL task of `k` finds the channel of `g` full and waits with both locks. -/
structure Blocks (s s' : Server) (k g : SessionRef) (y : Session) : Prop where
  free : s.mapHolder = none
  expired : ∃ x, s.sessions k = some x ∧ x.ttl = .expired ∧ s.map.lookup x.sid = some g
  target : s.sessions g = some y
  full : upCapacity ≤ y.up.length
  holder : s'.mapHolder = some k
  sends : ∃ x', s'.sessions k = some x' ∧ x'.ttl = .sendingEof g
  locked : ∃ y', s'.sessions g = some y' ∧ y'.locked = true ∧ y'.upRx = y.upRx ∧ y'.up = y.up
  origin : ∀ j x', j ≠ k → s'.sessions j = some x' →
    ∃ x, s.sessions j = some x ∧ x'.ttl = x.ttl
  fresh : (∀ g, s.nextSession ≤ g → s.sessions g = none) →
    ∀ g, s'.nextSession ≤ g → s'.sessions g = none

/-- The TTL task of `k` sends `Eof` to `g`, or finds the channel closed, and ends. -/
structure Releases (s s' : Server) (k g : SessionRef) (y : Session) : Prop where
  sends : ∃ x, s.sessions k = some x ∧ x.ttl = .sendingEof g
  target : s.sessions g = some y
  room : y.upRx = .dropped ∨ y.up.length < upCapacity
  holder : s'.mapHolder = none
  done : ∃ x', s'.sessions k = some x' ∧ x'.ttl = .done
  origin : ∀ j x', j ≠ k → s'.sessions j = some x' →
    ∃ x, s.sessions j = some x ∧ x'.ttl = x.ttl
  fresh : (∀ g, s.nextSession ≤ g → s.sessions g = none) →
    ∀ g, s'.nextSession ≤ g → s'.sessions g = none

/-- A TTL task changes its target and then itself: every other TTL task stays as it is. -/
theorem ttl_of_update_two {s : Server} {g k j : SessionRef} {y y' z x' : Session}
    (hy : s.sessions g = some y) (hj : j ≠ k)
    (hx' : Function.update (Function.update s.sessions g (some y')) k (some z) j = some x')
    (httl : y'.ttl = y.ttl) :
    ∃ x, s.sessions j = some x ∧ x'.ttl = x.ttl := by
  rw [Function.update_of_ne hj] at hx'
  by_cases hjg : j = g
  · subst hjg
    rw [Function.update_self] at hx'
    obtain rfl := Option.some.inj hx'
    exact ⟨y, hy, httl⟩
  · rw [Function.update_of_ne hjg] at hx'
    exact ⟨x', hx', rfl⟩

/-- Nor does it create a session. -/
theorem none_of_update_two {s : Server} {g k j : SessionRef} {x y : Session} (z z' : Session)
    (hx : s.sessions k = some x) (hy : s.sessions g = some y) (hnone : s.sessions j = none) :
    Function.update (Function.update s.sessions g (some z)) k (some z') j = none := by
  rw [Function.update_of_ne (ne_of_none hnone hx), Function.update_of_ne (ne_of_none hnone hy)]
  exact hnone

theorem ttlDone_of {s : Server} {k : SessionRef} {x : Session} (hx : s.sessions k = some x) :
    s.ttlDone k = { s.setSession k { x with ttl := .done } with mapHolder := none } := by
  simp only [ttlDone, hx]

/-- Handing a session its next request. -/
theorem quiet_lock {s s' : Server} {t : TaskId} (h : s.step (.lock t) = some s') :
    s.Quiet s' := by
  simp only [step] at h
  split at h
  case h_3 => exact nomatch h
  case h_1 g hreq =>
    split at h
    case h_2 => exact nomatch h
    rename_i x hx
    split at h
    case isTrue => exact nomatch h
    rename_i hlocked
    obtain rfl := Option.some.inj h
    unfold serveGet
    split
    · split
      · exact quiet_update hx rfl
          ⟨fun _ => .rfl, rfl, fun hl => absurd hl hlocked, nofun⟩ rfl rfl
      · exact quiet_update hx rfl
          ⟨fun _ => .rfl, rfl, fun hl => absurd hl hlocked, nofun⟩ rfl rfl
    · exact quiet_of_eq rfl rfl rfl
  case h_2 sid g upload hreq =>
    split at h
    case h_2 => exact nomatch h
    split at h
    case isTrue => exact nomatch h
    obtain rfl := Option.some.inj h
    unfold servePost
    split <;> exact quiet_of_eq rfl rfl rfl

/-- An upload returns: its channel may have grown by an item. -/
theorem quiet_send {s s' : Server} {t : TaskId} (h : s.step (.send t) = some s') :
    s.Quiet s' := by
  have hgrow : ∀ (x : Session) (item : UploadPacket),
      x.Goes { x with up := x.up ++ [item] } := fun x item =>
    ⟨fun _ => .rfl, rfl, fun _ hx => hx, fun hx => ⟨hx, by simp⟩⟩
  simp only [step] at h
  split at h
  case h_3 => exact nomatch h
  all_goals
    split at h
    case h_2 => exact nomatch h
    rename_i x hx
    split at h
    case isTrue =>
      obtain rfl := Option.some.inj h
      exact quiet_of_eq rfl rfl rfl
    split at h
    case isFalse => exact nomatch h
    obtain rfl := Option.some.inj h
    exact quiet_update hx rfl (hgrow x _) rfl rfl

/-- The events that are about one session: its stream moves on, or its TTL task does
without the map. -/
theorem quiet_session {s s' : Server} {g : SessionRef} {e : Event}
    (he : e = .ready g ∨ e = .accept g ∨ e = .consume g ∨ e = .dropStream g ∨ e = .notified g ∨
      e = .expire g ∨ e = .lingerEnd g)
    (h : s.step e = some s') : s.Quiet s' := by
  have hstream : ∀ {x : Session} {up : List UploadPacket} {rx : Receiver},
      x.upRx ≠ .inSession → rx ≠ .inSession → x.Goes { x with up := up, upRx := rx } :=
    fun hx hrx => ⟨fun _ => .rfl, rfl, fun _ hin => absurd hin hx, fun hin => absurd hin hrx⟩
  have httl : ∀ {x : Session} {arrived : Bool} {ttl : TtlTask},
      (∀ g, x.ttl ≠ .sendingEof g) → (∀ g, ttl ≠ .sendingEof g) →
      x.Goes { x with getArrived := arrived, ttl := ttl } :=
    fun hx hnew => ⟨fun g => iff_of_false (hnew g) (hx g), rfl, fun _ hin => hin,
      fun hin => ⟨hin, Nat.le_refl _⟩⟩
  rcases he with rfl | rfl | rfl | rfl | rfl | rfl | rfl
  all_goals
    simp only [step] at h
    split at h
    case h_2 => exact nomatch h
    rename_i x hx
    split at h
    all_goals try contradiction
  · rename_i hrx
    obtain rfl := Option.some.inj h
    exact quiet_update hx rfl (hstream (by simp [hrx]) nofun) rfl rfl
  · rename_i hrx
    obtain rfl := Option.some.inj h
    exact quiet_update hx rfl (hstream (by simp [hrx]) nofun) rfl rfl
  · rename_i hrx hup
    obtain rfl := Option.some.inj h
    exact quiet_update hx rfl (hstream (by simp [hrx]) (by simp [hrx])) rfl rfl
  · rename_i hrx
    obtain rfl := Option.some.inj h
    exact quiet_update hx rfl (hstream (by rcases hrx with hrx | hrx <;> simp [hrx]) nofun) rfl rfl
  all_goals
    rename_i hold
    split at h
    case isFalse => exact nomatch h
    obtain rfl := Option.some.inj h
    exact quiet_update hx rfl (httl (by simp [hold]) nofun) rfl rfl

/-- A TTL task that never held the map across an `await` ends quietly. -/
theorem quiet_ttlDone {s : Server} {k : SessionRef} {x : Session} (hx : s.sessions k = some x)
    (hfree : s.mapHolder = none) (hne : ∀ g, x.ttl ≠ .sendingEof g) :
    s.Quiet (s.ttlDone k) := by
  rw [ttlDone_of hx]
  refine quiet_update hx rfl
    ⟨fun g => ?_, rfl, fun _ h => h, fun h => ⟨h, Nat.le_refl _⟩⟩ hfree.symm rfl
  exact iff_of_false nofun (hne g)

/-- An expiry that holds the map ends at once, or blocks. -/
theorem expireSession_cases {s s' : Server} {k : SessionRef} {x : Session}
    (hx : s.sessions k = some x) (httl : x.ttl = .expired) (hfree : s.mapHolder = none)
    (h : s.expireSession k x = some s') :
    (s.Quiet s' ∧ ExpiryHasRoom s (.takeMap k)) ∨ ∃ g y, s.Blocks s' k g y := by
  have hne : ∀ g, x.ttl ≠ .sendingEof g := fun g => by rw [httl]; nofun
  have herase : s.Quiet { s with map := s.map.erase x.sid } := quiet_of_eq rfl rfl rfl
  have hroom : (∀ g y, s.map.lookup x.sid = some g → s.sessions g = some y →
      y.up.length < upCapacity ∨ y.upRx ≠ .inSession) → ExpiryHasRoom s (.takeMap k) := by
    intro hall x₁ g y hx₁ _
    rw [hx] at hx₁
    obtain rfl := Option.some.inj hx₁
    exact hall g y
  unfold expireSession at h
  dsimp only at h
  split at h
  case h_1 hlookup =>
    obtain rfl := Option.some.inj h
    exact .inl ⟨herase.trans (quiet_ttlDone hx hfree hne),
      hroom fun g y hg => by rw [hlookup] at hg; exact nomatch hg⟩
  rename_i g hlookup
  split at h
  case h_1 => exact nomatch h
  rename_i y hy
  have htarget : ∀ {P : Session → Prop}, P y →
      ∀ g' y', s.map.lookup x.sid = some g' → s.sessions g' = some y' → P y' := by
    intro P hP g' y' hg' hy'
    rw [hlookup] at hg'
    obtain rfl := Option.some.inj hg'
    rw [hy] at hy'
    obtain rfl := Option.some.inj hy'
    exact hP
  split at h
  case isTrue hdropped =>
    obtain rfl := Option.some.inj h
    exact .inl ⟨herase.trans (quiet_ttlDone hx hfree hne),
      hroom (htarget (P := fun y => y.up.length < upCapacity ∨ y.upRx ≠ .inSession)
        (.inr (by rw [hdropped]; nofun)))⟩
  split at h
  case isTrue hlt =>
    left
    obtain rfl := Option.some.inj h
    refine ⟨?_, hroom (htarget (P := fun y => y.up.length < upCapacity ∨ y.upRx ≠ .inSession)
      (.inl hlt))⟩
    have hsent : s.Quiet ({ s with map := s.map.erase x.sid }.setSession g
        { y with up := y.up ++ [UploadPacket.eof] }) :=
      quiet_update hy rfl ⟨fun _ => .rfl, rfl, fun _ h => h, fun h => ⟨h, by simp⟩⟩ rfl rfl
    obtain ⟨x₁, hx₁, hgo⟩ := hsent.goes k x hx
    exact hsent.trans (quiet_ttlDone hx₁ hfree fun g => mt (hgo.ttl g).mp (hne g))
  rename_i hdropped hfull
  right
  split at h
  case h_2 => exact nomatch h
  rename_i x₁ hx₁
  obtain rfl := Option.some.inj h
  refine ⟨g, y, hfree, ⟨x, hx, httl, hlookup⟩, hy, Nat.le_of_not_lt hfull, rfl,
    ⟨_, Function.update_self .., rfl⟩, ?_, ?_, ?_⟩
  · by_cases hgk : g = k
    · subst hgk
      dsimp only [setSession] at hx₁
      rw [Function.update_self] at hx₁
      obtain rfl := Option.some.inj hx₁
      exact ⟨_, Function.update_self .., rfl, rfl, rfl⟩
    · exact ⟨_, (Function.update_of_ne hgk ..).trans (Function.update_self ..), rfl, rfl, rfl⟩
  · intro j x' hj hx'
    exact ttl_of_update_two hy hj hx' rfl
  · intro hfresh j hj
    exact none_of_update_two _ _ hx hy (hfresh j hj)

/-- Taking the map: the TTL task ends at once, or blocks. -/
theorem takeMap_cases {s s' : Server} {k : SessionRef}
    (h : s.step (.takeMap k) = some s') :
    (s.Quiet s' ∧ ExpiryHasRoom s (.takeMap k)) ∨ ∃ g y, s.Blocks s' k g y := by
  simp only [step] at h
  split at h
  · exact nomatch h
  rename_i hfree
  have hfree : s.mapHolder = none := not_not.mp hfree
  split at h
  case h_2 => exact nomatch h
  rename_i x hx
  split at h
  case h_3 => exact nomatch h
  case h_2 httl =>
    left
    obtain rfl := Option.some.inj h
    have herase : s.Quiet { s with map := s.map.erase x.sid } := quiet_of_eq rfl rfl rfl
    refine ⟨herase.trans (quiet_ttlDone hx hfree (by simp [httl])), ?_⟩
    intro x₁ g y hx₁ hexpired
    rw [hx] at hx₁
    obtain rfl := Option.some.inj hx₁
    rw [httl] at hexpired
    exact nomatch hexpired
  rename_i httl
  exact expireSession_cases hx httl hfree h

/-- A waiting `Eof` only goes on when there is room, or no receiver. -/
theorem eofSent_cases {s s' : Server} {k : SessionRef} (h : s.step (.eofSent k) = some s') :
    ∃ g y, s.Releases s' k g y := by
  simp only [step] at h
  split at h
  case h_2 => exact nomatch h
  rename_i x hx
  split at h
  case h_2 => exact nomatch h
  rename_i g httl
  split at h
  case h_2 => exact nomatch h
  rename_i y hy
  -- both ways out change the target and end the task
  have hdone : ∀ up, y.upRx = .dropped ∨ y.up.length < upCapacity →
      s.Releases ((s.setSession g { y with up := up, locked := false }).ttlDone k) k g y := by
    intro up hroom
    have hk : ∃ x₁, (s.setSession g { y with up := up, locked := false }).sessions k = some x₁ := by
      by_cases hkg : k = g
      · subst hkg
        exact ⟨_, Function.update_self ..⟩
      · exact ⟨x, (Function.update_of_ne hkg ..).trans hx⟩
    obtain ⟨x₁, hx₁⟩ := hk
    rw [ttlDone_of hx₁]
    refine ⟨⟨x, hx, httl⟩, hy, hroom, rfl, ⟨_, Function.update_self .., rfl⟩, ?_, ?_⟩
    · intro j x' hj hx'
      exact ttl_of_update_two hy hj hx' rfl
    · intro hfresh j hj
      exact none_of_update_two _ _ hx hy (hfresh j hj)
  refine ⟨g, y, ?_⟩
  split at h
  case isTrue hdropped =>
    obtain rfl := Option.some.inj h
    exact hdone y.up (.inl hdropped)
  split at h
  case isTrue hlt =>
    obtain rfl := Option.some.inj h
    exact hdone _ (.inr hlt)
  case isFalse => exact nomatch h

/-- What a step can do to the map and to the sessions. -/
theorem step_cases {s s' : Server} {e : Event}
    (hfresh : ∀ g, s.nextSession ≤ g → s.sessions g = none) (h : s.step e = some s') :
    (s.Quiet s' ∧ ExpiryHasRoom s e) ∨ (∃ k g y, e = .takeMap k ∧ s.Blocks s' k g y) ∨
      ∃ k g y, e = .eofSent k ∧ s.Releases s' k g y := by
  cases e with
  | takeMap k =>
    rcases takeMap_cases h with hquiet | ⟨g, y, hblocks⟩
    · exact .inl hquiet
    · exact .inr (.inl ⟨k, g, y, rfl, hblocks⟩)
  | eofSent k =>
    obtain ⟨g, y, hrel⟩ := eofSent_cases h
    exact .inr (.inr ⟨k, g, y, rfl, hrel⟩)
  | get t sid | post t sid upload =>
    simp only [step] at h
    split at h
    · exact nomatch h
    · obtain rfl := Option.some.inj h
      exact .inl ⟨quiet_of_eq rfl rfl rfl, trivial⟩
  | lookup t =>
    simp only [step] at h
    split at h
    · exact nomatch h
    have hrequest : ∀ (s₁ : Server) (r : Request), s.Quiet s₁ → s.Quiet (s₁.setRequest t r) :=
      fun s₁ r hquiet => hquiet.trans (quiet_of_eq rfl rfl rfl)
    split at h
    · obtain rfl := Option.some.inj h
      exact .inl ⟨hrequest _ _ (quiet_getOrCreateSession hfresh _), trivial⟩
    · obtain rfl := Option.some.inj h
      exact .inl ⟨hrequest _ _ (quiet_getOrCreateSession hfresh _), trivial⟩
    · exact nomatch h
  | lock t => exact .inl ⟨quiet_lock h, trivial⟩
  | send t => exact .inl ⟨quiet_send h, trivial⟩
  | collected t body | frame t body =>
    simp only [step] at h
    split at h
    · split at h <;>
      · obtain rfl := Option.some.inj h
        exact .inl ⟨quiet_of_eq rfl rfl rfl, trivial⟩
    · exact nomatch h
  | cancel t =>
    simp only [step] at h
    split at h
    · exact nomatch h
    · exact nomatch h
    · obtain rfl := Option.some.inj h
      exact .inl ⟨quiet_of_eq rfl rfl rfl, trivial⟩
    · exact nomatch h
  | wait ms =>
    obtain rfl := Option.some.inj h
    exact .inl ⟨quiet_of_eq rfl rfl rfl, trivial⟩
  | ready g | accept g | consume g | dropStream g | notified g | expire g | lingerEnd g =>
    exact .inl ⟨quiet_session (g := g) (by simp) h, trivial⟩

end Server

end Ruproxy.Xhttp
