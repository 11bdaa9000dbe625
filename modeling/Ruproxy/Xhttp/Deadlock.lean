/-
  Xhttp/Deadlock.lean --- when the session table is released.

  The expiry of a session sends `Eof` while it holds the map.  If the upload
  channel is full and its receiver still is in the session, no one can make room:
  a GET would have to lock the session, and new requests need the map.  The table
  then stays locked for good.  Otherwise the stream that has the receiver drains
  the channel or closes it, and the map is released.
-/
import Ruproxy.Xhttp.Steps

set_option autoImplicit false

namespace Ruproxy.Xhttp

open Ruproxy.Foundation
open Ruproxy.Foundation.Transition

/-! ## The property -/

/-- From here on, some task can make room in an upload channel or close it. -/
def Server.CanDrain (s : Server) (g : SessionRef) : Prop :=
  ∃ t y, Reachable Server.step s t ∧ t.sessions g = some y ∧
    (y.up.length < upCapacity ∨ y.upRx = .dropped)

/-- The moves of the streams' side and of the task that holds the map. -/
def OwnStep (_ : Server) : Event → Prop
  | .ready _ | .accept _ | .consume _ | .eofSent _ => True
  | _ => False

/-- A task that holds the map is not waiting for room that no one can make, and without
any further request it comes to its end and releases the map. -/
def Server.MapReleased (s : Server) : Prop :=
  ∀ k, s.mapHolder = some k →
    (∀ x g, s.sessions k = some x → x.ttl = .sendingEof g → s.CanDrain g) ∧
    ∃ t x, ReachableBy Server.step OwnStep s t ∧ t.mapHolder = none ∧
      t.sessions k = some x ∧ x.ttl = .done

namespace Server

/-! ## The invariant -/

/-- The map is held exactly by the TTL task that sends `Eof`, to a session it keeps
locked and whose channel is full as long as its receiver is there. -/
structure Inv (s : Server) : Prop where
  fresh : ∀ g, s.nextSession ≤ g → s.sessions g = none
  holder : ∀ k, s.mapHolder = some k → ∃ x g, s.sessions k = some x ∧ x.ttl = .sendingEof g
  sending : ∀ k x g, s.sessions k = some x → x.ttl = .sendingEof g →
    s.mapHolder = some k ∧ ∃ y, s.sessions g = some y ∧ y.locked = true ∧
      (y.upRx = .inSession → upCapacity ≤ y.up.length)

theorem inv_init : init.Inv where
  fresh _ _ := rfl
  holder _ h := nomatch h
  sending _ _ _ h := nomatch h

theorem Inv.quiet {s s' : Server} (hinv : s.Inv) (h : s.Quiet s') : s'.Inv where
  fresh := h.fresh hinv.fresh
  holder k hk := by
    obtain ⟨x, g, hx, httl⟩ := hinv.holder k (h.holder ▸ hk)
    obtain ⟨x', hx', hgo⟩ := h.goes k x hx
    exact ⟨x', g, hx', (hgo.ttl g).mpr httl⟩
  sending k x' g hx' httl := by
    rcases h.origin k x' hx' with ⟨x, hx, hgo⟩ | hne
    · obtain ⟨hk, y, hy, hlocked, hfull⟩ := hinv.sending k x g hx ((hgo.ttl g).mp httl)
      obtain ⟨y', hy', hgo'⟩ := h.goes g y hy
      refine ⟨h.holder.trans hk, y', hy', hgo'.locked.trans hlocked, fun hin => ?_⟩
      obtain ⟨hin, hle⟩ := hgo'.inSession hin
      exact Nat.le_trans (hfull hin) hle
    · exact absurd httl (hne g)

theorem Inv.blocks {s s' : Server} {k g : SessionRef} {y : Session} (hinv : s.Inv)
    (h : s.Blocks s' k g y) : s'.Inv where
  fresh := h.fresh hinv.fresh
  holder j hj := by
    rw [h.holder] at hj
    obtain rfl := Option.some.inj hj
    obtain ⟨x', hx', httl⟩ := h.sends
    exact ⟨x', g, hx', httl⟩
  sending j x' g' hx' httl := by
    by_cases hjk : j = k
    · subst hjk
      obtain ⟨x₁, hx₁, httl₁⟩ := h.sends
      rw [hx'] at hx₁
      obtain rfl := Option.some.inj hx₁
      rw [httl] at httl₁
      obtain rfl := TtlTask.sendingEof.inj httl₁
      obtain ⟨y', hy', hlocked, -, hup⟩ := h.locked
      exact ⟨h.holder, y', hy', hlocked, fun _ => hup ▸ h.full⟩
    · obtain ⟨x, hx, heq⟩ := h.origin j x' hjk hx'
      have hholder := (hinv.sending j x g' hx (heq ▸ httl)).1
      rw [h.free] at hholder
      exact nomatch hholder

/-- When the `Eof` is sent, no other task was sending one. -/
theorem Inv.releases_none {s s' : Server} {k g : SessionRef} {y : Session} (hinv : s.Inv)
    (h : s.Releases s' k g y) {j : SessionRef} {x' : Session} (hx' : s'.sessions j = some x')
    (g' : SessionRef) : x'.ttl ≠ .sendingEof g' := by
  intro httl
  obtain ⟨xk, hxk, hsends⟩ := h.sends
  have hk := (hinv.sending k xk g hxk hsends).1
  by_cases hjk : j = k
  · subst hjk
    obtain ⟨x₁, hx₁, hdone⟩ := h.done
    rw [hx'] at hx₁
    obtain rfl := Option.some.inj hx₁
    rw [httl] at hdone
    exact nomatch hdone
  · obtain ⟨x, hx, heq⟩ := h.origin j x' hjk hx'
    have hj := (hinv.sending j x g' hx (heq ▸ httl)).1
    rw [hk] at hj
    exact hjk (Option.some.inj hj).symm

theorem Inv.releases {s s' : Server} {k g : SessionRef} {y : Session} (hinv : s.Inv)
    (h : s.Releases s' k g y) : s'.Inv where
  fresh := h.fresh hinv.fresh
  holder j hj := by
    rw [h.holder] at hj
    exact nomatch hj
  sending j _ g' hx' httl := absurd httl (hinv.releases_none h hx' g')

theorem step_inv {s s' : Server} {e : Event} (hinv : s.Inv) (_ : True)
    (h : s.step e = some s') : s'.Inv := by
  rcases step_cases hinv.fresh h with ⟨hquiet, -⟩ | ⟨k, g, y, -, hblocks⟩ | ⟨k, g, y, -, hrel⟩
  · exact hinv.quiet hquiet
  · exact hinv.blocks hblocks
  · exact hinv.releases hrel

/-! ## The trap -/

/-- The TTL task of `k` sends to `g`, whose receiver still is in the session. -/
def Stuck (s : Server) (k g : SessionRef) : Prop :=
  ∃ x y, s.sessions k = some x ∧ x.ttl = .sendingEof g ∧ s.sessions g = some y ∧
    y.upRx = .inSession

/-- Once stuck, always stuck: the target stays locked, so no GET takes its receiver. -/
theorem Stuck.step {s s' : Server} {e : Event} {k g : SessionRef} (hinv : s.Inv)
    (hs : s.Stuck k g) (h : s.step e = some s') : s'.Stuck k g := by
  obtain ⟨x, y, hx, httl, hy, hin⟩ := hs
  obtain ⟨hk, y₁, hy₁, hlocked, hfull⟩ := hinv.sending k x g hx httl
  rw [hy] at hy₁
  obtain rfl := Option.some.inj hy₁
  rcases step_cases hinv.fresh h with
    ⟨hquiet, -⟩ | ⟨k', g', y', -, hblocks⟩ | ⟨k', g', y', -, hrel⟩
  · obtain ⟨x', hx', hgo⟩ := hquiet.goes k x hx
    obtain ⟨y', hy', hgo'⟩ := hquiet.goes g y hy
    exact ⟨x', y', hx', (hgo.ttl g).mpr httl, hy', hgo'.stays hlocked hin⟩
  · rw [hblocks.free] at hk
    exact nomatch hk
  · obtain ⟨x', hx', httl'⟩ := hrel.sends
    have hk' := (hinv.sending k' x' g' hx' httl').1
    rw [hk] at hk'
    obtain rfl := Option.some.inj hk'
    rw [hx] at hx'
    obtain rfl := Option.some.inj hx'
    rw [httl] at httl'
    obtain rfl := TtlTask.sendingEof.inj httl'
    have hy' := hrel.target
    rw [hy] at hy'
    obtain rfl := Option.some.inj hy'
    rcases hrel.room with hdropped | hlt
    · rw [hin] at hdropped
      exact nomatch hdropped
    · exact absurd (hfull hin) (Nat.not_le.mpr hlt)

/-- No one can ever make room for a stuck task. -/
theorem Stuck.not_canDrain {s : Server} {k g : SessionRef} (hinv : s.Inv)
    (hs : s.Stuck k g) : ¬ s.CanDrain g := by
  rintro ⟨t, y, hreach, hy, hroom⟩
  have hpres : Preserves Server.step (fun _ _ => True) (fun s : Server => s.Inv ∧ s.Stuck k g) :=
    fun hboth _ hst => ⟨step_inv hboth.1 trivial hst, hboth.2.step hboth.1 hst⟩
  obtain ⟨hinvt, x, y₁, hx, httl, hy₁, hin⟩ := hreach.invariant hpres ⟨hinv, hs⟩
  obtain ⟨-, y₂, hy₂, -, hfull⟩ := hinvt.sending k x g hx httl
  rw [hy] at hy₁ hy₂
  obtain rfl := Option.some.inj hy₁
  obtain rfl := Option.some.inj hy₂
  rcases hroom with hlt | hdropped
  · exact absurd (hfull hin) (Nat.not_le.mpr hlt)
  · rw [hin] at hdropped
    exact nomatch hdropped

/-! ## The way out -/

/-- The TTL task of `k` sends to `g`, whose receiver a GET has taken. -/
structure Waiting (k g : SessionRef) (s : Server) : Prop where
  inv : s.Inv
  sends : ∃ x, s.sessions k = some x ∧ x.ttl = .sendingEof g
  taken : ∀ y, s.sessions g = some y → y.upRx ≠ .inSession

/-- There is room in the channel of `g`, or no receiver. -/
def HasRoom (g : SessionRef) (s : Server) : Prop :=
  ∃ y, s.sessions g = some y ∧ (y.up.length < upCapacity ∨ y.upRx = .dropped)

/-- How far the stream that has the receiver is from making room. -/
def distance (g : SessionRef) (s : Server) : Nat :=
  match s.sessions g with
  | some y =>
      y.up.length + match y.upRx with
        | .withGet => 2
        | .queued => 1
        | _ => 0
  | none => 0

/-- A step of the stream of `g` keeps the task waiting. -/
theorem Waiting.quiet {k g : SessionRef} {s s' : Server} (hw : Waiting k g s)
    (h : s.Quiet s') : Waiting k g s' where
  inv := hw.inv.quiet h
  sends := by
    obtain ⟨x, hx, httl⟩ := hw.sends
    obtain ⟨x', hx', hgo⟩ := h.goes k x hx
    exact ⟨x', hx', (hgo.ttl g).mpr httl⟩
  taken y' hy' hin := by
    rcases h.origin g y' hy' with ⟨y, hy, hgo⟩ | hne
    · exact hw.taken y hy (hgo.inSession hin).1
    · obtain ⟨x, hx, httl⟩ := hw.sends
      obtain ⟨-, y, hy, -, -⟩ := hw.inv.sending k x g hx httl
      obtain ⟨y₁, hy₁, hgo⟩ := h.goes g y hy
      rw [hy'] at hy₁
      obtain rfl := Option.some.inj hy₁
      exact hw.taken y hy (hgo.inSession hin).1

/-- As long as there is no room, the stream of `g` moves closer to making some. -/
theorem Waiting.closer {k g : SessionRef} {s : Server} (hw : Waiting k g s)
    (hfull : ¬ HasRoom g s) :
    ∃ e s', OwnStep s e ∧ s.step e = some s' ∧ Waiting k g s' ∧
      distance g s' < distance g s := by
  obtain ⟨x, hx, httl⟩ := hw.sends
  obtain ⟨-, y, hy, -, -⟩ := hw.inv.sending k x g hx httl
  have hgoes : ∀ {e s'}, e = .ready g ∨ e = .accept g ∨ e = .consume g → s.step e = some s' →
      Waiting k g s' := fun he hst =>
    hw.quiet (quiet_session (g := g) (by rcases he with rfl | rfl | rfl <;> simp) hst)
  cases hrx : y.upRx with
  | inSession => exact absurd hrx (hw.taken y hy)
  | dropped => exact absurd ⟨y, hy, .inr hrx⟩ hfull
  | withGet =>
    have hst : s.step (.ready g) = some (s.setSession g { y with upRx := .queued }) := by
      simp [step, hy, hrx]
    exact ⟨.ready g, _, trivial, hst, hgoes (by simp) hst, by simp [distance, setSession, hy, hrx]⟩
  | queued =>
    have hst : s.step (.accept g) = some (s.setSession g { y with upRx := .held }) := by
      simp [step, hy, hrx]
    exact ⟨.accept g, _, trivial, hst, hgoes (by simp) hst, by simp [distance, setSession, hy, hrx]⟩
  | held =>
    cases hup : y.up with
    | nil => exact absurd ⟨y, hy, .inl (by rw [hup]; decide)⟩ hfull
    | cons item up =>
      have hst : s.step (.consume g) = some (s.setSession g { y with up := up }) := by
        simp [step, hy, hrx, hup]
      exact ⟨.consume g, _, trivial, hst, hgoes (by simp) hst,
        by simp [distance, setSession, hy, hrx, hup]⟩

/-- **The way out.**  If a GET took the receiver, the stream makes room without any
further request. -/
theorem Waiting.hasRoom {k g : SessionRef} {s : Server} (hw : Waiting k g s) :
    ∃ t, ReachableBy step OwnStep s t ∧ Waiting k g t ∧ HasRoom g t := by
  obtain ⟨t, hreach, hw', hroom⟩ := exists_reachableBy_of_rank
    (fun t => Waiting k g t ∧ HasRoom g t) (distance g)
    (fun s hs hgoal => hs.closer fun hroom => hgoal ⟨hs, hroom⟩) hw
  exact ⟨t, hreach, hw', hroom⟩

/-- With room, the task sends its `Eof`, ends and releases the map. -/
theorem Waiting.released {k g : SessionRef} {s : Server} (hw : Waiting k g s)
    (hroom : HasRoom g s) :
    ∃ t x, s.step (.eofSent k) = some t ∧ t.mapHolder = none ∧ t.sessions k = some x ∧
      x.ttl = .done := by
  obtain ⟨x, hx, httl⟩ := hw.sends
  obtain ⟨y, hy, hroom⟩ := hroom
  have hst : ∃ t, s.step (.eofSent k) = some t := by
    by_cases hdropped : y.upRx = .dropped
    · simp [step, hx, httl, hy, hdropped]
    · simp [step, hx, httl, hy, hdropped, hroom.resolve_right hdropped]
  obtain ⟨t, hst⟩ := hst
  obtain ⟨g', y', hrel⟩ := eofSent_cases hst
  obtain ⟨x', hx', hdone⟩ := hrel.done
  exact ⟨t, x', hst, hrel.holder, hx', hdone⟩

/-! ## The map is released -/

/-- No task is stuck. -/
def Good (s : Server) : Prop := ∀ k g, ¬ s.Stuck k g

theorem good_back {s s' : Server} {e : Event} (hinv : s.Inv) (h : s.step e = some s')
    (hs' : s'.Good) : s.Good :=
  fun k g hs => hs' k g (hs.step hinv h)

/-- **One step.**  A step gets a task stuck exactly if an expiry takes the map without
room. -/
theorem good_step_iff {s s' : Server} {e : Event} (hinv : s.Inv) (hs : s.Good)
    (h : s.step e = some s') : s'.Good ↔ ExpiryHasRoom s e := by
  rcases step_cases hinv.fresh h with
    ⟨hquiet, hok⟩ | ⟨k, g, y, rfl, hblocks⟩ | ⟨k, g, y, rfl, hrel⟩
  · refine iff_of_true ?_ hok
    rintro k g ⟨x', y', hx', httl, hy', hin⟩
    rcases hquiet.origin k x' hx' with ⟨x, hx, hgo⟩ | hne
    · have httl₀ := (hgo.ttl g).mp httl
      obtain ⟨-, y, hy, -, -⟩ := hinv.sending k x g hx httl₀
      obtain ⟨y₁, hy₁, hgo'⟩ := hquiet.goes g y hy
      rw [hy'] at hy₁
      obtain rfl := Option.some.inj hy₁
      exact hs k g ⟨x, y, hx, httl₀, hy, (hgo'.inSession hin).1⟩
    · exact absurd httl (hne g)
  · obtain ⟨x, hx, hexpired, hlookup⟩ := hblocks.expired
    obtain ⟨x', hx', httl'⟩ := hblocks.sends
    obtain ⟨y', hy', -, hrx, -⟩ := hblocks.locked
    constructor
    · intro hgood x₁ g₁ y₁ hx₁ _ hlookup₁ hy₁
      rw [hx] at hx₁
      obtain rfl := Option.some.inj hx₁
      rw [hlookup] at hlookup₁
      obtain rfl := Option.some.inj hlookup₁
      rw [hblocks.target] at hy₁
      obtain rfl := Option.some.inj hy₁
      exact .inr fun hin => hgood k g ⟨x', y', hx', httl', hy', hrx.trans hin⟩
    · rintro hok k₁ g₁ ⟨x₁, y₁, hx₁, httl₁, hy₁, hin⟩
      have hk₁ := ((hinv.blocks hblocks).sending k₁ x₁ g₁ hx₁ httl₁).1
      rw [hblocks.holder] at hk₁
      obtain rfl := Option.some.inj hk₁
      rw [hx'] at hx₁
      obtain rfl := Option.some.inj hx₁
      rw [httl'] at httl₁
      obtain rfl := TtlTask.sendingEof.inj httl₁
      rw [hy'] at hy₁
      obtain rfl := Option.some.inj hy₁
      rcases hok x g y hx hexpired hlookup hblocks.target with hlt | hout
      · exact absurd hblocks.full (Nat.not_le.mpr hlt)
      · exact hout (hrx.symm.trans hin)
  · refine iff_of_true ?_ trivial
    rintro k₁ g₁ ⟨x₁, -, hx₁, httl₁, -, -⟩
    exact hinv.releases_none hrel hx₁ g₁ httl₁

/-- The map is released exactly where no task is stuck. -/
theorem mapReleased_iff_good {s : Server} (hinv : s.Inv) : s.MapReleased ↔ s.Good := by
  constructor
  · intro hrel k g hs
    obtain ⟨x, -, hx, httl, -, -⟩ := id hs
    have hk := (hinv.sending k x g hx httl).1
    exact hs.not_canDrain hinv ((hrel k hk).1 x g hx httl)
  · intro hgood k hk
    obtain ⟨x, g, hx, httl⟩ := hinv.holder k hk
    have hw : Waiting k g s :=
      ⟨hinv, ⟨x, hx, httl⟩, fun y hy hin => hgood k g ⟨x, y, hx, httl, hy, hin⟩⟩
    obtain ⟨t, hreach, hw', hroom⟩ := hw.hasRoom
    constructor
    · intro x₁ g₁ hx₁ httl₁
      rw [hx] at hx₁
      obtain rfl := Option.some.inj hx₁
      rw [httl] at httl₁
      obtain rfl := TtlTask.sendingEof.inj httl₁
      obtain ⟨y, hy, hroom⟩ := hroom
      exact ⟨t, y, hreach.reachable, hy, hroom⟩
    · obtain ⟨u, x', hst, hfree, hx', hdone⟩ := hw'.released hroom
      exact ⟨u, x', hreach.trans (.head (e := .eofSent k) trivial hst (.refl u)), hfree, hx', hdone⟩

/-- **The session table.**  In every run, the map can be released wherever the run
ends, exactly when every expiry that took the map found less than 64 items in the
channel of the session it removed, or found that a GET had taken the receiver. -/
theorem mapReleased_iff (es : List Event) (s : Server) (h : run step init es = some s) :
    s.MapReleased ↔ Every step ExpiryHasRoom init es := by
  have hinv : s.Inv := Reachable.invariant step_inv inv_init ⟨es, h⟩
  rw [mapReleased_iff_good hinv]
  refine good_iff_every step_inv good_back good_step_iff inv_init ?_ h
  rintro k g ⟨x, -, hx, -⟩
  exact nomatch hx

end Server

/-! ## Instances -/

/-- A packet-up POST, from its first line to the answer. -/
def postRun (sid : String) (seq : UInt64) : List Event :=
  [.post 0 sid (.packetUp (some seq)), .lookup 0, .lock 0, .collected 0 (some []), .send 0]

/-- A session without a GET that received one POST, at its expiry. -/
def expiryRun : List Event :=
  postRun "a" 0 ++ [.wait 30000, .expire 0, .takeMap 0]

/-- The expiry finds room for its `Eof`. -/
theorem mapReleased_iff_expiryRun : Every Server.step ExpiryHasRoom .init expiryRun := by
  have hend : (run Server.step .init expiryRun).map (·.mapHolder) = some none := by
    decide +kernel
  obtain ⟨s, hrun, hs⟩ := Option.map_eq_some_iff.mp hend
  refine (Server.mapReleased_iff expiryRun s hrun).mp fun k hk => ?_
  rw [hs] at hk
  exact nomatch hk

/-- A client that posts 64 packets and never sends its GET. -/
def floodRun : List Event :=
  (List.range 64).flatMap (fun i => postRun "a" i.toUInt64) ++
    [.wait 30000, .expire 0, .takeMap 0]

/-- The expiry of a session with a full channel holds the map for good. -/
theorem not_mapReleased_floodRun :
    ¬ ∀ es s, run Server.step .init es = some s → s.MapReleased := by
  intro hall
  have hend : ((run Server.step .init floodRun).bind fun s => (s.sessions 0).map fun x =>
      (s.mapHolder, x.ttl, x.upRx)) = some (some 0, .sendingEof 0, .inSession) := by
    decide +kernel
  obtain ⟨s, hrun, hs⟩ := Option.bind_eq_some_iff.mp hend
  obtain ⟨x, hx, heq⟩ := Option.map_eq_some_iff.mp hs
  rw [Prod.mk.injEq, Prod.mk.injEq] at heq
  obtain ⟨hholder, httl, hin⟩ := heq
  have hinv : s.Inv := Reachable.invariant Server.step_inv Server.inv_init ⟨floodRun, hrun⟩
  have hstuck : s.Stuck 0 0 := ⟨x, x, hx, httl, hx, hin⟩
  exact hstuck.not_canDrain hinv ((hall floodRun s hrun 0 hholder).1 x 0 hx httl)

end Ruproxy.Xhttp
