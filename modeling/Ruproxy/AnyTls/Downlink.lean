/-
  AnyTls/Downlink.lean --- when the downlink depends on the client.

  The uplink waits for chunks of the client with the mutex in its hands, and the
  downlink needs the mutex to send.  Bytes of the upstream server therefore go on
  exactly as long as the uplink does not hold the mutex with nothing to read.
-/
import Ruproxy.AnyTls.Stream

set_option autoImplicit false

namespace Ruproxy.AnyTls

open Ruproxy.Foundation
open Ruproxy.Foundation.Transition

/-! ## The property -/

/-- A step that needs no further frame of the client and not the end of its session. -/
def ServerStep (_ : Relay) : Event → Prop
  | .push _ | .fin | .replaced => False
  | _ => True

namespace Relay

/-- The write channel has room. -/
def WriteRoom (s : Relay) : Prop :=
  s.writerAlive = true ∧ s.writeChannel.length < writeCapacity

/-- If the downlink holds bytes and the write channel has room, the server can queue
them as the next frame of the stream without the client. -/
def Forwards (s : Relay) : Prop :=
  ∀ data, s.downlink.holding = some data → s.WriteRoom →
    ∃ t, ReachableBy step ServerStep s t ∧
      t.queued = s.queued ++ [⟨cmdPsh, s.streamId, data⟩]

/-- If the downlink holds bytes and the write channel has room, the uplink does not
hold the mutex with nothing to read. -/
def UplinkYields (s : Relay) : Prop :=
  s.downlink.holding ≠ none → s.WriteRoom → s.lockQueue.head? = some .up →
    s.conn.buf ≠ [] ∨ s.conn.rx ≠ [] ∨ s.conn.rxOpen = false

/-! ## The mutex -/

/-- The halves that hold or want the mutex. -/
def wants (s : Relay) : Half → Bool
  | .up => match s.uplink with
    | .locking | .reading => true
    | _ => false
  | .down => match s.downlink with
    | .locking _ | .sending _ | .finLocking | .finSending => true
    | _ => false

/-- The half is in its critical section. -/
def inside (s : Relay) : Half → Bool
  | .up => s.uplink = .reading
  | .down => match s.downlink with
    | .sending _ | .finSending => true
    | _ => false

/-- The queue of the mutex has each half that holds or wants it once, and a half works
with the stream only while it holds the mutex. -/
structure Inv (s : Relay) : Prop where
  nodup : s.lockQueue.Nodup
  mem : ∀ h, h ∈ s.lockQueue ↔ s.wants h = true
  inside : ∀ h, s.inside h = true → s.lockQueue.head? = some h

theorem inv_start (streamId : UInt32) (conn : StreamConn) (writeChannel : List Frame)
    (writerAlive : Bool) : (start streamId conn writeChannel writerAlive).Inv where
  nodup := List.nodup_singleton _
  mem h := by cases h <;> simp [start, wants]
  inside h hin := by cases h <;> simp [start, Relay.inside] at hin

/-- The other half goes on as before. -/
def Keeps (s s' : Relay) (h : Half) : Prop :=
  ∀ h', h' ≠ h → s'.wants h' = s.wants h' ∧ s'.inside h' = s.inside h'

theorem keeps_up {s s' : Relay} (hdown : s'.downlink = s.downlink) : s.Keeps s' .up := by
  rintro (_ | _) hne
  · exact absurd rfl hne
  · simp only [wants, inside, hdown, and_self]

theorem keeps_down {s s' : Relay} (hup : s'.uplink = s.uplink) : s.Keeps s' .down := by
  rintro (_ | _) hne
  · simp only [wants, inside, hup, and_self]
  · exact absurd rfl hne

/-- A half asks for the mutex. -/
theorem Inv.request {s s' : Relay} {h : Half} (hinv : s.Inv)
    (hq : s'.lockQueue = s.lockQueue ++ [h]) (hno : s.wants h = false)
    (hyes : s'.wants h = true) (hout : s'.inside h = false) (hkeeps : s.Keeps s' h) :
    s'.Inv where
  nodup := by
    have hnot : h ∉ s.lockQueue := by
      rw [hinv.mem, hno]
      exact Bool.false_ne_true
    rw [hq, ← List.concat_eq_append]
    exact hinv.nodup.concat hnot
  mem h' := by
    rw [hq, List.mem_append, List.mem_singleton, hinv.mem]
    by_cases heq : h' = h
    · rw [heq, hyes]
      exact iff_of_true (.inr rfl) rfl
    · rw [(hkeeps h' heq).1]
      exact ⟨fun hor => hor.resolve_right heq, .inl⟩
  inside h' hin := by
    have heq : h' ≠ h := by
      rintro rfl
      rw [hout] at hin
      exact Bool.false_ne_true hin
    rw [(hkeeps h' heq).2] at hin
    have hhead := hinv.inside h' hin
    rw [hq, List.head?_append, hhead]
    rfl

/-- The holder gives the mutex back, to whoever is next. -/
theorem Inv.release {s s' : Relay} {h : Half} (hinv : s.Inv) (hin : s.inside h = true)
    (hq : s'.lockQueue = s.lockQueue.tail) (hno : s'.wants h = false)
    (hout : s'.inside h = false) (hkeeps : s.Keeps s' h) : s'.Inv := by
  have hhead := hinv.inside h hin
  have hqueue : s.lockQueue = h :: s.lockQueue.tail := (List.cons_head?_tail hhead).symm
  have hnodup := hinv.nodup
  rw [hqueue, List.nodup_cons] at hnodup
  refine ⟨hq ▸ hnodup.2, fun h' => ?_, fun h' hin' => ?_⟩
  · rw [hq]
    by_cases heq : h' = h
    · rw [heq, hno]
      exact iff_of_false hnodup.1 Bool.false_ne_true
    · rw [(hkeeps h' heq).1, ← hinv.mem, hqueue, List.mem_cons]
      exact ⟨.inr, fun hor => hor.resolve_left heq⟩
  · have heq : h' ≠ h := by
      rintro rfl
      rw [hout] at hin'
      exact Bool.false_ne_true hin'
    -- two halves would be inside at once
    rw [(hkeeps h' heq).2] at hin'
    have hhead' := hinv.inside h' hin'
    rw [hhead] at hhead'
    exact absurd (Option.some.inj hhead').symm heq

/-- No one asks for the mutex or gives it back; who goes inside holds it. -/
theorem Inv.same {s s' : Relay} (hinv : s.Inv) (hq : s'.lockQueue = s.lockQueue)
    (hwants : ∀ h, s'.wants h = s.wants h)
    (hinside : ∀ h, s'.inside h = true → s.inside h = true ∨ s.lockQueue.head? = some h) :
    s'.Inv where
  nodup := hq ▸ hinv.nodup
  mem h := by rw [hq, hwants, hinv.mem]
  inside h hin := by
    rw [hq]
    exact (hinside h hin).elim (hinv.inside h) id

theorem step_inv {s s' : Relay} {e : Event} (hinv : s.Inv) (_ : True)
    (h : s.step e = some s') : s'.Inv := by
  cases e with
  | push data | fin | otherFrame f =>
    simp only [step] at h
    split at h
    · obtain rfl := Option.some.inj h
      exact hinv.same rfl (fun _ => rfl) fun _ => .inl
    · exact nomatch h
  | replaced | writerBreaks =>
    obtain rfl := Option.some.inj h
    exact hinv.same rfl (fun _ => rfl) fun _ => .inl
  | write =>
    simp only [step] at h
    split at h
    · split at h
      · obtain rfl := Option.some.inj h
        exact hinv.same rfl (fun _ => rfl) fun _ => .inl
      · exact nomatch h
    · exact nomatch h
  | locked half =>
    cases half with
    | up =>
      simp only [step] at h
      split at h
      case isFalse => exact nomatch h
      rename_i hcond
      obtain rfl := Option.some.inj h
      refine hinv.same rfl (fun half => ?_) fun half hin => ?_
      · cases half <;> simp [wants, hcond.1]
      · cases half
        · exact .inr hcond.2
        · exact .inl hin
    | down =>
      simp only [step] at h
      split at h
      case isFalse => exact nomatch h
      rename_i hhead
      split at h
      case h_3 => exact nomatch h
      all_goals
        rename_i hdown
        obtain rfl := Option.some.inj h
        refine hinv.same rfl (fun half => ?_) fun half hin => ?_
        · cases half <;> simp [wants, hdown]
        · cases half
          · exact .inl hin
          · exact .inr hhead
  | upRead =>
    simp only [step] at h
    split at h
    case h_2 => exact nomatch h
    rename_i hup
    split at h
    case h_1 => exact nomatch h
    all_goals
      obtain rfl := Option.some.inj h
      exact hinv.release (h := .up) (by simp [inside, hup]) rfl rfl rfl
        (keeps_up rfl)
  | upWritten ok =>
    simp only [step] at h
    split at h
    case h_2 => exact nomatch h
    rename_i data hup
    split at h
    · obtain rfl := Option.some.inj h
      exact hinv.request (h := .up) rfl (by simp [wants, hup]) rfl rfl
        (keeps_up rfl)
    · obtain rfl := Option.some.inj h
      exact hinv.same rfl (fun half => by cases half <;> simp [wants, hup])
        fun half hin => by cases half <;> simp_all [inside]
  | upShutdown =>
    simp only [step] at h
    split at h
    case isFalse => exact nomatch h
    rename_i hup
    obtain rfl := Option.some.inj h
    exact hinv.same rfl (fun half => by cases half <;> simp [wants, hup])
      fun half hin => by cases half <;> simp_all [inside]
  | downRead data =>
    simp only [step] at h
    split at h
    case h_2 => exact nomatch h
    rename_i hdown
    split at h
    · split at h
      · obtain rfl := Option.some.inj h
        exact hinv.request (h := .down) rfl (by simp [wants, hdown]) rfl rfl (keeps_down rfl)
      · exact nomatch h
    · obtain rfl := Option.some.inj h
      exact hinv.request (h := .down) rfl (by simp [wants, hdown]) rfl rfl (keeps_down rfl)
  | downSent =>
    simp only [step] at h
    split at h
    case h_3 => exact nomatch h
    all_goals
      rename_i hdown
      have hin : s.inside .down = true := by simp [inside, hdown]
      split at h
    case h_1.isTrue =>
      -- the lock is given back, and wanted once more
      obtain rfl := Option.some.inj h
      have hreleased : ({ s with lockQueue := s.lockQueue.tail, downlink := .done } : Relay).Inv :=
        hinv.release hin rfl rfl rfl (keeps_down rfl)
      exact hreleased.request (h := .down) rfl rfl rfl rfl (keeps_down rfl)
    case h_1.isFalse =>
      split at h
      · obtain rfl := Option.some.inj h
        exact hinv.release hin rfl rfl rfl (keeps_down rfl)
      · exact nomatch h
    case h_2.isTrue =>
      obtain rfl := Option.some.inj h
      exact hinv.release hin rfl rfl rfl (keeps_down rfl)
    case h_2.isFalse =>
      split at h
      · obtain rfl := Option.some.inj h
        exact hinv.release hin rfl rfl rfl (keeps_down rfl)
      · exact nomatch h

/-! ## The block -/

/-- The downlink waits for the mutex, which the uplink holds or is about to take with
nothing to read. -/
structure Blocked (queued : List Frame) (s : Relay) : Prop where
  down : ∃ data, s.downlink = .locking data
  up : s.uplink = .locking ∨ s.uplink = .reading
  holds : s.lockQueue.head? = some .up
  waits : ∀ len, s.conn.read len = none
  queued : s.queued = queued

/-- Only the client can end a block. -/
theorem blocked_preserved (queued : List Frame) :
    Preserves step ServerStep (Blocked queued) := by
  intro s e s' hb hserver h
  obtain ⟨data, hdown⟩ := hb.down
  cases e with
  | push | fin | replaced => exact hserver.elim
  | locked half =>
    cases half with
    | up =>
      simp only [step] at h
      split at h
      case isFalse => exact nomatch h
      obtain rfl := Option.some.inj h
      exact ⟨hb.down, .inr rfl, hb.holds, hb.waits, hb.queued⟩
    | down =>
      simp only [step, hb.holds] at h
      exact nomatch h
  | upRead =>
    simp only [step, hb.waits] at h
    split at h <;> exact nomatch h
  | upWritten ok =>
    rcases hb.up with hup | hup <;> simp only [step, hup] at h <;> exact nomatch h
  | upShutdown =>
    rcases hb.up with hup | hup <;> simp [step, hup] at h
  | downRead | downSent =>
    simp only [step, hdown] at h
    exact nomatch h
  | otherFrame f =>
    simp only [step] at h
    split at h
    case isFalse => exact nomatch h
    obtain rfl := Option.some.inj h
    exact ⟨hb.down, hb.up, hb.holds, hb.waits, hb.queued⟩
  | write =>
    simp only [step] at h
    split at h
    · split at h
      case isFalse => exact nomatch h
      obtain rfl := Option.some.inj h
      exact ⟨hb.down, hb.up, hb.holds, hb.waits, hb.queued⟩
    · exact nomatch h
  | writerBreaks =>
    obtain rfl := Option.some.inj h
    exact ⟨hb.down, hb.up, hb.holds, hb.waits, hb.queued⟩

/-- Bytes that wait behind an uplink with nothing to read are blocked. -/
theorem blocked_of {s : Relay} (hinv : s.Inv) {data : Bytes}
    (hdata : s.downlink.holding = some data) (hhead : s.lockQueue.head? = some .up)
    (hbuf : s.conn.buf = []) (hrx : s.conn.rx = []) (hopen : s.conn.rxOpen = true) :
    Blocked s.queued s where
  down := by
    cases hdown : s.downlink with
    | locking data => exact ⟨data, rfl⟩
    | sending data =>
      have hin := hinv.inside .down (by simp [inside, hdown])
      rw [hhead] at hin
      exact nomatch hin
    | _ => simp [Downlink.holding, hdown] at hdata
  up := by
    have hmem : Half.up ∈ s.lockQueue := List.mem_of_mem_head? hhead
    have hwants := (hinv.mem .up).mp hmem
    cases hup : s.uplink with
    | locking => exact .inl rfl
    | reading => exact .inr rfl
    | _ => simp [wants, hup] at hwants
  holds := hhead
  waits len := (s.conn.read_eq_none_iff len).mpr ⟨hbuf, hrx, hopen⟩
  queued := rfl

/-! ## The way on -/

/-- From a state the server can reach, the bytes go on. -/
def CanForward (s : Relay) (queued : List Frame) : Prop :=
  ∃ t, ReachableBy step ServerStep s t ∧ t.queued = queued

theorem CanForward.head {s s' : Relay} {e : Event} {queued : List Frame}
    (hok : ServerStep s e) (hst : s.step e = some s') (h : s'.CanForward queued) :
    s.CanForward queued := by
  obtain ⟨t, hreach, hqueued⟩ := h
  exact ⟨t, .head hok hst hreach, hqueued⟩

/-- With the mutex, the downlink sends. -/
theorem canForward_of_sending {s : Relay} {data : Bytes} (hdown : s.downlink = .sending data)
    (hroom : s.WriteRoom) : s.CanForward (s.queued ++ [⟨cmdPsh, s.streamId, data⟩]) := by
  have hst : s.step .downSent = some
      { s.send ⟨cmdPsh, s.streamId, data⟩ with
        lockQueue := s.lockQueue.tail, downlink := .reading } := by
    simp [step, hdown, hroom.1, hroom.2]
  exact CanForward.head (e := .downSent) trivial hst ⟨_, .refl _, rfl⟩

/-- At the head of the queue, the downlink gets the mutex. -/
theorem canForward_of_head {s : Relay} {data : Bytes} (hdown : s.downlink = .locking data)
    (hhead : s.lockQueue.head? = some .down) (hroom : s.WriteRoom) :
    s.CanForward (s.queued ++ [⟨cmdPsh, s.streamId, data⟩]) := by
  have hst : s.step (.locked .down) = some { s with downlink := .sending data } := by
    simp [step, hdown, hhead]
  exact CanForward.head (e := .locked .down) trivial hst (canForward_of_sending rfl hroom)

/-- When the uplink can read, it gives the mutex to the downlink. -/
theorem canForward_of_reading {s : Relay} {data : Bytes} (hdown : s.downlink = .locking data)
    (hup : s.uplink = .reading) (hqueue : s.lockQueue = [.up, .down])
    (hread : s.conn.read bufferSize ≠ none) (hroom : s.WriteRoom) :
    s.CanForward (s.queued ++ [⟨cmdPsh, s.streamId, data⟩]) := by
  obtain ⟨⟨bytes, conn⟩, hread⟩ := Option.ne_none_iff_exists'.mp hread
  cases bytes with
  | nil =>
    have hst : s.step .upRead = some
        { s with conn := conn, lockQueue := [.down], uplink := .closing } := by
      simp [step, hup, hread, hqueue]
    exact CanForward.head (e := .upRead) trivial hst (canForward_of_head hdown rfl hroom)
  | cons b bs =>
    have hst : s.step .upRead = some
        { s with conn := conn, lockQueue := [.down], uplink := .writing (b :: bs) } := by
      simp [step, hup, hread, hqueue]
    exact CanForward.head (e := .upRead) trivial hst (canForward_of_head hdown rfl hroom)

/-- The uplink holds the mutex before the downlink. -/
theorem Inv.queue_eq {s : Relay} (hinv : s.Inv) (hhead : s.lockQueue.head? = some .up)
    (hdown : Half.down ∈ s.lockQueue) : s.lockQueue = [.up, .down] := by
  have hnodup := hinv.nodup
  match hq : s.lockQueue with
  | [] => simp [hq] at hhead
  | [x] =>
    rw [hq] at hhead hdown
    simp_all
  | x :: y :: rest =>
    rw [hq] at hhead hnodup
    obtain rfl := Option.some.inj hhead
    cases y with
    | up => simp at hnodup
    | down =>
      cases rest with
      | nil => rfl
      | cons z rest => cases z <;> simp at hnodup

/-- **The downlink.**  In every run of a relay and wherever it ends, bytes that the
downlink holds can be queued without the client, as long as the write channel has
room, exactly when the uplink does not hold the mutex with nothing to read. -/
theorem forwards_iff (streamId : UInt32) (conn : StreamConn) (writeChannel : List Frame)
    (writerAlive : Bool) (es : List Event) (s : Relay)
    (h : run step (start streamId conn writeChannel writerAlive) es = some s) :
    s.Forwards ↔ s.UplinkYields := by
  have hinv : s.Inv := Reachable.invariant step_inv (inv_start ..) ⟨es, h⟩
  constructor
  · intro hforwards hholds hroom hhead
    by_contra hblocked
    simp only [not_or, not_not] at hblocked
    obtain ⟨hbuf, hrx, hopen⟩ := hblocked
    obtain ⟨data, hdata⟩ := Option.ne_none_iff_exists'.mp hholds
    obtain ⟨t, hreach, hqueued⟩ := hforwards data hdata hroom
    have hb := blocked_of hinv hdata hhead hbuf hrx (by simpa using hopen)
    have hsame := (hreach.invariant (blocked_preserved s.queued) hb).queued
    rw [hqueued] at hsame
    simp at hsame
  · intro hyields data hdata hroom
    cases hdown : s.downlink with
    | sending data' =>
      obtain rfl : data' = data := by simpa [Downlink.holding, hdown] using hdata
      exact canForward_of_sending hdown hroom
    | locking data' =>
      obtain rfl : data' = data := by simpa [Downlink.holding, hdown] using hdata
      have hmem : Half.down ∈ s.lockQueue := (hinv.mem .down).mpr (by simp [wants, hdown])
      cases hhead : s.lockQueue.head? with
      | none =>
        rw [List.head?_eq_none_iff.mp hhead] at hmem
        exact nomatch hmem
      | some half =>
        cases half with
        | down => exact canForward_of_head hdown hhead hroom
        | up =>
          have hqueue := hinv.queue_eq hhead hmem
          have hread : s.conn.read bufferSize ≠ none := by
            rw [Ne, StreamConn.read_eq_none_iff]
            rintro ⟨hbuf, hrx, hopen⟩
            rcases hyields (by simp [hdata]) hroom hhead with hne | hne | hne
            · exact hne hbuf
            · exact hne hrx
            · rw [hopen] at hne
              exact nomatch hne
          have hwants := (hinv.mem .up).mp (List.mem_of_mem_head? hhead)
          cases hup : s.uplink with
          | reading => exact canForward_of_reading hdown hup hqueue hread hroom
          | locking =>
            have hst : s.step (.locked .up) = some { s with uplink := .reading } := by
              simp [step, hup, hhead]
            exact CanForward.head (e := .locked .up) trivial hst
              (canForward_of_reading hdown rfl hqueue hread hroom)
          | _ => simp [wants, hup] at hwants
    | _ => simp [Downlink.holding, hdown] at hdata

end Relay

/-! ## Instances -/

/-- A relay right after its connect. -/
def sampleRelay : Relay := .start 1 ⟨[], true, []⟩ [] true

/-- The client has sent a request when the reply comes. -/
def replyRun : List Event := [.locked .up, .push [1], .downRead (some [104, 105])]

/-- The uplink reads the request and lets the downlink send. -/
theorem forwards_iff_replyRun :
    ∃ s, run Relay.step sampleRelay replyRun = some s ∧ s.Forwards := by
  refine ⟨_, rfl, (Relay.forwards_iff 1 ⟨[], true, []⟩ [] true replyRun _ rfl).mpr ?_⟩
  exact fun _ _ _ => .inr (.inl (List.cons_ne_nil _ _))

/-- The server speaks first. -/
def greetingRun : List Event := [.locked .up, .downRead (some [104, 105])]

/-- A greeting waits for the client. -/
theorem not_forwards_greetingRun :
    ¬ ∀ streamId conn writeChannel writerAlive es s,
      run Relay.step (.start streamId conn writeChannel writerAlive) es = some s →
      s.Forwards := by
  intro hall
  obtain ⟨s, hrun, hqueue, hconn, hdown, hroom⟩ :
      ∃ s, run Relay.step sampleRelay greetingRun = some s ∧ s.lockQueue = [.up, .down] ∧
        s.conn = ⟨[], true, []⟩ ∧ s.downlink = .locking [104, 105] ∧ s.WriteRoom :=
    ⟨_, rfl, rfl, rfl, rfl, rfl, by decide⟩
  have hinv : s.Inv := Reachable.invariant Relay.step_inv (Relay.inv_start ..) ⟨_, hrun⟩
  obtain ⟨t, hreach, hqueued⟩ :=
    hall 1 ⟨[], true, []⟩ [] true greetingRun s hrun [104, 105] (by rw [hdown]; rfl) hroom
  have hb : Relay.Blocked s.queued s :=
    Relay.blocked_of hinv (by rw [hdown]; rfl) (by rw [hqueue]; rfl) (by rw [hconn])
      (by rw [hconn]) (by rw [hconn])
  have hsame := (hreach.invariant (Relay.blocked_preserved s.queued) hb).queued
  rw [hqueued] at hsame
  simp at hsame

end Ruproxy.AnyTls
