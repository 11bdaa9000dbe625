/-
  Hysteria2/Congestion.lean --- the Brutal controller of `congestion.rs`.

  `on_ack` adds acknowledged bytes to the statistics, `on_congestion_event` adds one; the
  ratio of the two counters selects the factor of the congestion window.  The statistics
  start again after a second.  Numbers are exact here, also where the source has `f64`, and
  times are in nanoseconds.  A call reads the clock once.  Arguments of the callbacks that
  the source does not look at are left out, the lost bytes apart.
-/
import Mathlib

set_option autoImplicit false

namespace Ruproxy.Hysteria2

/-- `RTT_WINDOW`. -/
def rttWindow : Nat := 16

/-- `GAIN`. -/
def gain : ℚ := 3 / 2

/-- `MAX_LOSS_RATIO`. -/
def maxLossRatio : ℚ := 1 / 10

/-- `Duration::from_secs(1)`. -/
def oneSecond : Nat := 1000000000

/-! ## The statistics -/

/-- `Stats`. -/
structure Stats where
  ackCount : Nat
  lossCount : Nat
  windowStart : Nat
  rttSamples : List Nat
  deriving DecidableEq

namespace Stats

/-- `Stats::new`. -/
def new (now : Nat) : Stats := ⟨0, 0, now, []⟩

/-- `Stats::loss_ratio`. -/
def lossRatio (s : Stats) : ℚ :=
  let total := s.ackCount + s.lossCount
  if total = 0 then 0 else s.lossCount / total

/-- `Stats::avg_rtt`. -/
def avgRtt (s : Stats) : Nat :=
  if s.rttSamples.isEmpty then 50000000 else s.rttSamples.sum / s.rttSamples.length

/-- `Stats::push_rtt`. -/
def pushRtt (s : Stats) (rtt : Nat) : Stats :=
  let samples := if rttWindow ≤ s.rttSamples.length then s.rttSamples.tail else s.rttSamples
  { s with rttSamples := samples ++ [rtt] }

/-- `Stats::maybe_reset`. -/
def maybeReset (s : Stats) (now : Nat) : Stats :=
  if oneSecond ≤ now - s.windowStart then { s with ackCount := 0, lossCount := 0, windowStart := now }
  else s

end Stats

/-! ## The controller -/

/-- `BrutalController`, with the `send_bps` of its configuration. -/
structure BrutalController where
  sendBps : Nat
  window : Nat
  stats : Stats
  deriving DecidableEq

/-- `u64::clamp`. -/
def clamp (lo hi n : Nat) : Nat := max lo (min n hi)

/-- The `loss_factor` of `recalculate_window`. -/
def lossFactor (loss : ℚ) : ℚ :=
  if maxLossRatio < loss then max (1 - loss) (1 / 2) else gain

namespace BrutalController

/-- `BrutalController::new`. -/
def new (sendBps now : Nat) : BrutalController :=
  let initialWindow := ⌊(sendBps : ℚ) * (5 / 100) * gain⌋₊
  ⟨sendBps, clamp (32 * 1024) (16 * 1024 * 1024) initialWindow, .new now⟩

/-- `recalculate_window`. -/
def recalculateWindow (c : BrutalController) : BrutalController :=
  let rttSecs : ℚ := max (c.stats.avgRtt / 1000000000) (1 / 1000)
  let baseWindow := c.sendBps * rttSecs
  let window := ⌊baseWindow * lossFactor c.stats.lossRatio⌋₊
  { c with window := clamp (32 * 1024) (32 * 1024 * 1024) window }

/-- `on_ack`. -/
def onAck (c : BrutalController) (now bytes rtt : Nat) : BrutalController :=
  let stats := { c.stats with ackCount := c.stats.ackCount + bytes }
  recalculateWindow { c with stats := (stats.pushRtt rtt).maybeReset now }

/-- `on_congestion_event`. -/
def onCongestionEvent (c : BrutalController) (now _lostBytes : Nat) : BrutalController :=
  let stats := { c.stats with lossCount := c.stats.lossCount + 1 }
  recalculateWindow { c with stats := stats.maybeReset now }

end BrutalController

/-- A callback, at the time `now`. -/
inductive Call where
  | ack (now bytes rtt : Nat)
  | congestion (now lostBytes : Nat)
  deriving DecidableEq

namespace Call

/-- The time of a callback. -/
def now : Call → Nat
  | .ack now _ _ => now
  | .congestion now _ => now

/-- The acknowledged bytes. -/
def acked : Call → Nat
  | .ack _ bytes _ => bytes
  | .congestion _ _ => 0

/-- The lost bytes. -/
def lost : Call → Nat
  | .ack _ _ _ => 0
  | .congestion _ lostBytes => lostBytes

/-- A callback is a congestion event. -/
def isCongestion : Call → Bool
  | .ack _ _ _ => false
  | .congestion _ _ => true

/-- The callback itself. -/
def run (c : BrutalController) : Call → BrutalController
  | .ack now bytes rtt => c.onAck now bytes rtt
  | .congestion now lostBytes => c.onCongestionEvent now lostBytes

end Call

/-- The controller after a sequence of callbacks. -/
def BrutalController.runCalls (c : BrutalController) (calls : List Call) : BrutalController :=
  calls.foldl Call.run c

/-- A callback leaves the window that its statistics give. -/
theorem Call.run_recalculateWindow (c : BrutalController) (call : Call) :
    (call.run c).recalculateWindow = call.run c := by
  cases call with
  | ack now bytes rtt => rfl
  | congestion now lostBytes => rfl

/-- The window is bounded, whatever the statistics say. -/
theorem Call.window_run (c : BrutalController) (call : Call) :
    32 * 1024 ≤ (call.run c).window ∧ (call.run c).window ≤ 32 * 1024 * 1024 := by
  rw [← run_recalculateWindow]
  unfold BrutalController.recalculateWindow clamp
  exact ⟨le_max_left _ _, max_le (by decide) (min_le_right _ _)⟩

/-! ## The statistics window -/

/-- The calls of a statistics window, and its start. -/
structure StatsWindow where
  start : Nat
  calls : List Call

/-- A call ends the window, and starts the next one, if it comes a second after the start or
later. -/
def StatsWindow.extend (w : StatsWindow) (c : Call) : StatsWindow :=
  if oneSecond ≤ c.now - w.start then ⟨c.now, []⟩ else ⟨w.start, w.calls ++ [c]⟩

/-- The statistics window at the end of a sequence of calls. -/
def statsWindow (start : Nat) (calls : List Call) : StatsWindow :=
  calls.foldl StatsWindow.extend ⟨start, []⟩

/-- The acknowledged bytes of some calls. -/
def ackedBytes (calls : List Call) : Nat := (calls.map Call.acked).sum

/-- The lost bytes of some calls. -/
def lostBytes (calls : List Call) : Nat := (calls.map Call.lost).sum

/-- How many of some calls are congestion events. -/
def congestionEvents (calls : List Call) : Nat := calls.countP Call.isCongestion

/-- `part` as a share of the whole that it is with `other`, nothing of nothing being 0. -/
def share (other part : Nat) : ℚ :=
  if other + part = 0 then 0 else part / ((other + part : Nat) : ℚ)

/-- The lost bytes as a share of the acknowledged and the lost ones. -/
def lossShare (calls : List Call) : ℚ := share (ackedBytes calls) (lostBytes calls)

/-- What the statistics of a window are to say: the loss ratio is the share of the lost
bytes, and the factor is the reduced one if that is more than a tenth. -/
def LossExact (c : BrutalController) (calls : List Call) : Prop :=
  c.stats.lossRatio = lossShare calls ∧
    (lossFactor c.stats.lossRatio < gain ↔ 1 / 10 < lossShare calls)

/-! ## What the counters count -/

/-- The statistics hold the acknowledged bytes and the congestion events of the window. -/
structure Stats.Counts (s : Stats) (w : StatsWindow) : Prop where
  windowStart : s.windowStart = w.start
  ackCount : s.ackCount = ackedBytes w.calls
  lossCount : s.lossCount = congestionEvents w.calls

theorem Stats.counts_new (now : Nat) : (Stats.new now).Counts ⟨now, []⟩ := ⟨rfl, rfl, rfl⟩

/-- The end of a callback, behind the count of it. -/
theorem Stats.counts_maybeReset {s : Stats} {w : StatsWindow} (call : Call)
    (hstart : s.windowStart = w.start) (hack : s.ackCount = ackedBytes (w.calls ++ [call]))
    (hloss : s.lossCount = congestionEvents (w.calls ++ [call])) :
    (s.maybeReset call.now).Counts (w.extend call) := by
  unfold Stats.maybeReset StatsWindow.extend
  rw [← hstart]
  by_cases hreset : oneSecond ≤ call.now - s.windowStart
  · rw [if_pos hreset, if_pos hreset]
    exact ⟨rfl, rfl, rfl⟩
  · rw [if_neg hreset, if_neg hreset]
    exact ⟨rfl, hack, hloss⟩

/-- What one callback does to the counters. -/
theorem Stats.Counts.run {c : BrutalController} {w : StatsWindow} (h : c.stats.Counts w)
    (call : Call) : (call.run c).stats.Counts (w.extend call) := by
  cases call with
  | ack now bytes rtt =>
    refine Stats.counts_maybeReset (.ack now bytes rtt) h.windowStart ?_ ?_
    · simp [Stats.pushRtt, ackedBytes, h.ackCount, Call.acked]
    · simp [Stats.pushRtt, congestionEvents, h.lossCount, Call.isCongestion]
  | congestion now lostBytes =>
    refine Stats.counts_maybeReset (.congestion now lostBytes) h.windowStart ?_ ?_
    · simp [ackedBytes, h.ackCount, Call.acked]
    · simp [congestionEvents, h.lossCount, Call.isCongestion]

/-- What a sequence of callbacks does to the counters. -/
theorem Stats.Counts.runCalls {c : BrutalController} {w : StatsWindow} (h : c.stats.Counts w)
    (calls : List Call) :
    (c.runCalls calls).stats.Counts (calls.foldl StatsWindow.extend w) := by
  induction calls generalizing c w with
  | nil => exact h
  | cons call calls ih => exact ih (h.run call)

/-! ## The loss ratio -/

theorem lossFactor_lt_gain_iff {loss : ℚ} : lossFactor loss < gain ↔ maxLossRatio < loss := by
  unfold lossFactor
  by_cases h : maxLossRatio < loss
  · rw [if_pos h]
    refine iff_of_true (max_lt ?_ ?_) h
    · unfold gain maxLossRatio at *
      linarith
    · unfold gain
      norm_num
  · rw [if_neg h]
    exact iff_of_false (lt_irrefl _) h

/-- Bytes are lost in congestion events only. -/
theorem lostBytes_eq_zero_of_no_event {calls : List Call} (h : congestionEvents calls = 0) :
    lostBytes calls = 0 := by
  rw [congestionEvents, List.countP_eq_zero] at h
  rw [lostBytes, List.sum_eq_zero_iff]
  intro n hn
  obtain ⟨call, hmem, rfl⟩ := List.mem_map.mp hn
  cases call with
  | ack now bytes rtt => rfl
  | congestion now lostBytes => exact absurd rfl (h _ hmem)

/-- Two shares beside the same `a` are equal if their parts are, or if both are the whole. -/
theorem share_eq_share_iff {a e l : Nat} (h : e = 0 → l = 0) :
    share a e = share a l ↔ e = l ∨ a = 0 ∧ 0 < l := by
  unfold share
  by_cases he : a + e = 0
  · have hl : a + l = 0 := by omega
    rw [if_pos he, if_pos hl]
    exact iff_of_true rfl (.inl (by omega))
  · rw [if_neg he]
    by_cases hl : a + l = 0
    · rw [if_pos hl, div_eq_zero_iff, Nat.cast_eq_zero, Nat.cast_eq_zero]
      omega
    · have he' : ((a + e : Nat) : ℚ) ≠ 0 := Nat.cast_ne_zero.mpr he
      have hl' : ((a + l : Nat) : ℚ) ≠ 0 := Nat.cast_ne_zero.mpr hl
      rw [if_neg hl, div_eq_div_iff he' hl', ← Nat.cast_mul, ← Nat.cast_mul, Nat.cast_inj,
        Nat.mul_add, Nat.mul_add, Nat.mul_comm l e, Nat.add_right_cancel_iff]
      constructor
      · intro heq
        rcases Nat.eq_zero_or_pos a with ha | ha
        · omega
        · exact .inl (Nat.eq_of_mul_eq_mul_right ha heq)
      · rintro (rfl | ⟨rfl, -⟩)
        · rfl
        · rw [Nat.mul_zero, Nat.mul_zero]

/-- **Brutal loss ratio.**  After every sequence of callbacks the statistics of the window
are exact if and only if the window has as many congestion events as lost bytes, or lost
bytes and no acknowledged ones. -/
theorem lossExact_iff (sendBps start : Nat) (calls : List Call) :
    LossExact ((BrutalController.new sendBps start).runCalls calls)
        (statsWindow start calls).calls ↔
      congestionEvents (statsWindow start calls).calls =
          lostBytes (statsWindow start calls).calls ∨
        ackedBytes (statsWindow start calls).calls = 0 ∧
          0 < lostBytes (statsWindow start calls).calls := by
  have hcounts := (Stats.counts_new start).runCalls (c := .new sendBps start) calls
  have hratio : ((BrutalController.new sendBps start).runCalls calls).stats.lossRatio =
      share (ackedBytes (statsWindow start calls).calls)
        (congestionEvents (statsWindow start calls).calls) := by
    rw [Stats.lossRatio, hcounts.ackCount, hcounts.lossCount]
    rfl
  rw [LossExact, lossShare, ← share_eq_share_iff lostBytes_eq_zero_of_no_event, ← hratio]
  constructor
  · exact And.left
  · intro h
    refine ⟨h, ?_⟩
    rw [lossFactor_lt_gain_iff, h]
    rfl

/-- 1400 bytes are acknowledged and 1400 lost: the ratio is 1/1401, and the factor is not
reduced. -/
theorem not_lossExact : ¬ ∀ sendBps start calls,
    LossExact ((BrutalController.new sendBps start).runCalls calls)
      (statsWindow start calls).calls := by
  intro h
  have hshare : share 1400 1 = share 1400 1400 := (h 0 0 [.ack 0 1400 0, .congestion 0 1400]).1
  exact absurd ((share_eq_share_iff (by decide)).mp hshare) (by decide)

end Ruproxy.Hysteria2
