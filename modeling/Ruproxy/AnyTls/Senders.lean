/-
  AnyTls/Senders.lean --- which channels the read loop of a session can still send into.

  A sender is in the stream table, in the hands of the loop while it sends the end mark
  of a FIN frame, or among those that are drained after the loop.  A channel has one
  sender, so that its end mark is the last chunk sent into it.
-/
import Ruproxy.AnyTls.Demux

set_option autoImplicit false

namespace Ruproxy.AnyTls

open Ruproxy.Foundation

/-- The stream that the loop will send an end mark to, next of all. -/
def ReadLoop.ending : ReadLoop → Option Nat
  | .finishing stream _ => some stream
  | .draining (stream :: _) => some stream
  | _ => none

/-- The senders that the loop has taken out of the stream table. -/
def ReadLoop.senders : ReadLoop → List Nat
  | .finishing stream _ => [stream]
  | .draining rest => rest
  | _ => []

namespace Session

/-- The senders of `run_server_session`, by the stream instances they are for. -/
def senders (s : Session) : List Nat :=
  (s.streams.entries.map fun e => e.2) ++ s.loop.senders

theorem mem_senders_of_lookup {s : Session} {sid : UInt32} {stream : Nat}
    (h : s.streams.lookup sid = some stream) : stream ∈ s.senders :=
  List.mem_append_left _ (List.mem_map.mpr ⟨_, AList.mem_lookup_iff.mp h, rfl⟩)

/-- The senders in a table without the entry of an id. -/
theorem senders_erase_sublist (streams : Table UInt32 Nat) (sid : UInt32) :
    ((streams.erase sid).entries.map fun e => e.2).Sublist (streams.entries.map fun e => e.2) :=
  (List.kerase_sublist sid streams.entries).map _

/-- A new entry takes the place of one with the same id. -/
theorem senders_insert_subperm (streams : Table UInt32 Nat) (sid : UInt32) (stream : Nat) :
    ((streams.insert sid stream).entries.map fun e => e.2).Subperm
      (stream :: streams.entries.map fun e => e.2) := by
  rw [AList.entries_insert, List.map_cons]
  exact (((List.kerase_sublist sid streams.entries).map _).cons_cons stream).subperm

/-- The sender of an entry is taken out of the table. -/
theorem senders_take {streams : Table UInt32 Nat} {sid : UInt32} {stream : Nat}
    (h : streams.lookup sid = some stream) :
    (((streams.erase sid).entries.map fun e => e.2) ++ [stream]).Perm
      (streams.entries.map fun e => e.2) := by
  have hmem : sid ∈ streams := AList.lookup_isSome.mp (Option.isSome_iff_exists.mpr ⟨_, h⟩)
  obtain ⟨v, front, back, -, hsplit, herase⟩ := List.exists_of_kerase (AList.mem_keys.mp hmem)
  obtain rfl : v = stream := by
    have hv : streams.lookup sid = some v := by
      apply AList.mem_lookup_iff.mpr
      rw [hsplit]
      simp
    rw [h] at hv
    exact (Option.some.inj hv).symm
  have heq : (streams.erase sid).entries = front ++ back := herase
  rw [heq, hsplit]
  simp only [List.map_append, List.map_cons]
  exact (List.perm_append_singleton _ _).trans List.perm_middle.symm

end Session

/-! ## One sender for a channel -/

/-- A channel that has a sender was opened, and has only this one. -/
structure OneSender (s : Session) : Prop where
  nodup : s.senders.Nodup
  opened : ∀ {stream}, stream ∈ s.senders → (s.channels stream).isSome

theorem oneSender_init (padding : PaddingScheme) (input : Bytes) :
    OneSender (Session.init padding input) where
  nodup := List.nodup_nil
  opened h := by cases h

/-- Senders are dropped. -/
theorem OneSender.of_subperm {s s' : Session} (h : OneSender s)
    (hsub : s'.senders.Subperm s.senders)
    (hchannels : ∀ {stream}, (s.channels stream).isSome → (s'.channels stream).isSome) :
    OneSender s' where
  nodup := by
    obtain ⟨l, hperm, hl⟩ := hsub
    exact hperm.nodup_iff.mp (h.nodup.sublist hl)
  opened hmem := hchannels (h.opened (hsub.subset hmem))

/-- A channel is opened, and senders are dropped. -/
theorem OneSender.of_subperm_cons {s s' : Session} {stream : Nat} (h : OneSender s)
    (hnone : s.channels stream = none) (hsub : s'.senders.Subperm (stream :: s.senders))
    (hstream : (s'.channels stream).isSome)
    (hchannels : ∀ {p}, (s.channels p).isSome → (s'.channels p).isSome) : OneSender s' where
  nodup := by
    have hnot : stream ∉ s.senders := by
      intro hmem
      simpa [hnone] using h.opened hmem
    obtain ⟨l, hperm, hl⟩ := hsub
    exact hperm.nodup_iff.mp ((List.nodup_cons.mpr ⟨hnot, h.nodup⟩).sublist hl)
  opened hmem := by
    rcases List.mem_cons.mp (hsub.subset hmem) with rfl | hmem
    · exact hstream
    · exact hchannels (h.opened hmem)

/-! ## What a frame does to the senders -/

/-- A frame opens a channel, or it opens none and at most drops senders. -/
theorem Session.dispatch_senders {s : Session} (f : Frame) (hloop : s.loop = .reading) :
    ((s.dispatch f).channels = s.channels ∧ (s.dispatch f).senders.Subperm s.senders) ∨
      ((s.dispatch f).channels =
          Function.update s.channels s.handled.length (some ⟨[], [], none⟩) ∧
        (s.dispatch f).senders.Subperm (s.handled.length :: s.senders)) := by
  have hhere : s.senders = s.streams.entries.map fun e => e.2 := by
    simp [senders, ReadLoop.senders, hloop]
  -- the same table, with the loop at the next frame, at a `tx.send` or at its end
  have hsame : ∀ {t : Session}, (t.streams.entries.map fun e => e.2) ++ t.loop.senders =
      (s.streams.entries.map fun e => e.2) → t.senders.Subperm s.senders := by
    intro t ht
    rw [senders, ht, hhere]
  fun_cases dispatch s f with
  | case1 | case6 | case8 | case10 | case12 =>
    exact .inl ⟨rfl, hsame (by simp [ReadLoop.senders])⟩
  | case2 =>
    obtain ⟨v, w, hs⟩ := settings_eq s f.data
    rw [hs]
    exact .inl ⟨rfl, hsame (by simp [ReadLoop.senders])⟩
  | case3 =>
    obtain ⟨w, hs⟩ := openStream_eq s f.streamId
    rw [hs]
    refine .inr ⟨rfl, ?_⟩
    rw [hhere]
    simpa [senders, ReadLoop.senders] using senders_insert_subperm s.streams f.streamId _
  | case4 _ _ _ _ msg =>
    obtain ⟨w, hs⟩ := reply_eq s ⟨cmdAlert, 0, msg⟩
    rw [hs]
    exact .inl ⟨rfl, hsame (by simp [ReadLoop.senders, close])⟩
  | case5 => exact .inl ⟨rfl, hsame (by simp [ReadLoop.senders])⟩
  | case7 _ _ _ _ _ stream hlookup =>
    refine .inl ⟨rfl, ?_⟩
    rw [hhere]
    simpa [senders, ReadLoop.senders] using (senders_take hlookup).subperm
  | case9 =>
    obtain ⟨w, hs⟩ := reply_eq s ⟨cmdHeartResponse, f.streamId, []⟩
    rw [hs]
    exact .inl ⟨rfl, hsame (by simp [ReadLoop.senders])⟩
  | case11 => exact .inl ⟨rfl, hsame (by simp [ReadLoop.senders, close])⟩

end Ruproxy.AnyTls
