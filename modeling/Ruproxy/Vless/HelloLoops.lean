/-
  Vless/HelloLoops.lean --- the loops over a ClientHello end.

  The functions of `ClientHello` unroll the `while` loops of the source.  Here the loops
  are run turn by turn: a turn over the extensions or the key shares takes at least the
  four bytes of a header, one over the cipher suites two, so that the bytes bound the
  turns.  With `Reality` this makes the parsing safe for all length fields.
-/
import Ruproxy.Foundation.Loop
import Ruproxy.Vless.Reality

set_option autoImplicit false

namespace Ruproxy.Vless

open Ruproxy.Foundation
open Ruproxy.Foundation.Outcome

/-! ## The bodies -/

/-- A turn over the key shares; the state is `pos` and `mlkem_x25519`. -/
def keySharesTurn (data : Bytes) (stop : Nat) :
    Nat × Option X25519Key → Outcome KeyShareError (Turn (Nat × Option X25519Key) X25519Key)
  | (pos, mlkemX25519) =>
      if pos + 4 ≤ stop then do
        let group := u16OfBe (← index data pos) (← index data (pos + 1))
        let keLen := (u16OfBe (← index data (pos + 2)) (← index data (pos + 3))).toNat
        if stop < pos + 4 + keLen then err .entryOutOfBounds
        else if group = 0x001d ∧ keLen = 32 then
          return .exit (← unwrap (tryInto 32 (← slice data (pos + 4) (pos + 4 + 32))))
        else if group = 0x11ec ∧ 1088 + 32 ≤ keLen then
          let x25519Offset := keLen - 32
          let pubKey ← unwrap (tryInto 32
            (← slice data (pos + 4 + x25519Offset) (pos + 4 + x25519Offset + 32)))
          return .next (pos + 4 + keLen, some pubKey)
        else return .next (pos + 4 + keLen, mlkemX25519)
      else return .exit (← orErr .noX25519 mlkemX25519)

/-- A turn over the extensions; the state is `pos`. -/
def keyShareExtensionTurn (record : Bytes) (extEnd pos : Nat) :
    Outcome KeyShareError (Turn Nat X25519Key) :=
  if pos + 4 ≤ extEnd then do
    let extType := u16OfBe (← index record pos) (← index record (pos + 1))
    let extLen := (u16OfBe (← index record (pos + 2)) (← index record (pos + 3))).toNat
    if extEnd < pos + 4 + extLen then err .extensionOutOfBounds
    else if extType = 0x0033 then
      return .exit (← parseX25519KeyShare (← slice record (pos + 4) (pos + 4 + extLen)))
    else return .next (pos + 4 + extLen)
  else err .noKeyShare

/-- A turn over the cipher suites; the state is `i`. -/
def prefersAesTurn {ε : Type} (record : Bytes) (stop i : Nat) : Outcome ε (Turn Nat Bool) :=
  if i + 1 < stop then do
    let suite := u16OfBe (← index record i) (← index record (i + 1))
    if suite ∈ [0x1301, 0x1302, 0x009c, 0x009d, 0xc02b, 0xc02c, 0xc02f, 0xc030] then
      return .exit true
    else if suite ∈ [0x1303, 0xcca8, 0xcca9] then return .exit false
    else return .next (i + 2)
  else return .exit true

/-! ## The loops -/

/-- The loop over the key shares. -/
theorem loop_keyShares (data : Bytes) (stop pos : Nat) (mlkem : Option X25519Key) :
    loop (keySharesTurn data stop) ((stop - pos) / 4 + 1) (pos, mlkem) =
      some (keyShares data stop pos mlkem) := by
  refine loop_eq_of_measure (fun s : Nat × Option X25519Key => keyShares data stop s.1 s.2)
    (fun s => (stop - s.1) / 4) ?_ ?_ _ _ (Nat.lt_succ_self _)
  · rintro ⟨pos, mlkem⟩
    dsimp only
    rw [keyShares, keySharesTurn]
    split
    · refine bind_continue fun a => bind_continue fun b => bind_continue fun c =>
        bind_continue fun d => ?_
      dsimp only
      split
      · rfl
      split
      · exact bind_continue fun s => by
          cases tryInto 32 s with
          | none => rfl
          | some v => rfl
      split
      · exact bind_continue fun s => bind_continue fun pubKey => rfl
      · rfl
    · cases mlkem with
      | none => rfl
      | some key => rfl
  · rintro ⟨pos, mlkem⟩ ⟨pos', mlkem'⟩ hnext
    rw [keySharesTurn] at hnext
    split at hnext
    · rename_i hpos
      obtain ⟨a, b, c, d, hnext⟩ := head_eq_ok hnext
      obtain ⟨-, hnext⟩ := guard_eq_ok.mp hnext
      have hstep : pos + 4 ≤ pos' := by
        split at hnext
        · obtain ⟨s, -, hnext⟩ := bind_eq_ok.mp hnext
          obtain ⟨key, -, hnext⟩ := bind_eq_ok.mp hnext
          cases hnext
        split at hnext
        · obtain ⟨s, -, hnext⟩ := bind_eq_ok.mp hnext
          obtain ⟨key, -, hnext⟩ := bind_eq_ok.mp hnext
          cases hnext
          exact Nat.le_add_right _ _
        · cases hnext
          exact Nat.le_add_right _ _
      show (stop - pos') / 4 < (stop - pos) / 4
      omega
    · obtain ⟨key, -, hnext⟩ := bind_eq_ok.mp hnext
      cases hnext

/-- The loop over the extensions. -/
theorem loop_keyShareExtension (record : Bytes) (extEnd pos : Nat) :
    loop (keyShareExtensionTurn record extEnd) ((extEnd - pos) / 4 + 1) pos =
      some (keyShareExtension record extEnd pos) := by
  refine loop_eq_of_measure (keyShareExtension record extEnd)
    (fun pos => (extEnd - pos) / 4) ?_ ?_ _ _ (Nat.lt_succ_self _)
  · intro pos
    rw [keyShareExtension, keyShareExtensionTurn]
    split
    · refine bind_continue fun a => bind_continue fun b => bind_continue fun c =>
        bind_continue fun d => ?_
      dsimp only
      split
      · rfl
      split
      · exact bind_continue fun s => by
          cases parseX25519KeyShare s with
          | ok key => rfl
          | err e => rfl
          | panic => rfl
      · rfl
    · rfl
  · intro pos pos' hnext
    rw [keyShareExtensionTurn] at hnext
    split at hnext
    · rename_i hpos
      obtain ⟨a, b, c, d, hnext⟩ := head_eq_ok hnext
      obtain ⟨-, hnext⟩ := guard_eq_ok.mp hnext
      have hstep : pos + 4 ≤ pos' := by
        split at hnext
        · obtain ⟨s, -, hnext⟩ := bind_eq_ok.mp hnext
          obtain ⟨key, -, hnext⟩ := bind_eq_ok.mp hnext
          cases hnext
        · cases hnext
          exact Nat.le_add_right _ _
      show (extEnd - pos') / 4 < (extEnd - pos) / 4
      omega
    · cases hnext

/-- The loop over the cipher suites. -/
theorem loop_prefersAesFrom {ε : Type} (record : Bytes) (stop i : Nat) :
    loop (prefersAesTurn record stop) ((stop - i) / 2 + 1) i =
      some (prefersAesFrom record stop i : Outcome ε Bool) := by
  refine loop_eq_of_measure (prefersAesFrom record stop)
    (fun i => (stop - i) / 2) ?_ ?_ _ _ (Nat.lt_succ_self _)
  · intro i
    rw [prefersAesFrom, prefersAesTurn]
    split
    · refine bind_continue fun a => bind_continue fun b => ?_
      dsimp only
      split
      · rfl
      split
      · rfl
      · rfl
    · rfl
  · intro i i' hnext
    rw [prefersAesTurn] at hnext
    split at hnext
    · rename_i hi
      obtain ⟨a, -, hnext⟩ := bind_eq_ok.mp hnext
      obtain ⟨b, -, hnext⟩ := bind_eq_ok.mp hnext
      have hstep : i' = i + 2 := by
        dsimp only at hnext
        split at hnext
        · cases hnext
        split at hnext
        · cases hnext
        · cases hnext
          rfl
      show (stop - i') / 2 < (stop - i) / 2
      omega
    · cases hnext

/-! ## Safety -/

/-- **Safety.**  No byte string makes the parsing of a ClientHello go out of range, and its
loops end after as many turns as the bytes have room for. -/
theorem clientHello_parsing_safe {ε : Type} (crypto : RealityCrypto) (cfg : RealityConfig)
    (record : Bytes) :
    verifyRealityClient crypto cfg record ≠ panic ∧
    extractX25519FromKeyShare record ≠ panic ∧
    parseX25519KeyShare record ≠ panic ∧
    (cipherSuitePrefersAes record : Outcome ε Bool) ≠ panic ∧
    (∀ stop pos mlkem, loop (keySharesTurn record stop) ((stop - pos) / 4 + 1) (pos, mlkem) =
      some (keyShares record stop pos mlkem)) ∧
    (∀ extEnd pos, loop (keyShareExtensionTurn record extEnd) ((extEnd - pos) / 4 + 1) pos =
      some (keyShareExtension record extEnd pos)) ∧
    (∀ stop i, loop (prefersAesTurn record stop) ((stop - i) / 2 + 1) i =
      some (prefersAesFrom record stop i : Outcome ε Bool)) :=
  ⟨verifyRealityClient_ne_panic record, extractX25519FromKeyShare_ne_panic record,
    parseX25519KeyShare_ne_panic record, cipherSuitePrefersAes_ne_panic record,
    loop_keyShares record, loop_keyShareExtension record, loop_prefersAesFrom record⟩

end Ruproxy.Vless
