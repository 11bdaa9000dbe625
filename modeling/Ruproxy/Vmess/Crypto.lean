/-
  Vmess/Crypto.lean --- the primitives of the VMess body and what is made of them.

  The AEAD ciphers, MD5, HMAC-SHA256 and the SHAKE128 output stream come from
  crates that are not part of the repository, so they are a parameter here, with
  their documented behaviour as a predicate.  The key schedules, the chunk nonce
  and the mask reader are the repository's own.
-/
import Ruproxy.Foundation.Bytes

set_option autoImplicit false

namespace Ruproxy.Vmess

open Ruproxy.Foundation

/-- The ciphers of the body. -/
inductive Cipher where
  | aes128Gcm
  | chaCha20Poly1305
  deriving DecidableEq

/-- The primitives taken from other crates. -/
structure Crypto where
  /-- `Aead::encrypt` under a key and a nonce, without associated data -/
  encrypt : Cipher → Bytes → Vector UInt8 12 → Bytes → Option Bytes
  /-- `Aead::decrypt` under a key and a nonce, without associated data -/
  decrypt : Cipher → Bytes → Vector UInt8 12 → Bytes → Option Bytes
  /-- `Md5::digest` -/
  md5 : Bytes → Vector UInt8 16
  /-- `Hmac<Sha256>` under a key -/
  hmacSha256 : Bytes → Bytes → Vector UInt8 32
  /-- the output of SHAKE128 on a seed, by position -/
  shake128 : Bytes → Nat → UInt8

/-- The documented behaviour of the ciphers: every message below 64 GiB is sealed,
the ciphertext is a tag of 16 bytes longer, and opening it under the same key and
nonce returns the message. -/
structure Crypto.Lawful (crypto : Crypto) : Prop where
  encrypt_isSome : ∀ c key nonce plain, plain.length < 2 ^ 36 →
    (crypto.encrypt c key nonce plain).isSome
  encrypt_length : ∀ c key nonce plain ct,
    crypto.encrypt c key nonce plain = some ct → ct.length = plain.length + 16
  decrypt_encrypt : ∀ c key nonce plain ct,
    crypto.encrypt c key nonce plain = some ct → crypto.decrypt c key nonce ct = some plain

/-- What a lawful cipher makes of a short message. -/
theorem Crypto.Lawful.sealed {crypto : Crypto} (h : crypto.Lawful) (c : Cipher) (key : Bytes)
    (nonce : Vector UInt8 12) {plain : Bytes} (hlen : plain.length < 2 ^ 36) :
    ∃ ct, crypto.encrypt c key nonce plain = some ct ∧ ct.length = plain.length + 16 ∧
      crypto.decrypt c key nonce ct = some plain := by
  obtain ⟨ct, hct⟩ := Option.isSome_iff_exists.mp (h.encrypt_isSome c key nonce plain hlen)
  exact ⟨ct, hct, h.encrypt_length c key nonce plain ct hct,
    h.decrypt_encrypt c key nonce plain ct hct⟩

/-! ## Key derivation -/

/-- `KDF_ROOT`. -/
def kdfRoot : Bytes := "VMess AEAD KDF".toUTF8.toList

/-- One turn of the loop of `vmess_kdf`: the previous function as the hash of an
HMAC keyed with the salt. -/
def kdfWrap (prev : Bytes → Vector UInt8 32) (salt : Bytes) : Bytes → Vector UInt8 32 :=
  let saltPadded := (salt.take 64).rightpad 64 0
  fun msg =>
    let inner := prev (saltPadded.map (· ^^^ 0x36) ++ msg)
    prev (saltPadded.map (· ^^^ 0x5c) ++ inner.toList)

/-- `vmess_kdf`. -/
def vmessKdf (crypto : Crypto) (key : Bytes) (path : List Bytes) : Vector UInt8 32 :=
  path.foldl kdfWrap (crypto.hmacSha256 kdfRoot) key

/-- `kdf16`. -/
def kdf16 (crypto : Crypto) (key : Bytes) (path : List Bytes) : Bytes :=
  (vmessKdf crypto key path).toList.take 16

/-- `chacha_key`. -/
def chachaKey (crypto : Crypto) (key : Vector UInt8 16) : Bytes :=
  let h1 := crypto.md5 key.toList
  let h2 := crypto.md5 h1.toList
  h1.toList ++ h2.toList

/-! ## Nonces and masks -/

/-- `chunk_nonce`: the counter in the first two bytes, then `iv[2..12]`. -/
def chunkNonce (iv : Vector UInt8 16) (count : UInt16) : Vector UInt8 12 :=
  #v[UInt8.ofNat (count.toNat / 256), UInt8.ofNat count.toNat, iv[2], iv[3], iv[4], iv[5],
    iv[6], iv[7], iv[8], iv[9], iv[10], iv[11]]

/-- `Shake128Reader`: the seed and how many bytes were read. -/
structure Shake128Reader where
  seed : Bytes
  pos : Nat
  deriving DecidableEq

/-- `Shake128Reader::new`. -/
def Shake128Reader.new (seed : Bytes) : Shake128Reader := ⟨seed, 0⟩

/-- `Shake128Reader::next_u16`. -/
def Shake128Reader.nextU16 (crypto : Crypto) (s : Shake128Reader) : UInt16 × Shake128Reader :=
  (u16OfBe (crypto.shake128 s.seed s.pos) (crypto.shake128 s.seed (s.pos + 1)),
    { s with pos := s.pos + 2 })

end Ruproxy.Vmess
