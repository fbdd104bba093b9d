import Sealedge.Base64
import Sealedge.SerdeText
import Sealedge.Rotation

namespace Sealedge

/-- The first `n` bytes, filled up with zeros. -/
def fit (n : Nat) (bytes : Bytes) : Bytes :=
  (bytes ++ List.replicate n 0).take n

theorem fit_length (n : Nat) (bytes : Bytes) : (fit n bytes).length = n := by
  simp [fit]

theorem fit_append {n : Nat} {head : Bytes} (h : head.length = n) (rest : Bytes) :
    fit n (head ++ rest) = head := by
  rw [fit, List.append_assoc, List.take_append_of_le_length (by omega), List.take_of_length_le
    (by omega)]

theorem fit_of_length {n : Nat} {bytes : Bytes} (h : bytes.length = n) : fit n bytes = bytes := by
  have hfit := fit_append h []
  rwa [List.append_nil] at hfit

/-- A polynomial hash of 256 bits, least significant byte first. -/
def sampleHash (bytes : Bytes) : Digest :=
  let n := bytes.foldl (fun acc b => (acc * 257 + b.toNat + 1) % 2 ^ 256) 7
  ⟨(List.range 32).map (fun i => UInt8.ofNat (n / 256 ^ i)), by simp⟩

/-- A small instance of the outside functions: JSON escaping and base64 as they are, a polynomial
hash, and signatures made of the hash of the message and the key. -/
def sampleCrates : Crates where
  text := serdeText
  blake3 := sampleHash
  base64Encode := Base64.encode
  base64Decode s :=
    match Base64.decode s with
    | some bytes => .ok bytes
    | none => .error "Invalid padding"
  ed25519Public := fit 32
  ed25519Key _ := .ok ()
  ed25519Sign secret msg := (sampleHash msg).val ++ fit 32 secret
  ed25519Verify key msg sig := sig == (sampleHash msg).val ++ key
  p256Key _ := .error "crypto error"
  p256Signature _ := .error "signature error"
  p256Verify _ _ _ := false

theorem sampleCrates_signsLawfully : sampleCrates.SignsLawfully where
  base64 bytes := by simp [sampleCrates, Base64.decode_encode]
  publicLength secret := fit_length 32 secret
  publicKey _ := rfl
  signatureLength secret msg := by
    have hhash := (sampleHash msg).property
    have hkey := fit_length 32 secret
    simp only [sampleCrates, List.length_append, hhash, hkey]
  verifies secret msg := by simp [sampleCrates]

/-- The key whose secret is one byte repeated. -/
def sampleKey (b : UInt8) : DeviceKeypair :=
  ⟨List.replicate 32 b, by simp⟩

end Sealedge
