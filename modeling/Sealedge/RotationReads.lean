import Sealedge.ManifestReads
import Sealedge.Rotation

namespace Sealedge

open Delimited

/-- Two rotation records that differ in their signatures at most. -/
def RotationRecord.SameSigned (a b : RotationRecord) : Prop :=
  { a with sigOld := b.sigOld, sigNew := b.sigNew } = b

section Reads

variable {x : TextCodec} (hx : x.Escapes)

include hx

theorem rotationOld_step {a b : RotationOld} {s t : String}
    (h : ",\"old\":\x7b\"public_key\":" ++ (x.jsonStr a.publicKey ++
        (",\"key_epoch\":" ++ (a.keyEpoch.toNat.repr ++ ("\x7d" ++ s)))) =
      ",\"old\":\x7b\"public_key\":" ++ (x.jsonStr b.publicKey ++
        (",\"key_epoch\":" ++ (b.keyEpoch.toNat.repr ++ ("\x7d" ++ t))))) : a = b ∧ s = t := by
  obtain ⟨hkey, h⟩ := hx.step h
  obtain ⟨hepoch, h⟩ := number_step (bare_repr _) (bare_repr _) (endsNumber_brace _)
    (endsNumber_brace _) h
  have hepoch := UInt32.toNat_inj.mp (Numerals.repr_injective hepoch)
  refine ⟨?_, skip h⟩
  cases a
  cases b
  simp_all

theorem rotationNew_step {a b : RotationNew} {s t : String}
    (h : ",\"new\":\x7b\"public_key\":" ++ (x.jsonStr a.publicKey ++
        (",\"key_agreement_public\":" ++ (x.jsonStr a.keyAgreementPublic ++
          (",\"key_epoch\":" ++ (a.keyEpoch.toNat.repr ++ ("\x7d" ++ s)))))) =
      ",\"new\":\x7b\"public_key\":" ++ (x.jsonStr b.publicKey ++
        (",\"key_agreement_public\":" ++ (x.jsonStr b.keyAgreementPublic ++
          (",\"key_epoch\":" ++ (b.keyEpoch.toNat.repr ++ ("\x7d" ++ t))))))) : a = b ∧ s = t := by
  obtain ⟨hkey, h⟩ := hx.step h
  obtain ⟨hagree, h⟩ := hx.step h
  obtain ⟨hepoch, h⟩ := number_step (bare_repr _) (bare_repr _) (endsNumber_brace _)
    (endsNumber_brace _) h
  have hepoch := UInt32.toNat_inj.mp (Numerals.repr_injective hepoch)
  refine ⟨?_, skip h⟩
  cases a
  cases b
  simp_all

theorem RotationRecord.sameSigned_of_signingBytes_eq {a b : RotationRecord}
    (h : a.signingBytes x = b.signingBytes x) : a.SameSigned b := by
  have h := intoBytes_injective h
  unfold RotationRecord.signingText at h
  simp only [String.append_assoc] at h
  obtain ⟨hversion, h⟩ := hx.step (skip h)
  obtain ⟨hkind, h⟩ := hx.step h
  obtain ⟨hseq, h⟩ := number_step (bare_repr _) (bare_repr _)
    ((endsNumber_comma rfl).append _) ((endsNumber_comma rfl).append _) h
  obtain ⟨hprev, h⟩ := hx.step h
  obtain ⟨hold, h⟩ := rotationOld_step hx h
  obtain ⟨hnew, h⟩ := rotationNew_step hx h
  obtain ⟨hat, -⟩ := hx.step h
  have hseq := UInt64.toNat_inj.mp (Numerals.repr_injective hseq)
  unfold RotationRecord.SameSigned
  cases a
  cases b
  simp_all

/-- After the version a manifest goes on with its profile and a rotation record with its kind. -/
theorem toCanonicalBytes_ne_signingBytes (m : TrstManifest) (r : RotationRecord) :
    m.toCanonicalBytes x ≠ r.signingBytes x := by
  intro h
  have h := intoBytes_injective h
  unfold serializeCanonical RotationRecord.signingText at h
  simp only [String.append_assoc] at h
  obtain ⟨-, h⟩ := hx.step (skip h)
  exact diverge_ne (by decide) h

end Reads

end Sealedge
