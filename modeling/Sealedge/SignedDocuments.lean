import Mathlib.Data.Set.Lattice
import Mathlib.Order.CompletePartialOrder
import Sealedge.PointAttestation
import Sealedge.RotationReads
import Sealedge.SerdeText

namespace Sealedge

open Delimited

/-- Two witness requests that differ at most in their signature and in the rotation they carry. -/
def WitnessRequest.SameSigned (a b : WitnessRequest) : Prop :=
  { a with signature := b.signature, rotation := b.rotation } = b

/-- Two attestations that differ in their signature at most. -/
def PointAttestation.SameSigned (a b : PointAttestation) : Prop :=
  { a with signature := b.signature } = b

section Reads

variable {x : TextCodec} (hx : x.Escapes)

include hx

theorem WitnessRequest.sameSigned_of_signingBytes_eq {a b : WitnessRequest}
    (h : a.signingBytes x = b.signingBytes x) : a.SameSigned b := by
  have h := intoBytes_injective h
  unfold WitnessRequest.signingText at h
  simp only [String.append_assoc] at h
  obtain ⟨hpub, h⟩ := hx.step (skip h)
  obtain ⟨hseq, h⟩ := number_step (bare_repr _) (bare_repr _)
    ((endsNumber_comma rfl).append _) ((endsNumber_comma rfl).append _) h
  obtain ⟨htip, h⟩ := hx.step h
  obtain ⟨hat, -⟩ := hx.step h
  have hseq := UInt64.toNat_inj.mp (Numerals.repr_injective hseq)
  unfold WitnessRequest.SameSigned
  cases a
  cases b
  simp_all

theorem artifact_step {a b : ArtifactRef} {s t : String}
    (h : artifactText x a ++ s = artifactText x b ++ t) : a = b ∧ s = t := by
  unfold artifactText at h
  simp only [String.append_assoc] at h
  obtain ⟨hhash, h⟩ := hx.step h
  obtain ⟨hname, h⟩ := hx.step h
  obtain ⟨hlabel, h⟩ := hx.step h
  refine ⟨?_, skip h⟩
  cases a
  cases b
  simp_all

theorem PointAttestation.sameSigned_of_canonicalBytes_eq {a b : PointAttestation}
    (h : a.canonicalBytes x = b.canonicalBytes x) : a.SameSigned b := by
  have h := intoBytes_injective h
  unfold PointAttestation.jsonText at h
  simp only [String.append_assoc] at h
  obtain ⟨hformat, h⟩ := hx.step h
  obtain ⟨hversion, h⟩ := hx.step h
  obtain ⟨htime, h⟩ := hx.step h
  obtain ⟨hnonce, h⟩ := hx.step h
  obtain ⟨hsubject, h⟩ := artifact_step hx (skip h)
  obtain ⟨hevidence, h⟩ := artifact_step hx (skip h)
  obtain ⟨hkey, -⟩ := hx.step h
  unfold PointAttestation.SameSigned
  cases a
  cases b
  simp_all

end Reads

theorem intoBytes_ne_of_diverge {k l s t : String} (h : Diverge k l) :
    intoBytes (k ++ s) ≠ intoBytes (l ++ t) := by
  intro he
  exact diverge_ne h (intoBytes_injective he)

section Heads

variable (x : TextCodec)

theorem toCanonicalBytes_head (m : TrstManifest) :
    ∃ s, m.toCanonicalBytes x = intoBytes ("\x7b\"trst_version\":" ++ s) := by
  unfold TrstManifest.toCanonicalBytes serializeCanonical
  simp only [String.append_assoc]
  exact ⟨_, congrArg intoBytes (String.append_assoc ..).symm⟩

theorem RotationRecord.signingBytes_head (r : RotationRecord) :
    ∃ s, r.signingBytes x = intoBytes ("\x7b\"trst_version\":" ++ s) := by
  unfold RotationRecord.signingBytes RotationRecord.signingText
  simp only [String.append_assoc]
  exact ⟨_, congrArg intoBytes (String.append_assoc ..).symm⟩

theorem WitnessRequest.signingBytes_head (r : WitnessRequest) :
    ∃ s, r.signingBytes x = intoBytes ("\x7b\"device_pub\":" ++ s) := by
  unfold WitnessRequest.signingBytes WitnessRequest.signingText
  simp only [String.append_assoc]
  exact ⟨_, congrArg intoBytes (String.append_assoc ..).symm⟩

theorem PointAttestation.canonicalBytes_head (a : PointAttestation) :
    ∃ s, a.canonicalBytes x = intoBytes ("\x7b\"format\":" ++ s) := by
  unfold PointAttestation.canonicalBytes PointAttestation.jsonText
  simp only [String.append_assoc]
  exact ⟨_, rfl⟩

end Heads

theorem disjoint_range_of_ne {α β γ : Type} {f : α → γ} {g : β → γ} (h : ∀ a b, f a ≠ g b) :
    Disjoint (Set.range f) (Set.range g) := by
  rw [Set.disjoint_left]
  rintro _ ⟨a, rfl⟩ ⟨b, hb⟩
  exact h a b hb.symm

theorem disjoint_range_of_heads {α β : Type} {f : α → Bytes} {g : β → Bytes} {k l : String}
    (hkl : Diverge k l) (hf : ∀ a, ∃ s, f a = intoBytes (k ++ s))
    (hg : ∀ b, ∃ s, g b = intoBytes (l ++ s)) : Disjoint (Set.range f) (Set.range g) := by
  refine disjoint_range_of_ne (fun a b he => ?_)
  obtain ⟨s, hs⟩ := hf a
  obtain ⟨t, ht⟩ := hg b
  rw [hs, ht] at he
  exact intoBytes_ne_of_diverge hkl he

/-- What one device key signs says which kind of document it is, and for every kind but the
manifest what stands in it. -/
theorem signedDocuments_unambiguous {x : TextCodec} (hx : x.Escapes) :
    [Set.range (TrstManifest.toCanonicalBytes x), Set.range (RotationRecord.signingBytes x),
        Set.range (WitnessRequest.signingBytes x),
        Set.range (PointAttestation.canonicalBytes x)].Pairwise Disjoint ∧
      (∀ a b : RotationRecord, a.signingBytes x = b.signingBytes x → a.SameSigned b) ∧
      (∀ a b : WitnessRequest, a.signingBytes x = b.signingBytes x → a.SameSigned b) ∧
      ∀ a b : PointAttestation, a.canonicalBytes x = b.canonicalBytes x → a.SameSigned b := by
  have hmr := disjoint_range_of_ne (toCanonicalBytes_ne_signingBytes hx)
  have hmw := disjoint_range_of_heads (by decide) (toCanonicalBytes_head x)
    (WitnessRequest.signingBytes_head x)
  have hma := disjoint_range_of_heads (by decide) (toCanonicalBytes_head x)
    (PointAttestation.canonicalBytes_head x)
  have hrw := disjoint_range_of_heads (by decide) (RotationRecord.signingBytes_head x)
    (WitnessRequest.signingBytes_head x)
  have hra := disjoint_range_of_heads (by decide) (RotationRecord.signingBytes_head x)
    (PointAttestation.canonicalBytes_head x)
  have hwa := disjoint_range_of_heads (by decide) (WitnessRequest.signingBytes_head x)
    (PointAttestation.canonicalBytes_head x)
  refine ⟨?_, fun a b => RotationRecord.sameSigned_of_signingBytes_eq hx,
    fun a b => WitnessRequest.sameSigned_of_signingBytes_eq hx,
    fun a b => PointAttestation.sameSigned_of_canonicalBytes_eq hx⟩
  simp [hmr, hmw, hma, hrw, hra, hwa]

theorem signedDocuments_unambiguous_serde :
    serdeText.Escapes ∧
      Disjoint (Set.range (TrstManifest.toCanonicalBytes serdeText))
        (Set.range (RotationRecord.signingBytes serdeText)) ∧
      ∀ a b : PointAttestation,
        a.canonicalBytes serdeText = b.canonicalBytes serdeText → a.SameSigned b := by
  obtain ⟨hkinds, -, -, hattest⟩ := signedDocuments_unambiguous serdeText_lawful.escapes
  exact ⟨serdeText_lawful.escapes, (List.pairwise_cons.mp hkinds).1 _ (by simp), hattest⟩

end Sealedge
