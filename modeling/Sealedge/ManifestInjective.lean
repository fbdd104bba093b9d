import Sealedge.ManifestReads
import Sealedge.SerdeText

namespace Sealedge

open Fallible

def ProfileMetadata.floats : ProfileMetadata → List F64
  | camVideo m => [m.fps]
  | sensor m => m.sampleRateHz :: (m.latitude.toList ++ m.longitude.toList ++ m.altitude.toList)
  | audio _ => []
  | log _ => []
  | generic _ => []

/-- The floating-point fields of a manifest. -/
def TrstManifest.floats (m : TrstManifest) : List F64 :=
  m.metadata.floats ++ m.chunk.durationSeconds :: m.segments.map SegmentInfo.durationSeconds

/-- Equality of two floats by `==`. -/
def FloatEq (f g : F64) : Prop := f.eq g = true

/-- Two manifests that are equal in every field but the signature. -/
structure EqualButSignature (a b : TrstManifest) : Prop where
  trstVersion : a.trstVersion = b.trstVersion
  profile : a.profile = b.profile
  device : a.device = b.device
  metadata : SameMetadata FloatEq a.metadata b.metadata
  chunk : SameChunk FloatEq a.chunk b.chunk
  segments : List.Forall₂ (SameSegment FloatEq) a.segments b.segments
  claims : a.claims = b.claims
  encryption : a.encryption = b.encryption
  sequence : a.sequence = b.sequence
  prevArchiveHash : a.prevArchiveHash = b.prevArchiveHash

section Refine

variable {same same' : F64 → F64 → Prop}

theorem optionRel_imp {v w : Option F64} (h : ∀ f ∈ v.toList, ∀ g ∈ w.toList, same f g → same' f g)
    (hr : Option.Rel same v w) : Option.Rel same' v w := by
  cases hr with
  | some hs => exact Option.Rel.some (h _ (by simp) _ (by simp) hs)
  | none => exact Option.Rel.none

theorem SameMetadata.imp {a b : ProfileMetadata}
    (h : ∀ f ∈ a.floats, ∀ g ∈ b.floats, same f g → same' f g) (hab : SameMetadata same a b) :
    SameMetadata same' a b := by
  cases a with
  | camVideo a =>
    cases b with
    | camVideo b =>
      obtain ⟨he, hf⟩ := hab
      exact ⟨he, h a.fps (by simp [ProfileMetadata.floats]) b.fps (by simp [ProfileMetadata.floats])
        hf⟩
    | _ => exact hab
  | sensor a =>
    cases b with
    | sensor b =>
      obtain ⟨he, hrate, hlat, hlon, halt⟩ := hab
      refine ⟨he, h _ (by simp [ProfileMetadata.floats]) _ (by simp [ProfileMetadata.floats]) hrate,
        optionRel_imp ?_ hlat, optionRel_imp ?_ hlon, optionRel_imp ?_ halt⟩
      · intro f hf g hg
        exact h f (by simp_all [ProfileMetadata.floats]) g (by simp_all [ProfileMetadata.floats])
      · intro f hf g hg
        exact h f (by simp_all [ProfileMetadata.floats]) g (by simp_all [ProfileMetadata.floats])
      · intro f hf g hg
        exact h f (by simp_all [ProfileMetadata.floats]) g (by simp_all [ProfileMetadata.floats])
    | _ => exact hab
  | audio a => cases b <;> exact hab
  | log a => cases b <;> exact hab
  | generic a => cases b <;> exact hab

theorem sameSegments_imp {as bs : List SegmentInfo}
    (h : ∀ f ∈ as.map SegmentInfo.durationSeconds, ∀ g ∈ bs.map SegmentInfo.durationSeconds,
      same f g → same' f g)
    (hab : List.Forall₂ (SameSegment same) as bs) : List.Forall₂ (SameSegment same') as bs := by
  induction hab with
  | nil => exact List.Forall₂.nil
  | @cons a b as bs hhead htail ih =>
    refine List.Forall₂.cons ⟨hhead.1, h _ (by simp) _ (by simp) hhead.2⟩ (ih ?_)
    intro f hf g hg
    exact h f (List.mem_cons_of_mem _ hf) g (List.mem_cons_of_mem _ hg)

end Refine

theorem eq_of_emittedEpoch_eq {e e' : Option UInt32} (he : e ≠ some 0) (he' : e' ≠ some 0)
    (h : emittedEpoch e = emittedEpoch e') : e = e' := by
  have positive : ∀ {v : Option UInt32}, v ≠ some 0 → emittedEpoch v = v := by
    intro v hv
    cases v with
    | none => rfl
    | some n =>
      have hn : 0 < n := UInt32.pos_iff_ne_zero.mpr (fun hz => hv (by rw [hz]))
      simp [emittedEpoch, Option.filter, hn]
  rwa [positive he, positive he'] at h

/-- Manifests of one text are equal when their floats are told apart by their texts. -/
theorem equalButSignature_of_sameText {x : TextCodec} {a b : TrstManifest}
    (same : SameText (fun f g => x.f64Display f = x.f64Display g) a b)
    (ea : a.device.keyEpoch ≠ some 0) (eb : b.device.keyEpoch ≠ some 0)
    (floatEq : ∀ f ∈ a.floats, ∀ g ∈ b.floats, x.f64Display f = x.f64Display g → FloatEq f g) :
    EqualButSignature a b := by
  have hepoch : a.device.keyEpoch = b.device.keyEpoch := eq_of_emittedEpoch_eq ea eb same.device.2
  refine ⟨same.trstVersion, same.profile, ?_, same.metadata.imp ?_, ⟨same.chunk.1, ?_⟩,
    sameSegments_imp ?_ same.segments, same.claims, same.encryption, same.sequence,
    same.prevArchiveHash⟩
  · rw [← same.device.1, ← hepoch]
  · intro f hf g hg
    exact floatEq f (by simp [TrstManifest.floats, hf]) g (by simp [TrstManifest.floats, hg])
  · exact floatEq _ (by simp [TrstManifest.floats]) _ (by simp [TrstManifest.floats]) same.chunk.2
  · intro f hf g hg
    refine floatEq f ?_ g ?_
    · simp only [TrstManifest.floats, List.mem_append, List.mem_cons]
      exact Or.inr (Or.inr hf)
    · simp only [TrstManifest.floats, List.mem_append, List.mem_cons]
      exact Or.inr (Or.inr hg)

theorem toCanonicalBytes_determines_manifest {x : TextCodec} (hx : x.Lawful)
    {a b : TrstManifest} (va : a.validate = .ok ()) (vb : b.validate = .ok ())
    (fa : ∀ f ∈ a.floats, f.isFinite = true) (fb : ∀ f ∈ b.floats, f.isFinite = true)
    (h : a.toCanonicalBytes x = b.toCanonicalBytes x) : EqualButSignature a b := by
  have same := sameText_of_serializeCanonical_eq hx (toCanonicalBytes_inj.mp h)
  exact equalButSignature_of_sameText same (TrstManifest.validate_eq_ok.mp va).epoch
    (TrstManifest.validate_eq_ok.mp vb).epoch
    fun f hf g hg => hx.displayInj f g (fa f hf) (fb g hg)

/-- A manifest of the camera profile, unsigned. -/
def sampleManifest : TrstManifest where
  trstVersion := "0.2.0"
  profile := "cam.video"
  device :=
    { id := "te:cam:0001"
      model := "TrustEdgeRefCam"
      firmwareVersion := "1.0.0"
      publicKey := "ed25519:a2V5"
      keyAgreementPublic := none
      keyEpoch := some 1 }
  metadata := .camVideo
    { startedAt := "2025-01-01T00:00:00Z"
      endedAt := "2025-01-01T00:00:02Z"
      timezone := "UTC"
      fps := ⟨0x403e000000000000⟩
      resolution := "1920x1080"
      codec := "raw" }
  chunk := { sizeBytes := 1048576, durationSeconds := ⟨0x4000000000000000⟩ }
  segments :=
    [{ chunkFile := "00000.bin"
       blake3Hash := "ab"
       startTime := "0.000s"
       durationSeconds := ⟨0x4000000000000000⟩
       continuityHash := "cd" }]
  claims := ["location:unknown"]
  encryption := none
  sequence := some 0
  prevArchiveHash := none
  signature := none

/-- The signed copy of a manifest has the canonical bytes of the unsigned one. -/
theorem toCanonicalBytes_determines_signed_sample :
    EqualButSignature sampleManifest { sampleManifest with signature := some "ed25519:c2ln" } :=
  toCanonicalBytes_determines_manifest serdeText_lawful (by decide) (by decide) (by decide)
    (by decide) rfl

end Sealedge
