import Sealedge.ManifestText
import Mathlib.Data.List.Forall2

namespace Sealedge

open Delimited

/-- Two metadata blocks of one variant that agree, floats compared by `same`. -/
def SameMetadata (same : F64 → F64 → Prop) : ProfileMetadata → ProfileMetadata → Prop
  | .camVideo a, .camVideo b => { a with fps := b.fps } = b ∧ same a.fps b.fps
  | .sensor a, .sensor b =>
    { a with
      sampleRateHz := b.sampleRateHz
      latitude := b.latitude
      longitude := b.longitude
      altitude := b.altitude } = b ∧
    same a.sampleRateHz b.sampleRateHz ∧ Option.Rel same a.latitude b.latitude ∧
    Option.Rel same a.longitude b.longitude ∧ Option.Rel same a.altitude b.altitude
  | .audio a, .audio b => a = b
  | .log a, .log b => a = b
  | .generic a, .generic b => a = b
  | _, _ => False

def SameChunk (same : F64 → F64 → Prop) (a b : ChunkInfo) : Prop :=
  a.sizeBytes = b.sizeBytes ∧ same a.durationSeconds b.durationSeconds

def SameSegment (same : F64 → F64 → Prop) (a b : SegmentInfo) : Prop :=
  { a with durationSeconds := b.durationSeconds } = b ∧ same a.durationSeconds b.durationSeconds

def SameDevice (a b : DeviceInfo) : Prop :=
  { a with keyEpoch := b.keyEpoch } = b ∧ emittedEpoch a.keyEpoch = emittedEpoch b.keyEpoch

/-- Everything the canonical text of a manifest determines. -/
structure SameText (same : F64 → F64 → Prop) (a b : TrstManifest) : Prop where
  trstVersion : a.trstVersion = b.trstVersion
  profile : a.profile = b.profile
  device : SameDevice a.device b.device
  metadata : SameMetadata same a.metadata b.metadata
  chunk : SameChunk same a.chunk b.chunk
  segments : List.Forall₂ (SameSegment same) a.segments b.segments
  claims : a.claims = b.claims
  encryption : a.encryption = b.encryption
  sequence : a.sequence = b.sequence
  prevArchiveHash : a.prevArchiveHash = b.prevArchiveHash

theorem bare_repr (n : Nat) : Bare EndsNumber n.repr := by
  intro c hc hstop
  have hd := Numerals.repr_isDigit hc
  rcases hstop with rfl | rfl
  · exact absurd hd (by decide)
  · exact absurd hd (by decide)

theorem endsNumber_comma {key : String} {rest : List Char} (h : key.toList = ',' :: rest) :
    HeadIs EndsNumber key :=
  ⟨',', rest, h, Or.inl rfl⟩

theorem headIs_brace (s : String) : HeadIs (· = '\x7d') ("\x7d" ++ s) :=
  ⟨'\x7d', s.toList, by simp, rfl⟩

theorem endsNumber_brace (s : String) : HeadIs EndsNumber ("\x7d" ++ s) :=
  (headIs_brace s).imp (fun _ hc => Or.inr hc)

theorem skip {key s t : String} (h : key ++ s = key ++ t) : s = t :=
  (String.append_right_inj key).mp h

theorem number_step {key a b s t : String} (ha : Bare EndsNumber a) (hb : Bare EndsNumber b)
    (hs : HeadIs EndsNumber s) (ht : HeadIs EndsNumber t)
    (h : key ++ (a ++ s) = key ++ (b ++ t)) : a = b ∧ s = t :=
  bare_append_inj ha hb hs ht (skip h)

theorem TextCodec.Escapes.step {x : TextCodec} (hx : x.Escapes) {key a b s t : String}
    (h : key ++ (x.jsonStr a ++ s) = key ++ (x.jsonStr b ++ t)) : a = b ∧ s = t :=
  hx.delimited.append_inj hx.injective (skip h)

section Reads

variable {x : TextCodec} (hx : x.Lawful)

include hx

theorem str_append_inj {a b s t : String} (h : x.jsonStr a ++ s = x.jsonStr b ++ t) :
    a = b ∧ s = t :=
  hx.delimited.append_inj hx.injective h

theorem str_step {key a b s t : String} (h : key ++ (x.jsonStr a ++ s) = key ++ (x.jsonStr b ++ t)) :
    a = b ∧ s = t :=
  hx.escapes.step h

theorem optStr_step {key s t : String} {v w : Option String} (hs : ¬Begins key s)
    (ht : ¬Begins key t) (h : opt key x.jsonStr v ++ s = opt key x.jsonStr w ++ t) :
    v = w ∧ s = t := by
  obtain ⟨hv, hst⟩ := opt_append_inj (r := Eq) (fun a b => str_append_inj hx) hs ht h
  exact ⟨eq_of_rel_eq hv, hst⟩

theorem optFloat_step {key s t : String} {v w : Option F64} (hs : ¬Begins key s)
    (ht : ¬Begins key t) (stopS : HeadIs EndsNumber s) (stopT : HeadIs EndsNumber t)
    (h : opt key x.f64Display v ++ s = opt key x.f64Display w ++ t) :
    Option.Rel (fun f g => x.f64Display f = x.f64Display g) v w ∧ s = t :=
  opt_append_inj
    (fun a b => bare_append_inj (hx.displayBare a) (hx.displayBare b) stopS stopT) hs ht h

theorem jsonStr_headIs (s : String) : HeadIs (· = '"') (x.jsonStr s) := by
  obtain ⟨body, hb⟩ := hx.quoted s
  exact ⟨'"', (body ++ "\"").toList, by simp [hb], rfl⟩

theorem label_step {a b : String × String} {s t : String}
    (h : labelText x a ++ s = labelText x b ++ t) : a = b ∧ s = t := by
  simp only [labelText, String.append_assoc] at h
  obtain ⟨hk, h⟩ := str_append_inj hx h
  obtain ⟨hv, h⟩ := str_step hx h
  exact ⟨Prod.ext hk hv, h⟩

theorem labels_step {a b : Labels} {s t : String}
    (h : labelsText x a ++ ("\x7d" ++ s) = labelsText x b ++ ("\x7d" ++ t)) : a = b ∧ s = t := by
  have entries_eq : ∀ {l l' : Labels}, l.entries = l'.entries → l = l' := by
    rintro ⟨_, _⟩ ⟨_, _⟩ rfl
    rfl
  have clash : ∀ (l : Labels) (u v : String),
      "\x7d" ++ u ≠ ",\"labels\":\x7b" ++ (sepBy (labelText x) l.entries ++ v) := by
    intro l u v
    exact diverge_ne (by decide)
  unfold labelsText at h
  split at h
  next ha =>
    split at h
    next hb =>
      have hae : a.entries = [] := by simpa [Labels.isEmpty] using ha
      have hbe : b.entries = [] := by simpa [Labels.isEmpty] using hb
      exact ⟨entries_eq (hae.trans hbe.symm), by simpa using h⟩
    next => exact absurd (by simpa [String.append_assoc] using h) (clash b s _)
  next =>
    split at h
    next => exact absurd (by simpa [String.append_assoc] using h.symm) (clash a t _)
    next =>
      simp only [String.append_assoc, String.append_right_inj] at h
      have opens : ∀ e : String × String, HeadIs (· ≠ '\x7d') (labelText x e) := by
        intro e
        have hq := (jsonStr_headIs hx e.1).append (":" ++ x.jsonStr e.2)
        rw [← String.append_assoc] at hq
        exact hq.imp (fun c hc he => by rw [hc] at he; exact absurd he (by decide))
      obtain ⟨he, h⟩ := sepBy_append_inj (r := Eq) (p := EndsNumber) (Or.inl rfl) (Or.inr rfl)
        (by decide) (fun u v _ _ _ _ => label_step hx) opens
        (headIs_brace _) (headIs_brace _) h
      exact ⟨entries_eq (List.forall₂_eq_eq_eq ▸ he), skip (skip h)⟩

theorem device_step {a b : DeviceInfo} {s t : String}
    (h : deviceText x a ++ s = deviceText x b ++ t) : SameDevice a b ∧ s = t := by
  unfold deviceText at h
  simp only [String.append_assoc] at h
  obtain ⟨hid, h⟩ := str_step hx (skip h)
  obtain ⟨hmodel, h⟩ := str_step hx h
  obtain ⟨hfirmware, h⟩ := str_step hx h
  obtain ⟨hpublic, h⟩ := str_step hx h
  obtain ⟨hagree, h⟩ := optStr_step hx
    (not_begins_opt _ (by decide) (not_begins_of_diverge (by decide) _) _)
    (not_begins_opt _ (by decide) (not_begins_of_diverge (by decide) _) _) h
  obtain ⟨hepoch, h⟩ := opt_append_inj (r := Eq)
    (fun u v huv => by
      obtain ⟨hr, hst⟩ := bare_append_inj (bare_repr _) (bare_repr _) (endsNumber_brace s)
        (endsNumber_brace t) huv
      exact ⟨UInt32.toNat_inj.mp (Numerals.repr_injective hr), hst⟩)
    (not_begins_of_diverge (by decide) _) (not_begins_of_diverge (by decide) _) h
  refine ⟨⟨?_, eq_of_rel_eq hepoch⟩, skip h⟩
  cases a
  cases b
  simp_all

end Reads

end Sealedge
