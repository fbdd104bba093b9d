import Sealedge.MetadataReads

namespace Sealedge

open Delimited

/-- Characters that end an item of an array. -/
def EndsItem (c : Char) : Prop :=
  c = ',' ∨ c = ']'

theorem headIs_bracket (s : String) : HeadIs (· = ']') ("]" ++ s) :=
  ⟨']', s.toList, by simp, rfl⟩

section Reads

variable {x : TextCodec} (hx : x.Lawful)

include hx

theorem chunk_step {a b : ChunkInfo} {s t : String} (h : chunkText x a ++ s = chunkText x b ++ t) :
    SameChunk (fun f g => x.f64Display f = x.f64Display g) a b ∧ s = t := by
  unfold chunkText at h
  simp only [String.append_assoc] at h
  obtain ⟨hsize, h⟩ := number_step (bare_repr _) (bare_repr _)
    ((endsNumber_comma rfl).append _) ((endsNumber_comma rfl).append _) (skip h)
  obtain ⟨hduration, h⟩ := number_step (hx.displayBare _) (hx.displayBare _)
    (endsNumber_brace _) (endsNumber_brace _) h
  exact ⟨⟨UInt64.toNat_inj.mp (Numerals.repr_injective hsize), hduration⟩, skip h⟩

theorem segment_step {a b : SegmentInfo} {s t : String}
    (h : segmentText x a ++ s = segmentText x b ++ t) :
    SameSegment (fun f g => x.f64Display f = x.f64Display g) a b ∧ s = t := by
  unfold segmentText at h
  simp only [String.append_assoc] at h
  obtain ⟨hfile, h⟩ := str_step hx (skip h)
  obtain ⟨hhash, h⟩ := str_step hx h
  obtain ⟨hstart, h⟩ := str_step hx h
  obtain ⟨hduration, h⟩ := number_step (hx.displayBare _) (hx.displayBare _)
    ((endsNumber_comma rfl).append _) ((endsNumber_comma rfl).append _) h
  obtain ⟨hcontinuity, h⟩ := str_step hx h
  refine ⟨⟨?_, hduration⟩, skip h⟩
  cases a
  cases b
  simp_all

theorem segments_step {a b : List SegmentInfo} {s t : String}
    (h : segmentsText x a ++ s = segmentsText x b ++ t) :
    List.Forall₂ (SameSegment (fun f g => x.f64Display f = x.f64Display g)) a b ∧ s = t := by
  unfold segmentsText at h
  simp only [String.append_assoc] at h
  have opens : ∀ e : SegmentInfo, HeadIs (· ≠ ']') (segmentText x e) := by
    intro e
    unfold segmentText
    simp only [String.append_assoc]
    exact HeadIs.append ⟨'\x7b', [], by decide, by decide⟩ _
  obtain ⟨hitems, h⟩ := sepBy_append_inj (p := EndsItem) (Or.inl rfl) (Or.inr rfl) (by decide)
    (fun u v _ _ _ _ => segment_step hx) opens (headIs_bracket s) (headIs_bracket t) (skip h)
  exact ⟨hitems, skip h⟩

theorem claims_step {a b : List String} {s t : String}
    (h : x.jsonStrs a ++ s = x.jsonStrs b ++ t) : a = b ∧ s = t := by
  unfold TextCodec.jsonStrs at h
  simp only [String.append_assoc] at h
  have opens : ∀ e : String, HeadIs (· ≠ ']') (x.jsonStr e) := by
    intro e
    exact (jsonStr_headIs hx e).imp (fun c hc he => by rw [hc] at he; exact absurd he (by decide))
  obtain ⟨hitems, h⟩ := sepBy_append_inj (r := Eq) (p := EndsItem) (Or.inl rfl) (Or.inr rfl)
    (by decide) (fun u v _ _ _ _ => str_append_inj hx) opens (headIs_bracket s) (headIs_bracket t)
    (skip h)
  exact ⟨List.forall₂_eq_eq_eq ▸ hitems, skip h⟩

theorem recipient_step {a b : RecipientEntry} {s t : String}
    (h : recipientText x a ++ s = recipientText x b ++ t) : a = b ∧ s = t := by
  unfold recipientText at h
  simp only [String.append_assoc] at h
  obtain ⟨hid, h⟩ := str_step hx (skip h)
  obtain ⟨hpub, h⟩ := str_step hx h
  obtain ⟨henc, h⟩ := str_step hx h
  obtain ⟨hcek, h⟩ := str_step hx h
  refine ⟨?_, skip h⟩
  cases a
  cases b
  simp_all

theorem encryption_step {a b : EncryptionBlock} {s t : String}
    (h : encryptionBody x a ++ s = encryptionBody x b ++ t) : a = b ∧ s = t := by
  unfold encryptionBody at h
  simp only [String.append_assoc] at h
  obtain ⟨hcontent, h⟩ := str_step hx h
  obtain ⟨hkem, h⟩ := str_step hx (skip h)
  obtain ⟨hkdf, h⟩ := str_step hx h
  obtain ⟨haead, h⟩ := str_step hx h
  have opens : ∀ e : RecipientEntry, HeadIs (· ≠ ']') (recipientText x e) := by
    intro e
    unfold recipientText
    simp only [String.append_assoc]
    exact HeadIs.append ⟨'\x7b', [], by decide, by decide⟩ _
  obtain ⟨hitems, h⟩ := sepBy_append_inj (r := Eq) (p := EndsItem) (Or.inl rfl) (Or.inr rfl)
    (by decide) (fun u v _ _ _ _ => recipient_step hx) opens (headIs_bracket _) (headIs_bracket _)
    (skip (skip h))
  have hrecipients : a.recipients = b.recipients := List.forall₂_eq_eq_eq ▸ hitems
  refine ⟨?_, skip (skip h)⟩
  obtain ⟨_, ⟨_, _, _⟩, _⟩ := a
  obtain ⟨_, ⟨_, _, _⟩, _⟩ := b
  simp_all

theorem chronicle_step {e₁ e₂ : Option EncryptionBlock} {n₁ n₂ : Option UInt64}
    {p₁ p₂ : Option String} {s t : String}
    (h : opt ",\"encryption\":\x7b" (encryptionBody x) e₁ ++
        (opt ",\"sequence\":" (fun n => n.toNat.repr) n₁ ++
          (opt ",\"prev_archive_hash\":" x.jsonStr p₁ ++ ("\x7d" ++ s))) =
      opt ",\"encryption\":\x7b" (encryptionBody x) e₂ ++
        (opt ",\"sequence\":" (fun n => n.toNat.repr) n₂ ++
          (opt ",\"prev_archive_hash\":" x.jsonStr p₂ ++ ("\x7d" ++ t)))) :
    e₁ = e₂ ∧ n₁ = n₂ ∧ p₁ = p₂ ∧ s = t := by
  have stops : ∀ (p : Option String) (u : String),
      HeadIs EndsNumber (opt ",\"prev_archive_hash\":" x.jsonStr p ++ ("\x7d" ++ u)) :=
    fun p u => (endsNumber_comma rfl).opt_append _ (endsNumber_brace u) p
  obtain ⟨henc, h⟩ := opt_append_inj (r := Eq) (fun u v => encryption_step hx)
    (not_begins_opt _ (by decide)
      (not_begins_opt _ (by decide) (not_begins_of_diverge (by decide) _) _) _)
    (not_begins_opt _ (by decide)
      (not_begins_opt _ (by decide) (not_begins_of_diverge (by decide) _) _) _) h
  obtain ⟨hseq, h⟩ := opt_append_inj (r := Eq)
    (fun u v huv => by
      obtain ⟨hr, hst⟩ := bare_append_inj (bare_repr _) (bare_repr _) (stops p₁ s) (stops p₂ t) huv
      exact ⟨UInt64.toNat_inj.mp (Numerals.repr_injective hr), hst⟩)
    (not_begins_opt _ (by decide) (not_begins_of_diverge (by decide) _) _)
    (not_begins_opt _ (by decide) (not_begins_of_diverge (by decide) _) _) h
  obtain ⟨hprev, h⟩ := optStr_step hx (not_begins_of_diverge (by decide) _)
    (not_begins_of_diverge (by decide) _) h
  exact ⟨eq_of_rel_eq henc, eq_of_rel_eq hseq, hprev, skip h⟩

/-- A manifest text determines every field it was written from; a float up to its display. -/
theorem sameText_of_serializeCanonical_eq {a b : TrstManifest}
    (h : serializeCanonical x a = serializeCanonical x b) :
    SameText (fun f g => x.f64Display f = x.f64Display g) a b := by
  have h : serializeCanonical x a ++ "" = serializeCanonical x b ++ "" := by rw [h]
  unfold serializeCanonical at h
  simp only [String.append_assoc] at h
  obtain ⟨hversion, h⟩ := str_step hx (skip h)
  obtain ⟨hprofile, h⟩ := str_step hx h
  obtain ⟨hdevice, h⟩ := device_step hx h
  obtain ⟨hmetadata, h⟩ := metadata_step hx h
  obtain ⟨hchunk, h⟩ := chunk_step hx h
  obtain ⟨hsegments, h⟩ := segments_step hx h
  obtain ⟨hclaims, h⟩ := claims_step hx (skip h)
  obtain ⟨henc, hseq, hprev, -⟩ := chronicle_step hx h
  exact ⟨hversion, hprofile, hdevice, hmetadata, hchunk, hsegments, hclaims, henc, hseq, hprev⟩

end Reads

end Sealedge
