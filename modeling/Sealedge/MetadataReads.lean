import Sealedge.CanonicalSteps

namespace Sealedge

open Delimited

/-- Position of the profile in the list of profiles. -/
def ProfileMetadata.profileIndex : ProfileMetadata → Nat
  | camVideo _ => 0
  | sensor _ => 1
  | audio _ => 2
  | log _ => 3
  | generic _ => 4

section Reads

variable {x : TextCodec}

theorem not_begins_labels {key : String} (hl : Diverge key ",\"labels\":\x7b")
    (hb : Diverge key "\x7d") (l : Labels) (s : String) :
    ¬Begins key (labelsText x l ++ ("\x7d" ++ s)) := by
  unfold labelsText
  split
  next => simpa using not_begins_of_diverge hb s
  next =>
    simp only [String.append_assoc]
    exact not_begins_of_diverge hl _

theorem endsNumber_labels (l : Labels) (s : String) :
    HeadIs EndsNumber (labelsText x l ++ ("\x7d" ++ s)) := by
  unfold labelsText
  split
  next => simpa using endsNumber_brace s
  next =>
    simp only [String.append_assoc]
    exact (endsNumber_comma rfl).append _

/-- A key that differs from every key of generic metadata does not follow its timestamps. -/
theorem not_begins_generic {key : String} (hd : Diverge key ",\"data_type\":")
    (hs : Diverge key ",\"source\":") (hde : Diverge key ",\"description\":")
    (hm : Diverge key ",\"mime_type\":") (hl : Diverge key ",\"labels\":\x7b")
    (hb : Diverge key "\x7d") (m : GenericMetadata) (s : String) :
    ¬Begins key (opt ",\"data_type\":" x.jsonStr m.dataType ++
      (opt ",\"source\":" x.jsonStr m.source ++
        (opt ",\"description\":" x.jsonStr m.description ++
          (opt ",\"mime_type\":" x.jsonStr m.mimeType ++
            (labelsText x m.labels ++ ("\x7d" ++ s)))))) := by
  apply not_begins_opt _ hd
  apply not_begins_opt _ hs
  apply not_begins_opt _ hde
  apply not_begins_opt _ hm
  exact not_begins_labels hl hb m.labels s

variable (hx : x.Lawful)

include hx

theorem times_step {s₁ e₁ s₂ e₂ u v : String}
    (h : timesText x s₁ e₁ ++ u = timesText x s₂ e₂ ++ v) : s₁ = s₂ ∧ e₁ = e₂ ∧ u = v := by
  unfold timesText at h
  simp only [String.append_assoc] at h
  obtain ⟨hs, h⟩ := str_step hx (skip h)
  obtain ⟨he, h⟩ := str_step hx h
  exact ⟨hs, he, h⟩

theorem keyed_ne {k l s₁ e₁ s₂ e₂ u v : String} (hd : Diverge k l) :
    timesText x s₁ e₁ ++ (k ++ u) ≠ timesText x s₂ e₂ ++ (l ++ v) := by
  intro h
  exact diverge_ne hd (times_step hx h).2.2

theorem keyed_ne_generic {key s₁ e₁ u s : String} {m : GenericMetadata}
    (hd : Diverge key ",\"data_type\":") (hs : Diverge key ",\"source\":")
    (hde : Diverge key ",\"description\":") (hm : Diverge key ",\"mime_type\":")
    (hl : Diverge key ",\"labels\":\x7b") (hb : Diverge key "\x7d") :
    timesText x s₁ e₁ ++ (key ++ u) ≠ genericText x m ++ s := by
  intro h
  unfold genericText at h
  simp only [String.append_assoc] at h
  exact not_begins_generic hd hs hde hm hl hb m s ⟨u, (times_step hx h).2.2.symm⟩

theorem camVideo_step {a b : CamVideoMetadata} {s t : String}
    (h : camVideoText x a ++ s = camVideoText x b ++ t) :
    SameMetadata (fun f g => x.f64Display f = x.f64Display g) (.camVideo a) (.camVideo b) ∧
      s = t := by
  unfold camVideoText at h
  simp only [String.append_assoc] at h
  obtain ⟨hstart, hend, h⟩ := times_step hx h
  obtain ⟨hzone, h⟩ := str_step hx h
  obtain ⟨hfps, h⟩ := number_step (hx.displayBare _) (hx.displayBare _)
    ((endsNumber_comma rfl).append _) ((endsNumber_comma rfl).append _) h
  obtain ⟨hres, h⟩ := str_step hx h
  obtain ⟨hcodec, h⟩ := str_step hx h
  refine ⟨⟨?_, hfps⟩, skip h⟩
  cases a
  cases b
  simp_all

theorem sensor_step {a b : SensorMetadata} {s t : String}
    (h : sensorText x a ++ s = sensorText x b ++ t) :
    SameMetadata (fun f g => x.f64Display f = x.f64Display g) (.sensor a) (.sensor b) ∧
      s = t := by
  unfold sensorText at h
  simp only [String.append_assoc] at h
  obtain ⟨hstart, hend, h⟩ := times_step hx h
  obtain ⟨hrate, h⟩ := number_step (hx.displayBare _) (hx.displayBare _)
    ((endsNumber_comma rfl).append _) ((endsNumber_comma rfl).append _) h
  obtain ⟨hunit, h⟩ := str_step hx h
  obtain ⟨hmodel, h⟩ := str_step hx h
  -- Each optional coordinate is read while every later key is still ahead of it.
  obtain ⟨hlat, h⟩ := optFloat_step hx
    (not_begins_opt _ (by decide) (not_begins_opt _ (by decide)
      (not_begins_labels (by decide) (by decide) _ _) _) _)
    (not_begins_opt _ (by decide) (not_begins_opt _ (by decide)
      (not_begins_labels (by decide) (by decide) _ _) _) _)
    ((endsNumber_comma rfl).opt_append _ ((endsNumber_comma rfl).opt_append _
      (endsNumber_labels _ _) _) _)
    ((endsNumber_comma rfl).opt_append _ ((endsNumber_comma rfl).opt_append _
      (endsNumber_labels _ _) _) _) h
  obtain ⟨hlon, h⟩ := optFloat_step hx
    (not_begins_opt _ (by decide) (not_begins_labels (by decide) (by decide) _ _) _)
    (not_begins_opt _ (by decide) (not_begins_labels (by decide) (by decide) _ _) _)
    ((endsNumber_comma rfl).opt_append _ (endsNumber_labels _ _) _)
    ((endsNumber_comma rfl).opt_append _ (endsNumber_labels _ _) _) h
  obtain ⟨halt, h⟩ := optFloat_step hx
    (not_begins_labels (by decide) (by decide) _ _)
    (not_begins_labels (by decide) (by decide) _ _)
    (endsNumber_labels _ _) (endsNumber_labels _ _) h
  obtain ⟨hlabels, h⟩ := labels_step hx h
  refine ⟨⟨?_, hrate, hlat, hlon, halt⟩, h⟩
  cases a
  cases b
  simp_all

theorem audio_step {a b : AudioMetadata} {s t : String}
    (h : audioText x a ++ s = audioText x b ++ t) : a = b ∧ s = t := by
  unfold audioText at h
  simp only [String.append_assoc] at h
  obtain ⟨hstart, hend, h⟩ := times_step hx h
  obtain ⟨hrate, h⟩ := number_step (bare_repr _) (bare_repr _)
    ((endsNumber_comma rfl).append _) ((endsNumber_comma rfl).append _) h
  obtain ⟨hdepth, h⟩ := number_step (bare_repr _) (bare_repr _)
    ((endsNumber_comma rfl).append _) ((endsNumber_comma rfl).append _) h
  obtain ⟨hchannels, h⟩ := number_step (bare_repr _) (bare_repr _)
    ((endsNumber_comma rfl).append _) ((endsNumber_comma rfl).append _) h
  obtain ⟨hcodec, h⟩ := str_step hx h
  have hrate' := UInt32.toNat_inj.mp (Numerals.repr_injective hrate)
  have hdepth' := UInt16.toNat_inj.mp (Numerals.repr_injective hdepth)
  have hchannels' := UInt8.toNat_inj.mp (Numerals.repr_injective hchannels)
  refine ⟨?_, skip h⟩
  cases a
  cases b
  simp_all

theorem log_step {a b : LogMetadata} {s t : String}
    (h : logText x a ++ s = logText x b ++ t) : a = b ∧ s = t := by
  unfold logText at h
  simp only [String.append_assoc] at h
  obtain ⟨hstart, hend, h⟩ := times_step hx h
  obtain ⟨happ, h⟩ := str_step hx h
  obtain ⟨hhost, h⟩ := str_step hx h
  obtain ⟨hlevel, h⟩ := str_step hx h
  obtain ⟨hformat, h⟩ := str_step hx h
  refine ⟨?_, skip h⟩
  cases a
  cases b
  simp_all

theorem generic_step {a b : GenericMetadata} {s t : String}
    (h : genericText x a ++ s = genericText x b ++ t) : a = b ∧ s = t := by
  unfold genericText at h
  simp only [String.append_assoc] at h
  obtain ⟨hstart, hend, h⟩ := times_step hx h
  have afterType : ∀ (m : GenericMetadata) (r : String), ¬Begins ",\"data_type\":"
      (opt ",\"source\":" x.jsonStr m.source ++ (opt ",\"description\":" x.jsonStr m.description ++
        (opt ",\"mime_type\":" x.jsonStr m.mimeType ++ (labelsText x m.labels ++ ("\x7d" ++ r))))) :=
    fun m r => not_begins_opt _ (by decide) (not_begins_opt _ (by decide)
      (not_begins_opt _ (by decide) (not_begins_labels (by decide) (by decide) _ _) _) _) _
  have afterSource : ∀ (m : GenericMetadata) (r : String), ¬Begins ",\"source\":"
      (opt ",\"description\":" x.jsonStr m.description ++
        (opt ",\"mime_type\":" x.jsonStr m.mimeType ++ (labelsText x m.labels ++ ("\x7d" ++ r)))) :=
    fun m r => not_begins_opt _ (by decide) (not_begins_opt _ (by decide)
      (not_begins_labels (by decide) (by decide) _ _) _) _
  have afterDescription : ∀ (m : GenericMetadata) (r : String), ¬Begins ",\"description\":"
      (opt ",\"mime_type\":" x.jsonStr m.mimeType ++ (labelsText x m.labels ++ ("\x7d" ++ r))) :=
    fun m r => not_begins_opt _ (by decide) (not_begins_labels (by decide) (by decide) _ _) _
  obtain ⟨htype, h⟩ := optStr_step hx (afterType a s) (afterType b t) h
  obtain ⟨hsource, h⟩ := optStr_step hx (afterSource a s) (afterSource b t) h
  obtain ⟨hdescription, h⟩ := optStr_step hx (afterDescription a s) (afterDescription b t) h
  obtain ⟨hmime, h⟩ := optStr_step hx (not_begins_labels (by decide) (by decide) _ _)
    (not_begins_labels (by decide) (by decide) _ _) h
  obtain ⟨hlabels, h⟩ := labels_step hx h
  refine ⟨?_, h⟩
  cases a
  cases b
  simp_all

/-- Sensor and audio metadata share the key of the sample rate; the key after it differs. -/
theorem sensor_ne_audio {a : SensorMetadata} {b : AudioMetadata} {s t : String} :
    sensorText x a ++ s ≠ audioText x b ++ t := by
  intro h
  unfold sensorText audioText at h
  simp only [String.append_assoc] at h
  obtain ⟨-, -, h⟩ := times_step hx h
  obtain ⟨-, h⟩ := number_step (hx.displayBare _) (bare_repr _)
    ((endsNumber_comma rfl).append _) ((endsNumber_comma rfl).append _) h
  exact diverge_ne (by decide) h

/-- Blocks of different profiles have different texts: the key behind the timestamps, or behind
the sample rate, tells them apart. -/
theorem metadata_ne {a b : ProfileMetadata} {s t : String} (hab : a.profileIndex < b.profileIndex) :
    metadataText x a ++ s ≠ metadataText x b ++ t := by
  cases a with
  | camVideo a =>
    simp only [metadataText, camVideoText, String.append_assoc]
    cases b with
    | camVideo b => exact absurd hab (by simp [ProfileMetadata.profileIndex])
    | sensor b =>
      simp only [sensorText, String.append_assoc]
      exact keyed_ne hx (by decide)
    | audio b =>
      simp only [audioText, String.append_assoc]
      exact keyed_ne hx (by decide)
    | log b =>
      simp only [logText, String.append_assoc]
      exact keyed_ne hx (by decide)
    | generic b =>
      exact keyed_ne_generic hx (by decide) (by decide) (by decide) (by decide) (by decide)
        (by decide)
  | sensor a =>
    cases b with
    | camVideo b => exact absurd hab (by simp [ProfileMetadata.profileIndex])
    | sensor b => exact absurd hab (by simp [ProfileMetadata.profileIndex])
    | audio b => exact sensor_ne_audio hx
    | log b =>
      simp only [metadataText, sensorText, logText, String.append_assoc]
      exact keyed_ne hx (by decide)
    | generic b =>
      simp only [metadataText, sensorText, String.append_assoc]
      exact keyed_ne_generic hx (by decide) (by decide) (by decide) (by decide) (by decide)
        (by decide)
  | audio a =>
    simp only [metadataText, audioText, String.append_assoc]
    cases b with
    | log b =>
      simp only [logText, String.append_assoc]
      exact keyed_ne hx (by decide)
    | generic b =>
      exact keyed_ne_generic hx (by decide) (by decide) (by decide) (by decide) (by decide)
        (by decide)
    | _ => exact absurd hab (by simp [ProfileMetadata.profileIndex])
  | log a =>
    simp only [metadataText, logText, String.append_assoc]
    cases b with
    | generic b =>
      exact keyed_ne_generic hx (by decide) (by decide) (by decide) (by decide) (by decide)
        (by decide)
    | _ => exact absurd hab (by simp [ProfileMetadata.profileIndex])
  | generic a => cases b <;> exact absurd hab (by simp [ProfileMetadata.profileIndex])

theorem metadata_step {a b : ProfileMetadata} {s t : String}
    (h : metadataText x a ++ s = metadataText x b ++ t) :
    SameMetadata (fun f g => x.f64Display f = x.f64Display g) a b ∧ s = t := by
  rcases Nat.lt_trichotomy a.profileIndex b.profileIndex with hlt | heq | hgt
  · exact absurd h (metadata_ne hx hlt)
  · cases a with
    | camVideo a =>
      cases b with
      | camVideo b => exact camVideo_step hx h
      | _ => exact absurd heq (by simp [ProfileMetadata.profileIndex])
    | sensor a =>
      cases b with
      | sensor b => exact sensor_step hx h
      | _ => exact absurd heq (by simp [ProfileMetadata.profileIndex])
    | audio a =>
      cases b with
      | audio b => exact audio_step hx h
      | _ => exact absurd heq (by simp [ProfileMetadata.profileIndex])
    | log a =>
      cases b with
      | log b => exact log_step hx h
      | _ => exact absurd heq (by simp [ProfileMetadata.profileIndex])
    | generic a =>
      cases b with
      | generic b => exact generic_step hx h
      | _ => exact absurd heq (by simp [ProfileMetadata.profileIndex])
  · exact absurd h.symm (metadata_ne hx hgt)

end Reads

end Sealedge
