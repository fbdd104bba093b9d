import Mathlib.Data.List.Induction
import Sealedge.Delimited
import Sealedge.Manifest

namespace Sealedge

open Delimited

/-- What the canonical encoders take from outside: `serde_json::to_string` of a string and the
`Display` of an `f64`. -/
structure TextCodec where
  jsonStr : String → String
  f64Display : F64 → String

/-- Characters that end a bare number in the canonical text. -/
def EndsNumber (c : Char) : Prop :=
  c = ',' ∨ c = '\x7d'

/-- Documented behaviour of the outside encoders. String escaping gives a quoted text, two of
them never share a proper prefix, and different strings get different texts. A displayed float
has neither comma nor brace, and finite floats with one text are equal floats. -/
structure TextCodec.Lawful (x : TextCodec) : Prop where
  quoted : ∀ s, ∃ body, x.jsonStr s = "\"" ++ body ++ "\""
  delimited : PrefixFree x.jsonStr
  injective : Function.Injective x.jsonStr
  displayBare : ∀ f, Bare EndsNumber (x.f64Display f)
  displayInj : ∀ f g, f.isFinite = true → g.isFinite = true →
    x.f64Display f = x.f64Display g → f.eq g = true

/-- What of this concerns strings alone. -/
structure TextCodec.Escapes (x : TextCodec) : Prop where
  delimited : PrefixFree x.jsonStr
  injective : Function.Injective x.jsonStr

theorem TextCodec.Lawful.escapes {x : TextCodec} (hx : x.Lawful) : x.Escapes :=
  ⟨hx.delimited, hx.injective⟩

/-- `String::into_bytes`. -/
def intoBytes (s : String) : Bytes :=
  s.toByteArray.data.toList

theorem intoBytes_injective : Function.Injective intoBytes := by
  intro s t h
  apply String.toByteArray_inj.mp
  apply ByteArray.ext
  exact Array.toList_inj.mp h

theorem intoBytes_append (s t : String) : intoBytes (s ++ t) = intoBytes s ++ intoBytes t := by
  simp [intoBytes, String.toByteArray_append]

theorem intoBytes_eq_flatMap (s : String) :
    intoBytes s = s.toList.flatMap String.utf8EncodeChar := by
  conv_lhs => rw [← String.ofList_toList (s := s)]
  simp [intoBytes, String.ofList, List.utf8Encode]

theorem utf8Encode_size_le (cs : List Char) : cs.utf8Encode.size ≤ 4 * cs.length := by
  induction cs with
  | nil => simp
  | cons c cs ih =>
    have hc := Char.utf8Size_le_four c
    rw [List.utf8Encode_cons, ByteArray.size_append, List.utf8Encode_singleton,
      List.size_toByteArray, String.length_utf8EncodeChar, List.length_cons]
    omega

theorem intoBytes_push (cs : List Char) (c : Char) :
    intoBytes (String.ofList (cs ++ [c])) =
      intoBytes (String.ofList cs) ++ String.utf8EncodeChar c := by
  rw [String.ofList_append, intoBytes_append]
  congr 1
  simp [intoBytes, String.ofList, List.utf8Encode]

theorem utf8EncodeChar_getLast {c : Char} {b : UInt8} (hb : b.toNat < 128)
    (h : (String.utf8EncodeChar c).getLast? = some b) :
    String.utf8EncodeChar c = [b] ∧ c.val.toNat = b.toNat := by
  have high : ∀ v : Nat, (UInt8.ofNat (v % 64 + 128)).toNat = v % 64 + 128 := by
    intro v
    rw [UInt8.toNat_ofNat']
    omega
  unfold String.utf8EncodeChar at h ⊢
  dsimp only at h ⊢
  split at h
  next hascii =>
    rw [if_pos hascii]
    have hval : UInt8.ofNat c.val.toNat = b := by simpa using h
    refine ⟨by rw [hval], ?_⟩
    rw [← hval, UInt8.toNat_ofNat']
    omega
  next =>
    exfalso
    have hbyte : b = UInt8.ofNat (c.val.toNat % 64 + 128) := by
      split at h
      · simpa using h.symm
      · split at h
        · simpa using h.symm
        · simpa using h.symm
    have hnat := high c.val.toNat
    rw [← hbyte] at hnat
    omega

theorem ascii_last {s : String} {pre : Bytes} {c : Char} (hc : c.val.toNat < 128)
    (h : intoBytes s = pre ++ [UInt8.ofNat c.val.toNat]) :
    ∃ s', s = s' ++ String.singleton c ∧ intoBytes s' = pre := by
  have hnat : (UInt8.ofNat c.val.toNat).toNat = c.val.toNat := by
    rw [UInt8.toNat_ofNat']
    omega
  rcases List.eq_nil_or_concat s.toList with hnil | ⟨cs, d, hcs⟩
  · have hs : s = "" := String.toList_inj.mp hnil
    rw [hs] at h
    cases pre <;> cases h
  · have hs : s = String.ofList (cs ++ [d]) := by
      rw [← List.concat_eq_append, ← hcs, String.ofList_toList]
    rw [hs, intoBytes_push] at h
    have hlast : (String.utf8EncodeChar d).getLast? = some (UInt8.ofNat c.val.toNat) := by
      have hends := congrArg List.getLast? h
      rw [List.getLast?_append, List.getLast?_append, List.getLast?_singleton] at hends
      cases henc : (String.utf8EncodeChar d).getLast? with
      | none => exact absurd (List.getLast?_eq_none_iff.mp henc) String.utf8EncodeChar_ne_nil
      | some b =>
        rw [henc] at hends
        simpa using hends
    obtain ⟨henc, hval⟩ := utf8EncodeChar_getLast (by omega) hlast
    have hd : d = c := by
      apply Char.ext
      apply UInt32.toNat_inj.mp
      omega
    rw [henc] at h
    refine ⟨String.ofList cs, ?_, List.append_cancel_right h⟩
    rw [hs, hd, String.ofList_append]
    rfl

theorem ascii_suffix {cs : List Char} (hcs : ∀ c ∈ cs, c.val.toNat < 128) {s : String}
    (h : intoBytes (String.ofList cs) <:+ intoBytes s) : cs <:+ s.toList := by
  induction cs using List.reverseRecOn generalizing s with
  | nil => exact List.nil_suffix
  | append_singleton cs c ih =>
    have hc : c.val.toNat < 128 := hcs c (by simp)
    have henc : String.utf8EncodeChar c = [UInt8.ofNat c.val.toNat] := by
      unfold String.utf8EncodeChar
      rw [if_pos (by omega)]
    obtain ⟨pre, hpre⟩ := h
    rw [intoBytes_push, henc, ← List.append_assoc] at hpre
    obtain ⟨s', rfl, hs'⟩ := ascii_last hc hpre.symm
    obtain ⟨front, hfront⟩ := ih (fun d hd => hcs d (by simp [hd])) ⟨pre, hs'.symm⟩
    refine ⟨front, ?_⟩
    rw [← List.append_assoc, hfront]
    simp

/-- The document a text was printed from. -/
noncomputable def readBack {α : Type} (print : α → String) (bytes : Bytes) : Except String α :=
  open Classical in
  if h : ∃ a, intoBytes (print a) = bytes then .ok h.choose
  else .error "expected value at line 1 column 1"

theorem readBack_print {α : Type} {print : α → String} (h : Function.Injective print) (a : α) :
    readBack print (intoBytes (print a)) = .ok a := by
  have hex : ∃ b, intoBytes (print b) = intoBytes (print a) := ⟨a, rfl⟩
  rw [readBack, dif_pos hex]
  exact congrArg Except.ok (h (intoBytes_injective hex.choose_spec))

section Text

variable (x : TextCodec)

/-- `serde_json::to_string` of a `Vec<String>`. -/
def TextCodec.jsonStrs (items : List String) : String :=
  "[" ++ sepBy x.jsonStr items ++ "]"

def labelText (entry : String × String) : String :=
  x.jsonStr entry.1 ++ ":" ++ x.jsonStr entry.2

def labelsText (l : Labels) : String :=
  if l.isEmpty then "" else ",\"labels\":\x7b" ++ sepBy (labelText x) l.entries ++ "\x7d"

/-- The key epoch is emitted only when it is positive. -/
def emittedEpoch (epoch : Option UInt32) : Option UInt32 :=
  epoch.filter (fun e => decide (0 < e))

def deviceText (d : DeviceInfo) : String :=
  ",\"device\":\x7b" ++
  "\"id\":" ++ x.jsonStr d.id ++
  ",\"model\":" ++ x.jsonStr d.model ++
  ",\"firmware_version\":" ++ x.jsonStr d.firmwareVersion ++
  ",\"public_key\":" ++ x.jsonStr d.publicKey ++
  opt ",\"key_agreement_public\":" x.jsonStr d.keyAgreementPublic ++
  opt ",\"key_epoch\":" (fun e => e.toNat.repr) (emittedEpoch d.keyEpoch) ++
  "\x7d"

def timesText (startedAt endedAt : String) : String :=
  ",\"metadata\":\x7b" ++
  "\"started_at\":" ++ x.jsonStr startedAt ++
  ",\"ended_at\":" ++ x.jsonStr endedAt

def camVideoText (m : CamVideoMetadata) : String :=
  timesText x m.startedAt m.endedAt ++
  ",\"timezone\":" ++ x.jsonStr m.timezone ++
  ",\"fps\":" ++ x.f64Display m.fps ++
  ",\"resolution\":" ++ x.jsonStr m.resolution ++
  ",\"codec\":" ++ x.jsonStr m.codec ++
  "\x7d"

def sensorText (m : SensorMetadata) : String :=
  timesText x m.startedAt m.endedAt ++
  ",\"sample_rate_hz\":" ++ x.f64Display m.sampleRateHz ++
  ",\"unit\":" ++ x.jsonStr m.unit ++
  ",\"sensor_model\":" ++ x.jsonStr m.sensorModel ++
  opt ",\"latitude\":" x.f64Display m.latitude ++
  opt ",\"longitude\":" x.f64Display m.longitude ++
  opt ",\"altitude\":" x.f64Display m.altitude ++
  labelsText x m.labels ++
  "\x7d"

def audioText (m : AudioMetadata) : String :=
  timesText x m.startedAt m.endedAt ++
  ",\"sample_rate_hz\":" ++ m.sampleRateHz.toNat.repr ++
  ",\"bit_depth\":" ++ m.bitDepth.toNat.repr ++
  ",\"channels\":" ++ m.channels.toNat.repr ++
  ",\"codec\":" ++ x.jsonStr m.codec ++
  "\x7d"

def logText (m : LogMetadata) : String :=
  timesText x m.startedAt m.endedAt ++
  ",\"application\":" ++ x.jsonStr m.application ++
  ",\"host\":" ++ x.jsonStr m.host ++
  ",\"log_level\":" ++ x.jsonStr m.logLevel ++
  ",\"log_format\":" ++ x.jsonStr m.logFormat ++
  "\x7d"

def genericText (m : GenericMetadata) : String :=
  timesText x m.startedAt m.endedAt ++
  opt ",\"data_type\":" x.jsonStr m.dataType ++
  opt ",\"source\":" x.jsonStr m.source ++
  opt ",\"description\":" x.jsonStr m.description ++
  opt ",\"mime_type\":" x.jsonStr m.mimeType ++
  labelsText x m.labels ++
  "\x7d"

def metadataText : ProfileMetadata → String
  | .camVideo m => camVideoText x m
  | .sensor m => sensorText x m
  | .audio m => audioText x m
  | .log m => logText x m
  | .generic m => genericText x m

def chunkText (c : ChunkInfo) : String :=
  ",\"chunk\":\x7b" ++
  "\"size_bytes\":" ++ c.sizeBytes.toNat.repr ++
  ",\"duration_seconds\":" ++ x.f64Display c.durationSeconds ++
  "\x7d"

def segmentText (s : SegmentInfo) : String :=
  "\x7b" ++
  "\"chunk_file\":" ++ x.jsonStr s.chunkFile ++
  ",\"blake3_hash\":" ++ x.jsonStr s.blake3Hash ++
  ",\"start_time\":" ++ x.jsonStr s.startTime ++
  ",\"duration_seconds\":" ++ x.f64Display s.durationSeconds ++
  ",\"continuity_hash\":" ++ x.jsonStr s.continuityHash ++
  "\x7d"

def segmentsText (segments : List SegmentInfo) : String :=
  ",\"segments\":[" ++ sepBy (segmentText x) segments ++ "]"

def recipientText (r : RecipientEntry) : String :=
  "\x7b" ++
  "\"recipient_id\":" ++ x.jsonStr r.recipientId ++
  ",\"recipient_pub\":" ++ x.jsonStr r.recipientPub ++
  ",\"enc\":" ++ x.jsonStr r.enc ++
  ",\"wrapped_cek\":" ++ x.jsonStr r.wrappedCek ++
  "\x7d"

/-- The encryption block behind its key. -/
def encryptionBody (e : EncryptionBlock) : String :=
  "\"content_aead\":" ++ x.jsonStr e.contentAead ++
  ",\"hpke\":\x7b" ++
  "\"kem\":" ++ x.jsonStr e.hpke.kem ++
  ",\"kdf\":" ++ x.jsonStr e.hpke.kdf ++
  ",\"aead\":" ++ x.jsonStr e.hpke.aead ++
  "\x7d" ++
  ",\"recipients\":[" ++ sepBy (recipientText x) e.recipients ++ "]" ++
  "\x7d"

/-- The deterministically ordered JSON text of a manifest; the signature is not part of it. -/
def serializeCanonical (m : TrstManifest) : String :=
  "\x7b" ++
  "\"trst_version\":" ++ x.jsonStr m.trstVersion ++
  ",\"profile\":" ++ x.jsonStr m.profile ++
  deviceText x m.device ++
  metadataText x m.metadata ++
  chunkText x m.chunk ++
  segmentsText x m.segments ++
  ",\"claims\":" ++ x.jsonStrs m.claims ++
  opt ",\"encryption\":\x7b" (encryptionBody x) m.encryption ++
  opt ",\"sequence\":" (fun n => n.toNat.repr) m.sequence ++
  opt ",\"prev_archive_hash\":" x.jsonStr m.prevArchiveHash ++
  "\x7d"

/-- The bytes a manifest is signed over. The copy that is serialized has its signature cleared,
which the text does not depend on. -/
def TrstManifest.toCanonicalBytes (m : TrstManifest) : Bytes :=
  intoBytes (serializeCanonical x { m with signature := none })

end Text

@[simp] theorem serializeCanonical_signature (x : TextCodec) (m : TrstManifest)
    (sig : Option String) :
    serializeCanonical x { m with signature := sig } = serializeCanonical x m := rfl

theorem toCanonicalBytes_inj {x : TextCodec} {a b : TrstManifest} :
    a.toCanonicalBytes x = b.toCanonicalBytes x ↔ serializeCanonical x a = serializeCanonical x b := by
  constructor
  · intro h
    simpa using intoBytes_injective h
  · intro h
    simp [TrstManifest.toCanonicalBytes, h]

end Sealedge
