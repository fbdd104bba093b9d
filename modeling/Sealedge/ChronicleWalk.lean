import Sealedge.ChronicleChecks
import Mathlib.Data.List.Induction

namespace Sealedge

open Fallible

/-- What an entry must satisfy when a signer and an epoch are in force. -/
def EntryHolds (x : Crates) (st : Storage) (signer : String) (epoch : Nat) (e : Entry) : Prop :=
  match e.kind with
  | .archive m =>
    m.device.publicKey = signer ∧ (m.device.keyEpoch.getD 0).toNat = epoch ∧
      (∃ sig, m.signature = some sig ∧
        verifyManifest x signer (m.toCanonicalBytes x.text) sig = .ok true) ∧
      validateArchive x st e.dir = .ok ()
  | .rotation r => r.old.publicKey = signer ∧ r.old.keyEpoch.toNat = epoch ∧ r.Cosigned x

/-- The walk past an entry that holds. -/
def Walk.advance (w : Walk) (e : Entry) : Walk :=
  match e.kind with
  | .archive _ => { w with signerAtSeq := w.signerAtSeq ++ [w.activeSigner] }
  | .rotation r =>
    { activeSigner := r.new.publicKey
      activeEpoch := r.new.keyEpoch
      rotations := w.rotations + 1
      signerAtSeq := w.signerAtSeq ++ [r.new.publicKey] }

def Walk.past (w : Walk) (entries : List Entry) : Walk :=
  entries.foldl Walk.advance w

@[simp] theorem Walk.past_nil (w : Walk) : w.past [] = w := rfl

@[simp] theorem Walk.past_cons (w : Walk) (e : Entry) (rest : List Entry) :
    w.past (e :: rest) = (w.advance e).past rest := rfl

theorem Walk.past_snoc (w : Walk) (entries : List Entry) (e : Entry) :
    w.past (entries ++ [e]) = (w.past entries).advance e := by
  simp [Walk.past, List.foldl_append]

/-- The number of rotations among some entries. -/
def rotationCount (entries : List Entry) : Nat :=
  entries.countP (fun e => e.kind.isRotation)

section Walks

variable {x : Crates} {st : Storage}

theorem walkArchive_eq_ok {w : Walk} {e : Entry} {m : TrstManifest} :
    walkArchive x st w e m = .ok () ↔
      m.device.publicKey = w.activeSigner ∧ m.device.keyEpoch.getD 0 = w.activeEpoch ∧
      (∃ sig, m.signature = some sig ∧
        verifyManifest x w.activeSigner (m.toCanonicalBytes x.text) sig = .ok true) ∧
      validateArchive x st e.dir = .ok () := by
  unfold walkArchive
  cases hsig : m.signature with
  | none =>
    constructor
    · intro h
      obtain ⟨_, -, h⟩ := bind_eq_ok.mp h
      obtain ⟨_, -, h⟩ := bind_eq_ok.mp h
      cases h
    · rintro ⟨-, -, ⟨sig, hnone, -⟩, -⟩
      cases hnone
  | some sig =>
    constructor
    · intro h
      obtain ⟨_, hkey, h⟩ := bind_eq_ok.mp h
      obtain ⟨_, hepoch, h⟩ := bind_eq_ok.mp h
      obtain ⟨valid, hverify, h⟩ := bind_eq_ok.mp h
      obtain ⟨_, hvalid, h⟩ := bind_eq_ok.mp h
      have hkey := failWhen_eq_ok.mp hkey
      have hepoch := failWhen_eq_ok.mp hepoch
      have hvalid : valid = true := by simpa using failWhen_eq_ok.mp hvalid
      refine ⟨by simpa using hkey, by simpa using hepoch, ⟨sig, rfl, ?_⟩, mapError_eq_ok.mp h⟩
      rw [← hvalid]
      exact mapError_eq_ok.mp hverify
    · rintro ⟨hkey, hepoch, ⟨sig', hsig', hverify⟩, harchive⟩
      cases Option.some.inj hsig'
      refine bind_eq_ok.mpr ⟨(), failWhen_eq_ok.mpr (by simp [hkey]), ?_⟩
      refine bind_eq_ok.mpr ⟨(), failWhen_eq_ok.mpr (by simp [hepoch]), ?_⟩
      refine bind_eq_ok.mpr ⟨true, mapError_eq_ok.mpr hverify, ?_⟩
      exact bind_eq_ok.mpr ⟨(), failWhen_eq_ok.mpr rfl, mapError_eq_ok.mpr harchive⟩

theorem walkRotation_eq_ok {w : Walk} {e : Entry} {r : RotationRecord} :
    walkRotation x w e r = .ok () ↔
      r.old.publicKey = w.activeSigner ∧ r.old.keyEpoch = w.activeEpoch ∧ r.Cosigned x := by
  unfold walkRotation
  constructor
  · intro h
    obtain ⟨_, hkey, h⟩ := bind_eq_ok.mp h
    obtain ⟨_, hepoch, h⟩ := bind_eq_ok.mp h
    have hkey := failWhen_eq_ok.mp hkey
    have hepoch := failWhen_eq_ok.mp hepoch
    have hverify : r.verify x = true := by simpa using failWhen_eq_ok.mp h
    exact ⟨by simpa using hkey, by simpa using hepoch, RotationRecord.verify_iff.mp hverify⟩
  · rintro ⟨hkey, hepoch, hcosigned⟩
    refine bind_eq_ok.mpr ⟨(), failWhen_eq_ok.mpr (by simp [hkey]), ?_⟩
    refine bind_eq_ok.mpr ⟨(), failWhen_eq_ok.mpr (by simp [hepoch]), ?_⟩
    exact failWhen_eq_ok.mpr (by simp [RotationRecord.verify_iff.mpr hcosigned])

theorem walkEntry_eq_ok {w w' : Walk} {e : Entry} :
    walkEntry x st w e = .ok w' ↔
      EntryHolds x st w.activeSigner w.activeEpoch.toNat e ∧ w' = w.advance e := by
  unfold walkEntry EntryHolds Walk.advance
  cases e.kind with
  | archive m =>
    simp only [bind_eq_ok, UInt32.toNat_inj]
    constructor
    · rintro ⟨_, hholds, h⟩
      cases h
      exact ⟨walkArchive_eq_ok.mp hholds, rfl⟩
    · rintro ⟨hholds, rfl⟩
      exact ⟨(), walkArchive_eq_ok.mpr hholds, rfl⟩
  | rotation r =>
    simp only [bind_eq_ok, UInt32.toNat_inj]
    constructor
    · rintro ⟨_, hholds, h⟩
      cases h
      exact ⟨walkRotation_eq_ok.mp hholds, rfl⟩
    · rintro ⟨hholds, rfl⟩
      exact ⟨(), walkRotation_eq_ok.mpr hholds, rfl⟩

/-- The walk succeeds exactly when every entry holds for what is in force before it. -/
theorem walkEntries_eq_ok {w w' : Walk} {entries : List Entry} :
    walkEntries x st w entries = .ok w' ↔
      (∀ i e, entries[i]? = some e →
        EntryHolds x st (w.past (entries.take i)).activeSigner
          (w.past (entries.take i)).activeEpoch.toNat e) ∧
      w' = w.past entries := by
  induction entries generalizing w with
  | nil =>
    constructor
    · intro h
      cases h
      exact ⟨by simp, rfl⟩
    · rintro ⟨-, rfl⟩
      rfl
  | cons e rest ih =>
    unfold walkEntries
    rw [bind_eq_ok]
    constructor
    · rintro ⟨w₁, hstep, hrest⟩
      obtain ⟨hholds, rfl⟩ := walkEntry_eq_ok.mp hstep
      obtain ⟨hall, rfl⟩ := ih.mp hrest
      refine ⟨?_, rfl⟩
      intro i e' he'
      cases i with
      | zero =>
        cases Option.some.inj he'
        exact hholds
      | succ i => exact hall i e' he'
    · rintro ⟨hall, rfl⟩
      refine ⟨w.advance e, walkEntry_eq_ok.mpr ⟨hall 0 e rfl, rfl⟩, ih.mpr ⟨?_, rfl⟩⟩
      intro i e' he'
      exact hall (i + 1) e' he'

end Walks

theorem rotationCount_snoc (entries : List Entry) (e : Entry) :
    rotationCount (entries ++ [e]) =
      rotationCount entries + if e.kind.isRotation then 1 else 0 := by
  simp [rotationCount, List.countP_append, List.countP_cons]

theorem Walk.past_rotations (w : Walk) (entries : List Entry) :
    (w.past entries).rotations = w.rotations + rotationCount entries := by
  induction entries using List.reverseRecOn with
  | nil => rfl
  | append_singleton entries e ih =>
    rw [Walk.past_snoc, rotationCount_snoc, Walk.advance]
    cases e.kind with
    | archive m => simpa [EntryKind.isRotation] using ih
    | rotation r =>
      simp only [EntryKind.isRotation, if_true]
      omega

theorem Walk.past_signerAtSeq (w : Walk) (entries : List Entry) :
    (w.past entries).signerAtSeq = w.signerAtSeq ++
      (List.range entries.length).map (fun i => (w.past (entries.take (i + 1))).activeSigner) := by
  induction entries using List.reverseRecOn with
  | nil => simp
  | append_singleton entries e ih =>
    have hlast : ((w.past entries).advance e).signerAtSeq =
        (w.past entries).signerAtSeq ++ [((w.past entries).advance e).activeSigner] := by
      unfold Walk.advance
      cases e.kind <;> rfl
    have hearlier : (List.range entries.length).map
        (fun i => (w.past ((entries ++ [e]).take (i + 1))).activeSigner) =
        (List.range entries.length).map (fun i => (w.past (entries.take (i + 1))).activeSigner) := by
      apply List.map_congr_left
      intro i hi
      have hlt := List.mem_range.mp hi
      rw [List.take_append_of_le_length (by omega)]
    rw [Walk.past_snoc, hlast, ih, List.length_append, List.length_singleton, List.range_succ,
      List.map_append, hearlier, List.append_assoc, List.map_singleton,
      List.take_of_length_le (by simp), Walk.past_snoc]

theorem activeEpoch_eq_rotationCount {x : Crates} {st : Storage} {genesis : String}
    {entries : List Entry}
    (hall : ∀ i e, entries[i]? = some e →
      EntryHolds x st ((Walk.start genesis).past (entries.take i)).activeSigner
        ((Walk.start genesis).past (entries.take i)).activeEpoch.toNat e) (i : Nat) :
    ((Walk.start genesis).past (entries.take i)).activeEpoch.toNat =
      rotationCount (entries.take i) := by
  induction i with
  | zero => rfl
  | succ i ih =>
    cases he : entries[i]? with
    | none =>
      have hlen := List.getElem?_eq_none_iff.mp he
      rw [List.take_of_length_le (by omega)] at ih
      rw [List.take_of_length_le (by omega)]
      exact ih
    | some e =>
      have htake : entries.take (i + 1) = entries.take i ++ [e] := by
        rw [List.take_add_one, he]
        rfl
      have hholds := hall i e he
      rw [htake, Walk.past_snoc, rotationCount_snoc, Walk.advance]
      unfold EntryHolds at hholds
      cases hkind : e.kind with
      | archive m => simpa [EntryKind.isRotation] using ih
      | rotation r =>
        simp only [hkind] at hholds
        obtain ⟨-, hepoch, hcosigned⟩ := hholds
        have hstep := hcosigned.epoch
        simp only [EntryKind.isRotation, if_true]
        omega

section Accepting

variable {x : Crates} {st : Storage} {web : WebCodec}

/-- What the handler has found when it reports. -/
structure Accepts (x : Crates) (st : Storage) (web : WebCodec) (args : VerifyChronicleCmd)
    (entries : List Entry) (last : Entry) (w : Walk) (witnessed : Option (UInt64 × String)) :
    Prop where
  sorted : sortedEntries x st args.paths = .ok entries
  checked : checkEntries x st args.genesisKey entries = .ok w
  ends : entries.getLast? = some last
  witness : checkWitness x web args entries last w = .ok witnessed

theorem handleVerifyChronicle_eq_ok {args : VerifyChronicleCmd} {report : ChronicleReport} :
    handleVerifyChronicle x st web args = .ok report ↔
      ∃ entries last w witnessed, Accepts x st web args entries last w witnessed ∧
        report = chronicleReport args entries last w witnessed := by
  unfold handleVerifyChronicle
  constructor
  · intro h
    obtain ⟨entries, hsorted, h⟩ := bind_eq_ok.mp h
    obtain ⟨w, hchecked, h⟩ := bind_eq_ok.mp h
    cases hlast : entries.getLast? with
    | none =>
      simp only [hlast] at h
      cases h
    | some last =>
      simp only [hlast] at h
      obtain ⟨witnessed, hwitness, h⟩ := bind_eq_ok.mp h
      cases h
      exact ⟨entries, last, w, witnessed, ⟨hsorted, hchecked, hlast, hwitness⟩, rfl⟩
  · rintro ⟨entries, last, w, witnessed, h, rfl⟩
    refine bind_eq_ok.mpr ⟨entries, h.sorted, bind_eq_ok.mpr ⟨w, h.checked, ?_⟩⟩
    simp only [h.ends]
    exact bind_eq_ok.mpr ⟨witnessed, h.witness, rfl⟩

end Accepting

end Sealedge
