import Sealedge.Jwks
import Sealedge.ManifestTransport

namespace Sealedge

open Fallible

namespace Jwks

/-- A signing key under its identifier. -/
structure Identity where
  kid : String
  key : DeviceKeypair
  deriving DecidableEq

def KeyManager.identity (km : KeyManager) : Identity :=
  ⟨km.currentKid, km.currentKey⟩

def KeyManager.previous (km : KeyManager) : Option Identity :=
  match km.previousKey, km.previousKid with
  | some key, some kid => some ⟨kid, key⟩
  | _, _ => none

inductive Receipt
  | witness (receipt : WitnessReceipt)
  | verification (claims : ReceiptClaims) (ttlSecs : UInt64)

def Receipt.payload (now : Int64) : Receipt → JsonValue
  | witness r => witnessPayload r now
  | verification c ttlSecs => receiptPayload c now ttlSecs

def Receipt.sign (h : Host) (now : Int64) (km : KeyManager) : Receipt → String
  | witness r => signWitnessJws h r now km
  | verification c ttlSecs => signReceiptJws h c now ttlSecs km

/-- A token that was handed out, with the key that was current then. -/
structure Signed where
  signer : Identity
  receipt : Receipt
  iat : Int64
  token : String

/-- The platform with its files. What it signed, the key that was current before the latest
rotation and all keys it ever had are recorded beside them. -/
structure Platform where
  manager : KeyManager
  disk : Disk
  signed : List Signed
  before : Option Identity
  issued : List Identity

inductive Event
  | sign (receipt : Receipt) (now : Int64)
  | rotate (draw : KeyDraw) (faults : SaveFaults)
  | restart (draw : KeyDraw) (faults : SaveFaults)

section Runs

variable (h : Host)

def start (keyPath : String) (passphrase : Option String) (draw : KeyDraw) (faults : SaveFaults)
    (disk : Disk) : Option Platform :=
  match openOrGenerate h keyPath passphrase draw faults disk with
  | (.ok km, disk) => some ⟨km, disk, [], none, [km.identity]⟩
  | (.error _, _) => none

/-- One event. A restart constructs the manager anew from the key file and the passphrase. -/
def perform (s : Platform) : Event → Option Platform
  | .sign receipt now =>
    some { s with
      signed := ⟨s.manager.identity, receipt, now, receipt.sign h now s.manager⟩ :: s.signed }
  | .rotate draw faults =>
    let (_, km, disk) := s.manager.rotateKey h draw faults s.disk
    some ⟨km, disk, s.signed, some s.manager.identity, km.identity :: s.issued⟩
  | .restart draw faults =>
    match openOrGenerate h s.manager.keyPath s.manager.passphrase draw faults s.disk with
    | (.ok km, disk) => some { s with manager := km, disk := disk }
    | (.error _, _) => none

/-- A token verifies by its `kid` against the key set of a manager, however the set is laid out,
and a witness receipt is accepted with what it attests. -/
def Accepted (km : KeyManager) (r : Signed) : Prop :=
  ∀ level, verifyJws h.crates (serdeWeb h.json) r.token (km.jwksJson h level) =
      .ok (r.receipt.payload r.iat) ∧
    ∀ w, r.receipt = .witness w →
      verifyWitnessReceiptJws h.crates (serdeWeb h.json) r.token (km.jwksJson h level) =
        .ok ⟨w.devicePub, w.sequence, w.tip⟩

/-- What was signed under the current key, or under the one that was current before the latest
rotation, verifies. -/
def ReceiptsVerify (s : Platform) : Prop :=
  ∀ r ∈ s.signed, (r.signer = s.manager.identity ∨ s.before = some r.signer) →
    Accepted h s.manager r

/-- Every key identifier that is drawn along a run is a new one. -/
def FreshDraws : Platform → List Event → Prop
  | _, [] => True
  | s, e :: rest =>
    (∀ draw faults, e = .rotate draw faults → draw.kid ∉ s.issued.map Identity.kid) ∧
      ∀ s', perform h s e = some s' → FreshDraws s' rest

def VerifyThroughout : Platform → List Event → Prop
  | s, [] => ReceiptsVerify h s
  | s, e :: rest => ReceiptsVerify h s ∧ ∀ s', perform h s e = some s' → VerifyThroughout s' rest

/-- The key file holds the key under which receipts were signed before the latest rotation, if
there are such receipts. -/
def KeyFileKeeps (s : Platform) : Prop :=
  ∀ r ∈ s.signed, s.before = some r.signer →
    ∃ km, loadFromFile h s.manager.keyPath s.manager.passphrase s.disk = .ok km ∧
      km.identity = r.signer

/-- Restarts happen only where the key file keeps what is needed. -/
def RestartsKeep : Platform → List Event → Prop
  | _, [] => True
  | s, e :: rest =>
    (∀ draw faults, e = .restart draw faults → KeyFileKeeps h s) ∧
      ∀ s', perform h s e = some s' → RestartsKeep s' rest

/-- What holds along every run: identifiers name one key, tokens are those of their signers, the
previous key is the one before the latest rotation, and the key file can be read. -/
structure Sound (s : Platform) : Prop where
  distinct : (s.issued.map Identity.kid).Nodup
  current : s.manager.identity ∈ s.issued
  before : ∀ b, s.before = some b → b ∈ s.issued
  tokens : ∀ r ∈ s.signed, r.token =
    encodeJws h (jwtHeader r.signer.kid) (r.receipt.payload r.iat) r.signer.key
  previous : s.manager.previous = none ∨ s.manager.previous = s.before
  keyFile : ∃ id ∈ s.issued, loadFromFile h s.manager.keyPath s.manager.passphrase s.disk =
    .ok ⟨s.manager.keyPath, s.manager.passphrase, id.key, id.kid, none, none⟩
  path : jwksPath s.manager.keyPath ≠ s.manager.keyPath

end Runs

section KeySet

variable {h : Host} {km : KeyManager} {r : Signed}

theorem Receipt.printable_payload (now : Int64) (receipt : Receipt) :
    Printable maxNesting (receipt.payload now) := by
  cases receipt with
  | witness r => exact printable_witnessPayload r now
  | verification c ttlSecs => exact printable_receiptPayload c now ttlSecs

theorem Receipt.sign_eq (now : Int64) (receipt : Receipt) :
    receipt.sign h now km = encodeJws h (jwtHeader km.currentKid) (receipt.payload now)
      km.currentKey := by
  cases receipt <;> rfl

theorem selectKey_cons (key : DeviceKeypair) (kid wanted : String) (rest : List JsonValue) :
    selectKey (some wanted) (keyToJwk h key kid :: rest) =
      if kid = wanted then some (keyToJwk h key kid) else selectKey (some wanted) rest := by
  have hkid : (keyToJwk h key kid).getStr "kid" = some kid := rfl
  by_cases he : kid = wanted
  · subst he
    simp [selectKey, hkid]
  · simp [selectKey, hkid, he]

theorem selectKey_jwkList (kid : String) :
    selectKey (some kid) (km.jwkList h) =
      if km.currentKid = kid then some (keyToJwk h km.currentKey km.currentKid)
      else (km.previous.filter fun id => id.kid = kid).map fun id => keyToJwk h id.key id.kid := by
  obtain ⟨keyPath, passphrase, currentKey, currentKid, previousKey, previousKid⟩ := km
  unfold KeyManager.jwkList KeyManager.previous
  rw [selectKey_cons]
  split
  next => rfl
  next =>
    cases previousKey with
    | none => rfl
    | some prevKey =>
      cases previousKid with
      | none => rfl
      | some prevKid =>
        simp only [selectKey_cons]
        by_cases he : prevKid = kid
        · simp [he]
        · simp [he, selectKey]

theorem accepted_of_select (hx : h.crates.SignsLawfully) (hjs : h.json.Lossless)
    (htoken : r.token = encodeJws h (jwtHeader r.signer.kid) (r.receipt.payload r.iat) r.signer.key)
    (hselect : selectKey (some r.signer.kid) (km.jwkList h) =
      some (keyToJwk h r.signer.key r.signer.kid)) : Accepted h km r := by
  intro level
  have hverify : verifyJws h.crates (serdeWeb h.json) r.token (km.jwksJson h level) =
      .ok (r.receipt.payload r.iat) := by
    rw [htoken]
    exact verifyJws_encodeJws hx hjs (r.receipt.printable_payload _) (printable_toJwks h km) hselect
      rfl level
  refine ⟨hverify, ?_⟩
  intro w hw
  rw [verifyWitnessReceiptJws_eq, hverify, hw]
  exact receiptBody_witnessPayload w r.iat

theorem not_accepted_of_unknown (hjs : h.json.Lossless)
    (htoken : r.token = encodeJws h (jwtHeader r.signer.kid) (r.receipt.payload r.iat) r.signer.key)
    (hselect : selectKey (some r.signer.kid) (km.jwkList h) = none) : ¬ Accepted h km r := by
  intro haccepted
  have hverify := (haccepted none).1
  have hunknown := verifyJws_unknown_kid (r.receipt.payload r.iat) r.signer.key hjs
    (printable_toJwks h km) hselect none
  rw [htoken] at hverify
  cases hunknown.symm.trans hverify

end KeySet

section Steps

variable {h : Host} {s s' : Platform}

theorem Sound.eq_of_kid (hs : Sound h s) {a b : Identity} (ha : a ∈ s.issued) (hb : b ∈ s.issued)
    (hkid : a.kid = b.kid) : a = b :=
  List.inj_on_of_nodup_map hs.distinct ha hb hkid

/-- Receipts verify exactly if those under the key before the latest rotation are under a key
that the manager holds. -/
theorem receiptsVerify_iff (hx : h.crates.SignsLawfully) (hjs : h.json.Lossless)
    (hs : Sound h s) :
    ReceiptsVerify h s ↔ ∀ r ∈ s.signed, s.before = some r.signer →
      r.signer = s.manager.identity ∨ s.manager.previous = some r.signer := by
  have hcurrent : ∀ r ∈ s.signed, r.signer = s.manager.identity → Accepted h s.manager r := by
    intro r hr hsigner
    refine accepted_of_select hx hjs (hs.tokens r hr) ?_
    rw [selectKey_jwkList, hsigner]
    exact if_pos rfl
  constructor
  · intro hverify r hr hbefore
    by_contra hnot
    rw [not_or] at hnot
    refine not_accepted_of_unknown hjs (hs.tokens r hr) ?_ (hverify r hr (.inr hbefore))
    have hkid : s.manager.currentKid ≠ r.signer.kid := fun he =>
      hnot.1 (hs.eq_of_kid (hs.before _ hbefore) hs.current he.symm)
    rw [selectKey_jwkList, if_neg hkid]
    rcases hs.previous with hnone | hprevious
    · rw [hnone]
      rfl
    · exact absurd (hprevious.trans hbefore) hnot.2
  · intro hheld r hr hcase
    rcases hcase with hsigner | hbefore
    · exact hcurrent r hr hsigner
    rcases hheld r hr hbefore with hsigner | hprevious
    · exact hcurrent r hr hsigner
    by_cases hkid : s.manager.currentKid = r.signer.kid
    · exact hcurrent r hr (hs.eq_of_kid (hs.before _ hbefore) hs.current hkid.symm)
    · refine accepted_of_select hx hjs (hs.tokens r hr) ?_
      rw [selectKey_jwkList, if_neg hkid, hprevious]
      simp

theorem loadFromFile_eq_ok {path : String} {passphrase : Option String} {disk : Disk}
    {km : KeyManager} (hload : loadFromFile h path passphrase disk = .ok km) :
    km = ⟨path, passphrase, km.currentKey, km.currentKid, none, none⟩ := by
  obtain ⟨bytes, -, hload⟩ := bind_eq_ok.mp hload
  obtain ⟨stored, -, hload⟩ := bind_eq_ok.mp hload
  obtain ⟨seed, -, hload⟩ := bind_eq_ok.mp hload
  split at hload
  next hlength =>
    cases hload
    rfl
  next => cases hload

theorem absent_of_load {path : String} {passphrase : Option String} {disk : Disk}
    {km : KeyManager} (hload : loadFromFile h path passphrase disk = .ok km) :
    disk path ≠ .absent := by
  intro habsent
  obtain ⟨bytes, hread, -⟩ := bind_eq_ok.mp hload
  rw [habsent] at hread
  cases hread

/-- A manager that was constructed can be constructed again from its files. -/
theorem openOrGenerate_eq_ok (hx : h.crates.SignsLawfully) (hsc : h.secrets.Opens)
    (hjs : h.json.Lossless) {path : String} {passphrase : Option String} {draw : KeyDraw}
    {faults : SaveFaults} {disk disk' : Disk} {km : KeyManager} (hpath : jwksPath path ≠ path)
    (hopen : openOrGenerate h path passphrase draw faults disk = (.ok km, disk')) :
    km = ⟨path, passphrase, km.currentKey, km.currentKid, none, none⟩ ∧
      loadFromFile h path passphrase disk' = .ok km := by
  unfold openOrGenerate at hopen
  split at hopen
  next =>
    unfold generateNew at hopen
    simp only at hopen
    split at hopen
    next => cases hopen
    next disk₁ hsave =>
      have hload := (loadFromFile_saveToFile hx hsc hjs hsave).2
      have hkept := writeJwksFile_keyFile (h := h)
        ⟨path, passphrase, draw.key, draw.kid, none, none⟩ faults.jwksFile disk₁ hpath
      split at hopen
      next => cases hopen
      next disk₂ hjwks =>
        cases hopen
        rw [hjwks] at hkept
        refine ⟨rfl, ?_⟩
        rw [loadFromFile_congr hkept]
        exact hload
  next =>
    obtain ⟨hload, rfl⟩ := Prod.mk.inj hopen
    exact ⟨loadFromFile_eq_ok hload, hload⟩

theorem sound_start (hx : h.crates.SignsLawfully) (hsc : h.secrets.Opens)
    (hjs : h.json.Lossless) {path : String} {passphrase : Option String} {draw : KeyDraw}
    {faults : SaveFaults} {disk : Disk} (hpath : jwksPath path ≠ path)
    (hstart : start h path passphrase draw faults disk = some s) :
    Sound h s ∧ ReceiptsVerify h s := by
  unfold start at hstart
  split at hstart
  next km disk' hopen =>
    cases hstart
    obtain ⟨hkm, hload⟩ := openOrGenerate_eq_ok hx hsc hjs hpath hopen
    refine ⟨⟨by simp, by simp, by simp, by simp, ?_, ?_, ?_⟩, by simp [ReceiptsVerify]⟩
    · rw [hkm]
      exact .inl rfl
    · refine ⟨km.identity, by simp, ?_⟩
      rw [hkm] at hload ⊢
      exact hload
    · rw [hkm]
      exact hpath
  next => cases hstart

theorem perform_restart (id : Identity)
    (hload : loadFromFile h s.manager.keyPath s.manager.passphrase s.disk =
      .ok ⟨s.manager.keyPath, s.manager.passphrase, id.key, id.kid, none, none⟩)
    (draw : KeyDraw) (faults : SaveFaults) :
    perform h s (.restart draw faults) = some { s with
      manager := ⟨s.manager.keyPath, s.manager.passphrase, id.key, id.kid, none, none⟩ } := by
  simp only [perform, openOrGenerate, if_neg (absent_of_load hload), hload]

theorem restart_issued {draw : KeyDraw} {faults : SaveFaults}
    (hstep : perform h s (.restart draw faults) = some s') : s'.issued = s.issued := by
  unfold perform at hstep
  simp only at hstep
  split at hstep
  next =>
    cases hstep
    rfl
  next => cases hstep

theorem rotateKey_manager (km : KeyManager) (draw : KeyDraw) (faults : SaveFaults) (disk : Disk) :
    (km.rotateKey h draw faults disk).2.1 =
      ⟨km.keyPath, km.passphrase, draw.key, draw.kid, some km.currentKey, some km.currentKid⟩ := by
  unfold KeyManager.rotateKey
  simp only
  split <;> rfl

/-- The manager with a drawn key, which keeps the key it had before. -/
def KeyManager.rotated (km : KeyManager) (draw : KeyDraw) : KeyManager :=
  ⟨km.keyPath, km.passphrase, draw.key, draw.kid, some km.currentKey, some km.currentKid⟩

theorem perform_rotate (s : Platform) (draw : KeyDraw) (faults : SaveFaults) :
    perform h s (.rotate draw faults) =
      some ⟨s.manager.rotated draw, (s.manager.rotateKey h draw faults s.disk).2.2, s.signed,
        some s.manager.identity, ⟨draw.kid, draw.key⟩ :: s.issued⟩ := by
  have hmanager := rotateKey_manager (h := h) s.manager draw faults s.disk
  have hperform : perform h s (.rotate draw faults) =
      some ⟨(s.manager.rotateKey h draw faults s.disk).2.1,
        (s.manager.rotateKey h draw faults s.disk).2.2, s.signed, some s.manager.identity,
        (s.manager.rotateKey h draw faults s.disk).2.1.identity :: s.issued⟩ := rfl
  rw [hperform, hmanager]
  rfl

theorem rotateKey_saved (hx : h.crates.SignsLawfully) (hsc : h.secrets.Opens)
    (hjs : h.json.Lossless) {km : KeyManager} {draw : KeyDraw} {faults : SaveFaults}
    {disk disk₁ : Disk} (hpath : jwksPath km.keyPath ≠ km.keyPath)
    (hsave : (km.rotated draw).saveToFile h draw faults.keyFile disk = .ok disk₁) :
    loadFromFile h km.keyPath km.passphrase (km.rotateKey h draw faults disk).2.2 =
      .ok ⟨km.keyPath, km.passphrase, draw.key, draw.kid, none, none⟩ := by
  have hload := (loadFromFile_saveToFile hx hsc hjs hsave).2
  have hkept := writeJwksFile_keyFile (h := h) (km.rotated draw) faults.jwksFile disk₁ hpath
  have hdisk : (km.rotateKey h draw faults disk).2.2 =
      ((km.rotated draw).writeJwksFile h faults.jwksFile disk₁).2 := by
    unfold KeyManager.rotated at hsave
    simp only [KeyManager.rotateKey, hsave]
    rfl
  rw [hdisk]
  exact (loadFromFile_congr hkept).trans hload

theorem rotateKey_keyFile (hx : h.crates.SignsLawfully) (hsc : h.secrets.Opens)
    (hjs : h.json.Lossless) {km : KeyManager} (draw : KeyDraw) (faults : SaveFaults) (disk : Disk)
    (hpath : jwksPath km.keyPath ≠ km.keyPath) :
    loadFromFile h km.keyPath km.passphrase (km.rotateKey h draw faults disk).2.2 =
        .ok ⟨km.keyPath, km.passphrase, draw.key, draw.kid, none, none⟩ ∨
      (km.rotateKey h draw faults disk).2.2 = disk := by
  cases hsave : (km.rotated draw).saveToFile h draw faults.keyFile disk with
  | error e =>
    right
    unfold KeyManager.rotated at hsave
    simp only [KeyManager.rotateKey, hsave]
  | ok disk₁ => exact .inl (rotateKey_saved hx hsc hjs hpath hsave)

theorem Sound.perform (hx : h.crates.SignsLawfully) (hsc : h.secrets.Opens)
    (hjs : h.json.Lossless) (hs : Sound h s) {e : Event}
    (hfresh : ∀ draw faults, e = .rotate draw faults → draw.kid ∉ s.issued.map Identity.kid)
    (hstep : perform h s e = some s') : Sound h s' := by
  cases e with
  | sign receipt now =>
    cases hstep
    refine ⟨hs.distinct, hs.current, hs.before, ?_, hs.previous, hs.keyFile, hs.path⟩
    intro r hr
    rcases List.mem_cons.mp hr with rfl | hr
    · exact receipt.sign_eq now
    · exact hs.tokens r hr
  | rotate draw faults =>
    have hkeyFile := rotateKey_keyFile hx hsc hjs draw faults s.disk hs.path
    rw [perform_rotate] at hstep
    cases hstep
    refine ⟨?_, List.mem_cons_self, ?_, hs.tokens, .inr rfl, ?_, hs.path⟩
    · exact List.nodup_cons.mpr ⟨hfresh draw faults rfl, hs.distinct⟩
    · rintro b hb
      cases hb
      exact List.mem_cons_of_mem _ hs.current
    · rcases hkeyFile with hnew | hsame
      · exact ⟨_, List.mem_cons_self, hnew⟩
      · obtain ⟨id, hid, hload⟩ := hs.keyFile
        refine ⟨id, List.mem_cons_of_mem _ hid, ?_⟩
        rw [hsame]
        exact hload
  | restart draw faults =>
    obtain ⟨id, hid, hload⟩ := hs.keyFile
    rw [perform_restart id hload] at hstep
    cases hstep
    exact ⟨hs.distinct, hid, hs.before, hs.tokens, .inl rfl, ⟨id, hid, hload⟩, hs.path⟩

/-- Receipts go on verifying after one event, for a restart exactly if the key file keeps the key
they need. -/
theorem receiptsVerify_perform (hx : h.crates.SignsLawfully) (hjs : h.json.Lossless)
    (hs : Sound h s) (hs' : Sound h s') {e : Event} (hstep : perform h s e = some s')
    (hverify : ReceiptsVerify h s) :
    ReceiptsVerify h s' ↔ ∀ draw faults, e = .restart draw faults → KeyFileKeeps h s := by
  rw [receiptsVerify_iff hx hjs hs']
  rw [receiptsVerify_iff hx hjs hs] at hverify
  cases e with
  | sign receipt now =>
    cases hstep
    refine iff_of_true ?_ (by simp)
    intro r hr hbefore
    rcases List.mem_cons.mp hr with rfl | hr
    · exact .inl rfl
    · exact hverify r hr hbefore
  | rotate draw faults =>
    refine iff_of_true ?_ (by simp)
    rw [perform_rotate] at hstep
    cases hstep
    intro r _ hbefore
    exact .inr hbefore
  | restart draw faults =>
    obtain ⟨id, -, hload⟩ := hs.keyFile
    rw [perform_restart id hload] at hstep
    cases hstep
    constructor
    · intro hheld _ _ _ r hr hbefore
      rcases hheld r hr hbefore with hsigner | hprevious
      · exact ⟨_, hload, hsigner.symm⟩
      · cases hprevious
    · intro hkeeps r hr hbefore
      obtain ⟨km, hkm, hid⟩ := hkeeps draw faults rfl r hr hbefore
      cases hload.symm.trans hkm
      exact .inl hid.symm

/-- A restart after a saved rotation loses what was signed under the key before it. -/
theorem restart_after_rotation (hx : h.crates.SignsLawfully) (hsc : h.secrets.Opens)
    (hjs : h.json.Lossless) (hs : Sound h s) (receipt : Receipt) (now : Int64) {draw : KeyDraw}
    {faults : SaveFaults} {disk₁ : Disk} (hkid : draw.kid ≠ s.manager.currentKid)
    (hsave : (s.manager.rotated draw).saveToFile h draw faults.keyFile s.disk = .ok disk₁) :
    ∃ s₂ s₃ s₄, perform h s (.sign receipt now) = some s₂ ∧
      perform h s₂ (.rotate draw faults) = some s₃ ∧
      perform h s₃ (.restart draw faults) = some s₄ ∧ ¬ ReceiptsVerify h s₄ := by
  have hload := rotateKey_saved hx hsc hjs hs.path hsave
  refine ⟨_, _, _, rfl, perform_rotate _ _ _, perform_restart ⟨draw.kid, draw.key⟩ hload _ _, ?_⟩
  intro hverify
  have haccepted := hverify _ List.mem_cons_self (.inr rfl)
  refine not_accepted_of_unknown hjs (receipt.sign_eq now) ?_ haccepted
  rw [selectKey_jwkList]
  exact if_neg hkid

theorem verifyThroughout_head {es : List Event} (hall : VerifyThroughout h s es) :
    ReceiptsVerify h s := by
  cases es with
  | nil => exact hall
  | cons e rest => exact hall.1

theorem verifyThroughout_iff (hx : h.crates.SignsLawfully) (hsc : h.secrets.Opens)
    (hjs : h.json.Lossless) {es : List Event} (hs : Sound h s) (hfresh : FreshDraws h s es)
    (hverify : ReceiptsVerify h s) : VerifyThroughout h s es ↔ RestartsKeep h s es := by
  -- along the run the platform stays sound, and each event decides whether receipts still verify
  induction es generalizing s with
  | nil => exact iff_of_true hverify trivial
  | cons e rest ih =>
    obtain ⟨hdraw, hlater⟩ := hfresh
    constructor
    · rintro ⟨-, hrest⟩
      refine ⟨?_, fun s' hstep => ?_⟩
      · rintro draw faults rfl
        obtain ⟨id, -, hload⟩ := hs.keyFile
        have hstep := perform_restart id hload draw faults
        have hs' := hs.perform hx hsc hjs hdraw hstep
        have hhead := verifyThroughout_head (hrest _ hstep)
        exact (receiptsVerify_perform hx hjs hs hs' hstep hverify).mp hhead draw faults rfl
      · have hs' := hs.perform hx hsc hjs hdraw hstep
        have hall := hrest s' hstep
        exact (ih hs' (hlater s' hstep) (verifyThroughout_head hall)).mp hall
    · rintro ⟨hrestart, hrest⟩
      refine ⟨hverify, fun s' hstep => ?_⟩
      have hs' := hs.perform hx hsc hjs hdraw hstep
      have hhead := (receiptsVerify_perform hx hjs hs hs' hstep hverify).mpr hrestart
      exact (ih hs' (hlater s' hstep) hhead).mpr (hrest s' hstep)

end Steps

/-- Receipts verify at every point of a run exactly if no restart finds a key file without the
key that was current before the latest rotation and under which receipts were signed. -/
theorem receipts_verify_across_rotation_iff {h : Host} (hx : h.crates.SignsLawfully)
    (hsc : h.secrets.Opens) (hjs : h.json.Lossless) {keyPath : String}
    {passphrase : Option String} {draw : KeyDraw} {faults : SaveFaults} {disk : Disk}
    {s : Platform} (hpath : jwksPath keyPath ≠ keyPath)
    (hstart : start h keyPath passphrase draw faults disk = some s) {es : List Event}
    (hfresh : FreshDraws h s es) : VerifyThroughout h s es ↔ RestartsKeep h s es := by
  obtain ⟨hs, hverify⟩ := sound_start hx hsc hjs hpath hstart
  exact verifyThroughout_iff hx hsc hjs hs hfresh hverify

section Sample

/-- A cipher that appends a tag and checks it. -/
def sampleSecrets : SecretCrates where
  pbkdf2HmacSha256 _ salt _ := sampleHash salt
  aes256GcmEncrypt _ _ text := some (text ++ List.replicate 16 0)
  aes256GcmDecrypt _ _ ciphertext :=
    let text := ciphertext.take (ciphertext.length - 16)
    if ciphertext = text ++ List.replicate 16 0 then some text else none

theorem sampleSecrets_opens : sampleSecrets.Opens := by
  intro key nonce text ciphertext hencrypt
  cases Option.some.inj hencrypt
  simp [sampleSecrets]

/-- A release build. -/
def sampleHost : Host :=
  ⟨sampleCrates, sampleSecrets, sampleJson, false⟩

def sampleKeyDraw (b : UInt8) (uuid : String) : KeyDraw where
  key := sampleKey b
  uuid := uuid
  salt := sampleHash [b]
  nonce := ⟨(sampleHash [b]).val.take 12, by simp [(sampleHash [b]).property]⟩
  now := "2026-01-01T00:00:00+00:00"

def firstDraw : KeyDraw := sampleKeyDraw 1 "5c0e9c8f7d6b4a3e9f1c2d3e4f5a6b7c"

def secondDraw : KeyDraw := sampleKeyDraw 2 "0f1e2d3c4b5a69788796a5b4c3d2e1f0"

def noFaults : SaveFaults := ⟨none, none⟩

/-- The platform after its first start with an empty disk. -/
def firstStart : Option Platform :=
  start sampleHost "keys/signing.json" (some "correct horse") firstDraw noFaults fun _ => .absent

def sampleWitness : WitnessReceipt :=
  WitnessReceipt.build "ed25519:a2V5" false 5 "b3:aa" "2026-01-01T00:00:01Z" none "jti-1"

theorem firstStart_eq : ∃ s, firstStart = some s ∧
    s.manager = ⟨"keys/signing.json", some "correct horse", firstDraw.key, firstDraw.kid, none, none⟩ ∧
    s.signed = [] ∧ s.before = none ∧ s.issued = [⟨firstDraw.kid, firstDraw.key⟩] :=
  ⟨_, rfl, rfl, rfl, rfl, rfl⟩

theorem keyPath_ne_jwksPath : jwksPath "keys/signing.json" ≠ "keys/signing.json" := by
  decide

theorem firstStart_sound {s : Platform} (hstart : firstStart = some s) : Sound sampleHost s :=
  (sound_start sampleCrates_signsLawfully sampleSecrets_opens sampleJson_lossless
    keyPath_ne_jwksPath hstart).1

/-- A receipt, a restart and a rotation after it: the receipt verifies all the time. -/
theorem receipts_verify_after_early_restart :
    ∃ s, firstStart = some s ∧ VerifyThroughout sampleHost s
      [.sign (.witness sampleWitness) 1767225601, .restart secondDraw noFaults,
       .rotate secondDraw noFaults] := by
  obtain ⟨s, hstart, -, -, hbefore, hissued⟩ := firstStart_eq
  have hfresh : secondDraw.kid ∉ s.issued.map Identity.kid := by
    rw [hissued]
    decide
  refine ⟨s, hstart, (receipts_verify_across_rotation_iff sampleCrates_signsLawfully
    sampleSecrets_opens sampleJson_lossless keyPath_ne_jwksPath hstart ?_).mpr ?_⟩
  · refine ⟨by simp, fun s₁ h₁ => ?_⟩
    cases h₁
    refine ⟨by simp, fun s₂ h₂ => ⟨?_, fun _ _ => trivial⟩⟩
    rintro draw faults ⟨⟩
    rw [restart_issued h₂]
    exact hfresh
  · refine ⟨by simp, fun s₁ h₁ => ?_⟩
    cases h₁
    refine ⟨fun _ _ _ r _ hr => ?_, fun s₂ _ => ⟨by simp, fun _ _ => trivial⟩⟩
    cases hbefore.symm.trans hr

/-- A receipt, a rotation and a restart: the receipt was signed under the key before the rotation
and no longer verifies. -/
theorem restart_forgets_previous_key :
    ∃ s₁ s₂ s₃ s₄, firstStart = some s₁ ∧
      perform sampleHost s₁ (.sign (.witness sampleWitness) 1767225601) = some s₂ ∧
      perform sampleHost s₂ (.rotate secondDraw noFaults) = some s₃ ∧
      perform sampleHost s₃ (.restart secondDraw noFaults) = some s₄ ∧
      ¬ ReceiptsVerify sampleHost s₄ := by
  obtain ⟨s₁, hstart, hmanager, -, -, -⟩ := firstStart_eq
  have hs₁ := firstStart_sound hstart
  obtain ⟨disk₁, hsave⟩ : ∃ disk₁, (s₁.manager.rotated secondDraw).saveToFile sampleHost secondDraw
      noFaults.keyFile s₁.disk = .ok disk₁ := by
    rw [hmanager]
    exact ⟨_, rfl⟩
  have hkid : secondDraw.kid ≠ s₁.manager.currentKid := by
    rw [hmanager]
    decide
  obtain ⟨s₂, s₃, s₄, hsign, hrotate, hrestart, hnot⟩ := restart_after_rotation
    sampleCrates_signsLawfully sampleSecrets_opens sampleJson_lossless hs₁
    (.witness sampleWitness) 1767225601 hkid hsave
  exact ⟨s₁, s₂, s₃, s₄, hstart, hsign, hrotate, hrestart, hnot⟩

end Sample

end Jwks

end Sealedge
