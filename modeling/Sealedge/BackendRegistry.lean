import Mathlib.Data.List.Nodup
import Mathlib.Data.List.Perm.Basic

namespace Sealedge

inductive SymmetricAlgorithm
  | aes256Gcm
  | chaCha20Poly1305
  deriving DecidableEq

inductive AsymmetricAlgorithm
  | ed25519
  | ecdsaP256
  | rsa2048
  | rsa4096
  deriving DecidableEq

inductive Backends.SignatureAlgorithm
  | ed25519
  | ecdsaP256
  | rsaPkcs1v15
  | rsaPss
  deriving DecidableEq

/-- What selection reads of a backend's capabilities. -/
structure BackendCapabilities where
  symmetricAlgorithms : List SymmetricAlgorithm
  asymmetricAlgorithms : List AsymmetricAlgorithm
  signatureAlgorithms : List Backends.SignatureAlgorithm
  hardwareBacked : Bool

inductive BackendError
  | unsupportedOperation (text : String)
  | keyNotFound (text : String)
  | initializationFailed (text : String)
  | hardwareError (text : String)
  | operationFailed (text : String)
  deriving DecidableEq

/-- A backend for operations `Op` with results `Out`; `name` is the one that `backend_info`
reports. -/
structure UniversalBackend (Op Out : Type) where
  name : String
  getCapabilities : BackendCapabilities
  supportsOperation : Op → Bool
  performOperation : String → Op → Except BackendError Out

structure BackendPreferences where
  preferHardwareBacked : Bool
  preferAttestation : Bool
  excludedBackends : List String
  preferredBackends : List String
  deriving DecidableEq

namespace BackendPreferences

def new : BackendPreferences where
  preferHardwareBacked := false
  preferAttestation := false
  excludedBackends := []
  preferredBackends := []

end BackendPreferences

/-- A backend with the name it is registered under. A reference to a backend of a registry is
its entry. -/
abbrev BackendEntry (Op Out : Type) := String × UniversalBackend Op Out

/-- The map of backends, in the order in which it happens to be iterated. -/
structure UniversalBackendRegistry (Op Out : Type) where
  backends : List (BackendEntry Op Out)
  nodup : (backends.map Prod.fst).Nodup

section Registry

variable {Op Out : Type}

def BackendCapabilities.score (caps : BackendCapabilities) : Nat :=
  caps.symmetricAlgorithms.length + caps.asymmetricAlgorithms.length +
    caps.signatureAlgorithms.length

/-- The comparison of two candidates. -/
def comparePreferred (preferences : BackendPreferences) (a b : BackendEntry Op Out) : Ordering :=
  let aCaps := a.2.getCapabilities
  let bCaps := b.2.getCapabilities
  if preferences.preferHardwareBacked && (aCaps.hardwareBacked && !bCaps.hardwareBacked) then .lt
  else if preferences.preferHardwareBacked && (!aCaps.hardwareBacked && bCaps.hardwareBacked) then
    .gt
  else compare bCaps.score aCaps.score

namespace UniversalBackendRegistry

variable (registry : UniversalBackendRegistry Op Out)

def new : UniversalBackendRegistry Op Out where
  backends := []
  nodup := List.nodup_nil

/-- `register_backend`: a backend takes the place of the one under its name. -/
def registerBackend (name : String) (backend : UniversalBackend Op Out) :
    UniversalBackendRegistry Op Out where
  backends := (name, backend) :: registry.backends.filter fun e => e.1 != name
  nodup := by
    rw [List.map_cons, List.nodup_cons]
    refine ⟨?_, registry.nodup.sublist (List.filter_sublist.map _)⟩
    intro h
    obtain ⟨e, he, hname⟩ := List.mem_map.mp h
    have hne := (List.mem_filter.mp he).2
    simp [hname] at hne

def getBackend (name : String) : Option (BackendEntry Op Out) :=
  registry.backends.find? fun e => e.1 == name

def findBackendForOperation (operation : Op) : Option (BackendEntry Op Out) :=
  registry.backends.find? fun e => e.2.supportsOperation operation

def findPreferredBackend (operation : Op) (preferences : BackendPreferences) :
    Option (BackendEntry Op Out) :=
  let candidates := registry.backends.filter fun e => e.2.supportsOperation operation
  let sorted := candidates.mergeSort fun a b => comparePreferred preferences a b != .gt
  match sorted.head? with
  | some (_, backend) => registry.getBackend backend.name
  | none => none

/-- `debug` is the text of an operation. -/
def performOperation (debug : Op → String) (keyId : String) (operation : Op)
    (preferences : Option BackendPreferences) : Except BackendError Out :=
  let backend :=
    match preferences with
    | some prefs => registry.findPreferredBackend operation prefs
    | none => registry.findBackendForOperation operation
  match backend with
  | some (_, backend) => backend.performOperation keyId operation
  | none => .error (.unsupportedOperation
      ("No backend supports the requested operation: " ++ debug operation))

end UniversalBackendRegistry

/-- The backend supports the operation and is not excluded. -/
def Qualified (operation : Op) (preferences : BackendPreferences) (e : BackendEntry Op Out) :
    Prop :=
  e.2.supportsOperation operation = true ∧ e.1 ∉ preferences.excludedBackends

/-- The backend may be returned: it is qualified, and hardware-backed where that is preferred
and can be had. -/
def SuitsPreferences (backends : List (BackendEntry Op Out)) (operation : Op)
    (preferences : BackendPreferences) (e : BackendEntry Op Out) : Prop :=
  Qualified operation preferences e ∧
  (preferences.preferHardwareBacked = true →
    (∃ q ∈ backends, Qualified operation preferences q ∧
      q.2.getCapabilities.hardwareBacked = true) → e.2.getCapabilities.hardwareBacked = true)

/-- What selection owes the caller, over the registered backends. -/
def HonoursPreferences (backends : List (BackendEntry Op Out)) (operation : Op)
    (preferences : BackendPreferences) (selected : Option (BackendEntry Op Out)) : Prop :=
  match selected with
  | some e => e ∈ backends ∧ SuitsPreferences backends operation preferences e
  | none => ∀ e ∈ backends, ¬ Qualified operation preferences e

/-- The backend supports the operation and no backend that does comes before it: none is
hardware-backed when it is not and that is preferred, and none of its kind has more algorithms. -/
def TopRanked (backends : List (BackendEntry Op Out)) (operation : Op)
    (preferences : BackendPreferences) (w : BackendEntry Op Out) : Prop :=
  w ∈ backends ∧ w.2.supportsOperation operation = true ∧
  ∀ e ∈ backends, e.2.supportsOperation operation = true →
    comparePreferred preferences w e ≠ .gt

end Registry

section Selection

variable {Op Out : Type} {preferences : BackendPreferences}

/-- The order of the candidates: by hardware where preferred, then by score. -/
theorem comparePreferred_ne_gt_iff {a b : BackendEntry Op Out} :
    comparePreferred preferences a b ≠ .gt ↔
      (preferences.preferHardwareBacked = true ∧ a.2.getCapabilities.hardwareBacked = true ∧
        b.2.getCapabilities.hardwareBacked = false) ∨
      ((preferences.preferHardwareBacked = true → b.2.getCapabilities.hardwareBacked = true →
          a.2.getCapabilities.hardwareBacked = true) ∧
        b.2.getCapabilities.score ≤ a.2.getCapabilities.score) := by
  have hscore : compare b.2.getCapabilities.score a.2.getCapabilities.score ≠ .gt ↔
      b.2.getCapabilities.score ≤ a.2.getCapabilities.score := by
    rw [ne_eq, Nat.compare_eq_gt, Nat.not_lt]
  cases hp : preferences.preferHardwareBacked <;>
    cases ha : a.2.getCapabilities.hardwareBacked <;>
    cases hb : b.2.getCapabilities.hardwareBacked <;>
    simp [comparePreferred, hp, ha, hb, ← hscore]

theorem comparePreferred_trans (preferences : BackendPreferences) (a b c : BackendEntry Op Out)
    (hab : (comparePreferred preferences a b != .gt) = true)
    (hbc : (comparePreferred preferences b c != .gt) = true) :
    (comparePreferred preferences a c != .gt) = true := by
  rw [bne_iff_ne, comparePreferred_ne_gt_iff] at hab hbc ⊢
  cases hp : preferences.preferHardwareBacked <;>
    cases ha : a.2.getCapabilities.hardwareBacked <;>
    cases hb : b.2.getCapabilities.hardwareBacked <;>
    cases hc : c.2.getCapabilities.hardwareBacked <;>
    simp_all <;> omega

theorem comparePreferred_total (preferences : BackendPreferences) (a b : BackendEntry Op Out) :
    ((comparePreferred preferences a b != .gt) || (comparePreferred preferences b a != .gt)) =
      true := by
  rw [Bool.or_eq_true, bne_iff_ne, bne_iff_ne, comparePreferred_ne_gt_iff,
    comparePreferred_ne_gt_iff]
  cases hp : preferences.preferHardwareBacked <;>
    cases ha : a.2.getCapabilities.hardwareBacked <;>
    cases hb : b.2.getCapabilities.hardwareBacked <;>
    simp <;> omega

theorem topRanked_of_head {backends : List (BackendEntry Op Out)} {operation : Op}
    {w : BackendEntry Op Out}
    (h : ((backends.filter fun e => e.2.supportsOperation operation).mergeSort
      fun a b => comparePreferred preferences a b != .gt).head? = some w) :
    TopRanked backends operation preferences w := by
  have hperm := List.mergeSort_perm (backends.filter fun e => e.2.supportsOperation operation)
    fun a b => comparePreferred preferences a b != .gt
  have hsorted := List.pairwise_mergeSort (comparePreferred_trans preferences)
    (comparePreferred_total preferences) (backends.filter fun e => e.2.supportsOperation operation)
  obtain ⟨rest, hrest⟩ := List.head?_eq_some_iff.mp h
  have hmem : w ∈ backends.filter fun e => e.2.supportsOperation operation :=
    hperm.mem_iff.mp (List.mem_of_mem_head? h)
  refine ⟨(List.mem_filter.mp hmem).1, by simpa using (List.mem_filter.mp hmem).2, ?_⟩
  intro e he hsupports
  have hin : e ∈ w :: rest := by
    rw [← hrest]
    exact hperm.mem_iff.mpr (List.mem_filter.mpr ⟨he, by simpa using hsupports⟩)
  rw [hrest, List.pairwise_cons] at hsorted
  rcases List.mem_cons.mp hin with rfl | hlater
  · have := comparePreferred_total preferences e e
    simpa using this
  · exact bne_iff_ne.mp (hsorted.1 e hlater)

/-- A top-ranked backend comes out first when the map happens to be iterated from it. -/
theorem head_of_topRanked {rest : List (BackendEntry Op Out)} {operation : Op}
    {w : BackendEntry Op Out} (h : TopRanked (w :: rest) operation preferences w) :
    (((w :: rest).filter fun e => e.2.supportsOperation operation).mergeSort
      fun a b => comparePreferred preferences a b != .gt).head? = some w := by
  obtain ⟨-, hsupports, htop⟩ := h
  rw [List.filter_cons_of_pos (by simpa using hsupports)]
  obtain ⟨before, after, hsort, hrest, hbefore⟩ :=
    List.mergeSort_cons (comparePreferred_trans preferences)
      (comparePreferred_total preferences) w (rest.filter fun e => e.2.supportsOperation operation)
  have hnil : before = [] := by
    apply List.eq_nil_iff_forall_not_mem.mpr
    intro e he
    have hmem : e ∈ rest.filter fun e => e.2.supportsOperation operation := by
      rw [← (List.mergeSort_perm _ _).mem_iff, hrest]
      exact List.mem_append_left _ he
    obtain ⟨hin, hsup⟩ := List.mem_filter.mp hmem
    have hle := htop e (List.mem_cons_of_mem _ hin) (by simpa using hsup)
    have hnot := hbefore e he
    simp [hle] at hnot
  rw [hsort, hnil]
  rfl

theorem getBackend_eq_some_iff {registry : UniversalBackendRegistry Op Out} {name : String}
    {e : BackendEntry Op Out} :
    registry.getBackend name = some e ↔ e ∈ registry.backends ∧ e.1 = name := by
  unfold UniversalBackendRegistry.getBackend
  constructor
  · intro h
    exact ⟨List.mem_of_find?_eq_some h, by simpa using List.find?_some h⟩
  · rintro ⟨hmem, rfl⟩
    cases hfound : registry.backends.find? fun d => d.1 == e.1 with
    | none =>
      have hnot := List.find?_eq_none.mp hfound e hmem
      simp at hnot
    | some d =>
      have hname : d.1 = e.1 := by simpa using List.find?_some hfound
      rw [List.inj_on_of_nodup_map registry.nodup (List.mem_of_find?_eq_some hfound) hmem hname]

/-- Selection is the lookup of a top-ranked backend by the name it reports. -/
theorem findPreferredBackend_cases (registry : UniversalBackendRegistry Op Out) (operation : Op)
    (preferences : BackendPreferences) :
    (∃ w, TopRanked registry.backends operation preferences w ∧
      registry.findPreferredBackend operation preferences = registry.getBackend w.2.name) ∨
    ((∀ e ∈ registry.backends, e.2.supportsOperation operation = false) ∧
      registry.findPreferredBackend operation preferences = none) := by
  unfold UniversalBackendRegistry.findPreferredBackend
  simp only
  cases hhead : ((registry.backends.filter fun e => e.2.supportsOperation operation).mergeSort
      fun a b => comparePreferred preferences a b != .gt).head? with
  | some w => exact .inl ⟨w, topRanked_of_head hhead, rfl⟩
  | none =>
    refine .inr ⟨?_, rfl⟩
    have hnil := List.head?_eq_none_iff.mp hhead
    have hperm := List.mergeSort_perm (registry.backends.filter fun e =>
      e.2.supportsOperation operation) fun a b => comparePreferred preferences a b != .gt
    rw [hnil] at hperm
    intro e he
    simpa using List.filter_eq_nil_iff.mp hperm.symm.eq_nil e he

theorem topRanked_congr {backends order : List (BackendEntry Op Out)} {operation : Op}
    {w : BackendEntry Op Out} (h : order.Perm backends) :
    TopRanked order operation preferences w ↔ TopRanked backends operation preferences w := by
  unfold TopRanked
  simp only [h.mem_iff]

theorem exists_order_from {registry : UniversalBackendRegistry Op Out} {w : BackendEntry Op Out}
    (h : w ∈ registry.backends) :
    ∃ (order : UniversalBackendRegistry Op Out) (rest : List (BackendEntry Op Out)),
      order.backends = w :: rest ∧ order.backends.Perm registry.backends := by
  obtain ⟨before, after, hsplit⟩ := List.append_of_mem h
  have hperm : (w :: (before ++ after)).Perm registry.backends := by
    rw [hsplit]
    exact List.perm_middle.symm
  exact ⟨⟨w :: (before ++ after), (hperm.map _).nodup_iff.mpr registry.nodup⟩, before ++ after, rfl,
    hperm⟩

/-- In every order of iteration the selection is acceptable if the backend that each top-ranked one
names is. -/
theorem honours_of_topRanked {registry order : UniversalBackendRegistry Op Out} {operation : Op}
    (hperm : order.backends.Perm registry.backends)
    (hcond : ∀ w, TopRanked registry.backends operation preferences w →
      (∃ e ∈ registry.backends, e.1 = w.2.name ∧
        SuitsPreferences registry.backends operation preferences e) ∨
      ((∀ e ∈ registry.backends, e.1 ≠ w.2.name) ∧
        ∀ e ∈ registry.backends, ¬ Qualified operation preferences e)) :
    HonoursPreferences registry.backends operation preferences
      (order.findPreferredBackend operation preferences) := by
  rcases findPreferredBackend_cases order operation preferences with
    ⟨w, hw, hfind⟩ | ⟨hnone, hfind⟩
  · rw [hfind]
    rcases hcond w ((topRanked_congr hperm).mp hw) with
      ⟨e, he, hname, haccept⟩ | ⟨hunknown, hunqualified⟩
    · rw [getBackend_eq_some_iff.mpr ⟨hperm.mem_iff.mpr he, hname⟩]
      exact ⟨he, haccept⟩
    · cases hget : order.getBackend w.2.name with
      | none => exact hunqualified
      | some e =>
        obtain ⟨he, hname⟩ := getBackend_eq_some_iff.mp hget
        exact absurd hname (hunknown e (hperm.mem_iff.mp he))
  · rw [hfind]
    intro e he hqualified
    have hsupports := hnone e (hperm.mem_iff.mpr he)
    rw [hqualified.1] at hsupports
    cases hsupports

/-- Selection honours the preferences, in whatever order the map is iterated, exactly when for
every top-ranked backend the one registered under the name it reports is acceptable, or there is
none under that name and none to be had. -/
theorem findPreferredBackend_honours_iff (registry : UniversalBackendRegistry Op Out)
    (operation : Op) (preferences : BackendPreferences) :
    (∀ order : UniversalBackendRegistry Op Out, order.backends.Perm registry.backends →
      HonoursPreferences registry.backends operation preferences
        (order.findPreferredBackend operation preferences)) ↔
    ∀ w, TopRanked registry.backends operation preferences w →
      (∃ e ∈ registry.backends, e.1 = w.2.name ∧
        SuitsPreferences registry.backends operation preferences e) ∨
      ((∀ e ∈ registry.backends, e.1 ≠ w.2.name) ∧
        ∀ e ∈ registry.backends, ¬ Qualified operation preferences e) := by
  constructor
  · intro hall w hw
    obtain ⟨order, rest, horder, hperm⟩ := exists_order_from hw.1
    have htop : TopRanked (w :: rest) operation preferences w := by
      rw [← horder]
      exact (topRanked_congr hperm).mpr hw
    have hfind : order.findPreferredBackend operation preferences =
        order.getBackend w.2.name := by
      unfold UniversalBackendRegistry.findPreferredBackend
      simp only [horder, head_of_topRanked htop]
    have hhonours := hall order hperm
    rw [hfind] at hhonours
    cases hget : order.getBackend w.2.name with
    | some e =>
      rw [hget] at hhonours
      exact .inl ⟨e, hhonours.1, (getBackend_eq_some_iff.mp hget).2, hhonours.2⟩
    | none =>
      rw [hget] at hhonours
      refine .inr ⟨fun e he hname => ?_, hhonours⟩
      have hsome := getBackend_eq_some_iff.mpr ⟨hperm.mem_iff.mpr he, hname⟩
      rw [hget] at hsome
      cases hsome
  · intro hcond order hperm
    exact honours_of_topRanked hperm hcond

/-- Every backend is registered under the name it reports. -/
def UniversalBackendRegistry.NamesAgree (registry : UniversalBackendRegistry Op Out) : Prop :=
  ∀ e ∈ registry.backends, e.2.name = e.1

/-- Where names agree and nothing is excluded the preferences are honoured. -/
theorem honours_of_namesAgree {registry order : UniversalBackendRegistry Op Out} {operation : Op}
    (hnames : registry.NamesAgree) (hexcluded : preferences.excludedBackends = [])
    (hperm : order.backends.Perm registry.backends) :
    HonoursPreferences registry.backends operation preferences
      (order.findPreferredBackend operation preferences) := by
  refine honours_of_topRanked hperm fun w hw => .inl ⟨w, hw.1, (hnames w hw.1).symm, ?_, ?_⟩
  · refine ⟨hw.2.1, ?_⟩
    rw [hexcluded]
    exact List.not_mem_nil
  · rintro hprefer ⟨q, hq, hqualified, hhardware⟩
    have htop := comparePreferred_ne_gt_iff.mp (hw.2.2 q hq hqualified.1)
    rcases htop with ⟨-, hw, -⟩ | ⟨hkept, -⟩
    · exact hw
    · exact hkept hprefer hhardware

end Selection

/-- A software backend that signs and makes keys, as the registry knows it. -/
def softwareHsm : UniversalBackend Unit Unit where
  name := "software_hsm"
  getCapabilities := {
    symmetricAlgorithms := []
    asymmetricAlgorithms := [.ed25519, .ecdsaP256]
    signatureAlgorithms := [.ed25519, .ecdsaP256]
    hardwareBacked := false }
  supportsOperation _ := true
  performOperation _ _ := .ok ()

/-- The only backend is returned although the caller has excluded it. -/
theorem excluded_backend_selected :
    ¬ ∀ order : UniversalBackendRegistry Unit Unit,
      order.backends.Perm (UniversalBackendRegistry.new.registerBackend "software_hsm"
        softwareHsm).backends →
      HonoursPreferences (UniversalBackendRegistry.new.registerBackend "software_hsm"
        softwareHsm).backends ()
        { BackendPreferences.new with excludedBackends := ["software_hsm"] }
        (order.findPreferredBackend ()
          { BackendPreferences.new with excludedBackends := ["software_hsm"] }) := by
  intro h
  have hhonours := h _ (List.Perm.refl _)
  have hfind : (UniversalBackendRegistry.new.registerBackend "software_hsm"
      softwareHsm).findPreferredBackend ()
        { BackendPreferences.new with excludedBackends := ["software_hsm"] } =
      some ("software_hsm", softwareHsm) := by
    simp [UniversalBackendRegistry.findPreferredBackend, UniversalBackendRegistry.registerBackend,
      UniversalBackendRegistry.new, UniversalBackendRegistry.getBackend, softwareHsm]
  rw [hfind] at hhonours
  exact hhonours.2.1.2 (by simp)

end Sealedge
