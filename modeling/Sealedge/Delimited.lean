import Mathlib.Logic.Function.Basic
import Mathlib.Data.List.Basic

namespace Delimited

/-- The text is nonempty and its first character satisfies `p`. -/
def HeadIs (p : Char → Prop) (s : String) : Prop :=
  ∃ c rest, s.toList = c :: rest ∧ p c

/-- No character of the text satisfies `stop`, so a stop character after it ends it. -/
def Bare (stop : Char → Prop) (s : String) : Prop :=
  ∀ c ∈ s.toList, ¬stop c

def Begins (key s : String) : Prop :=
  ∃ rest, s = key ++ rest

/-- Neither text is a prefix of the other. -/
def Diverge (k l : String) : Prop :=
  ¬k.toList <+: l.toList ∧ ¬l.toList <+: k.toList

instance (k l : String) : Decidable (Diverge k l) :=
  inferInstanceAs (Decidable (_ ∧ _))

/-- No code word is a proper prefix of another one. -/
def PrefixFree {α : Type} (enc : α → String) : Prop :=
  ∀ a b s t, enc a ++ s = enc b ++ t → enc a = enc b

theorem HeadIs.append {p : Char → Prop} {s : String} (h : HeadIs p s) (t : String) :
    HeadIs p (s ++ t) := by
  obtain ⟨c, rest, hs, hc⟩ := h
  exact ⟨c, rest ++ t.toList, by simp [hs], hc⟩

theorem HeadIs.imp {p q : Char → Prop} {s : String} (h : HeadIs p s) (hpq : ∀ c, p c → q c) :
    HeadIs q s := by
  obtain ⟨c, rest, hs, hc⟩ := h
  exact ⟨c, rest, hs, hpq c hc⟩

theorem headIs_disjoint {p q : Char → Prop} {s : String} (hp : HeadIs p s) (hq : HeadIs q s)
    (hpq : ∀ c, p c → ¬q c) : False := by
  obtain ⟨c, rest, hs, hc⟩ := hp
  obtain ⟨d, rest', hs', hd⟩ := hq
  obtain ⟨rfl, -⟩ := List.cons.inj (hs.symm.trans hs')
  exact hpq c hc hd

theorem not_begins_of_diverge {k l : String} (h : Diverge k l) (rest : String) :
    ¬Begins k (l ++ rest) := by
  rintro ⟨tail, he⟩
  have hl : l.toList ++ rest.toList = k.toList ++ tail.toList := by
    simpa only [String.toList_append] using congrArg String.toList he
  rcases List.prefix_or_prefix_of_prefix (List.prefix_append k.toList tail.toList)
    (hl ▸ List.prefix_append l.toList rest.toList) with hk | hk
  · exact h.1 hk
  · exact h.2 hk

theorem diverge_ne {k l s t : String} (h : Diverge k l) : k ++ s ≠ l ++ t := by
  intro he
  exact not_begins_of_diverge h t ⟨s, he.symm⟩

theorem bare_chars_append_inj {stop : Char → Prop} {xs ys s t : List Char} {c d : Char}
    (hx : ∀ z ∈ xs, ¬stop z) (hy : ∀ z ∈ ys, ¬stop z) (hc : stop c) (hd : stop d)
    (h : xs ++ c :: s = ys ++ d :: t) : xs = ys ∧ c :: s = d :: t := by
  induction xs generalizing ys with
  | nil =>
    cases ys with
    | nil => exact ⟨rfl, h⟩
    | cons z zs =>
      have he : c = z := (List.cons.inj h).1
      exact absurd (he ▸ hc) (hy z (by simp))
  | cons w ws ih =>
    cases ys with
    | nil =>
      have he : w = d := (List.cons.inj h).1
      exact absurd (he ▸ hd) (hx w (by simp))
    | cons z zs =>
      obtain ⟨he, ht⟩ := List.cons.inj h
      obtain ⟨hw, hs⟩ := ih (fun v hv => hx v (by simp [hv])) (fun v hv => hy v (by simp [hv])) ht
      exact ⟨by rw [he, hw], hs⟩

theorem bare_append_inj {stop : Char → Prop} {a b s t : String}
    (ha : Bare stop a) (hb : Bare stop b) (hs : HeadIs stop s) (ht : HeadIs stop t)
    (h : a ++ s = b ++ t) : a = b ∧ s = t := by
  obtain ⟨c, cs, hcs, hc⟩ := hs
  obtain ⟨d, ds, hds, hd⟩ := ht
  have hl : a.toList ++ c :: cs = b.toList ++ d :: ds := by
    simpa only [String.toList_append, hcs, hds] using congrArg String.toList h
  obtain ⟨hab, hst⟩ := bare_chars_append_inj ha hb hc hd hl
  exact ⟨String.toList_inj.mp hab, String.toList_inj.mp (by rw [hcs, hds, hst])⟩

theorem PrefixFree.append_inj {α : Type} {enc : α → String} (hp : PrefixFree enc)
    (hi : Function.Injective enc) {a b : α} {s t : String} (h : enc a ++ s = enc b ++ t) :
    a = b ∧ s = t := by
  have he := hp a b s t h
  rw [he] at h
  exact ⟨hi he, (String.append_right_inj _).mp h⟩

/-- A field that is left out when its value is absent. -/
def opt {α : Type} (key : String) (enc : α → String) : Option α → String
  | none => ""
  | some a => key ++ enc a

@[simp] theorem opt_none {α : Type} (key : String) (enc : α → String) : opt key enc none = "" := rfl

@[simp] theorem opt_some {α : Type} (key : String) (enc : α → String) (a : α) :
    opt key enc (some a) = key ++ enc a := rfl

theorem HeadIs.opt_append {α : Type} {p : Char → Prop} {key s : String} (enc : α → String)
    (hk : HeadIs p key) (hs : HeadIs p s) (v : Option α) : HeadIs p (opt key enc v ++ s) := by
  cases v with
  | none => simpa using hs
  | some a => exact (hk.append (enc a)).append s

theorem not_begins_opt {α : Type} {k l s : String} (enc : α → String) (hd : Diverge k l)
    (hs : ¬Begins k s) (v : Option α) : ¬Begins k (opt l enc v ++ s) := by
  cases v with
  | none => simpa using hs
  | some a =>
    simp only [opt_some, String.append_assoc]
    exact not_begins_of_diverge hd _

/-- When the text after an optional field never begins with the field's key, the field is read
back exactly: present on both sides or absent on both. -/
theorem opt_append_inj {α : Type} {r : α → α → Prop} {key s t : String} {enc : α → String}
    (step : ∀ a b, enc a ++ s = enc b ++ t → r a b ∧ s = t)
    (hs : ¬Begins key s) (ht : ¬Begins key t) {v w : Option α}
    (h : opt key enc v ++ s = opt key enc w ++ t) : Option.Rel r v w ∧ s = t := by
  cases v with
  | none =>
    cases w with
    | none => exact ⟨Option.Rel.none, by simpa using h⟩
    | some b => exact absurd ⟨enc b ++ t, by simpa [String.append_assoc] using h⟩ hs
  | some a =>
    cases w with
    | none => exact absurd ⟨enc a ++ s, by simpa [String.append_assoc] using h.symm⟩ ht
    | some b =>
      simp only [opt_some, String.append_assoc, String.append_right_inj] at h
      obtain ⟨hv, hst⟩ := step a b h
      exact ⟨Option.Rel.some hv, hst⟩

theorem eq_of_rel_eq {α : Type} {v w : Option α} (h : Option.Rel Eq v w) : v = w := by
  cases h with
  | some he => rw [he]
  | none => rfl

/-- Items after the first one, each behind a comma. -/
def sepTail {α : Type} (enc : α → String) : List α → String
  | [] => ""
  | a :: rest => "," ++ enc a ++ sepTail enc rest

/-- The text a loop writes that pushes a comma before every item but the first. -/
def sepBy {α : Type} (enc : α → String) : List α → String
  | [] => ""
  | a :: rest => enc a ++ sepTail enc rest

theorem sepBy_congr {α : Type} {enc : α → String} {l l' : List α}
    (h : l.map enc = l'.map enc) : sepBy enc l = sepBy enc l' := by
  have htail : ∀ {l l' : List α}, l.map enc = l'.map enc → sepTail enc l = sepTail enc l' := by
    intro l
    induction l with
    | nil =>
      intro l' h
      rw [List.map_eq_nil_iff.mp h.symm]
    | cons a rest ih =>
      intro l' h
      obtain ⟨b, rest', rfl, hhead, hrest⟩ := List.map_eq_cons_iff.mp h.symm
      rw [sepTail, sepTail, hhead, ih hrest.symm]
  cases l with
  | nil => rw [List.map_eq_nil_iff.mp h.symm]
  | cons a rest =>
    obtain ⟨b, rest', rfl, hhead, hrest⟩ := List.map_eq_cons_iff.mp h.symm
    rw [sepBy, sepBy, hhead, htail hrest.symm]

section Lists

variable {α : Type} {r : α → α → Prop} {enc : α → String} {p : Char → Prop} {close : Char}

theorem headIs_sepTail_append (comma : p ',') (closed : p close) {s : String}
    (hs : HeadIs (· = close) s) (xs : List α) : HeadIs p (sepTail enc xs ++ s) := by
  cases xs with
  | nil => simpa [sepTail] using hs.imp (fun c hc => hc ▸ closed)
  | cons x xs =>
    refine ⟨',', (enc x ++ sepTail enc xs ++ s).toList, ?_, comma⟩
    simp [sepTail]

theorem sepTail_append_inj (comma : p ',') (closed : p close)
    (hne : close ≠ ',')
    (step : ∀ a b s t, HeadIs p s → HeadIs p t → enc a ++ s = enc b ++ t →
      r a b ∧ s = t)
    {s t : String} (hs : HeadIs (· = close) s) (ht : HeadIs (· = close) t)
    {xs ys : List α} (h : sepTail enc xs ++ s = sepTail enc ys ++ t) :
    List.Forall₂ r xs ys ∧ s = t := by
  have comma_head : ∀ text : String, HeadIs (· = ',') ("," ++ text) :=
    fun text => ⟨',', text.toList, by simp, rfl⟩
  have clash : ∀ c : Char, c = close → ¬c = ',' := fun c hc he => hne (hc ▸ he)
  induction xs generalizing ys with
  | nil =>
    cases ys with
    | nil => exact ⟨List.Forall₂.nil, by simpa [sepTail] using h⟩
    | cons y ys =>
      have he : s = "," ++ (enc y ++ sepTail enc ys ++ t) := by
        simpa [sepTail, String.append_assoc] using h
      exact (headIs_disjoint hs (he ▸ comma_head _) clash).elim
  | cons x xs ih =>
    cases ys with
    | nil =>
      have he : t = "," ++ (enc x ++ sepTail enc xs ++ s) := by
        simpa [sepTail, String.append_assoc] using h.symm
      exact (headIs_disjoint ht (he ▸ comma_head _) clash).elim
    | cons y ys =>
      simp only [sepTail, String.append_assoc, String.append_right_inj] at h
      obtain ⟨hv, hr⟩ := step x y _ _ (headIs_sepTail_append comma closed hs xs)
        (headIs_sepTail_append comma closed ht ys) h
      obtain ⟨hm, hst⟩ := ih hr
      exact ⟨List.Forall₂.cons hv hm, hst⟩

/-- A comma-separated list is read back item by item when no item can begin
with the closing character. -/
theorem sepBy_append_inj (comma : p ',') (closed : p close)
    (hne : close ≠ ',')
    (step : ∀ a b s t, HeadIs p s → HeadIs p t → enc a ++ s = enc b ++ t →
      r a b ∧ s = t)
    (opens : ∀ a, HeadIs (· ≠ close) (enc a))
    {s t : String} (hs : HeadIs (· = close) s) (ht : HeadIs (· = close) t)
    {xs ys : List α} (h : sepBy enc xs ++ s = sepBy enc ys ++ t) :
    List.Forall₂ r xs ys ∧ s = t := by
  have clash : ∀ c : Char, c = close → ¬c ≠ close := fun c hc hn => hn hc
  cases xs with
  | nil =>
    cases ys with
    | nil => exact ⟨List.Forall₂.nil, by simpa [sepBy] using h⟩
    | cons y ys =>
      have he : s = enc y ++ (sepTail enc ys ++ t) := by
        simpa [sepBy, String.append_assoc] using h
      exact (headIs_disjoint hs (he ▸ (opens y).append _) clash).elim
  | cons x xs =>
    cases ys with
    | nil =>
      have he : t = enc x ++ (sepTail enc xs ++ s) := by
        simpa [sepBy, String.append_assoc] using h.symm
      exact (headIs_disjoint ht (he ▸ (opens x).append _) clash).elim
    | cons y ys =>
      simp only [sepBy, String.append_assoc] at h
      obtain ⟨hv, hr⟩ := step x y _ _ (headIs_sepTail_append comma closed hs xs)
        (headIs_sepTail_append comma closed ht ys) h
      obtain ⟨hm, hst⟩ := sepTail_append_inj comma closed hne step hs ht hr
      exact ⟨List.Forall₂.cons hv hm, hst⟩

end Lists

end Delimited
