/-
# `Karu.Base.Pairing` — lists matched entry by entry

`List.Forall₂ R l₁ l₂` says that two lists match in order.  The facts below
take one matched pair out of it, carry a projection across it, or follow one
match by another.

`Settles R all left outcomes` is for entries that are dealt with one by one, in
any order: what is not left matches what has come of it.
-/
import Mathlib.Data.List.Forall2
import Mathlib.Data.List.Perm.Basic

namespace Base

variable {α β γ : Type*} {R : α → β → Prop} {l₁ : List α} {l₂ : List β}

theorem exists_left_of_mem (h : List.Forall₂ R l₁ l₂) {b : β} (hb : b ∈ l₂) :
    ∃ a ∈ l₁, R a b := by
  induction h with
  | nil => cases hb
  | cons hab _ ih =>
      rcases List.mem_cons.mp hb with rfl | hb
      · exact ⟨_, List.mem_cons_self, hab⟩
      · obtain ⟨a, ha, hr⟩ := ih hb
        exact ⟨a, List.mem_cons_of_mem _ ha, hr⟩

theorem exists_right_of_mem (h : List.Forall₂ R l₁ l₂) {a : α} (ha : a ∈ l₁) :
    ∃ b ∈ l₂, R a b :=
  exists_left_of_mem h.flip ha

/-- Two projections that agree on matched entries agree on the lists. -/
theorem map_eq_map_of_forall₂ {f : α → γ} {g : β → γ} (h : List.Forall₂ R l₁ l₂)
    (hfg : ∀ a ∈ l₁, ∀ b, R a b → g b = f a) : l₂.map g = l₁.map f := by
  induction h with
  | nil => rfl
  | cons hab _ ih =>
      rw [List.map_cons, List.map_cons, hfg _ List.mem_cons_self _ hab,
        ih fun a ha => hfg a (List.mem_cons_of_mem _ ha)]

/-- A match followed by a match. -/
theorem forall₂_comp {S : β → γ → Prop} {T : α → γ → Prop} (h : ∀ a b c, R a b → S b c → T a c) :
    ∀ {l₁ : List α} {l₂ : List β} {l₃ : List γ}, List.Forall₂ R l₁ l₂ → List.Forall₂ S l₂ l₃ →
      List.Forall₂ T l₁ l₃
  | _, _, _, .nil, .nil => .nil
  | _, _, _, .cons hr hrs, .cons hs hss => .cons (h _ _ _ hr hs) (forall₂_comp h hrs hss)

/-! ## Entries dealt with in any order -/

/-- Lists that count the same are rearrangements of each other. -/
theorem perm_of_countP {l l' : List α} (h : ∀ p : α → Bool, l.countP p = l'.countP p) :
    l.Perm l' := by
  classical
  rw [List.perm_iff_count]
  intro a
  exact h (· == a)

theorem length_eraseIdx_add {l : List α} {i : Nat} {a : α} (h : l[i]? = some a) :
    (l.eraseIdx i).length + 1 = l.length := by
  obtain ⟨hi, -⟩ := List.getElem?_eq_some_iff.mp h
  exact (List.getElem_cons_eraseIdx_perm hi).length_eq

/-- An entry taken out of a list. -/
theorem countP_eraseIdx {l : List α} {i : Nat} {a : α} (h : l[i]? = some a) (f : α → List β)
    (p : β → Bool) :
    (l.flatMap f).countP p = (f a).countP p + ((l.eraseIdx i).flatMap f).countP p := by
  obtain ⟨hi, rfl⟩ := List.getElem?_eq_some_iff.mp h
  rw [← ((List.getElem_cons_eraseIdx_perm hi).flatMap_right f).countP_eq p, List.flatMap_cons,
    List.countP_append]

/-- An entry replaced by another. -/
theorem countP_set {l : List α} {i : Nat} {a : α} (h : l[i]? = some a) (b : α) (f : α → List β)
    (p : β → Bool) :
    ((l.set i b).flatMap f).countP p + (f a).countP p =
      (f b).countP p + (l.flatMap f).countP p := by
  obtain ⟨hi, -⟩ := List.getElem?_eq_some_iff.mp h
  rw [countP_eraseIdx h, ((List.set_perm_cons_eraseIdx hi b).flatMap_right f).countP_eq p,
    List.flatMap_cons, List.countP_append]
  omega

/-- All entries but those that are left match the outcomes, in the outcomes' order. -/
def Settles (R : α → β → Prop) (all left : List α) (outcomes : List β) : Prop :=
  ∃ done, List.Forall₂ R done outcomes ∧ (done ++ left).Perm all

namespace Settles

variable {all left left' : List α} {outcomes : List β}

theorem start (R : α → β → Prop) (all : List α) : Settles R all all [] := ⟨[], .nil, .refl all⟩

theorem perm (h : Settles R all left outcomes) (hp : left'.Perm left) :
    Settles R all left' outcomes := by
  obtain ⟨done, hdone, hall⟩ := h
  exact ⟨done, hdone, (hp.append_left done).trans hall⟩

/-- One of those that are left is dealt with. -/
theorem settle (h : Settles R all left outcomes) {a : α} {b : β} (hp : (a :: left').Perm left)
    (hr : R a b) : Settles R all left' (outcomes ++ [b]) := by
  obtain ⟨done, hdone, hall⟩ := h
  refine ⟨done ++ [a], List.rel_append hdone (.cons hr .nil), ?_⟩
  rw [List.append_assoc, List.singleton_append]
  exact (hp.append_left done).trans hall

theorem length_eq (h : Settles R all left outcomes) :
    outcomes.length + left.length = all.length := by
  obtain ⟨done, hdone, hall⟩ := h
  rw [← hdone.length_eq, ← hall.length_eq, List.length_append]

/-- The last outcomes are put back. -/
theorem shorten {earlier later : List β} (h : Settles R all left (earlier ++ later)) :
    ∃ left', left'.length = later.length + left.length ∧ Settles R all left' earlier := by
  obtain ⟨done, hdone, hall⟩ := h
  have hcut := List.take_append_drop earlier.length done
  refine ⟨done.drop earlier.length ++ left, ?_, done.take earlier.length,
    List.forall₂_take_append done earlier later hdone, ?_⟩
  · rw [List.length_append, (List.forall₂_drop_append done earlier later hdone).length_eq]
  · rw [← List.append_assoc, hcut]
    exact hall

/-- The entries are themselves matched with others, in some order. -/
theorem comp {R : β → γ → Prop} {S : α → β → Prop} {T : α → γ → Prop} {bs left : List β}
    {as as' : List α} {outcomes : List γ} (h : Settles R bs left outcomes)
    (hT : ∀ a b c, S a b → R b c → T a c) (hS : List.Forall₂ S as' bs) (has : as'.Perm as) :
    ∃ waiting, waiting.length = left.length ∧ Settles T as waiting outcomes := by
  obtain ⟨done, hdone, hall⟩ := h
  obtain ⟨w, hw, hperm⟩ := List.perm_comp_forall₂ hall hS.flip
  have hw : List.Forall₂ S w (done ++ left) := hw.flip
  have hcut := List.take_append_drop done.length w
  refine ⟨w.drop done.length, (List.forall₂_drop_append w done left hw).length_eq,
    w.take done.length, forall₂_comp hT (List.forall₂_take_append w done left hw) hdone, ?_⟩
  rw [hcut]
  exact hperm.trans has

end Settles

end Base
