import Mathlib.Data.List.Forall2

/-!
# Lists that are related element by element
-/

namespace List

variable {α β γ : Type} {R S : α → β → Prop} {as : List α} {bs : List β} {cs : List γ}

theorem Forall₂.exists_of_mem {b : β} (h : as.Forall₂ R bs) (hb : b ∈ bs) : ∃ a ∈ as, R a b := by
  induction h with
  | nil => cases hb
  | @cons a b' as bs hab _ ih =>
    rcases mem_cons.1 hb with rfl | hb
    · exact ⟨a, by simp, hab⟩
    · obtain ⟨a', ha', hrel⟩ := ih hb
      exact ⟨a', by simp [ha'], hrel⟩

theorem Forall₂.comp {Q : β → γ → Prop} {T : α → γ → Prop} (h : as.Forall₂ R bs)
    (h' : bs.Forall₂ Q cs) (ht : ∀ a b c, R a b → Q b c → T a c) : as.Forall₂ T cs := by
  induction h generalizing cs with
  | nil =>
    cases h'
    exact .nil
  | cons hab _ ih =>
    cases h' with
    | cons hbc h' => exact .cons (ht _ _ _ hab hbc) (ih h')

theorem Forall₂.iff_forall_mem {C : α → Prop} (h : as.Forall₂ R bs)
    (hc : ∀ a ∈ as, ∀ b, R a b → (S a b ↔ C a)) : as.Forall₂ S bs ↔ ∀ a ∈ as, C a := by
  induction h with
  | nil => exact ⟨nofun, fun _ => .nil⟩
  | cons hab _ ih =>
    rw [forall₂_cons, forall_mem_cons, hc _ (by simp) _ hab, ih (forall_mem_cons.1 hc).2]

end List
