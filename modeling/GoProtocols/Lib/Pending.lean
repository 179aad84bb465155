import Mathlib.Data.List.Basic
import Mathlib.Tactic.Ring

/-!
# What is open at the end of a log

`Pending opens closes log`: an entry of the log opened something, and no entry after it closed it.
-/

def Pending {α : Type} (opens closes : α → Prop) (log : List α) : Prop :=
  ∃ before a after, log = before ++ a :: after ∧ opens a ∧ ∀ b ∈ after, ¬ closes b

variable {α : Type} {opens closes : α → Prop}

theorem not_pending_nil : ¬ Pending opens closes [] := by
  rintro ⟨before, a, after, h, -⟩
  simp at h

theorem pending_concat {log : List α} {a : α} :
    Pending opens closes (log ++ [a]) ↔ opens a ∨ Pending opens closes log ∧ ¬ closes a := by
  constructor
  · rintro ⟨before, b, after, hlog, hopens, hopen⟩
    rcases List.eq_nil_or_concat after with rfl | ⟨after, c, rfl⟩
    · obtain ⟨-, hb⟩ := List.append_inj' hlog rfl
      exact .inl (List.singleton_inj.1 hb ▸ hopens)
    · have hlog' : log ++ [a] = (before ++ b :: after) ++ [c] := by simp [hlog]
      obtain ⟨rfl, hc⟩ := List.append_inj' hlog' rfl
      obtain rfl := List.singleton_inj.1 hc
      refine .inr ⟨⟨before, b, after, rfl, hopens, fun c hc => hopen c ?_⟩, hopen _ ?_⟩
      · simp [hc]
      · simp
  · rintro (ha | ⟨⟨before, b, after, rfl, hopens, hopen⟩, ha⟩)
    · exact ⟨log, a, [], rfl, ha, by simp⟩
    · refine ⟨before, b, after ++ [a], by simp, hopens, fun c hc => ?_⟩
      rcases List.mem_append.1 hc with hc | hc
      · exact hopen c hc
      · exact List.mem_singleton.1 hc ▸ ha
