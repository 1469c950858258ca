import Mathlib.Data.List.Basic

/-!
# Persistence

A fact that a step of a history establishes holds at its end if every later step preserves it. Histories
grow at their end, so the last step either establishes the fact or preserves it (`persists_concat_iff`).
-/

namespace HttpSession

variable {α : Type} {makes preserves : α → Prop} {history : List α} {step : α}

/-- Some step establishes a fact, and every later one preserves it. -/
def Persists (makes preserves : α → Prop) (history : List α) : Prop :=
  ∃ earlier maker later, history = earlier ++ maker :: later ∧ makes maker ∧ ∀ step ∈ later, preserves step

@[simp] theorem not_persists_nil : ¬ Persists makes preserves [] := by
  rintro ⟨earlier, maker, later, heq, -⟩
  simp at heq

theorem persists_concat_iff :
    Persists makes preserves (history ++ [step]) ↔
      makes step ∨ (Persists makes preserves history ∧ preserves step) := by
  constructor
  · rintro ⟨earlier, maker, later, heq, hmakes, hpreserves⟩
    -- either the maker is the last step, or the last step is one of those since
    rcases List.eq_nil_or_concat later with rfl | ⟨later, last, rfl⟩
    · obtain ⟨-, rfl⟩ := List.append_singleton_inj.mp heq
      exact .inl hmakes
    · rw [List.concat_eq_append] at heq hpreserves
      rw [← List.cons_append, ← List.append_assoc] at heq
      obtain ⟨rfl, rfl⟩ := List.append_singleton_inj.mp heq
      refine .inr ⟨⟨earlier, maker, later, rfl, hmakes, fun s hs => ?_⟩, ?_⟩
      · exact hpreserves s (List.mem_append_left _ hs)
      · exact hpreserves step (by simp)
  · rintro (hmakes | ⟨⟨earlier, maker, later, rfl, hmakes, hpreserves⟩, hstep⟩)
    · exact ⟨history, step, [], rfl, hmakes, by simp⟩
    · refine ⟨earlier, maker, later ++ [step], by simp, hmakes, ?_⟩
      intro s hs
      rcases List.mem_append.mp hs with hs | hs
      · exact hpreserves s hs
      · obtain rfl := List.mem_singleton.mp hs
        exact hstep

end HttpSession
