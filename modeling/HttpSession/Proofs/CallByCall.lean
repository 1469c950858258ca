import Mathlib.Data.List.Basic

/-!
# Call by call

A state machine that is driven by calls has a state before each of them (`stateBefore`), in which the call
may show something (`shownAt?`). Calls are counted from zero.
-/

namespace HttpSession

variable {σ α β : Type} {step : σ → α → σ} {shown : σ → α → Option β} {s : σ} {calls : List α} {j : Nat}
  {call : α}

def stateBefore (step : σ → α → σ) (s : σ) (calls : List α) (j : Nat) : σ := (calls.take j).foldl step s

def shownAt? (step : σ → α → σ) (shown : σ → α → Option β) (s : σ) (calls : List α) (j : Nat) : Option β :=
  calls[j]?.bind (shown (stateBefore step s calls j))

theorem stateBefore_succ (h : calls[j]? = some call) :
    stateBefore step s calls (j + 1) = step (stateBefore step s calls j) call := by
  simp [stateBefore, List.take_add_one, h]

theorem stateBefore_succ_of_none (h : calls[j]? = none) :
    stateBefore step s calls (j + 1) = stateBefore step s calls j := by
  simp [stateBefore, List.take_add_one, h]

theorem shownAt?_of_some (h : calls[j]? = some call) :
    shownAt? step shown s calls j = shown (stateBefore step s calls j) call := by
  rw [shownAt?, h, Option.bind_some]

theorem shownAt?_of_none (h : calls[j]? = none) : shownAt? step shown s calls j = none := by
  rw [shownAt?, h, Option.bind_none]

end HttpSession
