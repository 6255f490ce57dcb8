import Mathlib.Data.List.Induction

namespace MacSftp.Lib

variable {ω α : Type} (write : ω → Option (Option α))

/-- The value of a cell once the commands queued for it are done: a command may set the cell, clear it or leave it. -/
def settled (cell : Option α) (queue : List ω) : Option α := queue.foldl (fun cell command => (write command).getD cell) cell

variable {write} {cell : Option α} {queue : List ω}

theorem settled_cons (command : ω) : settled write cell (command :: queue) = settled write ((write command).getD cell) queue := rfl

theorem settled_concat (command : ω) :
    settled write cell (queue ++ [command]) = (write command).getD (settled write cell queue) := by
  rw [settled, List.foldl_append]
  rfl

/-- A value that no queued command sets is there already, and stays. -/
theorem settled_eq_some {a : α} (ends : settled write cell queue = some a)
    (unset : ∀ command ∈ queue, write command ≠ some (some a)) :
    cell = some a ∧ ∀ command ∈ queue, write command = none := by
  induction queue using List.reverseRecOn with
  | nil => exact ⟨ends, fun command never => absurd never List.not_mem_nil⟩
  | append_singleton queue command ih =>
    rw [settled_concat] at ends
    have last : write command = none := by
      cases writes : write command with
      | none => rfl
      | some value =>
        rw [writes] at ends
        exact absurd (writes.trans (congrArg some ends)) (unset command (by simp))
    rw [last] at ends
    obtain ⟨was, untouched⟩ := ih ends fun other member => unset other (List.mem_append_left _ member)
    refine ⟨was, fun other member => ?_⟩
    rcases List.mem_append.mp member with earlier | latest
    · exact untouched other earlier
    · rw [List.mem_singleton.mp latest]
      exact last

end MacSftp.Lib
