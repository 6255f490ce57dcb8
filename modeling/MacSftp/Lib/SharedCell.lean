import MacSftp.Lib.Runs
import Mathlib.Logic.Function.Basic

namespace MacSftp.Lib

/-! Parties with a state of their own that share one cell. A call of a party is atomic. -/

structure Shared (Cell Party ι : Type) where
  cell : Cell
  parties : ι → Party

/-- How a call ended for its party and for the cell. -/
structure Called (Cell Party Answer : Type) where
  answer : Answer
  party : Party
  cell : Cell

namespace Shared

variable {Cell Party Op Answer ι : Type} [DecidableEq ι]

def machine (serve : Op → Party → Cell → Called Cell Party Answer) : Machine (Shared Cell Party ι) (ι × Op) Answer where
  step s input :=
    let called := serve input.2 (s.parties input.1) s.cell
    (⟨called.cell, Function.update s.parties input.1 called.party⟩, called.answer)

variable {serve : Op → Party → Cell → Called Cell Party Answer}

theorem next_cell (s : Shared Cell Party ι) (i : ι) (op : Op) :
    ((machine serve).next s (i, op)).cell = (serve op (s.parties i) s.cell).cell := rfl

theorem next_self (s : Shared Cell Party ι) (i : ι) (op : Op) :
    ((machine serve).next s (i, op)).parties i = (serve op (s.parties i) s.cell).party :=
  Function.update_self ..

theorem next_other (s : Shared Cell Party ι) {i j : ι} (other : j ≠ i) (op : Op) :
    ((machine serve).next s (i, op)).parties j = s.parties j :=
  Function.update_of_ne other ..

/-- A party that a call of its own brings in agreement with the cell stays so while only others call and leave the cell alone. -/
theorem agrees_since (Agrees : Party → Cell → Prop) {ok settles quiet : Shared Cell Party ι → ι × Op → Prop} (i : ι)
    (own : ∀ s j op, ok s (j, op) → settles s (j, op) →
      j = i ∧ Agrees (serve op (s.parties j) s.cell).party (serve op (s.parties j) s.cell).cell)
    (others : ∀ s j op, quiet s (j, op) → j ≠ i ∧ (serve op (s.parties j) s.cell).cell = s.cell)
    {s : Shared Cell Party ι} {inputs : List (ι × Op)} (legal : (machine serve).Admissible ok s inputs)
    (since : (machine serve).Since settles quiet s inputs) :
    Agrees (((machine serve).run s inputs).parties i) ((machine serve).run s inputs).cell := by
  induction inputs using List.reverseRecOn with
  | nil => exact absurd since id
  | append_singleton inputs input ih =>
    obtain ⟨before, last, -⟩ := ((machine serve).admissible_append s inputs [input]).mp legal
    rw [Machine.run_concat]
    obtain ⟨j, op⟩ := input
    rcases ((machine serve).since_concat s inputs (j, op)).mp since with now | ⟨earlier, still⟩
    · obtain ⟨rfl, agrees⟩ := own _ j op last now
      rw [next_cell, next_self]
      exact agrees
    · obtain ⟨other, same⟩ := others _ j op still
      rw [next_cell, next_other _ (Ne.symm other), same]
      exact ih before earlier

end Shared

end MacSftp.Lib
