import MacSftp.App.LiveEndings

namespace MacSftp

open Lib

def TransferState.isDone : TransferState → Bool
  | .completed | .skipped => true
  | _ => false

theorem TransferState.isDone_terminal {state : TransferState} (done : state.isDone = true) : state.isTerminal = true := by
  cases state <;> simp_all [isDone, isTerminal]

theorem TransferState.isFailed_terminal {state : TransferState} (failed : state.isFailed = true) : state.isTerminal = true := by
  cases state <;> simp_all [isFailed, isTerminal]

theorem TransferState.not_done_failed {state : TransferState} (done : state.isDone = true) : state.isFailed = false := by
  cases state <;> simp_all [isFailed, isDone]

namespace TransferPlan

variable (plan : TransferPlan) (look : TransferId → Option TransferState)

def Succeeded : Prop := plan.childJobs ≠ [] ∧ ∀ id ∈ plan.childJobs, (look id).any TransferState.isDone = true

def RootFailed : Prop := (look plan.rootJobId).any TransferState.isFailed = true

/-- A plan that success of its last child leaves as it should be. -/
def Settled : Prop :=
  plan.state = .planning ∨ plan.state = .completed ∨ plan.state = .cancelled ∧ ¬ plan.RootFailed look

def Healed : Prop := plan.Succeeded look → plan.Settled look

instance : Decidable (plan.Succeeded look) := inferInstanceAs (Decidable (_ ∧ _))

instance : Decidable (plan.RootFailed look) := inferInstanceAs (Decidable (_ = _))

instance : Decidable (plan.Settled look) := inferInstanceAs (Decidable (_ ∨ _))

/-- What a row's new state must be for the plan to stay healed. -/
def Heals (id : TransferId) (state : TransferState) : Prop :=
  (state.isDone = true → id ∈ plan.childJobs → (∀ other ∈ plan.childJobs, other ≠ id →
    (look other).any TransferState.isDone = true) →
    plan.Settled look) ∧
  (state.isFailed = true → id = plan.rootJobId → plan.state = .cancelled → ¬ plan.Succeeded look)

instance (id : TransferId) (state : TransferState) : Decidable (plan.Heals look id state) :=
  inferInstanceAs (Decidable (_ ∧ _))

end TransferPlan

section Looks

variable {plan : TransferPlan} {look look' : TransferId → Option TransferState} {id : TransferId} {state : TransferState}

theorem succeeded_congr (children : ∀ child ∈ plan.childJobs, look' child = look child) :
    plan.Succeeded look' ↔ plan.Succeeded look := by
  unfold TransferPlan.Succeeded
  apply and_congr_right
  intro _
  apply forall₂_congr
  intro child hc
  rw [children child hc]

theorem settled_congr (root : look' plan.rootJobId = look plan.rootJobId) : plan.Settled look' ↔ plan.Settled look := by
  unfold TransferPlan.Settled TransferPlan.RootFailed
  rw [root]

theorem healed_own (same : ∀ id, plan.Owns id → look' id = look id) (healed : plan.Healed look) : plan.Healed look' := by
  intro succeeded
  apply (settled_congr (same _ (Or.inl rfl))).mpr
  apply healed
  exact (succeeded_congr fun child hc => same child (Or.inr hc)).mp succeeded

theorem healed_write (apart : plan.rootJobId ∉ plan.childJobs) (healed : plan.Healed look) :
    plan.Healed (Function.update look id (some state)) ↔ plan.Heals look id state := by
  by_cases root : id = plan.rootJobId
  · have notChild : id ∉ plan.childJobs := root ▸ apart
    have children : ∀ child ∈ plan.childJobs, Function.update look id (some state) child = look child := by
      intro child hc
      have ne : child ≠ id := fun same => notChild (same ▸ hc)
      exact Function.update_of_ne ne _ _
    have here : Function.update look id (some state) plan.rootJobId = some state := by
      rw [← root, Function.update_self]
    unfold TransferPlan.Healed TransferPlan.Heals
    rw [succeeded_congr children]
    unfold TransferPlan.Settled TransferPlan.RootFailed
    rw [here, Option.any_some]
    constructor
    · intro after
      refine ⟨fun _ child => absurd child notChild, fun failed _ cancelled succeeded => ?_⟩
      rcases after succeeded with planning | completed | ⟨_, spared⟩
      · rw [planning] at cancelled
        cases cancelled
      · rw [completed] at cancelled
        cases cancelled
      · exact spared failed
    · intro heals succeeded
      rcases healed succeeded with planning | completed | ⟨cancelled, _⟩
      · exact Or.inl planning
      · exact Or.inr (Or.inl completed)
      · exact Or.inr (Or.inr ⟨cancelled, fun failed => heals.2 failed root cancelled succeeded⟩)
  · have same : Function.update look id (some state) plan.rootJobId = look plan.rootJobId :=
      Function.update_of_ne (fun is => root is.symm) _ _
    unfold TransferPlan.Healed TransferPlan.Heals
    rw [settled_congr same]
    by_cases child : id ∈ plan.childJobs
    · have succeeded : plan.Succeeded (Function.update look id (some state)) ↔ state.isDone = true ∧
          ∀ other ∈ plan.childJobs, other ≠ id → (look other).any TransferState.isDone = true := by
        constructor
        · rintro ⟨_, all⟩
          refine ⟨by simpa using all id child, fun other ho ne => ?_⟩
          have there := all other ho
          rwa [Function.update_of_ne ne] at there
        · rintro ⟨done, others⟩
          refine ⟨List.ne_nil_of_mem child, fun other ho => ?_⟩
          by_cases is : other = id
          · rw [is, Function.update_self]
            exact done
          · rw [Function.update_of_ne is]
            exact others other ho is
      rw [succeeded]
      constructor
      · exact fun after => ⟨fun done _ others => after ⟨done, others⟩, fun _ is => absurd is root⟩
      · exact fun heals both => heals.1 both.1 child both.2
    · have others : ∀ other ∈ plan.childJobs, Function.update look id (some state) other = look other := by
        intro other ho
        have ne : other ≠ id := fun is => child (is ▸ ho)
        exact Function.update_of_ne ne _ _
      rw [succeeded_congr others]
      exact iff_of_true healed ⟨fun _ is => absurd is child, fun _ is => absurd is root⟩

end Looks

end MacSftp
