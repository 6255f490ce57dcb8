import MacSftp.Runtime.Planning

namespace MacSftp.UploadPlanning

/-- The sum as it is reported: nothing once it does not fit into 64 bits. -/
def exactTotal (sizes : List Nat) : Option Nat := if sizes.sum < 2 ^ 64 then some sizes.sum else none

theorem exactTotal_concat (sizes : List Nat) (size : Nat) :
    exactTotal (sizes ++ [size]) = Planner.addBytes (exactTotal sizes) (some size) := by
  have sum : (sizes ++ [size]).sum = sizes.sum + size := by rw [List.sum_append, List.sum_singleton]
  unfold exactTotal
  rw [sum]
  by_cases fits : sizes.sum < 2 ^ 64
  · rw [if_pos fits]
    rfl
  · rw [if_neg fits, if_neg (by omega)]
    rfl

theorem exactTotal_perm {a b : List Nat} (same : a.Perm b) : exactTotal a = exactTotal b := by
  rw [exactTotal, exactTotal, same.sum_nat]

def progressEvents (batches : List TransferPlanProgress) : List TransferEvent := batches.map .planProgress

/-- The batches that have been published for jobs of the given sizes: each carries the jobs since the last one, the first
is a single job, and each counts what has been published up to and with it. -/
structure Batched (planId : TransferPlanId) (sizes : List Nat) (jobs : List TransferJob)
    (batches : List TransferPlanProgress) : Prop where
  jobs : batches.flatMap TransferPlanProgress.childJobs <+: jobs
  own : ∀ batch ∈ batches, batch.planId = planId
  some_ : ∀ batch ∈ batches, batch.childJobs ≠ []
  first : ∀ batch ∈ batches.head?, batch.childJobs.length = 1
  bounded : ∀ batch ∈ batches, batch.childJobs.length ≤ planProgressBatchSize
  counts : ∀ before batch after, batches = before ++ batch :: after →
    batch.plannedCount = ((before ++ [batch]).flatMap TransferPlanProgress.childJobs).length
  totals : ∀ batch ∈ batches, batch.totalBytes = exactTotal (sizes.take batch.plannedCount)

theorem batched_nil (planId : TransferPlanId) (sizes : List Nat) (jobs : List TransferJob) : Batched planId sizes jobs [] where
  jobs := List.nil_prefix
  own := fun _ mem => absurd mem List.not_mem_nil
  some_ := fun _ mem => absurd mem List.not_mem_nil
  first := fun _ mem => absurd mem (by simp)
  bounded := fun _ mem => absurd mem List.not_mem_nil
  counts := fun before batch after split => absurd split.symm (by simp)
  totals := fun _ mem => absurd mem List.not_mem_nil

variable {planId : TransferPlanId} {sizes : List Nat} {jobs : List TransferJob} {batches : List TransferPlanProgress}

theorem Batched.count_le (batched : Batched planId sizes jobs batches) {batch : TransferPlanProgress} (mem : batch ∈ batches) :
    batch.plannedCount ≤ jobs.length := by
  obtain ⟨before, after, rfl⟩ := List.append_of_mem mem
  rw [batched.counts before batch after rfl]
  have published := batched.jobs.length_le
  simp only [List.flatMap_append, List.flatMap_cons, List.length_append, List.flatMap_nil, List.append_nil] at published ⊢
  omega

/-- Another job that is not published yet. -/
theorem Batched.grow (batched : Batched planId sizes jobs batches) (sized : sizes.length = jobs.length) (size : Nat)
    (job : TransferJob) :
    Batched planId (sizes ++ [size]) (jobs ++ [job]) batches where
  jobs := batched.jobs.trans (List.prefix_append jobs [job])
  own := batched.own
  some_ := batched.some_
  first := batched.first
  bounded := batched.bounded
  counts := batched.counts
  totals := by
    intro batch mem
    have short : batch.plannedCount ≤ sizes.length := sized ▸ batched.count_le mem
    rw [List.take_append_of_le_length short]
    exact batched.totals batch mem

/-- All jobs that are left are published. -/
theorem Batched.publish (batched : Batched planId sizes jobs batches) (sized : sizes.length = jobs.length)
    {pending : List TransferJob}
    (rest : batches.flatMap TransferPlanProgress.childJobs ++ pending = jobs) (some_ : pending ≠ [])
    (bounded : pending.length ≤ planProgressBatchSize)
    (first : batches = [] → pending.length = 1) :
    Batched planId sizes jobs (batches ++ [⟨planId, pending, jobs.length, exactTotal sizes⟩]) := by
  have flat : (batches ++ [(⟨planId, pending, jobs.length, exactTotal sizes⟩ : TransferPlanProgress)]).flatMap
      TransferPlanProgress.childJobs = jobs := by
    rw [List.flatMap_append, List.flatMap_singleton, rest]
  constructor
  · rw [flat]
  · intro batch mem
    rcases List.mem_append.mp mem with before | last
    · exact batched.own batch before
    · rw [List.mem_singleton.mp last]
  · intro batch mem
    rcases List.mem_append.mp mem with before | last
    · exact batched.some_ batch before
    · rwa [List.mem_singleton.mp last]
  · intro batch mem
    cases batches with
    | nil =>
      obtain rfl : _ = batch := Option.some.inj mem
      exact first rfl
    | cons head rest => exact batched.first batch mem
  · intro batch mem
    rcases List.mem_append.mp mem with before | last
    · exact batched.bounded batch before
    · rwa [List.mem_singleton.mp last]
  · intro before batch after split
    rcases List.eq_nil_or_concat after with rfl | ⟨after, last, rfl⟩
    · obtain ⟨rfl, same⟩ := List.append_inj' split rfl
      obtain rfl := (List.cons.inj same).1
      rw [flat]
    · rw [List.concat_eq_append, ← List.cons_append, ← List.append_assoc] at split
      exact batched.counts before batch after (List.append_inj' split rfl).1
  · intro batch mem
    rcases List.mem_append.mp mem with before | last
    · exact batched.totals batch before
    · rw [List.mem_singleton.mp last, ← sized, List.take_length]

/-- How the planner stands with the batches it has published. -/
structure Pending (planId : TransferPlanId) (sizes : List Nat) (planner : Planner) (batches : List TransferPlanProgress) :
    Prop where
  batched : Batched planId sizes planner.childJobs batches
  sized : sizes.length = planner.childJobs.length
  rest : batches.flatMap TransferPlanProgress.childJobs ++ planner.pendingProgress = planner.childJobs
  short : planner.pendingProgress.length < planProgressBatchSize
  started : planner.childJobs ≠ [] → batches ≠ []
  count : planner.plannedCount = planner.childJobs.length
  total : planner.totalBytes = exactTotal sizes

theorem pending_start (planId : TransferPlanId) : Pending planId [] {} [] where
  batched := batched_nil planId [] []
  sized := rfl
  rest := rfl
  short := by decide
  started := fun nonempty => absurd rfl nonempty
  count := rfl
  total := by decide

theorem Pending.flush {planner : Planner} (pending : Pending planId sizes planner batches) :
    ∃ more, (planner.flushProgress planId).2 = progressEvents more ∧
      (planner.flushProgress planId).1.childJobs = planner.childJobs ∧
      Batched planId sizes planner.childJobs (batches ++ more) ∧
      (batches ++ more).flatMap TransferPlanProgress.childJobs = planner.childJobs := by
  unfold Planner.flushProgress
  split
  · next empty =>
    refine ⟨[], rfl, rfl, ?_, ?_⟩
    · rw [List.append_nil]
      exact pending.batched
    · rw [List.append_nil, ← pending.rest, empty, List.append_nil]
  · next some_ =>
    have started : batches ≠ [] := by
      apply pending.started
      rw [← pending.rest]
      exact List.append_ne_nil_of_right_ne_nil _ some_
    refine ⟨[⟨planId, planner.pendingProgress, planner.childJobs.length, exactTotal sizes⟩], ?_, rfl, ?_, ?_⟩
    · rw [pending.count, pending.total]
      rfl
    · exact pending.batched.publish pending.sized pending.rest some_ (Nat.le_of_lt pending.short) fun none => absurd none started
    · rw [List.flatMap_append, List.flatMap_singleton]
      exact pending.rest

theorem Pending.emit {planner : Planner} (pending : Pending planId sizes planner batches) (job : TransferJob) (size : Nat) :
    ∃ more, (planner.emitChild planId job (some size)).2 = progressEvents more ∧
      (planner.emitChild planId job (some size)).1.childJobs = planner.childJobs ++ [job] ∧
      Pending planId (sizes ++ [size]) (planner.emitChild planId job (some size)).1 (batches ++ more) := by
  have grown := pending.batched.grow pending.sized size job
  have sized : (sizes ++ [size]).length = (planner.childJobs ++ [job]).length := by
    rw [List.length_append, List.length_append, pending.sized]
    rfl
  have rest : batches.flatMap TransferPlanProgress.childJobs ++ (planner.pendingProgress ++ [job]) =
      planner.childJobs ++ [job] := by
    rw [← List.append_assoc, pending.rest]
  have count : planner.plannedCount + 1 = (planner.childJobs ++ [job]).length := by
    rw [pending.count, List.length_append]
    rfl
  have total : Planner.addBytes planner.totalBytes (some size) = exactTotal (sizes ++ [size]) := by
    rw [exactTotal_concat, pending.total]
  have some_ : planner.pendingProgress ++ [job] ≠ [] := List.append_ne_nil_of_right_ne_nil _ (List.cons_ne_nil _ _)
  have short := pending.short
  unfold Planner.emitChild Planner.queueProgress
  dsimp only
  split
  · next full =>
    unfold Planner.flushProgress
    rw [if_neg some_]
    have first : batches = [] → (planner.pendingProgress ++ [job]).length = 1 := by
      intro none
      have nothing : planner.childJobs = [] := by
        by_contra jobs
        exact pending.started jobs none
      have empty : planner.pendingProgress = [] := by
        have all := pending.rest
        rw [nothing] at all
        exact (List.append_eq_nil_iff.mp all).2
      rw [empty]
      rfl
    have bounded : (planner.pendingProgress ++ [job]).length ≤ planProgressBatchSize := by
      rw [List.length_append, List.length_singleton]
      omega
    refine ⟨[⟨planId, planner.pendingProgress ++ [job], (planner.childJobs ++ [job]).length, exactTotal (sizes ++ [size])⟩],
      ?_, rfl, ?_⟩
    · rw [count, total]
      rfl
    · constructor
      · exact grown.publish sized rest some_ bounded first
      · exact sized
      · rw [List.flatMap_append, List.flatMap_singleton, rest]
        exact List.append_nil _
      · exact Nat.zero_lt_succ _
      · exact fun _ => List.append_ne_nil_of_right_ne_nil _ (List.cons_ne_nil _ _)
      · exact count
      · exact total
  · next waits =>
    obtain ⟨notFirst, notFull⟩ := not_or.mp waits
    refine ⟨[], rfl, rfl, ?_⟩
    rw [List.append_nil]
    refine ⟨grown, sized, rest, Nat.lt_of_not_ge notFull, fun _ => pending.started ?_, count, total⟩
    intro nothing
    apply notFirst
    rw [pending.count, nothing]
    rfl

end MacSftp.UploadPlanning
