import Mathlib.Data.List.Induction

namespace MacSftp.Lib

/-- A system that answers inputs. Which party moves, and what its environment reports, is part
of the input, so that an interleaving is a list of inputs. -/
structure Machine (σ ι ο : Type) where
  step : σ → ι → σ × ο

namespace Machine

variable {σ ι ο : Type} (m : Machine σ ι ο)

def next (s : σ) (i : ι) : σ := (m.step s i).1

def out (s : σ) (i : ι) : ο := (m.step s i).2

def run (s : σ) : List ι → σ
  | [] => s
  | i :: is => run (m.next s i) is

def log (s : σ) : List ι → List (ι × ο)
  | [] => []
  | i :: is => (i, m.out s i) :: log (m.next s i) is

@[simp] theorem run_nil (s : σ) : m.run s [] = s := rfl

@[simp] theorem run_cons (s : σ) (i : ι) (is : List ι) : m.run s (i :: is) = m.run (m.next s i) is := rfl

theorem run_append (s : σ) (is js : List ι) : m.run s (is ++ js) = m.run (m.run s is) js := by
  induction is generalizing s with
  | nil => rfl
  | cons i is ih => exact ih (m.next s i)

theorem log_append (s : σ) (is js : List ι) :
    m.log s (is ++ js) = m.log s is ++ m.log (m.run s is) js := by
  induction is generalizing s with
  | nil => rfl
  | cons i is ih => exact congrArg ((i, m.out s i) :: ·) (ih (m.next s i))

theorem run_concat (s : σ) (is : List ι) (i : ι) : m.run s (is ++ [i]) = m.next (m.run s is) i := by
  rw [run_append]; rfl

theorem log_concat (s : σ) (is : List ι) (i : ι) :
    m.log s (is ++ [i]) = m.log s is ++ [(i, m.out (m.run s is) i)] := by
  rw [log_append]; rfl

theorem log_inputs (s : σ) (is : List ι) : (m.log s is).map Prod.fst = is := by
  induction is generalizing s with
  | nil => rfl
  | cons i is ih => exact congrArg (i :: ·) (ih (m.next s i))

theorem run_invariant {I : σ → Prop} (keep : ∀ s i, I s → I (m.next s i))
    {s : σ} (start : I s) (is : List ι) : I (m.run s is) := by
  induction is generalizing s with
  | nil => exact start
  | cons i is ih => exact ih (keep s i start)

theorem log_invariant_append {I : List (ι × ο) → σ → Prop}
    (keep : ∀ past s i, I past s → I (past ++ [(i, m.out s i)]) (m.next s i))
    {s : σ} {is : List ι} (start : I (m.log s is) (m.run s is)) (js : List ι) :
    I (m.log s (is ++ js)) (m.run s (is ++ js)) := by
  induction js using List.reverseRecOn with
  | nil => rwa [List.append_nil]
  | append_singleton js j ih =>
    rw [← List.append_assoc, log_concat, run_concat]
    exact keep _ _ j ih

theorem log_invariant {I : List (ι × ο) → σ → Prop}
    (keep : ∀ past s i, I past s → I (past ++ [(i, m.out s i)]) (m.next s i))
    {s : σ} (start : I [] s) (is : List ι) : I (m.log s is) (m.run s is) := by
  have base : I (m.log s []) (m.run s []) := start
  exact m.log_invariant_append keep base is

def Admissible (ok : σ → ι → Prop) (s : σ) : List ι → Prop
  | [] => True
  | i :: is => ok s i ∧ Admissible ok (m.next s i) is

instance decidableAdmissible {ok : σ → ι → Prop} [∀ s i, Decidable (ok s i)] (s : σ) :
    (is : List ι) → Decidable (m.Admissible ok s is)
  | [] => isTrue trivial
  | i :: is =>
    have : Decidable (m.Admissible ok (m.next s i) is) := decidableAdmissible (m.next s i) is
    inferInstanceAs (Decidable (ok s i ∧ m.Admissible ok (m.next s i) is))

theorem admissible_invariant {ok : σ → ι → Prop} {I : σ → Prop}
    (keep : ∀ s i, ok s i → I s → I (m.next s i)) {s : σ} (start : I s)
    (is : List ι) (legal : m.Admissible ok s is) : I (m.run s is) := by
  induction is generalizing s with
  | nil => exact start
  | cons i is ih => exact ih (keep s i legal.1 start) legal.2

theorem admissible_and {P Q : σ → ι → Prop} {s : σ} {is : List ι} (hp : m.Admissible P s is) (hq : m.Admissible Q s is) :
    m.Admissible (fun s i => P s i ∧ Q s i) s is := by
  induction is generalizing s with
  | nil => trivial
  | cons i is ih => exact ⟨⟨hp.1, hq.1⟩, ih hp.2 hq.2⟩

theorem admissible_append {ok : σ → ι → Prop} (s : σ) (is js : List ι) :
    m.Admissible ok s (is ++ js) ↔ m.Admissible ok s is ∧ m.Admissible ok (m.run s is) js := by
  induction is generalizing s with
  | nil => exact (iff_of_eq (true_and _)).symm
  | cons i is ih => exact (and_congr_right fun _ => ih (m.next s i)).trans and_assoc.symm

theorem admissible_iff_split {ok : σ → ι → Prop} {s : σ} {is : List ι} :
    m.Admissible ok s is ↔ ∀ before i after, is = before ++ i :: after → ok (m.run s before) i := by
  constructor
  · rintro legal before i after rfl
    exact ((m.admissible_append s before (i :: after)).mp legal).2.1
  · intro every
    induction is generalizing s with
    | nil => trivial
    | cons i is ih =>
      refine ⟨every [] i is rfl, ih ?_⟩
      rintro before j after rfl
      exact every (i :: before) j after rfl

theorem admissible_log_invariant {ok : σ → ι → Prop} {I : List (ι × ο) → σ → Prop}
    (keep : ∀ past s i, ok s i → I past s → I (past ++ [(i, m.out s i)]) (m.next s i)) {s : σ} (start : I [] s)
    (is : List ι) (legal : m.Admissible ok s is) : I (m.log s is) (m.run s is) := by
  induction is using List.reverseRecOn with
  | nil => exact start
  | append_singleton is i ih =>
    have split := (m.admissible_append s is [i]).mp legal
    rw [log_concat, run_concat]
    exact keep _ _ i split.2.1 (ih split.1)

def collect {α : Type} (f : σ → ι → Option α) (s : σ) : List ι → List α
  | [] => []
  | i :: is => (f s i).toList ++ collect f (m.next s i) is

theorem collect_concat {α : Type} (f : σ → ι → Option α) (s : σ) (is : List ι) (i : ι) :
    m.collect f s (is ++ [i]) = m.collect f s is ++ (f (m.run s is) i).toList := by
  induction is generalizing s with
  | nil => simp [collect]
  | cons j is ih => simp only [List.cons_append, collect, ih, run_cons, List.append_assoc]

theorem collect_forall {α : Type} {f : σ → ι → Option α} {I : σ → Prop} {P : α → Prop}
    (keep : ∀ s i, I s → I (m.next s i)) (each : ∀ s i a, I s → f s i = some a → P a) {s : σ} (start : I s)
    (is : List ι) : ∀ a ∈ m.collect f s is, P a := by
  induction is generalizing s with
  | nil => exact fun a ha => absurd ha List.not_mem_nil
  | cons i is ih =>
    intro a ha
    rcases List.mem_append.mp ha with first | later
    · exact each s i a start (Option.mem_toList.mp first)
    · exact ih (keep s i start) a later

/-- Whatever is numbered by a counter that each handing out moves on is handed out once. -/
theorem collect_numbered {α : Type} {f : σ → ι → Option α} {I : σ → Prop} {number : α → Nat} (counter : σ → Nat)
    (keep : ∀ s i, I s → I (m.next s i)) (grows : ∀ s i, I s → counter s ≤ counter (m.next s i))
    (takes : ∀ s i a, I s → f s i = some a → number a = counter s ∧ counter s < counter (m.next s i)) {s : σ}
    (start : I s) (is : List ι) :
    (m.collect f s is).Pairwise (fun a b => number a < number b) ∧ ∀ a ∈ m.collect f s is, counter s ≤ number a := by
  induction is generalizing s with
  | nil => exact ⟨List.Pairwise.nil, fun a ha => absurd ha List.not_mem_nil⟩
  | cons i is ih =>
    obtain ⟨sorted, above⟩ := ih (keep s i start)
    cases taken : f s i with
    | none =>
      have rest : m.collect f s (i :: is) = m.collect f (m.next s i) is := by simp [collect, taken]
      rw [rest]
      exact ⟨sorted, fun a ha => Nat.le_trans (grows s i start) (above a ha)⟩
    | some a =>
      have rest : m.collect f s (i :: is) = a :: m.collect f (m.next s i) is := by simp [collect, taken]
      obtain ⟨numbered, moved⟩ := takes s i a start taken
      rw [rest]
      refine ⟨List.pairwise_cons.mpr ⟨fun b hb => ?_, sorted⟩, ?_⟩
      · have bound := above b hb
        omega
      · intro b hb
        rcases List.mem_cons.mp hb with rfl | later
        · omega
        · have bound := above b later
          omega

/-- Some step of the run was a `P` step, and every step after it a `Q` step. -/
def Since (P Q : σ → ι → Prop) (s : σ) : List ι → Prop
  | [] => False
  | i :: is => P s i ∧ m.Admissible Q (m.next s i) is ∨ Since P Q (m.next s i) is

instance decidableSince {P Q : σ → ι → Prop} [∀ s i, Decidable (P s i)] [∀ s i, Decidable (Q s i)] (s : σ) :
    (is : List ι) → Decidable (m.Since P Q s is)
  | [] => isFalse id
  | i :: is =>
    have : Decidable (m.Since P Q (m.next s i) is) := decidableSince (m.next s i) is
    inferInstanceAs (Decidable (P s i ∧ m.Admissible Q (m.next s i) is ∨ m.Since P Q (m.next s i) is))

theorem since_concat {P Q : σ → ι → Prop} (s : σ) (is : List ι) (i : ι) :
    m.Since P Q s (is ++ [i]) ↔ P (m.run s is) i ∨ m.Since P Q s is ∧ Q (m.run s is) i := by
  induction is generalizing s with
  | nil => simp [Since, Admissible]
  | cons j is ih =>
    have last : m.Admissible Q (m.next s j) (is ++ [i]) ↔
        m.Admissible Q (m.next s j) is ∧ Q (m.run (m.next s j) is) i := by
      rw [admissible_append]
      exact and_congr_right fun _ => iff_of_eq (and_true _)
    simp only [List.cons_append, Since, ih, last, run_cons]
    tauto

/-- What the `P` steps bring about and the `Q` steps keep holds since the last `P` step. -/
theorem since_invariant {P Q : σ → ι → Prop} {I : σ → Prop} (brings : ∀ s i, P s i → I (m.next s i))
    (keeps : ∀ s i, Q s i → I s → I (m.next s i)) {s : σ} {is : List ι} (since : m.Since P Q s is) : I (m.run s is) := by
  induction is using List.reverseRecOn with
  | nil => exact absurd since id
  | append_singleton is i ih =>
    rw [run_concat]
    rcases (m.since_concat s is i).mp since with now | ⟨earlier, still⟩
    · exact brings _ i now
    · exact keeps _ i still (ih earlier)

theorem admissible_congr {ok P Q : σ → ι → Prop} {I : σ → Prop} (keep : ∀ s i, ok s i → I s → I (m.next s i))
    (agree : ∀ s i, ok s i → I s → (P s i ↔ Q s i)) {s : σ} (start : I s) (is : List ι)
    (legal : m.Admissible ok s is) : m.Admissible P s is ↔ m.Admissible Q s is := by
  induction is generalizing s with
  | nil => exact Iff.rfl
  | cons i is ih => exact and_congr (agree s i legal.1 start) (ih (keep s i legal.1 start) legal.2)

theorem admissible_mono {P Q : σ → ι → Prop} (weaker : ∀ s i, P s i → Q s i) {s : σ} {is : List ι}
    (h : m.Admissible P s is) : m.Admissible Q s is := by
  induction is generalizing s with
  | nil => trivial
  | cons i is ih => exact ⟨weaker s i h.1, ih h.2⟩

theorem admissible_mem (s : σ) (is : List ι) : m.Admissible (fun _ i => i ∈ is) s is := by
  induction is generalizing s with
  | nil => trivial
  | cons i is ih => exact ⟨List.mem_cons_self, m.admissible_mono (fun _ _ => List.mem_cons_of_mem i) (ih (m.next s i))⟩

/-- When a legal step keeps an invariant exactly if it is admissible, so does a whole legal run. -/
theorem legal_invariant_iff_admissible {legal ok : σ → ι → Prop} {I V : σ → Prop}
    (keep : ∀ s i, legal s i → V s → V (m.next s i))
    (exact_ : ∀ s i, legal s i → V s → I s → (I (m.next s i) ↔ ok s i)) {s : σ} {is : List ι}
    (hl : m.Admissible legal s is) (valid : V s) (start : I s) :
    (∀ k, I (m.run s (is.take k))) ↔ m.Admissible ok s is := by
  induction is generalizing s with
  | nil => simpa [Admissible] using start
  | cons i is ih =>
    obtain ⟨legalFirst, legalRest⟩ := hl
    have exactFirst := exact_ s i legalFirst valid start
    have validFirst := keep s i legalFirst valid
    constructor
    · intro h
      have first : I (m.next s i) := by simpa using h 1
      refine ⟨exactFirst.mp first, (ih legalRest validFirst first).mp ?_⟩
      intro k
      simpa using h (k + 1)
    · rintro ⟨hok, rest⟩ k
      have first : I (m.next s i) := exactFirst.mpr hok
      cases k with
      | zero => simpa using start
      | succ k => simpa using (ih legalRest validFirst first).mpr rest k

theorem invariant_iff_admissible {ok : σ → ι → Prop} {I V : σ → Prop} {s : σ} {is : List ι}
    (keep : ∀ s, ∀ i ∈ is, V s → V (m.next s i))
    (exact_ : ∀ s, ∀ i ∈ is, V s → I s → (I (m.next s i) ↔ ok s i)) (valid : V s) (start : I s) :
    (∀ k, I (m.run s (is.take k))) ↔ m.Admissible ok s is :=
  m.legal_invariant_iff_admissible (fun s i => keep s i) (fun s i => exact_ s i) (m.admissible_mem s is) valid start

end Machine

section Histories

variable {ε : Type} {ok : List ε → ε → Prop}

/-- Each event may follow what came before it. -/
def Proper (ok : List ε → ε → Prop) (past : List ε) : List ε → Prop
  | [] => True
  | e :: es => ok past e ∧ Proper ok (past ++ [e]) es

theorem proper_append (past es fs : List ε) : Proper ok past (es ++ fs) ↔ Proper ok past es ∧ Proper ok (past ++ es) fs := by
  induction es generalizing past with
  | nil => simp [Proper]
  | cons e es ih => simp [Proper, ih, and_assoc]

theorem history_induction_from {I : List ε → Prop} (keep : ∀ past e, ok past e → I past → I (past ++ [e])) {past : List ε}
    (start : I past) (events : List ε) (proper : Proper ok past events) : I (past ++ events) := by
  induction events using List.reverseRecOn with
  | nil => rwa [List.append_nil]
  | append_singleton events e ih =>
    obtain ⟨before, last, -⟩ := (proper_append past events [e]).mp proper
    rw [← List.append_assoc]
    exact keep _ e last (ih before)

theorem history_induction {I : List ε → Prop} (start : I []) (keep : ∀ past e, ok past e → I past → I (past ++ [e]))
    (history : List ε) (proper : Proper ok [] history) : I history :=
  history_induction_from keep start history proper

end Histories

end MacSftp.Lib
