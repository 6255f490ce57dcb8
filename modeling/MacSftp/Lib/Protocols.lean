import MacSftp.Lib.Programs

namespace MacSftp.Lib

/-- What may be asked for in each phase, and the phase that an answer leads to. -/
structure Protocol (σ Op : Type) (Ans : Op → Type) where
  may : σ → Op → Prop
  after : σ → (op : Op) → Ans op → σ

/-- The operation is nothing to the protocol in this phase. -/
def Protocol.Idle {σ Op : Type} {Ans : Op → Type} (k : Protocol σ Op Ans) (phase : σ) (op : Op) : Prop :=
  k.may phase op ∧ ∀ answer, k.after phase op answer = phase

namespace Program

variable {σ Op : Type} {Ans : Op → Type} {ε α β : Type} {k : Protocol σ Op Ans}

/-- Whatever the answers, the program keeps to the protocol, and ends in a phase with a result that are so. -/
def Keeps (k : Protocol σ Op Ans) (Q : σ → Except ε α → Prop) : σ → Program Op Ans ε α → Prop
  | phase, done result => Q phase result
  | phase, ask op next => k.may phase op ∧ ∀ answer, Keeps k Q (k.after phase op answer) (next answer)

variable {Q Q' : σ → Except ε α → Prop} {phase : σ}

theorem Keeps.mono {p : Program Op Ans ε α} (h : Keeps k Q phase p) (weaker : ∀ phase result, Q phase result → Q' phase result) :
    Keeps k Q' phase p := by
  induction p generalizing phase with
  | done result => exact weaker phase result h
  | ask op next ih => exact ⟨h.1, fun answer => ih answer (h.2 answer)⟩

theorem keeps_bind {p : Program Op Ans ε β} {f : β → Program Op Ans ε α} {R : σ → Except ε β → Prop} (first : Keeps k R phase p)
    (rest : ∀ phase b, R phase (.ok b) → Keeps k Q phase (f b)) (failed : ∀ phase e, R phase (.error e) → Q phase (.error e)) :
    Keeps k Q phase (p >>= f) := by
  induction p generalizing phase with
  | done result =>
    cases result with
    | ok b => exact rest phase b first
    | error e => exact failed phase e first
  | ask op next ih => exact ⟨first.1, fun answer => ih answer (first.2 answer)⟩

theorem keeps_ask {op : Op} {f : Ans op → Program Op Ans ε α} (may : k.may phase op)
    (rest : ∀ answer, Keeps k Q (k.after phase op answer) (f answer)) :
    Keeps k Q phase ((perform op : Program Op Ans ε (Ans op)) >>= f) := ⟨may, rest⟩

/-- A program of operations that are nothing to the protocol stays in its phase. -/
theorem Uses.keeps {K : Op → Prop} {p : Program Op Ans ε α} (uses : Uses K p) (idle : ∀ op, K op → k.Idle phase op) :
    Keeps k (fun after _ => after = phase) phase p := by
  induction p with
  | done result => rfl
  | ask op next ih =>
    obtain ⟨may, still⟩ := idle op uses.1
    refine ⟨may, fun answer => ?_⟩
    rw [still answer]
    exact ih answer (uses.2 answer)

end Program

end MacSftp.Lib
