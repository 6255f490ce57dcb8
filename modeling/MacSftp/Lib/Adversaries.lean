import MacSftp.Lib.Programs

namespace MacSftp.Lib.Program

variable {Op : Type} {Ans : Op → Type} {W ε α β : Type} {K : Op → Prop} {Q Q' : Except ε α → Prop}

/-- Whatever the answers, the operations are of a kind, and the end is as it should be. -/
def Always (K : Op → Prop) (Q : Except ε α → Prop) : Program Op Ans ε α → Prop
  | done result => Q result
  | ask op next => K op ∧ ∀ answer, Always K Q (next answer)

/-- What is asked for of the values only. -/
def onOk (Q : α → Prop) : Except ε α → Prop
  | .ok a => Q a
  | .error _ => True

theorem always_pure {a : α} (h : Q (.ok a)) : Always K Q (pure a : Program Op Ans ε α) := h

theorem always_throw {e : ε} (h : Q (.error e)) : Always K Q (throw e : Program Op Ans ε α) := h

theorem always_perform {op : Op} {Q : Except ε (Ans op) → Prop} (kind : K op) (h : ∀ answer, Q (.ok answer)) :
    Always K Q (perform op : Program Op Ans ε (Ans op)) :=
  ⟨kind, h⟩

theorem Always.bind {p : Program Op Ans ε β} {f : β → Program Op Ans ε α} {R : Except ε β → Prop} (first : Always K R p)
    (failed : ∀ e, R (.error e) → Q (.error e)) (rest : ∀ b, R (.ok b) → Always K Q (f b)) : Always K Q (p >>= f) := by
  induction p with
  | done result =>
    cases result with
    | ok b => exact rest b first
    | error e => exact failed e first
  | ask op next ih => exact ⟨first.1, fun answer => ih answer (first.2 answer)⟩

theorem Always.seq {p : Program Op Ans ε β} {f : β → Program Op Ans ε α} {R : β → Prop} {Q : α → Prop} (first : Always K (onOk R) p)
    (rest : ∀ b, R b → Always K (onOk Q) (f b)) : Always K (onOk Q) (p >>= f) :=
  first.bind (fun _ _ => trivial) rest

theorem Always.attempt {p : Program Op Ans ε α} (h : Always K Q p) : Always K (onOk Q) p.attempt := by
  induction p with
  | done result => exact h
  | ask op next ih => exact ⟨h.1, fun answer => ih answer (h.2 answer)⟩

theorem always_ite {c : Prop} [Decidable c] {p q : Program Op Ans ε α} (hp : c → Always K Q p) (hq : ¬c → Always K Q q) :
    Always K Q (if c then p else q) := by
  by_cases h : c
  · rw [if_pos h]
    exact hp h
  · rw [if_neg h]
    exact hq h

/-- So it is in every world, with whatever it answers. -/
theorem Always.play {p : Program Op Ans ε α} (h : Always K Q p) (reply : (op : Op) → W → Ans op × W) (w : W) :
    (∀ a ∈ (Program.play reply p w).1, K a.op) ∧ Q (Program.play reply p w).2.2 := by
  induction p generalizing w with
  | done result => exact ⟨fun a never => absurd never List.not_mem_nil, h⟩
  | ask op next ih =>
    obtain ⟨later, ended⟩ := ih (reply op w).1 (h.2 _) (reply op w).2
    exact ⟨List.forall_mem_cons.mpr ⟨h.1, later⟩, ended⟩

end MacSftp.Lib.Program
