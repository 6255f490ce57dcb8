import Mathlib.Tactic.Common

namespace MacSftp.Lib

/-- A program that puts operations to its environment and goes on with the answers, until it returns or throws. -/
inductive Program (Op : Type) (Ans : Op → Type) (ε α : Type) : Type
  | done (result : Except ε α)
  | ask (op : Op) (next : Ans op → Program Op Ans ε α)

/-- An answered operation, with the world before and after it. -/
structure Asked (W Op : Type) (Ans : Op → Type) where
  before : W
  op : Op
  answer : Ans op
  after : W

namespace Program

variable {Op : Type} {Ans : Op → Type} {W ε α β : Type}

def bind : Program Op Ans ε α → (α → Program Op Ans ε β) → Program Op Ans ε β
  | done (.ok a), f => f a
  | done (.error e), _ => done (.error e)
  | ask op next, f => ask op fun answer => bind (next answer) f

instance : Monad (Program Op Ans ε) where
  pure a := done (.ok a)
  bind := bind

def throw (e : ε) : Program Op Ans ε α := done (.error e)

def perform (op : Op) : Program Op Ans ε (Ans op) := ask op fun answer => done (.ok answer)

/-- Hands an error over to the caller as a value. -/
def attempt : Program Op Ans ε α → Program Op Ans ε (Except ε α)
  | done result => done (.ok result)
  | ask op next => ask op fun answer => attempt (next answer)

/-- Whatever the answers, the program puts no other operations than these. -/
def Uses (P : Op → Prop) : Program Op Ans ε α → Prop
  | done _ => True
  | ask op next => P op ∧ ∀ answer, Uses P (next answer)

section Uses

variable {P Q : Op → Prop}

@[simp] theorem uses_pure (a : α) : Uses P (pure a : Program Op Ans ε α) := trivial

@[simp] theorem uses_throw (e : ε) : Uses P (throw e : Program Op Ans ε α) := trivial

@[simp] theorem uses_perform (op : Op) : Uses P (perform op : Program Op Ans ε (Ans op)) ↔ P op :=
  ⟨fun h => h.1, fun h => ⟨h, fun _ => trivial⟩⟩

theorem Uses.bind {p : Program Op Ans ε α} {f : α → Program Op Ans ε β} (hp : Uses P p) (hf : ∀ a, Uses P (f a)) :
    Uses P (p >>= f) := by
  induction p with
  | done result =>
    cases result with
    | ok a => exact hf a
    | error e => trivial
  | ask op next ih => exact ⟨hp.1, fun answer => ih answer (hp.2 answer)⟩

theorem Uses.attempt {p : Program Op Ans ε α} (hp : Uses P p) : Uses P p.attempt := by
  induction p with
  | done result => trivial
  | ask op next ih => exact ⟨hp.1, fun answer => ih answer (hp.2 answer)⟩

theorem uses_ite {c : Prop} [Decidable c] {p q : Program Op Ans ε α} (hp : Uses P p) (hq : Uses P q) :
    Uses P (if c then p else q) := by
  by_cases h : c
  · rwa [if_pos h]
  · rwa [if_neg h]

theorem Uses.mono {p : Program Op Ans ε α} (hp : Uses P p) (weaker : ∀ op, P op → Q op) : Uses Q p := by
  induction p with
  | done result => trivial
  | ask op next ih => exact ⟨weaker op hp.1, fun answer => ih answer (hp.2 answer)⟩

end Uses

/-- The runs of a program to its end. `others` is what the rest of the world may do before an operation is answered, and
`does` what an operation with a given answer does. -/
inductive Run (others : W → W → Prop) (does : (op : Op) → Ans op → W → W → Prop) :
    Program Op Ans ε α → W → List (Asked W Op Ans) → W → Except ε α → Prop
  | done (result : Except ε α) (w : W) : Run others does (done result) w [] w result
  | ask {op : Op} {next : Ans op → Program Op Ans ε α} {answer : Ans op} {w before after w' : W}
      {asked : List (Asked W Op Ans)} {result : Except ε α} :
      others w before → does op answer before after → Run others does (next answer) after asked w' result →
      Run others does (ask op next) w (⟨before, op, answer, after⟩ :: asked) w' result

variable {others : W → W → Prop} {does : (op : Op) → Ans op → W → W → Prop}

theorem Run.bind {p : Program Op Ans ε α} {f : α → Program Op Ans ε β} {w v w' : W} {asked asked' : List (Asked W Op Ans)}
    {a : α} {result : Except ε β} (first : Run others does p w asked v (.ok a)) (rest : Run others does (f a) v asked' w' result) :
    Run others does (p >>= f) w (asked ++ asked') w' result := by
  generalize hr : Except.ok a = r at first
  induction first with
  | done result w =>
    subst hr
    exact rest
  | ask between step _ ih => exact .ask between step (ih rest hr)

theorem Run.of_bind {p : Program Op Ans ε α} {f : α → Program Op Ans ε β} {w w' : W} {asked : List (Asked W Op Ans)}
    {result : Except ε β} (run : Run others does (p >>= f) w asked w' result) :
    (∃ e, Run others does p w asked w' (.error e) ∧ result = .error e) ∨
      ∃ before after v a, asked = before ++ after ∧ Run others does p w before v (.ok a) ∧
        Run others does (f a) v after w' result := by
  induction p generalizing w asked with
  | done r =>
    cases r with
    | ok a => exact Or.inr ⟨[], asked, w, a, rfl, .done _ _, run⟩
    | error e =>
      cases run
      exact Or.inl ⟨e, .done _ _, rfl⟩
  | ask op next ih =>
    cases run with
    | ask between step rest =>
      rcases ih _ rest with ⟨e, failed, rfl⟩ | ⟨before, after, v, a, rfl, first, second⟩
      · exact Or.inl ⟨e, .ask between step failed, rfl⟩
      · exact Or.inr ⟨_ :: before, after, v, a, rfl, .ask between step first, second⟩

theorem Run.of_ask {op : Op} {next : Ans op → Program Op Ans ε α} {w w' : W} {asked : List (Asked W Op Ans)}
    {result : Except ε α} (run : Run others does (Program.ask op next) w asked w' result) :
    ∃ answer before after rest, asked = ⟨before, op, answer, after⟩ :: rest ∧ others w before ∧ does op answer before after ∧
      Run others does (next answer) after rest w' result := by
  cases run with
  | ask between step later => exact ⟨_, _, _, _, rfl, between, step, later⟩

theorem Run.of_attempt {p : Program Op Ans ε α} {w w' : W} {asked : List (Asked W Op Ans)}
    {result : Except ε (Except ε α)} (run : Run others does p.attempt w asked w' result) :
    ∃ r, result = .ok r ∧ Run others does p w asked w' r := by
  induction p generalizing w asked with
  | done r =>
    cases run
    exact ⟨r, rfl, .done _ _⟩
  | ask op next ih =>
    cases run with
    | ask between step rest =>
      obtain ⟨r, rfl, first⟩ := ih _ rest
      exact ⟨r, rfl, .ask between step first⟩

theorem Run.uses {P : Op → Prop} {p : Program Op Ans ε α} {w w' : W} {asked : List (Asked W Op Ans)} {result : Except ε α}
    (run : Run others does p w asked w' result) (hp : Uses P p) : ∀ s ∈ asked, P s.op ∧ does s.op s.answer s.before s.after := by
  induction run with
  | done => exact fun s hs => absurd hs List.not_mem_nil
  | ask between step _ ih =>
    rintro s (_ | ⟨_, later⟩)
    · exact ⟨hp.1, step⟩
    · exact ih (hp.2 _) s later

/-- The run in a world that answers each operation in one way, with nobody else acting. -/
def play (reply : (op : Op) → W → Ans op × W) : Program Op Ans ε α → W → List (Asked W Op Ans) × W × Except ε α
  | done result, w => ([], w, result)
  | ask op next, w =>
    let rest := play reply (next (reply op w).1) (reply op w).2
    (⟨w, op, (reply op w).1, (reply op w).2⟩ :: rest.1, rest.2)

theorem play_run {reply : (op : Op) → W → Ans op × W} (idle : ∀ w, others w w)
    (sound : ∀ op w, does op (reply op w).1 w (reply op w).2) (p : Program Op Ans ε α) (w : W) :
    Run others does p w (play reply p w).1 (play reply p w).2.1 (play reply p w).2.2 := by
  induction p generalizing w with
  | done result => exact .done result w
  | ask op next ih => exact .ask (idle w) (sound op w) (ih _ _)

theorem play_asked (reply : (op : Op) → W → Ans op × W) (p : Program Op Ans ε α) (w : W) :
    ∀ a ∈ (play reply p w).1, a.answer = (reply a.op a.before).1 := by
  induction p generalizing w with
  | done result => exact fun a never => absurd never List.not_mem_nil
  | ask op next ih => exact List.forall_mem_cons.mpr ⟨rfl, ih _ _⟩

/-- Partial correctness, with assertions about the operations answered so far and the world. -/
def Triple (others : W → W → Prop) (does : (op : Op) → Ans op → W → W → Prop) (P : List (Asked W Op Ans) → W → Prop)
    (p : Program Op Ans ε α) (Q : Except ε α → List (Asked W Op Ans) → W → Prop) : Prop :=
  ∀ past w asked w' result, P past w → Run others does p w asked w' result → Q result (past ++ asked) w'

section Triples

variable {P P' R : List (Asked W Op Ans) → W → Prop} {Q Q' : Except ε α → List (Asked W Op Ans) → W → Prop}

theorem triple_done {r : Except ε α} (h : ∀ past w, P past w → Q r past w) : Triple others does P (done r) Q := by
  rintro past w _ _ _ pre ⟨⟩
  rw [List.append_nil]
  exact h past w pre

theorem triple_pure {a : α} (h : ∀ past w, P past w → Q (.ok a) past w) : Triple others does P (pure a) Q :=
  triple_done h

theorem triple_throw {e : ε} (h : ∀ past w, P past w → Q (.error e) past w) : Triple others does P (throw e) Q :=
  triple_done h

theorem triple_ask {op : Op} {next : Ans op → Program Op Ans ε α} {R : Ans op → List (Asked W Op Ans) → W → Prop}
    (step : ∀ answer past w before after, P past w → others w before → does op answer before after →
      R answer (past ++ [⟨before, op, answer, after⟩]) after)
    (rest : ∀ answer, Triple others does (R answer) (next answer) Q) : Triple others does P (ask op next) Q := by
  rintro past w _ w' result pre run
  cases run with
  | ask between effect run =>
    have done := rest _ _ _ _ _ _ (step _ past w _ _ pre between effect) run
    rwa [List.append_assoc] at done

theorem triple_perform {op : Op} {Q : Except ε (Ans op) → List (Asked W Op Ans) → W → Prop}
    (step : ∀ answer past w before after, P past w → others w before → does op answer before after →
      Q (.ok answer) (past ++ [⟨before, op, answer, after⟩]) after) :
    Triple others does P (perform op : Program Op Ans ε (Ans op)) Q :=
  triple_ask (R := fun answer => Q (.ok answer)) step fun _ => triple_done fun _ _ h => h

theorem triple_bind {p : Program Op Ans ε β} {f : β → Program Op Ans ε α} {R : Except ε β → List (Asked W Op Ans) → W → Prop}
    (first : Triple others does P p R) (rest : ∀ b, Triple others does (R (.ok b)) (f b) Q)
    (failed : ∀ e past w, R (.error e) past w → Q (.error e) past w) : Triple others does P (p >>= f) Q := by
  rintro past w _ w' result pre run
  rcases run.of_bind with ⟨e, threw, rfl⟩ | ⟨before, after, v, b, rfl, returned, later⟩
  · exact failed e _ _ (first _ _ _ _ _ pre threw)
  · rw [← List.append_assoc]
    exact rest b _ _ _ _ _ (first _ _ _ _ _ pre returned) later

theorem triple_attempt {p : Program Op Ans ε α} {Q : Except ε (Except ε α) → List (Asked W Op Ans) → W → Prop}
    (h : Triple others does P p (fun r => Q (.ok r))) : Triple others does P p.attempt Q := by
  rintro past w asked w' result pre run
  obtain ⟨r, rfl, ended⟩ := run.of_attempt
  exact h past w asked w' r pre ended

theorem Triple.mono {p : Program Op Ans ε α} (h : Triple others does P p Q) (pre : ∀ past w, P' past w → P past w)
    (post : ∀ result past w, Q result past w → Q' result past w) : Triple others does P' p Q' :=
  fun past w asked w' result hp run => post _ _ _ (h past w asked w' result (pre past w hp) run)

theorem Triple.or {p : Program Op Ans ε α} (h : Triple others does P p Q) (h' : Triple others does P' p Q) :
    Triple others does (fun past w => P past w ∨ P' past w) p Q :=
  fun _ _ _ _ _ pre run => pre.elim (fun left => h _ _ _ _ _ left run) fun right => h' _ _ _ _ _ right run

/-- The assertion for a return, with the value, and the one for a throw. -/
def outcome (Q : α → List (Asked W Op Ans) → W → Prop) (E : List (Asked W Op Ans) → W → Prop) :
    Except ε α → List (Asked W Op Ans) → W → Prop
  | .ok a => Q a
  | .error _ => E

variable {E : List (Asked W Op Ans) → W → Prop}

theorem triple_uses {K : Op → Prop} {p : Program Op Ans ε α} (uses : Uses K p)
    (keep : ∀ op answer past w before after, K op → P past w → others w before → does op answer before after →
      P (past ++ [⟨before, op, answer, after⟩]) after) : Triple others does P p (outcome (fun _ => P) P) := by
  induction p with
  | done r =>
    cases r with
    | ok a => exact triple_done fun _ _ h => h
    | error e => exact triple_done fun _ _ h => h
  | ask op next ih =>
    exact triple_ask (R := fun _ => P) (fun answer past w before after pre between step =>
      keep op answer past w before after uses.1 pre between step) fun answer => ih answer (uses.2 answer)

theorem triple_seq {p : Program Op Ans ε β} {f : β → Program Op Ans ε α} {R : β → List (Asked W Op Ans) → W → Prop}
    {Q : α → List (Asked W Op Ans) → W → Prop} {F : List (Asked W Op Ans) → W → Prop}
    (first : Triple others does P p (outcome R F)) (failed : ∀ past w, F past w → E past w)
    (rest : ∀ b, Triple others does (R b) (f b) (outcome Q E)) : Triple others does P (p >>= f) (outcome Q E) :=
  triple_bind first rest fun _ => failed

theorem triple_catch {p : Program Op Ans ε β} {f : Except ε β → Program Op Ans ε α} {Q' : β → List (Asked W Op Ans) → W → Prop}
    {F : List (Asked W Op Ans) → W → Prop} {Q : Except ε α → List (Asked W Op Ans) → W → Prop}
    (first : Triple others does P p (outcome Q' F)) (rest : ∀ b, Triple others does (Q' b) (f (.ok b)) Q)
    (failed : ∀ e, Triple others does F (f (.error e)) Q) : Triple others does P (p.attempt >>= f) Q := by
  refine triple_bind (triple_attempt (Q := outcome (outcome Q' F) fun _ _ => False) first) ?_ fun _ _ _ never => never.elim
  intro result
  cases result with
  | ok b => exact rest b
  | error e => exact failed e

theorem triple_step (op : Op) {f : Ans op → Program Op Ans ε α} {R : Ans op → List (Asked W Op Ans) → W → Prop}
    {Q : Except ε α → List (Asked W Op Ans) → W → Prop}
    (step : ∀ answer past w before after, P past w → others w before → does op answer before after →
      R answer (past ++ [⟨before, op, answer, after⟩]) after)
    (rest : ∀ answer, Triple others does (R answer) (f answer) Q) :
    Triple others does P ((perform op : Program Op Ans ε (Ans op)) >>= f) Q :=
  triple_ask step rest

theorem triple_ite {c : Prop} [Decidable c] {p q : Program Op Ans ε α} {Q : Except ε α → List (Asked W Op Ans) → W → Prop}
    (hp : c → Triple others does P p Q) (hq : ¬c → Triple others does P q Q) :
    Triple others does P (if c then p else q) Q := by
  by_cases h : c
  · rw [if_pos h]
    exact hp h
  · rw [if_neg h]
    exact hq h

end Triples

section Leaves

variable {Q R S : List (Asked W Op Ans) → Prop}

/-- Whatever the answers, a run of the program leaves operations behind that are so. -/
def Leaves (others : W → W → Prop) (does : (op : Op) → Ans op → W → W → Prop) (Q : List (Asked W Op Ans) → Prop)
    (p : Program Op Ans ε α) : Prop :=
  ∀ w asked w' result, Run others does p w asked w' result → Q asked

theorem leaves_done {r : Except ε α} (h : Q []) : Leaves others does Q (done r) := by
  rintro w _ _ _ ⟨⟩
  exact h

theorem leaves_ask {op : Op} {next : Ans op → Program Op Ans ε α}
    (first : ∀ answer before after asked, R asked → Q (⟨before, op, answer, after⟩ :: asked))
    (rest : ∀ answer, Leaves others does R (next answer)) : Leaves others does Q (ask op next) := by
  rintro w _ w' result run
  cases run with
  | ask between step later => exact first _ _ _ _ (rest _ _ _ _ _ later)

/-- What holds of the two parts of a run and adds up holds of the whole run, also when the second part never starts. -/
theorem Leaves.bind {p : Program Op Ans ε α} {f : α → Program Op Ans ε β} (first : Leaves others does Q p)
    (rest : ∀ a, Leaves others does R (f a)) (adds : ∀ xs ys, Q xs → R ys → S (xs ++ ys)) (stops : R []) :
    Leaves others does S (p >>= f) := by
  rintro w _ w' result run
  rcases run.of_bind with ⟨e, failed, rfl⟩ | ⟨before, after, v, a, rfl, returned, later⟩
  · have whole := adds _ [] (first _ _ _ _ failed) stops
    rwa [List.append_nil] at whole
  · exact adds _ _ (first _ _ _ _ returned) (rest a _ _ _ _ later)

theorem Leaves.attempt {p : Program Op Ans ε α} (h : Leaves others does Q p) : Leaves others does Q p.attempt := by
  rintro w asked w' result run
  obtain ⟨r, rfl, ended⟩ := run.of_attempt
  exact h _ _ _ _ ended

/-- What the operations cost together. -/
def total (cost : Op → Nat) : List (Asked W Op Ans) → Nat
  | [] => 0
  | a :: asked => cost a.op + total cost asked

@[simp] theorem total_nil (cost : Op → Nat) : total cost ([] : List (Asked W Op Ans)) = 0 := rfl

@[simp] theorem total_cons (cost : Op → Nat) (a : Asked W Op Ans) (asked : List (Asked W Op Ans)) :
    total cost (a :: asked) = cost a.op + total cost asked := rfl

@[simp] theorem total_append (cost : Op → Nat) (before after : List (Asked W Op Ans)) :
    total cost (before ++ after) = total cost before + total cost after := by
  induction before with
  | nil => exact (Nat.zero_add _).symm
  | cons a before ih => rw [List.cons_append, total_cons, total_cons, ih, Nat.add_assoc]

end Leaves

end Program

end MacSftp.Lib
