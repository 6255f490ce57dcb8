import Mathlib.Logic.Function.Basic
import MacSftp.Lib.Programs

namespace MacSftp.Lib

namespace Program

variable {Op : Type} {Ans : Op → Type} {W ε α β : Type}

/-- Whatever the others do before each operation and whatever the answers, each operation is a `Good` one and the end is as
`Post` says. -/
def Safe (others : W → W → Prop) (does : (op : Op) → Ans op → W → W → Prop) (Good : Asked W Op Ans → Prop)
    (Post : Except ε α → W → Prop) : Program Op Ans ε α → W → Prop
  | done result, w => Post result w
  | ask op next, w => ∀ before answer after, others w before → does op answer before after →
      Good ⟨before, op, answer, after⟩ ∧ Safe others does Good Post (next answer) after

/-- What holds at a return, and at a throw. -/
def ends (returns : α → W → Prop) (throws : ε → W → Prop) : Except ε α → W → Prop
  | .ok a => returns a
  | .error e => throws e

section Safe

variable {others : W → W → Prop} {does : (op : Op) → Ans op → W → W → Prop} {Good Good' : Asked W Op Ans → Prop}

theorem safe_bind {Post : Except ε β → W → Prop} {Mid : Except ε α → W → Prop} {p : Program Op Ans ε α}
    {f : α → Program Op Ans ε β} {w : W} (first : Safe others does Good Mid p w)
    (rest : ∀ a w', Mid (.ok a) w' → Safe others does Good Post (f a) w')
    (failed : ∀ e w', Mid (.error e) w' → Post (.error e) w') : Safe others does Good Post (p >>= f) w := by
  induction p generalizing w with
  | done result =>
    cases result with
    | ok a => exact rest a w first
    | error e => exact failed e w first
  | ask op next ih =>
    intro before answer after between step
    obtain ⟨good, later⟩ := first before answer after between step
    exact ⟨good, ih answer later⟩

theorem safe_ask {Post : Except ε α → W → Prop} {op : Op} {f : Ans op → Program Op Ans ε α} {w : W}
    (step : ∀ before answer after, others w before → does op answer before after →
      Good ⟨before, op, answer, after⟩ ∧ Safe others does Good Post (f answer) after) :
    Safe others does Good Post ((perform op : Program Op Ans ε (Ans op)) >>= f) w := step

theorem safe_perform {op : Op} {Post : Except ε (Ans op) → W → Prop} {w : W}
    (step : ∀ before answer after, others w before → does op answer before after →
      Good ⟨before, op, answer, after⟩ ∧ Post (.ok answer) after) :
    Safe others does Good Post (perform op : Program Op Ans ε (Ans op)) w := step

theorem Safe.mono {Post Post' : Except ε α → W → Prop} {p : Program Op Ans ε α} {w : W}
    (h : Safe others does Good Post p w) (weaker : ∀ a, Good a → Good' a) (post : ∀ r w', Post r w' → Post' r w') :
    Safe others does Good' Post' p w := by
  induction p generalizing w with
  | done result => exact post result w h
  | ask op next ih =>
    intro before answer after between step
    obtain ⟨good, later⟩ := h before answer after between step
    exact ⟨weaker _ good, ih answer later⟩

theorem Safe.of_others {Post : Except ε α → W → Prop} {p : Program Op Ans ε α} {w w' : W}
    (trans : ∀ u v x, others u v → others v x → others u x)
    (stable : ∀ r u v, others u v → Post r u → Post r v) (h : Safe others does Good Post p w) (between : others w w') :
    Safe others does Good Post p w' := by
  cases p with
  | done result => exact stable result w w' between h
  | ask op next => exact fun before answer after later step => h before answer after (trans _ _ _ between later) step

theorem Safe.run {Post : Except ε α → W → Prop} {p : Program Op Ans ε α} {w w' : W} {asked : List (Asked W Op Ans)}
    {result : Except ε α} (run : Run others does p w asked w' result) (h : Safe others does Good Post p w) :
    (∀ a ∈ asked, Good a) ∧ Post result w' := by
  induction run with
  | done result w => exact ⟨fun a ha => absurd ha List.not_mem_nil, h⟩
  | ask between step _ ih =>
    obtain ⟨good, later⟩ := h _ _ _ between step
    obtain ⟨all, post⟩ := ih later
    exact ⟨List.forall_mem_cons.mpr ⟨good, all⟩, post⟩

theorem Uses.safe {K : Op → Prop} {p : Program Op Ans ε α} (uses : Uses K p)
    (good : ∀ op before answer after, K op → does op answer before after → Good ⟨before, op, answer, after⟩) (w : W) :
    Safe others does Good (fun _ _ => True) p w := by
  induction p generalizing w with
  | done result => trivial
  | ask op next ih =>
    exact fun before answer after _ step => ⟨good op before answer after uses.1 step, ih answer (uses.2 answer) after⟩

end Safe

/-- The program asks for operations of kind `K`, and at most once for one of kind `L`. -/
def Once (K L : Op → Prop) : Program Op Ans ε α → Prop
  | done _ => True
  | ask op next => K op ∧ (∀ answer, Once K L (next answer)) ∨ L op ∧ ∀ answer, Uses K (next answer)

section Once

variable {K L : Op → Prop}

theorem Uses.once_bind {p : Program Op Ans ε α} {f : α → Program Op Ans ε β} (first : Uses K p) (rest : ∀ a, Once K L (f a)) :
    Once K L (p >>= f) := by
  induction p with
  | done result =>
    cases result with
    | ok a => exact rest a
    | error e => trivial
  | ask op next ih => exact Or.inl ⟨first.1, fun answer => ih answer (first.2 answer)⟩

theorem once_ask {op : Op} {f : Ans op → Program Op Ans ε α} (kind : L op) (rest : ∀ answer, Uses K (f answer)) :
    Once K L ((perform op : Program Op Ans ε (Ans op)) >>= f) := Or.inr ⟨kind, rest⟩

theorem Once.safe {others : W → W → Prop} {does : (op : Op) → Ans op → W → W → Prop} {Good : Asked W Op Ans → Prop} {J : W → Prop}
    {p : Program Op Ans ε α} (once : Once K L p) (stable : ∀ w w', others w w' → J w → J w')
    (quiet : ∀ op before answer after, K op → does op answer before after → Good ⟨before, op, answer, after⟩ ∧ (J before → J after))
    (main : ∀ op before answer after, L op → J before → does op answer before after → Good ⟨before, op, answer, after⟩) {w : W}
    (start : J w) : Safe others does Good (fun _ _ => True) p w := by
  induction p generalizing w with
  | done result => trivial
  | ask op next ih =>
    intro before answer after between step
    have now := stable w before between start
    rcases once with ⟨kind, later⟩ | ⟨kind, later⟩
    · obtain ⟨good, keep⟩ := quiet op before answer after kind step
      exact ⟨good, ih answer (later answer) (keep now)⟩
    · exact ⟨main op before answer after kind now step, (later answer).safe
        (fun op before answer after kind step => (quiet op before answer after kind step).1) after⟩

end Once

end Program

/-- A call in progress: the world when it was made and what is left of its program. -/
structure Task (W C Op : Type) (Ans : Op → Type) (ε α : Type) where
  call : C
  start : W
  program : Program Op Ans ε α

/-- Callers that share a world, each with at most one call in progress. -/
structure Pool (W T C Op : Type) (Ans : Op → Type) (ε α : Type) where
  world : W
  running : T → Option (Task W C Op Ans ε α)

inductive PoolEvent (W T C Op : Type) (Ans : Op → Type) (ε α : Type)
  | started (caller : T) (call : C)
  | asked (caller : T) (call : C) (asked : Asked W Op Ans)
  | ended (caller : T) (call : C) (start : W) (result : Except ε α) (after : W)

namespace Pool

variable {W T C Op : Type} {Ans : Op → Type} {ε α : Type} [DecidableEq T]

inductive Step (does : T → (op : Op) → Ans op → W → W → Prop) (program : C → Program Op Ans ε α) :
    Pool W T C Op Ans ε α → PoolEvent W T C Op Ans ε α → Pool W T C Op Ans ε α → Prop
  | start {s : Pool W T C Op Ans ε α} {t : T} (c : C) : s.running t = none →
      Step does program s (.started t c) ⟨s.world, Function.update s.running t (some ⟨c, s.world, program c⟩)⟩
  | ask {s : Pool W T C Op Ans ε α} {t : T} {c : C} {start after : W} {op : Op} {next : Ans op → Program Op Ans ε α}
      (answer : Ans op) : s.running t = some ⟨c, start, .ask op next⟩ → does t op answer s.world after →
      Step does program s (.asked t c ⟨s.world, op, answer, after⟩)
        ⟨after, Function.update s.running t (some ⟨c, start, next answer⟩)⟩
  | finish {s : Pool W T C Op Ans ε α} {t : T} {c : C} {start : W} {result : Except ε α} :
      s.running t = some ⟨c, start, .done result⟩ →
      Step does program s (.ended t c start result s.world) ⟨s.world, Function.update s.running t none⟩

/-- The runs whose steps are all `ok`. -/
inductive Runs (does : T → (op : Op) → Ans op → W → W → Prop) (program : C → Program Op Ans ε α)
    (ok : Pool W T C Op Ans ε α → PoolEvent W T C Op Ans ε α → Prop) :
    Pool W T C Op Ans ε α → List (PoolEvent W T C Op Ans ε α) → Pool W T C Op Ans ε α → Prop
  | nil (s : Pool W T C Op Ans ε α) : Runs does program ok s [] s
  | snoc {s s' s'' : Pool W T C Op Ans ε α} {events : List (PoolEvent W T C Op Ans ε α)}
      {event : PoolEvent W T C Op Ans ε α} : Runs does program ok s events s' → ok s' event →
      Step does program s' event s'' → Runs does program ok s (events ++ [event]) s''

variable {does : T → (op : Op) → Ans op → W → W → Prop} {program : C → Program Op Ans ε α}
  {ok ok' : Pool W T C Op Ans ε α → PoolEvent W T C Op Ans ε α → Prop}

theorem Runs.invariant {I : List (PoolEvent W T C Op Ans ε α) → Pool W T C Op Ans ε α → Prop}
    (keep : ∀ past s event s', I past s → ok s event → Step does program s event s' → I (past ++ [event]) s')
    {s s' : Pool W T C Op Ans ε α} {events : List (PoolEvent W T C Op Ans ε α)} (runs : Runs does program ok s events s')
    (start : I [] s) : I events s' := by
  induction runs with
  | nil => exact start
  | snoc _ legal step ih => exact keep _ _ _ _ ih legal step

theorem Runs.append {s s' s'' : Pool W T C Op Ans ε α} {first second : List (PoolEvent W T C Op Ans ε α)}
    (before : Runs does program ok s first s') (after : Runs does program ok s' second s'') :
    Runs does program ok s (first ++ second) s'' := by
  induction after with
  | nil =>
    rw [List.append_nil]
    exact before
  | snoc _ legal step ih =>
    rw [← List.append_assoc]
    exact .snoc ih legal step

theorem Runs.single {s s' : Pool W T C Op Ans ε α} {event : PoolEvent W T C Op Ans ε α} (legal : ok s event)
    (step : Step does program s event s') : Runs does program ok s [event] s' := .snoc (.nil s) legal step

theorem Runs.rest {t : T} {c : C} {start w w' : W} {p : Program Op Ans ε α} {asked : List (Asked W Op Ans)} {result : Except ε α}
    (run : p.Run Eq (does t) w asked w' result) {f : T → Option (Task W C Op Ans ε α)}
    (mine : f t = some ⟨c, start, p⟩) (legal : ∀ s, ∀ a ∈ asked, ok s (.asked t c a))
    (last : ∀ s, ok s (.ended t c start result w')) :
    Runs does program ok ⟨w, f⟩ (asked.map (.asked t c) ++ [.ended t c start result w']) ⟨w', Function.update f t none⟩ := by
  induction run generalizing f with
  | done result w => exact .single (last _) (.finish mine)
  | @ask op next answer w before after w' asked result between step _ ih =>
    subst between
    obtain ⟨now, later⟩ := List.forall_mem_cons.mp (fun a mem => legal ⟨w, f⟩ a mem)
    have first : Runs does program ok ⟨w, f⟩ [.asked t c ⟨w, op, answer, after⟩]
        ⟨after, Function.update f t (some ⟨c, start, next answer⟩)⟩ := .single now (.ask answer mine step)
    have rest := ih (f := Function.update f t (some ⟨c, start, next answer⟩)) (Function.update_self ..)
      (fun s a mem => legal s a (List.mem_cons_of_mem _ mem)) last
    rw [Function.update_idem] at rest
    exact first.append rest

theorem Runs.call {s : Pool W T C Op Ans ε α} {t : T} {c : C} {w' : W} {asked : List (Asked W Op Ans)} {result : Except ε α}
    (idle : s.running t = none) (run : (program c).Run Eq (does t) s.world asked w' result) (made : ok s (.started t c))
    (legal : ∀ s, ∀ a ∈ asked, ok s (.asked t c a)) (last : ∀ s' : Pool W T C Op Ans ε α, ok s' (.ended t c s.world result w')) :
    Runs does program ok s (.started t c :: (asked.map (.asked t c) ++ [.ended t c s.world result w'])) ⟨w', s.running⟩ := by
  have rest : Runs does program ok ⟨s.world, Function.update s.running t (some ⟨c, s.world, program c⟩)⟩ _ _ :=
    Runs.rest run (Function.update_self ..) legal last
  rw [Function.update_idem] at rest
  have same : Function.update s.running t none = s.running := by
    rw [← idle, Function.update_eq_self]
  rw [same] at rest
  exact (Runs.single made (.start c idle)).append rest

/-- What a call needs when it is made, lets the others do, does itself, and leaves. -/
structure Contract (W T C Op : Type) (Ans : Op → Type) (ε α : Type) where
  Pre : T → C → W → Prop
  rely : T → C → W → W → Prop
  Good : T → C → Asked W Op Ans → Prop
  Post : T → C → W → Except ε α → W → Prop

/-- The calls keep the contract, and calls that are `Apart` let each other do what they do. -/
structure Contract.Kept (k : Contract W T C Op Ans ε α) (does : T → (op : Op) → Ans op → W → W → Prop)
    (program : C → Program Op Ans ε α) (Apart : T → C → T → C → Prop) : Prop where
  refl : ∀ t c u, k.rely t c u u
  trans : ∀ t c u v w, k.rely t c u v → k.rely t c v w → k.rely t c u w
  stable : ∀ t c start r u v, k.rely t c u v → k.Post t c start r u → k.Post t c start r v
  safe : ∀ t c w, k.Pre t c w → (program c).Safe (k.rely t c) (does t) (k.Good t c) (k.Post t c w) w
  guarantee : ∀ t c t' c' a, t ≠ t' → Apart t c t' c' → k.Good t' c' a → k.rely t c a.before a.after

/-- The calls in progress are pairwise apart, and what is left of each keeps its contract. -/
structure Contract.Settled (k : Contract W T C Op Ans ε α) (does : T → (op : Op) → Ans op → W → W → Prop)
    (Apart : T → C → T → C → Prop) (s : Pool W T C Op Ans ε α) : Prop where
  safe : ∀ t task, s.running t = some task →
    task.program.Safe (k.rely t task.call) (does t) (k.Good t task.call) (k.Post t task.call task.start) s.world
  apart : ∀ t t' task task', t ≠ t' → s.running t = some task → s.running t' = some task' → Apart t task.call t' task'.call

def Contract.Fulfils (k : Contract W T C Op Ans ε α) : PoolEvent W T C Op Ans ε α → Prop
  | .started _ _ => True
  | .asked t c a => k.Good t c a
  | .ended t c start result after => k.Post t c start result after

variable {k : Contract W T C Op Ans ε α} {Apart : T → C → T → C → Prop}

theorem update_cases {β : Type} {f : T → Option β} {t u : T} {v : Option β} {b : β}
    (h : Function.update f t v u = some b) : u = t ∧ v = some b ∨ u ≠ t ∧ f u = some b := by
  by_cases same : u = t
  · subst same
    rw [Function.update_self] at h
    exact Or.inl ⟨rfl, h⟩
  · rw [Function.update_of_ne same] at h
    exact Or.inr ⟨same, h⟩

omit [DecidableEq T] in
theorem Contract.settled_idle {s : Pool W T C Op Ans ε α} (idle : ∀ t, s.running t = none) : k.Settled does Apart s := by
  constructor
  · intro t task running
    rw [idle t] at running
    cases running
  · intro t t' task task' _ running
    rw [idle t] at running
    cases running

theorem Contract.settled_start (kept : k.Kept does program Apart) {s : Pool W T C Op Ans ε α} (settled : k.Settled does Apart s)
    {t : T} {c : C} (pre : k.Pre t c s.world)
    (alone : ∀ t' task, t' ≠ t → s.running t' = some task → Apart t c t' task.call ∧ Apart t' task.call t c) :
    k.Settled does Apart ⟨s.world, Function.update s.running t (some ⟨c, s.world, program c⟩)⟩ := by
  constructor
  · intro u task running
    rcases update_cases running with ⟨rfl, made⟩ | ⟨_, old⟩
    · cases made
      exact kept.safe u c s.world pre
    · exact settled.safe u task old
  · intro u v task task' differ running running'
    rcases update_cases running with ⟨rfl, made⟩ | ⟨_, old⟩ <;> rcases update_cases running' with ⟨rfl, made'⟩ | ⟨_, old'⟩
    · exact absurd rfl differ
    · cases made
      exact (alone v task' differ.symm old').1
    · cases made'
      exact (alone u task differ old).2
    · exact settled.apart u v task task' differ old old'

theorem Contract.settled_ask (kept : k.Kept does program Apart) {s : Pool W T C Op Ans ε α} (settled : k.Settled does Apart s)
    {t : T} {c : C} {start after : W} {op : Op} {next : Ans op → Program Op Ans ε α} {answer : Ans op}
    (running : s.running t = some ⟨c, start, .ask op next⟩) (step : does t op answer s.world after) :
    k.Good t c ⟨s.world, op, answer, after⟩ ∧
      k.Settled does Apart ⟨after, Function.update s.running t (some ⟨c, start, next answer⟩)⟩ := by
  obtain ⟨good, later⟩ := settled.safe t _ running s.world answer after (kept.refl t c s.world) step
  refine ⟨good, ?_, ?_⟩
  · intro u task running'
    rcases update_cases running' with ⟨rfl, made⟩ | ⟨differ, old⟩
    · cases made
      exact later
    · have between := kept.guarantee u task.call t c _ differ (settled.apart u t task _ differ old running) good
      exact (settled.safe u task old).of_others (kept.trans u task.call) (kept.stable u task.call task.start) between
  · intro u v task task' differ left right
    -- the call of `t` is the one it was
    have calls : ∀ x y, Function.update s.running t (some ⟨c, start, next answer⟩) x = some y →
        ∃ z, s.running x = some z ∧ z.call = y.call := by
      intro x y hx
      rcases update_cases hx with ⟨rfl, made⟩ | ⟨_, old⟩
      · cases made
        exact ⟨_, running, rfl⟩
      · exact ⟨y, old, rfl⟩
    obtain ⟨z, hz, sameCall⟩ := calls u task left
    obtain ⟨z', hz', sameCall'⟩ := calls v task' right
    rw [← sameCall, ← sameCall']
    exact settled.apart u v z z' differ hz hz'

theorem Contract.settled_finish {s : Pool W T C Op Ans ε α} (settled : k.Settled does Apart s) (t : T) :
    k.Settled does Apart ⟨s.world, Function.update s.running t none⟩ := by
  have others : ∀ u task, Function.update s.running t none u = some task → s.running u = some task := by
    intro u task running
    rcases update_cases running with ⟨_, none⟩ | ⟨_, old⟩
    · cases none
    · exact old
  constructor
  · intro u task running
    exact settled.safe u task (others u task running)
  · intro u v task task' differ running running'
    exact settled.apart u v task task' differ (others u task running) (others v task' running')

/-- Every element is as `P` says, given those before it. -/
def Every {β : Type} (P : List β → β → Prop) (xs : List β) : Prop := ∀ before x after, xs = before ++ x :: after → P before x

theorem every_nil {β : Type} {P : List β → β → Prop} : Every P [] := by
  intro before x after never
  simp at never

theorem every_concat {β : Type} {P : List β → β → Prop} {xs : List β} {x : β} (all : Every P xs) (last : P xs x) :
    Every P (xs ++ [x]) := by
  intro before y after split
  rcases List.eq_nil_or_concat after with rfl | ⟨rest, z, rfl⟩
  · obtain ⟨rfl, same⟩ := List.append_inj_left' split rfl, List.append_inj_right' split rfl
    cases same
    exact last
  · have shorter : xs ++ [x] = (before ++ y :: rest) ++ [z] := by rw [split]; simp
    exact all before y rest (List.append_inj_left' shorter rfl)

/-- Calls that keep a contract alone keep it in every interleaving in which each call is made where its contract allows it, and
in which the operations are answered as the contract counts on. `I` is what the log and the world have to do with each other. -/
theorem Contract.parallel {answers : T → (op : Op) → Ans op → W → W → Prop} (kept : k.Kept answers program Apart)
    {I : List (PoolEvent W T C Op Ans ε α) → W → Prop}
    (counted : ∀ s t c a, ok s (.asked t c a) → does t a.op a.answer a.before a.after → answers t a.op a.answer a.before a.after)
    (starts : ∀ past w t c, I past w → I (past ++ [.started t c]) w)
    (asks : ∀ past t c a, I past a.before → k.Good t c a → I (past ++ [.asked t c a]) a.after)
    (ends : ∀ past w t c start result, I past w → k.Post t c start result w → I (past ++ [.ended t c start result w]) w)
    (made : ∀ past s t c, ok s (.started t c) → I past s.world → k.Pre t c s.world ∧
      ∀ t' task, t' ≠ t → s.running t' = some task → Apart t c t' task.call ∧ Apart t' task.call t c)
    {s s' : Pool W T C Op Ans ε α} {events : List (PoolEvent W T C Op Ans ε α)} (runs : Runs does program ok s events s')
    (inv : I [] s.world) (settled : k.Settled answers Apart s) :
    (∀ event ∈ events, k.Fulfils event) ∧ I events s'.world ∧ k.Settled answers Apart s' := by
  refine runs.invariant (I := fun past s => (∀ event ∈ past, k.Fulfils event) ∧ I past s.world ∧ k.Settled answers Apart s) ?_
    ⟨fun event never => absurd never List.not_mem_nil, inv, settled⟩
  rintro past s event s' ⟨before, inv, settled⟩ legal step
  have extend : k.Fulfils event → ∀ e ∈ past ++ [event], k.Fulfils e := by
    intro now e he
    rcases List.mem_append.mp he with old | new
    · exact before e old
    · rw [List.mem_singleton.mp new]
      exact now
  cases step with
  | start c idle =>
    obtain ⟨pre, alone⟩ := made _ _ _ _ legal inv
    exact ⟨extend trivial, starts _ _ _ _ inv, settled_start kept settled pre alone⟩
  | ask answer running step =>
    obtain ⟨good, later⟩ := settled_ask kept settled running (counted _ _ _ _ legal step)
    exact ⟨extend good, asks _ _ _ _ inv good, later⟩
  | finish running =>
    have post := settled.safe _ _ running
    exact ⟨extend post, ends _ _ _ _ _ _ inv post, settled_finish settled _⟩

end Pool

end MacSftp.Lib
