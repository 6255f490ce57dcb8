import MacSftp.Lib.Runs
import Mathlib.Order.Nat

namespace MacSftp.Tabs

open Lib

/-- The stacks of one pane side: the last entry of each is the next to be popped. -/
structure PaneNavHistory where
  back : List String := []
  forward : List String := []
  deriving DecidableEq, Repr

namespace PaneNavHistory

def max : Nat := 50

def pushNavigatingFrom (history : PaneNavHistory) (source : Option String) (target : String) : PaneNavHistory :=
  match source with
  | none => history
  | some source =>
    if source = target then history
    else
      let back := history.back ++ [source]
      { back := if back.length > max then back.drop (back.length - max) else back, forward := [] }

def goBack (history : PaneNavHistory) (current : String) : PaneNavHistory × Option String :=
  match history.back.getLast? with
  | none => (history, none)
  | some target => ({ back := history.back.dropLast, forward := history.forward ++ [current] }, some target)

def goForward (history : PaneNavHistory) (current : String) : PaneNavHistory × Option String :=
  match history.forward.getLast? with
  | none => (history, none)
  | some target => ({ back := history.back ++ [current], forward := history.forward.dropLast }, some target)

def canBack (history : PaneNavHistory) : Bool := history.back ≠ []

def canForward (history : PaneNavHistory) : Bool := history.forward ≠ []

end PaneNavHistory

/-- A pane that navigates: the current path is kept outside its history. -/
structure Browsing where
  history : PaneNavHistory := {}
  current : Option String
  deriving DecidableEq, Repr

inductive NavStep
  | push (target : String)
  | back
  | forward
  deriving DecidableEq, Repr

namespace Browsing

/-- Where a pop leads to. Without one the pane stays where it is. -/
def arrive (s : Browsing) (popped : PaneNavHistory × Option String) : Browsing :=
  match popped.2 with
  | none => s
  | some target => { history := popped.1, current := some target }

def navigate (s : Browsing) (target : String) : Browsing :=
  { history := s.history.pushNavigatingFrom s.current target, current := some target }

def navigateBack (s : Browsing) : Browsing := s.current.elim s fun current => s.arrive (s.history.goBack current)

def navigateForward (s : Browsing) : Browsing := s.current.elim s fun current => s.arrive (s.history.goForward current)

def next (s : Browsing) : NavStep → Browsing
  | .push target => s.navigate target
  | .back => s.navigateBack
  | .forward => s.navigateForward

/-- Everything the pane remembers, from the oldest path to the furthest one ahead. -/
def trail (s : Browsing) : List String := s.history.back ++ s.current.toList ++ s.history.forward.reverse

def entries (s : Browsing) : Nat := s.history.back.length + s.history.forward.length

end Browsing

def navMachine : Machine Browsing NavStep Unit where
  step s i := (s.next i, ())

section Pops

variable {history : PaneNavHistory} {current : String} {rest : List String} {target : String}

theorem goBack_nil (empty : history.back = []) : history.goBack current = (history, none) := by
  unfold PaneNavHistory.goBack
  rw [empty]
  rfl

theorem goForward_nil (empty : history.forward = []) : history.goForward current = (history, none) := by
  unfold PaneNavHistory.goForward
  rw [empty]
  rfl

theorem goBack_concat (stack : history.back = rest ++ [target]) :
    history.goBack current = ({ back := rest, forward := history.forward ++ [current] }, some target) := by
  unfold PaneNavHistory.goBack
  rw [stack, List.getLast?_concat, List.dropLast_concat]

theorem goForward_concat (stack : history.forward = rest ++ [target]) :
    history.goForward current = ({ back := history.back ++ [current], forward := rest }, some target) := by
  unfold PaneNavHistory.goForward
  rw [stack, List.getLast?_concat, List.dropLast_concat]

end Pops

namespace Browsing

variable {s : Browsing} {current : String}

theorem back_leads {rest : List String} {target : String} (at_ : s.current = some current)
    (stack : s.history.back = rest ++ [target]) :
    s.navigateBack = ⟨⟨rest, s.history.forward ++ [current]⟩, some target⟩ := by
  unfold navigateBack
  rw [at_, Option.elim_some, goBack_concat stack]
  rfl

theorem forward_leads {rest : List String} {target : String} (at_ : s.current = some current)
    (stack : s.history.forward = rest ++ [target]) :
    s.navigateForward = ⟨⟨s.history.back ++ [current], rest⟩, some target⟩ := by
  unfold navigateForward
  rw [at_, Option.elim_some, goForward_concat stack]
  rfl

theorem back_cases (s : Browsing) :
    (s.navigateBack = s ∧ (s.current = none ∨ s.history.canBack = false)) ∨
      ∃ current rest target, s.current = some current ∧ s.history.back = rest ++ [target] ∧
        s.navigateBack = ⟨⟨rest, s.history.forward ++ [current]⟩, some target⟩ := by
  cases at_ : s.current with
  | none =>
    left
    unfold navigateBack
    rw [at_]
    exact ⟨rfl, .inl rfl⟩
  | some current =>
    rcases List.eq_nil_or_concat s.history.back with empty | ⟨rest, target, stack⟩
    · left
      refine ⟨?_, .inr (by simp [PaneNavHistory.canBack, empty])⟩
      unfold navigateBack
      rw [at_, Option.elim_some, goBack_nil empty]
      rfl
    · right
      rw [List.concat_eq_append] at stack
      exact ⟨current, rest, target, rfl, stack, back_leads at_ stack⟩

theorem forward_cases (s : Browsing) :
    (s.navigateForward = s ∧ (s.current = none ∨ s.history.canForward = false)) ∨
      ∃ current rest target, s.current = some current ∧ s.history.forward = rest ++ [target] ∧
        s.navigateForward = ⟨⟨s.history.back ++ [current], rest⟩, some target⟩ := by
  cases at_ : s.current with
  | none =>
    left
    unfold navigateForward
    rw [at_]
    exact ⟨rfl, .inl rfl⟩
  | some current =>
    rcases List.eq_nil_or_concat s.history.forward with empty | ⟨rest, target, stack⟩
    · left
      refine ⟨?_, .inr (by simp [PaneNavHistory.canForward, empty])⟩
      unfold navigateForward
      rw [at_, Option.elim_some, goForward_nil empty]
      rfl
    · right
      rw [List.concat_eq_append] at stack
      exact ⟨current, rest, target, rfl, stack, forward_leads at_ stack⟩

theorem back_trail (s : Browsing) : s.navigateBack.trail = s.trail := by
  rcases back_cases s with ⟨stays, -⟩ | ⟨current, rest, target, at_, stack, moved⟩
  · rw [stays]
  · rw [moved]
    simp [trail, at_, stack]

theorem forward_trail (s : Browsing) : s.navigateForward.trail = s.trail := by
  rcases forward_cases s with ⟨stays, -⟩ | ⟨current, rest, target, at_, stack, moved⟩
  · rw [stays]
  · rw [moved]
    simp [trail, at_, stack]

theorem back_entries (s : Browsing) : s.navigateBack.entries = s.entries := by
  rcases back_cases s with ⟨stays, -⟩ | ⟨current, rest, target, at_, stack, moved⟩
  · rw [stays]
  · rw [moved]
    simp only [entries, stack, List.length_append, List.length_singleton]
    omega

theorem forward_entries (s : Browsing) : s.navigateForward.entries = s.entries := by
  rcases forward_cases s with ⟨stays, -⟩ | ⟨current, rest, target, at_, stack, moved⟩
  · rw [stays]
  · rw [moved]
    simp only [entries, stack, List.length_append, List.length_singleton]
    omega

theorem back_forward (at_ : s.current = some current) (can : s.history.canBack = true) : s.navigateBack.navigateForward = s := by
  rcases back_cases s with ⟨-, stuck⟩ | ⟨left, rest, target, leaving, stack, moved⟩
  · rcases stuck with missing | empty
    · rw [at_] at missing
      cases missing
    · rw [can] at empty
      cases empty
  · rw [moved]
    unfold navigateForward
    rw [Option.elim_some, goForward_concat rfl]
    obtain ⟨⟨back, forward⟩, place⟩ := s
    subst leaving stack
    rfl

theorem forward_back (at_ : s.current = some current) (can : s.history.canForward = true) : s.navigateForward.navigateBack = s := by
  rcases forward_cases s with ⟨-, stuck⟩ | ⟨left, rest, target, leaving, stack, moved⟩
  · rcases stuck with missing | empty
    · rw [at_] at missing
      cases missing
    · rw [can] at empty
      cases empty
  · rw [moved]
    unfold navigateBack
    rw [Option.elim_some, goBack_concat rfl]
    obtain ⟨⟨back, forward⟩, place⟩ := s
    subst leaving stack
    rfl

theorem navigate_history {target : String} (at_ : s.current = some current) (elsewhere : current ≠ target)
    (bounded : s.history.back.length ≤ PaneNavHistory.max) :
    (s.navigate target).history =
      ⟨(if s.history.back.length = PaneNavHistory.max then s.history.back.tail else s.history.back) ++ [current], []⟩ := by
  unfold navigate PaneNavHistory.pushNavigatingFrom
  simp only [at_, if_neg elsewhere, List.length_append, List.length_singleton]
  congr 1
  split_ifs with tooMany full full
  · have one : s.history.back.length + 1 - PaneNavHistory.max = 1 := by omega
    rw [one, List.drop_append_of_le_length (by rw [full]; decide), List.drop_one]
  · omega
  · omega
  · rfl

theorem navigate_stays {target : String} (stays : ∀ current, s.current = some current → current = target) :
    (s.navigate target).history = s.history := by
  unfold navigate PaneNavHistory.pushNavigatingFrom
  cases at_ : s.current with
  | none => rfl
  | some current => exact if_pos (stays current at_)

def Bounded (s : Browsing) : Prop := s.entries ≤ PaneNavHistory.max

theorem navigate_bounded (bounded : s.Bounded) (target : String) : (s.navigate target).Bounded := by
  unfold Bounded entries at bounded ⊢
  by_cases stays : ∀ current, s.current = some current → current = target
  · rw [navigate_stays stays]
    exact bounded
  · push Not at stays
    obtain ⟨current, at_, elsewhere⟩ := stays
    rw [navigate_history at_ elsewhere (by omega)]
    split_ifs with full
    · simp only [List.length_append, List.length_tail, List.length_singleton, List.length_nil]
      have := Nat.sub_add_cancel (n := s.history.back.length) (m := 1) (by rw [full]; decide)
      omega
    · simp only [List.length_append, List.length_singleton, List.length_nil]
      omega

theorem next_bounded (s : Browsing) (step : NavStep) (bounded : s.Bounded) : (s.next step).Bounded := by
  cases step with
  | push target => exact navigate_bounded bounded target
  | back => exact (back_entries s).le.trans bounded
  | forward => exact (forward_entries s).le.trans bounded

/-- What going back, going forward and going somewhere else make of the two stacks and the current path. -/
structure Reversible (s : Browsing) : Prop where
  bounded : s.history.back.length + s.history.forward.length ≤ PaneNavHistory.max
  back_trail : s.navigateBack.trail = s.trail
  forward_trail : s.navigateForward.trail = s.trail
  back_forward : ∀ current, s.current = some current → s.history.canBack = true → s.navigateBack.navigateForward = s
  forward_back : ∀ current, s.current = some current → s.history.canForward = true → s.navigateForward.navigateBack = s
  back_leads : ∀ current rest target, s.current = some current → s.history.back = rest ++ [target] →
    s.navigateBack = ⟨⟨rest, s.history.forward ++ [current]⟩, some target⟩
  forward_leads : ∀ current rest target, s.current = some current → s.history.forward = rest ++ [target] →
    s.navigateForward = ⟨⟨s.history.back ++ [current], rest⟩, some target⟩
  back_stops : s.history.canBack = false → s.navigateBack = s
  forward_stops : s.history.canForward = false → s.navigateForward = s
  pushed : ∀ current target, s.current = some current → current ≠ target →
    s.navigate target =
      ⟨⟨(if s.history.back.length = PaneNavHistory.max then s.history.back.tail else s.history.back) ++ [current], []⟩, some target⟩
  unpushed : ∀ target, (∀ current, s.current = some current → current = target) → s.navigate target = ⟨s.history, some target⟩

theorem reversible_of_bounded (bounded : s.Bounded) : s.Reversible where
  bounded := bounded
  back_trail := back_trail s
  forward_trail := forward_trail s
  back_forward := fun _ at_ can => back_forward at_ can
  forward_back := fun _ at_ can => forward_back at_ can
  back_leads := fun _ _ _ => back_leads
  forward_leads := fun _ _ _ => forward_leads
  back_stops := by
    intro stop
    rcases back_cases s with ⟨stays, -⟩ | ⟨current, rest, target, at_, stack, moved⟩
    · exact stays
    · simp [PaneNavHistory.canBack, stack] at stop
  forward_stops := by
    intro stop
    rcases forward_cases s with ⟨stays, -⟩ | ⟨current, rest, target, at_, stack, moved⟩
    · exact stays
    · simp [PaneNavHistory.canForward, stack] at stop
  pushed := by
    intro current target at_ elsewhere
    have short : s.history.back.length ≤ PaneNavHistory.max := le_trans (Nat.le_add_right _ _) bounded
    rw [← navigate_history at_ elsewhere short]
    rfl
  unpushed := by
    intro target stays
    rw [← navigate_stays stays]
    rfl

end Browsing

/-- The history of a pane in every run that starts with an empty one. -/
theorem navigation_reversible (start : Option String) (steps : List NavStep) :
    (navMachine.run { current := start } steps).Reversible := by
  apply Browsing.reversible_of_bounded
  exact navMachine.run_invariant Browsing.next_bounded (Nat.zero_le _) steps

end MacSftp.Tabs
