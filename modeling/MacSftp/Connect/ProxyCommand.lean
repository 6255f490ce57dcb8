import MacSftp.Lib.Shell
import MacSftp.Connect.Attempt

namespace MacSftp.ProxyCommand

open Lib.Shell

/-- `value.replace('\'', "'\\''")` between single quotes. -/
def shellQuote (value : List Char) : List Char :=
  '\'' :: value.flatMap (fun c => if c = '\'' then ['\'', '\\', '\'', '\''] else [c]) ++ ['\'']

def portText (port : Nat) : List Char := (toString port).toList

section

variable (host : List Char) (port : Nat) (username : List Char)

def expandProxyCommand : List Char → List Char
  | [] => []
  | character :: characters =>
    if character ≠ '%' then character :: expandProxyCommand characters
    else match characters with
      | [] => ['%']
      | other :: characters =>
        (if other = '%' then ['%'] else if other = 'h' then shellQuote host else if other = 'p' then portText port
          else if other = 'r' then shellQuote username else ['%', other]) ++ expandProxyCommand characters

end

def refusedCommand (command : String) : Bool :=
  command.toList.all isWhitespace || command.toList.contains (Char.ofNat 0) || command.toList.any isBidiOrControl

/-- What is handed to `/bin/sh -c`. -/
def spawnProxyCommand (command : String) (settings : ConnectionSettings) : Except UserFacingError (List Char) :=
  if refusedCommand command = true then
    .error ⟨.unknown, "Invalid Connection Command",
      "The configured connection command contains invalid characters or is empty.", none, false⟩
  else .ok (expandProxyCommand settings.host.toList settings.port settings.username.toList command.toList)

/-- The parts a template is made of. -/
inductive Piece
  | character (c : Char)
  | port
  | host
  | username
  deriving DecidableEq, Repr

def pieces : List Char → List Piece
  | [] => []
  | character :: characters =>
    if character ≠ '%' then .character character :: pieces characters
    else match characters with
      | [] => [.character '%']
      | other :: characters =>
        (if other = '%' then [.character '%'] else if other = 'h' then [.host] else if other = 'p' then [.port]
          else if other = 'r' then [.username] else [.character '%', .character other]) ++ pieces characters

/-- The quoted value, with a mark on the characters that come from the value itself. -/
def quoteMarked (value : List Char) : List (Char × Bool) :=
  ('\'', false) :: value.flatMap (fun c => if c = '\'' then [('\'', false), ('\\', false), ('\'', true),
    ('\'', false)] else [(c, true)]) ++
    [('\'', false)]

def Piece.marked (host : List Char) (port : Nat) (username : List Char) : Piece → List (Char × Bool)
  | .character c => [(c, false)]
  | .port => (portText port).map (·, false)
  | .host => quoteMarked host
  | .username => quoteMarked username

def expandMarked (host : List Char) (port : Nat) (username command : List Char) : List (Char × Bool) :=
  (pieces command).flatMap (Piece.marked host port username)

/-- Every marked character is read as the predicate says, where the shell comes to it. -/
def MarkedAre (P : Reader → Char → Prop) : Reader → List (Char × Bool) → Prop
  | _, [] => True
  | r, (c, isValue) :: text => (isValue = true → P r c) ∧ MarkedAre P (r.step c).1 text

instance decidableMarkedAre (P : Reader → Char → Prop) [∀ r c, Decidable (P r c)] :
    ∀ r text, Decidable (MarkedAre P r text)
  | _, [] => .isTrue trivial
  | r, (c, isValue) :: text =>
    have := decidableMarkedAre P (r.step c).1 text
    inferInstanceAs (Decidable ((isValue = true → P r c) ∧ MarkedAre P (r.step c).1 text))

/-- A part of what the shell reads: an event of its own, or the place of a value. -/
inductive Slot
  | event (e : Event)
  | host
  | username

def Slot.filled (host username : List Char) : Slot → List Event
  | .event e => [e]
  | .host => host.map .literal
  | .username => username.map .literal

/-- No host and no username is anything but data, and what the shell reads besides them does not depend on them. -/
def InjectionFree (command : String) (settings : ConnectionSettings) : Prop :=
  ∃ slots : List Slot, ∀ host username text,
    spawnProxyCommand command { settings with host := host, username := username } = .ok text →
      MarkedAre Reader.IsData Reader.start (expandMarked host.toList settings.port username.toList command.toList) ∧
        Reader.start.reading text = slots.flatMap (Slot.filled host.toList username.toList)

/-- Every `%h` and `%r` of the template stands where the shell takes a single quote as the start of a quoted string. -/
def placedUnquoted (port : Nat) : Reader → List Piece → Bool
  | _, [] => true
  | r, .character c :: rest => placedUnquoted port (r.step c).1 rest
  | r, .port :: rest => placedUnquoted port (r.after (portText port)) rest
  | r, .host :: rest => r.takesQuote && placedUnquoted port r.text.inWord rest
  | r, .username :: rest => r.takesQuote && placedUnquoted port r.text.inWord rest

theorem quoteMarked_text (value : List Char) : (quoteMarked value).map Prod.fst = shellQuote value := by
  rw [quoteMarked, shellQuote, List.map_append, List.map_cons, List.map_flatMap]
  congr 3
  funext c
  split_ifs <;> rfl

theorem unmarked_text (text : List Char) : (text.map fun c => (c, false)).map Prod.fst = text := by
  rw [List.map_map]
  exact List.map_id text

theorem marked_text (host : List Char) (port : Nat) (username command : List Char) :
    (expandMarked host port username command).map Prod.fst = expandProxyCommand host port username command := by
  unfold expandMarked
  fun_induction pieces command with
  | case1 => rfl
  | case2 character characters other ih =>
    have expanded : expandProxyCommand host port username (character :: characters) =
        character :: expandProxyCommand host port username characters := by
      rw [expandProxyCommand.eq_def]
      exact if_pos other
    rw [List.flatMap_cons, List.map_append, ih, expanded]
    rfl
  | case3 character percent =>
    rw [expandProxyCommand.eq_def]
    exact (if_neg percent).symm
  | case4 character percent other characters ih =>
    rw [expandProxyCommand.eq_def, List.flatMap_append, List.map_append, ih]
    refine Eq.trans ?_ (if_neg percent).symm
    congr 1
    split_ifs
    · rfl
    · rw [List.flatMap_singleton]
      exact quoteMarked_text host
    · rw [List.flatMap_singleton]
      exact unmarked_text (portText port)
    · rw [List.flatMap_singleton]
      exact quoteMarked_text username
    · rfl

section Marked

variable {P : Reader → Char → Prop}

theorem markedAre_append (r : Reader) (front rest : List (Char × Bool)) :
    MarkedAre P r (front ++ rest) ↔ MarkedAre P r front ∧ MarkedAre P (r.after (front.map Prod.fst)) rest := by
  induction front generalizing r with
  | nil => simp [MarkedAre]
  | cons c front ih => simp only [List.cons_append, MarkedAre, ih, List.map_cons, Reader.after_cons, and_assoc]

theorem markedAre_unmarked (r : Reader) (text : List Char) : MarkedAre P r (text.map (·, false)) := by
  induction text generalizing r with
  | nil => trivial
  | cons c text ih => exact ⟨nofun, ih _⟩

end Marked

/-- How the shell reads a text: the marked characters as data, the events of all of it, and where it comes out. -/
structure ReadsAs (r : Reader) (text : List (Char × Bool)) (events : List Event) (r' : Reader) : Prop where
  data : MarkedAre Reader.IsData r text
  reading : r.reading (text.map Prod.fst) = events
  after : r.after (text.map Prod.fst) = r'

namespace ReadsAs

theorem nil (r : Reader) : ReadsAs r [] [] r := ⟨trivial, rfl, rfl⟩

theorem append {r s u : Reader} {front rest : List (Char × Bool)} {events more : List Event}
    (first : ReadsAs r front events s) (second : ReadsAs s rest more u) : ReadsAs r (front ++ rest) (events ++ more) u where
  data := (markedAre_append r front rest).mpr ⟨first.data, first.after.symm ▸ second.data⟩
  reading := by rw [List.map_append, Reader.reading_append, first.reading, first.after, second.reading]
  after := by rw [List.map_append, Reader.after_append, first.after, second.after]

theorem unmarked (r : Reader) (text : List Char) : ReadsAs r (text.map (·, false)) (r.reading text) (r.after text) where
  data := markedAre_unmarked r text
  reading := by rw [unmarked_text]
  after := by rw [unmarked_text]

theorem char {r s : Reader} {c : Char} {events : List Event} (step : r.step c = (s, events)) : ReadsAs r [(c, false)] events s where
  data := ⟨nofun, trivial⟩
  reading := by simp [step]
  after := by simp [step]

theorem value {r s : Reader} {c : Char} (quoted : r.frame = .single ∨ r.frame = .escape) (step : r.step c = (s, [.literal c])) :
    ReadsAs r [(c, true)] [.literal c] s where
  data := ⟨fun _ => ⟨quoted, by rw [Reader.ReadsLiterally, step]⟩, trivial⟩
  reading := by simp [step]
  after := by simp [step]

end ReadsAs

theorem readsAs_value {r : Reader} (quotes : r.frame.quotes = true) (value : List Char) :
    ReadsAs (r.inWord.push .single)
      (value.flatMap fun c => if c = '\'' then [('\'', false), ('\\', false), ('\'', true), ('\'', false)] else [(c, true)])
      (value.map .literal) (r.inWord.push .single) := by
  have inside := Reader.inWord_quotes quotes
  have reopened : r.inWord.step '\'' = (r.inWord.push .single, []) := by
    rw [Reader.step_quote (by rw [Reader.takesQuote, Reader.text_quotes inside]; exact inside), Reader.quoteEvents,
      Reader.text_quotes inside, Reader.inWord_inWord, Reader.inWord_wordEvent, if_neg, List.nil_append]
    intro paren
    rw [paren] at inside
    exact Bool.false_ne_true inside
  induction value with
  | nil => exact .nil _
  | cons c value ih =>
    rw [List.flatMap_cons, List.map_cons]
    refine ReadsAs.append (?_ : ReadsAs _ _ [.literal c] _) ih
    split_ifs with quote
    · subst quote
      have closed := ReadsAs.char (Reader.step_close r.inWord)
      have behind := ReadsAs.char (Reader.step_backslash inside)
      have escaped := ReadsAs.value (.inr rfl) (Reader.step_escaped_quote r)
      exact closed.append (behind.append (escaped.append (.char reopened)))
    · exact .value (.inl rfl) (Reader.step_single quote)

theorem readsAs_quoted {r : Reader} (takes : r.takesQuote = true) (value : List Char) :
    ReadsAs r (quoteMarked value) (r.quoteEvents ++ value.map .literal) r.text.inWord := by
  have opened := ReadsAs.char (Reader.step_quote takes)
  have closed := ReadsAs.char (Reader.step_close r.text.inWord)
  have whole := opened.append ((readsAs_value takes value).append closed)
  rwa [List.append_nil] at whole

/-- The parts of what the shell reads when every value is placed where quotes are taken. -/
def slots (port : Nat) : Reader → List Piece → List Slot
  | _, [] => []
  | r, .character c :: rest => (r.step c).2.map .event ++ slots port (r.step c).1 rest
  | r, .port :: rest => (r.reading (portText port)).map .event ++ slots port (r.after (portText port)) rest
  | r, .host :: rest => r.quoteEvents.map .event ++ .host :: slots port r.text.inWord rest
  | r, .username :: rest => r.quoteEvents.map .event ++ .username :: slots port r.text.inWord rest

theorem filled_events (host username : List Char) (events : List Event) :
    (events.map Slot.event).flatMap (Slot.filled host username) = events := by
  induction events with
  | nil => rfl
  | cons e events ih => rw [List.map_cons, List.flatMap_cons, ih]; rfl

theorem readsAs_placed (host : List Char) (port : Nat) (username : List Char) {r : Reader} {template : List Piece}
    (placed : placedUnquoted port r template = true) :
    ∃ r', ReadsAs r (template.flatMap (Piece.marked host port username))
      ((slots port r template).flatMap (Slot.filled host username)) r' := by
  induction template generalizing r with
  | nil => exact ⟨r, .nil r⟩
  | cons piece rest ih =>
    rw [List.flatMap_cons]
    cases piece with
    | character c =>
      obtain ⟨r', tail⟩ := ih placed
      refine ⟨r', ?_⟩
      rw [slots, List.flatMap_append, filled_events]
      exact (ReadsAs.char rfl).append tail
    | port =>
      obtain ⟨r', tail⟩ := ih placed
      refine ⟨r', ?_⟩
      rw [slots, List.flatMap_append, filled_events]
      exact (ReadsAs.unmarked r (portText port)).append tail
    | host =>
      obtain ⟨takes, placed⟩ := Bool.and_eq_true_iff.mp placed
      obtain ⟨r', tail⟩ := ih placed
      refine ⟨r', ?_⟩
      rw [slots, List.flatMap_append, filled_events, List.flatMap_cons, ← List.append_assoc]
      exact (readsAs_quoted takes host).append tail
    | username =>
      obtain ⟨takes, placed⟩ := Bool.and_eq_true_iff.mp placed
      obtain ⟨r', tail⟩ := ih placed
      refine ⟨r', ?_⟩
      rw [slots, List.flatMap_append, filled_events, List.flatMap_cons, ← List.append_assoc]
      exact (readsAs_quoted takes username).append tail

/-- A value that no other quoting keeps from being read. -/
def hostile : String := "`\\"

theorem hostile_active {r : Reader} (grounded : r.Grounded) (refuses : r.takesQuote = false) (rest : List (Char × Bool)) :
    ¬ MarkedAre Reader.ReadsLiterally r (quoteMarked hostile.toList ++ rest) := by
  intro all
  have front := ((markedAre_append _ _ _).mp all).1
  exact Reader.active_after_quote grounded refuses ⟨front.2.1 rfl, front.2.2.1 rfl⟩

theorem placed_of_literal {port : Nat} {r : Reader} (grounded : r.Grounded) {template : List Piece}
    (all : MarkedAre Reader.ReadsLiterally r (template.flatMap (Piece.marked hostile.toList port hostile.toList))) :
    placedUnquoted port r template = true := by
  induction template generalizing r with
  | nil => rfl
  | cons piece rest ih =>
    rw [List.flatMap_cons] at all
    have passed := ((markedAre_append _ _ _).mp all).2
    have quoted (all : MarkedAre Reader.ReadsLiterally r (quoteMarked hostile.toList ++
        rest.flatMap (Piece.marked hostile.toList port hostile.toList))) :
        (r.takesQuote && placedUnquoted port r.text.inWord rest) = true := by
      cases takes : r.takesQuote with
      | false => exact absurd all (hostile_active grounded takes _)
      | true =>
        have passed := ((markedAre_append _ _ _).mp all).2
        have out := (readsAs_quoted takes hostile.toList).after
        rw [out] at passed
        exact ih (out ▸ Reader.after_grounded grounded _) passed
    cases piece with
    | character c => exact ih (Reader.step_grounded grounded c) passed
    | port =>
      have through : (Piece.marked hostile.toList port hostile.toList .port).map Prod.fst = portText port :=
        unmarked_text (portText port)
      rw [through] at passed
      exact ih (Reader.after_grounded grounded _) passed
    | host => exact quoted all
    | username => exact quoted all

theorem MarkedAre.mono {P Q : Reader → Char → Prop} (weaker : ∀ r c, P r c → Q r c) {r : Reader} {text : List (Char × Bool)}
    (all : MarkedAre P r text) : MarkedAre Q r text := by
  induction text generalizing r with
  | nil => trivial
  | cons c text ih => exact ⟨fun isValue => weaker r c.1 (all.1 isValue), ih all.2⟩

theorem spawnProxyCommand_accepted {command : String} (accepted : refusedCommand command = false) (settings : ConnectionSettings) :
    spawnProxyCommand command settings =
      .ok (expandProxyCommand settings.host.toList settings.port settings.username.toList command.toList) := by
  rw [spawnProxyCommand, accepted]
  rfl

theorem not_injectionFree {command : String} {settings : ConnectionSettings} (accepted : refusedCommand command = false)
    (host username : String)
    (active : ¬ MarkedAre Reader.IsData Reader.start (expandMarked host.toList settings.port username.toList command.toList)) :
    ¬ InjectionFree command settings := by
  rintro ⟨slots, free⟩
  exact active (free host username _ (spawnProxyCommand_accepted accepted _)).1

theorem injectionFree_placed {command : String} {settings : ConnectionSettings}
    (placed : placedUnquoted settings.port Reader.start (pieces command.toList) = true) : InjectionFree command settings := by
  refine ⟨slots settings.port Reader.start (pieces command.toList), ?_⟩
  intro host username text spawned
  obtain ⟨r', reads⟩ := readsAs_placed host.toList settings.port username.toList placed
  refine ⟨reads.data, ?_⟩
  unfold spawnProxyCommand at spawned
  split_ifs at spawned
  obtain rfl := Except.ok.inj spawned
  rw [← marked_text]
  exact reads.reading

theorem not_placed_active {command : String} {settings : ConnectionSettings}
    (not_placed : ¬ placedUnquoted settings.port Reader.start (pieces command.toList) = true) :
    ¬ MarkedAre Reader.ReadsLiterally Reader.start (expandMarked hostile.toList settings.port hostile.toList command.toList) :=
  fun all => not_placed (placed_of_literal Reader.start_grounded all)

/-- A template keeps every host and username data exactly when it places them unquoted; where it does not, a host and a
username that the connection takes are read as something else. -/
theorem injectionFree_iff (command : String) (settings : ConnectionSettings) (accepted : refusedCommand command = false) :
    (InjectionFree command settings ↔ placedUnquoted settings.port Reader.start (pieces command.toList) = true) ∧
      (¬ placedUnquoted settings.port Reader.start (pieces command.toList) = true → ∃ host username : String,
        Handshake.invalidText host = false ∧ Handshake.invalidText username = false ∧
          ¬ MarkedAre Reader.ReadsLiterally Reader.start
            (expandMarked host.toList settings.port username.toList command.toList)) := by
  refine ⟨⟨?_, injectionFree_placed⟩, ?_⟩
  · intro free
    by_contra not_placed
    refine not_injectionFree accepted hostile hostile ?_ free
    intro all
    exact not_placed_active not_placed (all.mono fun _ _ isData => isData.2)
  · intro not_placed
    exact ⟨hostile, hostile, by decide +kernel, by decide +kernel, not_placed_active not_placed⟩

/-- The settings of a connection to one server, by its password. -/
def serverSettings : ConnectionSettings := ⟨"server", 22, "user", .password "secret", .direct⟩

theorem injectionFree_plain :
    InjectionFree "nc %h %p" serverSettings ↔ placedUnquoted serverSettings.port Reader.start (pieces "nc %h %p".toList) = true :=
  (injectionFree_iff "nc %h %p" serverSettings (by decide +kernel)).1

/-- Between the double quotes of a template, a host of `$(id)` is a command that runs. -/
theorem double_quoted_host_runs : ¬ ∀ command settings, refusedCommand command = false → InjectionFree command settings := by
  intro all
  have accepted : refusedCommand "nc \"%h\" 22" = false := by decide +kernel
  exact not_injectionFree accepted "$(id)" "user" (by decide +kernel) (all _ serverSettings accepted)

end MacSftp.ProxyCommand
