import Mathlib.Data.List.Basic

namespace MacSftp.Lib.Shell

/-! How a POSIX shell reads a command text character by character: the quoting rules, the words and operators they
leave, and the expansions they let through. Parentheses are matched by their number, so the closing one of a `case`
pattern inside `$(...)` that has no opening one is taken for the end of the substitution. A command in backquotes is not
looked into, since the substitution reads its characters anew. -/

/-- The constructs a character can stand in. -/
inductive Frame
  | command (inWord : Bool)
  | escape
  | single
  | double
  | doubleEscape
  | dollar
  | dollarSingle (escaped : Bool)
  | dollarParen
  | name
  | brace (quoted : Bool)
  | arithmetic (depth : Nat)
  | backquote (escaped : Bool)
  | comment
  deriving DecidableEq, Repr

inductive Event
  | word
  | literal (c : Char)
  | plain (c : Char)
  | operator (c : Char)
  | parameter (c : Char)
  | commandSubstitution
  | arithmeticExpansion
  | substituted (c : Char)
  deriving DecidableEq, Repr

structure Reader where
  frame : Frame
  below : List Frame
  deriving DecidableEq, Repr

def isBlank (c : Char) : Bool := c = ' ' || c = '\t'

def isOperator (c : Char) : Bool := c = '&' || c = '|' || c = ';' || c = '<' || c = '>' || c = '\n'

def isNameChar (c : Char) : Bool := c.isAlphanum || c = '_'

def isSpecialParameter (c : Char) : Bool :=
  c = '@' || c = '*' || c = '#' || c = '?' || c = '-' || c = '$' || c = '!'

/-- A single quote opens a quoted string here. -/
def Frame.quotes : Frame → Bool
  | .command _ => true
  | .brace quoted => !quoted
  | _ => false

/-- What stands in the frame is read as in double quotes. -/
def Frame.doubled : Frame → Bool
  | .double | .arithmetic _ | .brace true => true
  | _ => false

def Frame.isText : Frame → Bool
  | .command _ | .double | .brace _ | .arithmetic _ => true
  | _ => false

namespace Reader

def start : Reader := ⟨.command false, []⟩

def push (r : Reader) (frame : Frame) : Reader := ⟨frame, r.frame :: r.below⟩

def pop (r : Reader) : Reader :=
  match r.below with
  | [] => start
  | frame :: below => ⟨frame, below⟩

def inWord (r : Reader) : Reader :=
  match r.frame with
  | .command _ => ⟨.command true, r.below⟩
  | _ => r

/-- The event of a character that belongs to a word. -/
def wordEvent (r : Reader) : List Event := if r.frame = .command false then [.word] else []

def readCommand (r : Reader) (c : Char) : Reader × List Event :=
  if c = '\\' then (r.push .escape, [])
  else if c = '\'' then (r.inWord.push .single, r.wordEvent)
  else if c = '"' then (r.inWord.push .double, r.wordEvent)
  else if c = '$' then (r.inWord.push .dollar, r.wordEvent)
  else if c = '`' then (r.inWord.push (.backquote false), r.wordEvent ++ [.commandSubstitution])
  else if c = '#' ∧ r.frame = .command false then (r.push .comment, [])
  else if c = '(' then (⟨.command false, .command false :: r.below⟩, [.operator c])
  else if c = ')' then (r.pop, [.operator c])
  else if isOperator c then (⟨.command false, r.below⟩, [.operator c])
  else if isBlank c then (⟨.command false, r.below⟩, [])
  else (r.inWord, r.wordEvent ++ [.plain c])

def readDouble (r : Reader) (c : Char) : Reader × List Event :=
  if c = '"' then (r.pop, [])
  else if c = '\\' then (r.push .doubleEscape, [])
  else if c = '$' then (r.push .dollar, [])
  else if c = '`' then (r.push (.backquote false), [.commandSubstitution])
  else (r, [.literal c])

def readBrace (r : Reader) (quoted : Bool) (c : Char) : Reader × List Event :=
  if c = '}' then (r.pop, [.plain c])
  else if c = '\\' then (r.push .escape, [])
  else if c = '\'' ∧ quoted = false then (r.push .single, [])
  else if c = '"' then (r.push .double, [])
  else if c = '$' then (r.push .dollar, [])
  else if c = '`' then (r.push (.backquote false), [.commandSubstitution])
  else (r, [.plain c])

def readArithmetic (r : Reader) (depth : Nat) (c : Char) : Reader × List Event :=
  if c = '(' then (⟨.arithmetic (depth + 1), r.below⟩, [.plain c])
  else if c = ')' then (if depth ≤ 1 then r.pop else ⟨.arithmetic (depth - 1), r.below⟩, [.plain c])
  else if c = '\\' then (r.push .doubleEscape, [])
  else if c = '$' then (r.push .dollar, [])
  else if c = '`' then (r.push (.backquote false), [.commandSubstitution])
  else (r, [.plain c])

/-- A character where no character before it decides how it is read. -/
def readText (r : Reader) (c : Char) : Reader × List Event :=
  match r.frame with
  | .command _ => r.readCommand c
  | .double => r.readDouble c
  | .brace quoted => r.readBrace quoted c
  | .arithmetic depth => r.readArithmetic depth c
  | _ => (r, [.plain c])

def readEscaped (r : Reader) (c : Char) : Reader × List Event :=
  if c = '\n' then (r.pop, []) else (r.pop.inWord, r.pop.wordEvent ++ [.literal c])

def readDoubleEscaped (r : Reader) (c : Char) : Reader × List Event :=
  if c = '\n' then (r.pop, [])
  else if c = '$' ∨ c = '`' ∨ c = '"' ∨ c = '\\' then (r.pop, [.literal c])
  else (r.pop, [.literal '\\', .literal c])

def readDollar (r : Reader) (c : Char) : Reader × List Event :=
  if c = '(' then (⟨.dollarParen, r.below⟩, [])
  else if c = '{' then (⟨.brace r.pop.frame.doubled, r.below⟩, [.parameter c])
  else if isSpecialParameter c ∨ c.isDigit then (r.pop, [.parameter c])
  else if isNameChar c then (⟨.name, r.below⟩, [.parameter c])
  else if c = '\'' ∧ r.pop.frame.doubled = false then (⟨.dollarSingle false, r.below⟩, [])
  else ((r.pop.readText c).1, .plain '$' :: (r.pop.readText c).2)

/-- One character of the text: what has been read after it, and what it adds to the words, operators and expansions. -/
def step (r : Reader) (c : Char) : Reader × List Event :=
  match r.frame with
  | .escape => r.readEscaped c
  | .single => if c = '\'' then (r.pop, []) else (r, [.literal c])
  | .doubleEscape => r.readDoubleEscaped c
  | .dollar => r.readDollar c
  | .dollarSingle true => (⟨.dollarSingle false, r.below⟩, [.plain c])
  | .dollarSingle false =>
    if c = '\'' then (r.pop, []) else if c = '\\' then (⟨.dollarSingle true, r.below⟩, []) else (r, [.literal c])
  | .dollarParen =>
    if c = '(' then (⟨.arithmetic 2, r.below⟩, [.arithmeticExpansion])
    else (((r.pop.push (.command false)).readText c).1, .commandSubstitution :: ((r.pop.push (.command false)).readText c).2)
  | .name => if isNameChar c then (r, [.parameter c]) else r.pop.readText c
  | .backquote true => (⟨.backquote false, r.below⟩, [.substituted c])
  | .backquote false =>
    if c = '`' then (r.pop, []) else if c = '\\' then (⟨.backquote true, r.below⟩, []) else (r, [.substituted c])
  | .comment => if c = '\n' then (r.pop, [.operator c]) else (r, [])
  | _ => r.readText c

def after (r : Reader) (text : List Char) : Reader := text.foldl (fun r c => (r.step c).1) r

/-- What the reader makes of a text. -/
def reading (r : Reader) : List Char → List Event
  | [] => []
  | c :: text => (r.step c).2 ++ (r.step c).1.reading text

/-- The character is read as itself. -/
def ReadsLiterally (r : Reader) (c : Char) : Prop := (r.step c).2 = [.literal c]

/-- The character is data: it stands between single quotes or behind a backslash, and is read as itself. -/
def IsData (r : Reader) (c : Char) : Prop := (r.frame = .single ∨ r.frame = .escape) ∧ r.ReadsLiterally c

instance (r : Reader) (c : Char) : Decidable (r.ReadsLiterally c) := inferInstanceAs (Decidable ((r.step c).2 = [.literal c]))

instance (r : Reader) (c : Char) : Decidable (r.IsData c) :=
  inferInstanceAs (Decidable ((r.frame = .single ∨ r.frame = .escape) ∧ r.ReadsLiterally c))

/-- The frame that a quote comes to. -/
def text (r : Reader) : Reader :=
  match r.frame with
  | .name => r.pop
  | .dollarParen => r.pop.push (.command false)
  | _ => r

/-- The events of a quote that opens a quoted string. -/
def quoteEvents (r : Reader) : List Event :=
  (if r.frame = .dollarParen then [.commandSubstitution] else []) ++ r.text.wordEvent

/-- A single quote opens a quoted string after what has been read. -/
def takesQuote (r : Reader) : Bool := r.text.frame.quotes

/-- What the other constructs stand in is text. -/
def Grounded (r : Reader) : Prop := ∀ frame ∈ r.below, frame.isText = true

@[simp] theorem after_nil (r : Reader) : r.after [] = r := rfl

@[simp] theorem after_cons (r : Reader) (c : Char) (text : List Char) : r.after (c :: text) = (r.step c).1.after text := rfl

theorem after_append (r : Reader) (front rest : List Char) : r.after (front ++ rest) = (r.after front).after rest :=
  List.foldl_append

@[simp] theorem reading_nil (r : Reader) : r.reading [] = [] := rfl

@[simp] theorem reading_cons (r : Reader) (c : Char) (text : List Char) :
    r.reading (c :: text) = (r.step c).2 ++ (r.step c).1.reading text := rfl

theorem reading_append (r : Reader) (front rest : List Char) :
    r.reading (front ++ rest) = r.reading front ++ (r.after front).reading rest := by
  induction front generalizing r with
  | nil => rfl
  | cons c front ih => rw [List.cons_append, reading_cons, reading_cons, after_cons, ih, List.append_assoc]

@[simp] theorem pop_push (r : Reader) (frame : Frame) : (r.push frame).pop = r := rfl

@[simp] theorem push_frame (r : Reader) (frame : Frame) : (r.push frame).frame = frame := rfl

@[simp] theorem inWord_inWord (r : Reader) : r.inWord.inWord = r.inWord := by
  obtain ⟨frame, below⟩ := r
  cases frame <;> rfl

@[simp] theorem inWord_wordEvent (r : Reader) : r.inWord.wordEvent = [] := by
  obtain ⟨frame, below⟩ := r
  cases frame <;> simp [inWord, wordEvent]

theorem inWord_quotes {r : Reader} (quotes : r.frame.quotes = true) : r.inWord.frame.quotes = true := by
  obtain ⟨frame, below⟩ := r
  cases frame <;> simp_all [inWord, Frame.quotes]

theorem text_quotes {r : Reader} (quotes : r.frame.quotes = true) : r.text = r := by
  obtain ⟨frame, below⟩ := r
  cases frame <;> first | rfl | simp [Frame.quotes] at quotes

theorem step_quote {r : Reader} (takes : r.takesQuote = true) :
    r.step '\'' = (r.text.inWord.push .single, r.quoteEvents) := by
  have opens : ∀ r : Reader, r.frame.quotes = true → r.readText '\'' = (r.inWord.push .single, r.wordEvent) := by
    rintro ⟨frame, below⟩ quotes
    cases frame <;> simp_all [Frame.quotes, readText, readCommand, readBrace, inWord, wordEvent]
  obtain ⟨frame, below⟩ := r
  cases frame
  case name => exact opens _ takes
  case command => exact opens _ takes
  case brace => exact opens _ takes
  case dollarParen =>
    have opened := opens ((Reader.pop ⟨.dollarParen, below⟩).push (.command false)) rfl
    simp [step, quoteEvents, text, opened]
  all_goals simp [takesQuote, text, Frame.quotes] at takes

theorem step_single {r : Reader} {c : Char} (plain : c ≠ '\'') :
    (r.push .single).step c = (r.push .single, [.literal c]) := by
  simp [step, plain]

theorem step_close (r : Reader) : (r.push .single).step '\'' = (r, []) := by
  simp [step]

theorem step_backslash {r : Reader} (quotes : r.frame.quotes = true) : r.step '\\' = (r.push .escape, []) := by
  obtain ⟨frame, below⟩ := r
  cases frame <;> simp_all [Frame.quotes, step, readText, readCommand, readBrace]

theorem step_escaped_quote (r : Reader) : (r.inWord.push .escape).step '\'' = (r.inWord, [.literal '\'']) := by
  simp [step, readEscaped]

theorem start_grounded : start.Grounded := fun _ listed => absurd listed List.not_mem_nil

theorem pop_grounded {r : Reader} (grounded : r.Grounded) : r.pop.Grounded ∧ r.pop.frame.isText = true := by
  obtain ⟨frame, _ | ⟨next, below⟩⟩ := r
  · exact ⟨nofun, rfl⟩
  · exact ⟨fun f listed => grounded f (List.mem_cons_of_mem next listed), grounded next List.mem_cons_self⟩

theorem push_grounded {r : Reader} (grounded : r.Grounded) (text : r.frame.isText = true) (frame : Frame) :
    (r.push frame).Grounded := by
  intro f listed
  rcases List.mem_cons.mp listed with rfl | listed
  · exact text
  · exact grounded f listed

theorem inWord_grounded {r : Reader} (grounded : r.Grounded) : r.inWord.Grounded := by
  obtain ⟨frame, below⟩ := r
  cases frame <;> exact grounded

theorem inWord_isText (r : Reader) : r.inWord.frame.isText = r.frame.isText := by
  obtain ⟨frame, below⟩ := r
  cases frame <;> rfl

theorem readText_grounded {r : Reader} (grounded : r.Grounded) (text : r.frame.isText = true) (c : Char) :
    (r.readText c).1.Grounded := by
  have words := inWord_grounded grounded
  have inside (frame : Frame) := push_grounded grounded text frame
  have begun (frame : Frame) := push_grounded words ((inWord_isText r).trans text) frame
  have closed := (pop_grounded grounded).1
  unfold readText
  split
  · unfold readCommand
    split_ifs <;> first | exact inside _ | exact begun _ | exact closed | exact words | exact grounded | skip
    intro f listed
    rcases List.mem_cons.mp listed with rfl | listed
    · rfl
    · exact grounded f listed
  · unfold readDouble
    split_ifs <;> first | exact inside _ | exact closed | exact grounded
  · unfold readBrace
    split_ifs <;> first | exact inside _ | exact closed | exact grounded
  · unfold readArithmetic
    split_ifs <;> first | exact inside _ | exact closed | exact grounded
  · exact grounded

theorem step_grounded {r : Reader} (grounded : r.Grounded) (c : Char) : (r.step c).1.Grounded := by
  obtain ⟨closed, text⟩ := pop_grounded grounded
  unfold step
  split
  · unfold readEscaped
    split_ifs
    · exact closed
    · exact inWord_grounded closed
  · split_ifs <;> assumption
  · unfold readDoubleEscaped
    split_ifs <;> exact closed
  · unfold readDollar
    split_ifs <;> first | exact closed | exact grounded | exact readText_grounded closed text c
  · exact grounded
  · split_ifs <;> first | exact closed | exact grounded
  · split_ifs
    · exact grounded
    · exact readText_grounded (push_grounded closed text _) rfl c
  · split_ifs
    · exact grounded
    · exact readText_grounded closed text c
  · exact grounded
  · split_ifs <;> first | exact closed | exact grounded
  · split_ifs <;> first | exact closed | exact grounded
  · have isText : r.frame.isText = true := by
      obtain ⟨frame, below⟩ := r
      cases frame <;> simp_all [Frame.isText]
    exact readText_grounded grounded isText c

theorem text_active {r : Reader} (text : r.frame.isText = true) : ¬ r.ReadsLiterally '`' := by
  obtain ⟨frame, below⟩ := r
  cases frame
  case command inWord => cases inWord <;> simp [ReadsLiterally, step, readText, readCommand, wordEvent]
  case double => simp [ReadsLiterally, step, readText, readDouble]
  case brace => simp [ReadsLiterally, step, readText, readBrace]
  case arithmetic => simp [ReadsLiterally, step, readText, readArithmetic]
  all_goals simp [Frame.isText] at text

theorem readText_quote {r : Reader} (text : r.frame.isText = true) (refuses : r.frame.quotes = false) :
    (r.readText '\'').1 = r := by
  obtain ⟨frame, below⟩ := r
  cases frame
  case double => simp [readText, readDouble]
  case arithmetic => simp [readText, readArithmetic]
  case brace => simp_all [Frame.quotes, readText, readBrace]
  case command => simp [Frame.quotes] at refuses
  all_goals simp [Frame.isText] at text

theorem doubled_quotes {frame : Frame} (doubled : frame.doubled = true) : frame.quotes = false := by
  cases frame
  case brace quoted => cases quoted <;> simp_all [Frame.doubled, Frame.quotes]
  all_goals first | rfl | simp [Frame.doubled] at doubled

theorem active_after_quote {r : Reader} (grounded : r.Grounded) (refuses : r.takesQuote = false) :
    ¬ ((r.step '\'').1.ReadsLiterally '`' ∧ ((r.step '\'').1.step '`').1.ReadsLiterally '\\') := by
  obtain ⟨closed, text⟩ := pop_grounded grounded
  have textual (s : Reader) (read : (r.step '\'').1 = s) (text : s.frame.isText = true) :
      ¬ ((r.step '\'').1.ReadsLiterally '`' ∧ ((r.step '\'').1.step '`').1.ReadsLiterally '\\') := by
    rw [read]
    exact fun both => text_active text both.1
  cases frame : r.frame
  case command => simp [takesQuote, Reader.text, frame, Frame.quotes] at refuses
  case dollarParen => simp [takesQuote, Reader.text, frame, Frame.quotes] at refuses
  case escape => exact textual r.pop.inWord (by simp [step, frame, readEscaped]) (by rw [inWord_isText]; exact text)
  case single => exact textual r.pop (by simp [step, frame]) text
  case doubleEscape => exact textual r.pop (by simp [step, frame, readDoubleEscaped]) text
  case double => exact textual r (by simp [step, frame, readText, readDouble]) (by rw [frame]; rfl)
  case arithmetic => exact textual r (by simp [step, frame, readText, readArithmetic]) (by rw [frame]; rfl)
  case brace quoted =>
    simp [takesQuote, Reader.text, frame, Frame.quotes] at refuses
    subst refuses
    exact textual r (by simp [step, frame, readText, readBrace]) (by rw [frame]; rfl)
  case name =>
    have popped : r.pop.frame.quotes = false := by simpa [takesQuote, Reader.text, frame] using refuses
    have passed : (r.step '\'').1 = (r.pop.readText '\'').1 := by simp [step, frame, isNameChar]
    exact textual r.pop (passed.trans (readText_quote text popped)) text
  case dollar =>
    by_cases doubled : r.pop.frame.doubled = true
    · have popped : r.pop.frame.quotes = false := by
        exact doubled_quotes doubled
      have passed : (r.step '\'').1 = (r.pop.readText '\'').1 := by
        simp [step, frame, readDollar, doubled, isNameChar, isSpecialParameter]
      exact textual r.pop (passed.trans (readText_quote text popped)) text
    · simp [ReadsLiterally, step, frame, readDollar, doubled, isNameChar, isSpecialParameter]
  case dollarSingle escaped =>
    cases escaped
    · exact textual r.pop (by simp [step, frame]) text
    · simp [ReadsLiterally, step, frame]
  case backquote escaped => cases escaped <;> simp [ReadsLiterally, step, frame]
  case comment => simp [ReadsLiterally, step, frame]

theorem after_grounded {r : Reader} (grounded : r.Grounded) (text : List Char) : (r.after text).Grounded := by
  induction text generalizing r with
  | nil => exact grounded
  | cons c text ih => exact ih (step_grounded grounded c)

end Reader

end MacSftp.Lib.Shell
