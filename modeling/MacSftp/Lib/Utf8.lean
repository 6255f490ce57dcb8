import Mathlib.Tactic

namespace MacSftp.Lib.Utf8

def replacementCharacter : Char := Char.ofNat 0xFFFD

/-- A sequence whose first bytes have been read: how many continuation bytes it still wants, and
between which bounds the next of them has to lie. -/
structure Unfinished where
  wanted : Nat
  low : Nat
  high : Nat
  point : Nat
  continuation : 0x80 ≤ low

def lead (b : Nat) : List Char × Option Unfinished :=
  if b < 0x80 then ([Char.ofNat b], none)
  else if b < 0xC2 then ([replacementCharacter], none)
  else if b < 0xE0 then ([], some ⟨1, 0x80, 0xBF, b - 0xC0, by omega⟩)
  else if b = 0xE0 then ([], some ⟨2, 0xA0, 0xBF, 0, by omega⟩)
  else if b = 0xED then ([], some ⟨2, 0x80, 0x9F, 0xD, by omega⟩)
  else if b < 0xF0 then ([], some ⟨2, 0x80, 0xBF, b - 0xE0, by omega⟩)
  else if b = 0xF0 then ([], some ⟨3, 0x90, 0xBF, 0, by omega⟩)
  else if b < 0xF4 then ([], some ⟨3, 0x80, 0xBF, b - 0xF0, by omega⟩)
  else if b = 0xF4 then ([], some ⟨3, 0x80, 0x8F, 4, by omega⟩)
  else ([replacementCharacter], none)

/-- One byte of input: the characters it completes and the sequence it leaves unfinished. -/
def feed : Option Unfinished → Nat → List Char × Option Unfinished
  | none, b => lead b
  | some s, b =>
    if s.low ≤ b ∧ b ≤ s.high then
      if s.wanted ≤ 1 then ([Char.ofNat (s.point * 64 + (b - 0x80))], none)
      else ([], some ⟨s.wanted - 1, 0x80, 0xBF, s.point * 64 + (b - 0x80), by omega⟩)
    else (replacementCharacter :: (lead b).1, (lead b).2)

def decodeFrom : Option Unfinished → List UInt8 → List Char
  | none, [] => []
  | some _, [] => [replacementCharacter]
  | s, b :: bytes => (feed s b.toNat).1 ++ decodeFrom (feed s b.toNat).2 bytes

/-- `String::from_utf8_lossy`: each maximal ill-formed part becomes one replacement character. -/
def fromUtf8Lossy (bytes : List UInt8) : List Char := decodeFrom none bytes

def encode (text : List Char) : List UInt8 := text.flatMap String.utf8EncodeChar

theorem decodeFrom_cons (s : Option Unfinished) (b : UInt8) (bytes : List UInt8) :
    decodeFrom s (b :: bytes) = (feed s b.toNat).1 ++ decodeFrom (feed s b.toNat).2 bytes := by
  cases s <;> rfl

theorem lead_ascii {b : Nat} (h : b < 0x80) : lead b = ([Char.ofNat b], none) := by
  rw [lead, if_pos h]

theorem lead_newline : lead 10 = (['\n'], none) := lead_ascii (by decide)

/-- A line feed is never part of a longer sequence, so what stands before it and what stands after
it are decoded apart. -/
theorem decodeFrom_newline (s : Option Unfinished) (before after : List UInt8) :
    decodeFrom s (before ++ 10 :: after) = decodeFrom s before ++ '\n' :: decodeFrom none after := by
  induction before generalizing s with
  | nil =>
    rw [List.nil_append, decodeFrom_cons]
    cases s with
    | none => simp [feed, lead_newline, decodeFrom]
    | some s =>
      have hlow := s.continuation
      have hten : (10 : UInt8).toNat = 10 := rfl
      rw [hten, feed, if_neg (by omega)]
      simp [lead_newline, decodeFrom]
  | cons b bytes ih =>
    rw [List.cons_append, decodeFrom_cons, decodeFrom_cons, ih, List.append_assoc]

theorem fromUtf8Lossy_newline (before after : List UInt8) :
    fromUtf8Lossy (before ++ 10 :: after) = fromUtf8Lossy before ++ '\n' :: fromUtf8Lossy after :=
  decodeFrom_newline none before after

theorem toNat_ofNat {n : Nat} (h : n < 256) : (UInt8.ofNat n).toNat = n := by
  rw [UInt8.toNat_ofNat']
  exact Nat.mod_eq_of_lt h

theorem lead_two {v : Nat} (hlow : 0x80 ≤ v) (hhigh : v ≤ 0x7FF) :
    ∃ s : Unfinished, lead (v / 64 + 0xC0) = ([], some s) ∧ s.wanted = 1 ∧ s.point = v / 64 ∧
      s.low ≤ v % 64 + 0x80 ∧ v % 64 + 0x80 ≤ s.high := by
  refine ⟨⟨1, 0x80, 0xBF, v / 64 + 0xC0 - 0xC0, by omega⟩, ?_, rfl, by simp, by simp, by simp; omega⟩
  rw [lead, if_neg (by omega), if_neg (by omega), if_pos (by omega)]

/-- The first byte of a three byte sequence: the bounds on the second byte leave out the overlong
forms and the surrogates. -/
theorem lead_three {v : Nat} (hlow : 0x800 ≤ v) (hhigh : v ≤ 0xFFFF) (hscalar : v < 0xD800 ∨ 0xDFFF < v) :
    ∃ s : Unfinished, lead (v / 4096 + 0xE0) = ([], some s) ∧ s.wanted = 2 ∧ s.point = v / 4096 ∧
      s.low ≤ v / 64 % 64 + 0x80 ∧ v / 64 % 64 + 0x80 ≤ s.high := by
  rw [lead, if_neg (by omega), if_neg (by omega), if_neg (by omega)]
  split_ifs
  all_goals first | omega | skip
  all_goals refine ⟨_, rfl, rfl, ?_, ?_, ?_⟩
  all_goals simp only
  all_goals omega

theorem lead_four {v : Nat} (hlow : 0xFFFF < v) (hhigh : v < 0x110000) :
    ∃ s : Unfinished, lead (v / 262144 + 0xF0) = ([], some s) ∧ s.wanted = 3 ∧ s.point = v / 262144 ∧
      s.low ≤ v / 4096 % 64 + 0x80 ∧ v / 4096 % 64 + 0x80 ≤ s.high := by
  rw [lead, if_neg (by omega), if_neg (by omega), if_neg (by omega)]
  split_ifs
  all_goals first | omega | skip
  all_goals refine ⟨_, rfl, rfl, ?_, ?_, ?_⟩
  all_goals simp only
  all_goals omega

theorem decodeFrom_last {s : Unfinished} {n : Nat} (hw : s.wanted = 1) (hn : n < 64) (hlow : s.low ≤ n + 0x80)
    (hhigh : n + 0x80 ≤ s.high) (rest : List UInt8) :
    decodeFrom (some s) (UInt8.ofNat (n + 0x80) :: rest) = Char.ofNat (s.point * 64 + n) :: decodeFrom none rest := by
  have hb : (UInt8.ofNat (n + 0x80)).toNat = n + 0x80 := toNat_ofNat (by omega)
  rw [decodeFrom_cons, hb, feed, if_pos ⟨hlow, hhigh⟩, if_pos (by omega), Nat.add_sub_cancel]
  rfl

theorem decodeFrom_middle {s : Unfinished} {n k : Nat} (hw : s.wanted = k + 1) (hk : 0 < k) (hn : n < 64)
    (hlow : s.low ≤ n + 0x80) (hhigh : n + 0x80 ≤ s.high) (rest : List UInt8) :
    decodeFrom (some s) (UInt8.ofNat (n + 0x80) :: rest) =
      decodeFrom (some ⟨k, 0x80, 0xBF, s.point * 64 + n, by omega⟩) rest := by
  have hb : (UInt8.ofNat (n + 0x80)).toNat = n + 0x80 := toNat_ofNat (by omega)
  rw [decodeFrom_cons, hb, feed, if_pos ⟨hlow, hhigh⟩, if_neg (by omega)]
  simp [hw]

theorem decodeFrom_lead {b : Nat} {s : Unfinished} (hb : b < 256) (h : lead b = ([], some s)) (rest : List UInt8) :
    decodeFrom none (UInt8.ofNat b :: rest) = decodeFrom (some s) rest := by
  rw [decodeFrom_cons, toNat_ofNat hb, feed, h]
  rfl

theorem scalar (c : Char) : c.toNat < 0xD800 ∨ 0xDFFF < c.toNat ∧ c.toNat < 0x110000 := c.valid

theorem decodeFrom_encodeChar (c : Char) (rest : List UInt8) :
    decodeFrom none (String.utf8EncodeChar c ++ rest) = c :: decodeFrom none rest := by
  have hc : Char.ofNat c.toNat = c := Char.ofNat_toNat c
  have hscalar := scalar c
  have hv : c.val.toNat = c.toNat := rfl
  unfold String.utf8EncodeChar
  simp only [hv]
  generalize c.toNat = v at hc hscalar
  split_ifs with h1 h2 h3
  · have hb : (UInt8.ofNat v).toNat = v := toNat_ofNat (by omega)
    rw [List.singleton_append, decodeFrom_cons, hb, feed, lead_ascii (by omega), hc]
    rfl
  · obtain ⟨s, hs, hw, hp, hlow, hhigh⟩ := lead_two (v := v) (by omega) h2
    have hdiv : v / 64 % 32 = v / 64 := Nat.mod_eq_of_lt (by omega)
    rw [hdiv, List.cons_append, List.cons_append, List.nil_append, decodeFrom_lead (by omega) hs,
      decodeFrom_last hw (by omega) hlow hhigh, hp, Nat.div_add_mod' v 64, hc]
  · obtain ⟨s, hs, hw, hp, hlow, hhigh⟩ := lead_three (v := v) (by omega) h3 (by omega)
    have hdiv : v / 4096 % 16 = v / 4096 := Nat.mod_eq_of_lt (by omega)
    have hpoint : (v / 4096 * 64 + v / 64 % 64) * 64 + v % 64 = v := by omega
    rw [hdiv, List.cons_append, List.cons_append, List.cons_append, List.nil_append, decodeFrom_lead (by omega) hs,
      decodeFrom_middle hw (by omega) (by omega) hlow hhigh, decodeFrom_last rfl (by omega) (by simp) (by simp; omega)]
    simp only [hp, hpoint, hc]
  · obtain ⟨s, hs, hw, hp, hlow, hhigh⟩ := lead_four (v := v) (by omega) (by omega)
    have hdiv : v / 262144 % 8 = v / 262144 := Nat.mod_eq_of_lt (by omega)
    have hpoint : ((v / 262144 * 64 + v / 4096 % 64) * 64 + v / 64 % 64) * 64 + v % 64 = v := by omega
    rw [hdiv, List.cons_append, List.cons_append, List.cons_append, List.cons_append, List.nil_append,
      decodeFrom_lead (by omega) hs, decodeFrom_middle hw (by omega) (by omega) hlow hhigh,
      decodeFrom_middle rfl (by omega) (by omega) (by simp) (by simp; omega),
      decodeFrom_last rfl (by omega) (by simp) (by simp; omega)]
    simp only [hp, hpoint, hc]

theorem fromUtf8Lossy_encode (text : List Char) : fromUtf8Lossy (encode text) = text := by
  have h : ∀ rest, decodeFrom none (encode text ++ rest) = text ++ decodeFrom none rest := by
    intro rest
    induction text with
    | nil => rfl
    | cons c text ih =>
      rw [encode, List.flatMap_cons, List.append_assoc, decodeFrom_encodeChar, List.cons_append]
      exact congrArg (c :: ·) ih
  have hnil := h []
  simpa only [List.append_nil, decodeFrom, fromUtf8Lossy] using hnil

def stripReturn (line : List Char) : List Char :=
  if line.getLast? = some '\r' then line.dropLast else line

/-- `str::lines`: the pieces that a line feed ends, without the carriage return before it, and what
follows the last line feed, as it stands, if anything does. -/
def lines (text : List Char) : List (List Char) :=
  let pieces := text.splitOn '\n'
  pieces.dropLast.map stripReturn ++ pieces.getLast?.toList.filter (· ≠ [])

section Reading

variable {β : Type} {read : List Char → Option β}

theorem read_stripReturn (hreturn : ∀ line, read (line ++ ['\r']) = read line) (line : List Char) :
    read (stripReturn line) = read line := by
  unfold stripReturn
  split_ifs with h
  · have hline : line = line.dropLast ++ ['\r'] := by
      obtain ⟨rest, rfl⟩ := List.getLast?_eq_some_iff.mp h
      simp
    conv_rhs => rw [hline, hreturn]
  · rfl

/-- A reader that looks past a carriage return at the end of a line and finds nothing in an empty
line reads the pieces between the line feeds. -/
theorem filterMap_lines (hreturn : ∀ line, read (line ++ ['\r']) = read line) (hempty : read [] = none)
    (text : List Char) : (lines text).filterMap read = (text.splitOn '\n').filterMap read := by
  have hne : text.splitOn '\n' ≠ [] := List.splitOn_ne_nil _ _
  unfold lines
  generalize text.splitOn '\n' = pieces at hne
  have hpieces : pieces = pieces.dropLast ++ [pieces.getLast hne] := (List.dropLast_append_getLast hne).symm
  have hmap : (pieces.dropLast.map stripReturn).filterMap read = pieces.dropLast.filterMap read := by
    rw [List.filterMap_map]
    exact congrArg (List.filterMap · pieces.dropLast) (funext (read_stripReturn hreturn))
  have hlast : (pieces.getLast?.toList.filter (· ≠ [])).filterMap read = [pieces.getLast hne].filterMap read := by
    rw [List.getLast?_eq_getLast_of_ne_nil hne]
    by_cases h : pieces.getLast hne = []
    · simp [h, hempty]
    · simp [h]
  conv_rhs => rw [hpieces]
  rw [List.filterMap_append, List.filterMap_append, hmap, hlast]

theorem filterMap_line (hempty : read [] = none) {line : List Char} (hline : '\n' ∉ line) :
    ((line ++ ['\n']).splitOn '\n').filterMap read = (read line).toList := by
  have hsplit : (line ++ '\n' :: []).splitOn '\n' = [line, []] := by
    rw [List.splitOn_append_cons_self, List.splitOn_eq_singleton hline]
    rfl
  rw [hsplit]
  cases h : read line <;> simp [h, hempty]

theorem filterMap_append (text rest : List Char) :
    ((text ++ '\n' :: rest).splitOn '\n').filterMap read =
      (text.splitOn '\n').filterMap read ++ (rest.splitOn '\n').filterMap read := by
  rw [List.splitOn_append_cons_self, List.filterMap_append]

end Reading

end MacSftp.Lib.Utf8
