import MacSftp.Hosts.Verdicts

namespace MacSftp

def splitOnce : List Char → Option (List Char × List Char)
  | [] => none
  | c :: rest => if c = ' ' then some ([], rest) else (splitOnce rest).map fun fields => (c :: fields.1, fields.2)

theorem splitOnce_append {field : List Char} (h : ' ' ∉ field) (rest : List Char) :
    splitOnce (field ++ ' ' :: rest) = some (field, rest) := by
  induction field with
  | nil => simp [splitOnce]
  | cons c field ih =>
    simp only [List.mem_cons, not_or] at h
    rw [List.cons_append, splitOnce, if_neg (Ne.symm h.1), ih h.2]
    rfl

theorem splitOnce_snoc (line : List Char) {c : Char} (hc : c ≠ ' ') :
    splitOnce (line ++ [c]) = (splitOnce line).map fun fields => (fields.1, fields.2 ++ [c]) := by
  induction line with
  | nil => simp [splitOnce, hc]
  | cons d line ih =>
    rw [List.cons_append, splitOnce, splitOnce, ih]
    by_cases hd : d = ' '
    · simp [hd]
    · cases h : splitOnce line <;> simp [hd]

theorem not_mem_piece {separator : Char} {text piece : List Char} (h : piece ∈ text.splitOn separator) : separator ∉ piece := by
  induction text generalizing piece with
  | nil =>
    obtain rfl : piece = [] := by simpa using h
    simp
  | cons c text ih =>
    rw [List.splitOn_cons_eq_if_modifyHead] at h
    split_ifs at h with hc
    · rcases List.mem_cons.mp h with rfl | h
      · simp
      · exact ih h
    · obtain ⟨first, rest, hpieces⟩ := List.exists_cons_of_ne_nil (List.splitOn_ne_nil separator text)
      rw [hpieces] at h ih
      rcases List.mem_cons.mp h with rfl | h
      · simp only [List.mem_cons, not_or]
        exact ⟨fun heq => hc (by simp [heq]), ih (by simp)⟩
      · exact ih (by simp [h])

namespace PlainFormat

def hostPatterns (hosts : List Char) : Option HostPatterns :=
  if hosts = [] ∨ hashPrefix <+: hosts then none else some (.patterns (hosts.splitOn ','))

/-- Keys of two kinds, under one algorithm. -/
def keyText (key : PublicKey Bool) : List Char :=
  ['k', ' ', if key.keyData then '1' else '0'] ++ (if key.comment = [] then [] else ' ' :: key.comment)

def publicKey (text : List Char) : Option (PublicKey Bool) :=
  if ['k', ' ', '1'] <+: text then some ⟨true, []⟩
  else if ['k', ' ', '0'] <+: text then some ⟨false, []⟩
  else none

def fields (marker : Option Marker) (line : List Char) : Option (Entry Bool) :=
  (splitOnce line).bind fun parts => (hostPatterns parts.1).bind fun names => (publicKey parts.2).map fun key =>
    ⟨marker, names, key⟩

def entry (line : List Char) : Option (Entry Bool) :=
  if line.head? = some '@' then
    (splitOnce line).bind fun parts => (Marker.fromStr parts.1).bind fun marker => fields (some marker) parts.2
  else fields none line

def next (line : List Char) : Option (Option (Entry Bool)) :=
  if line.head? = some '#' ∨ line.all isWhitespace then none else some (entry line)

end PlainFormat

/-- A format of the assumed kind, with a hash that keeps the whole message. -/
def HostFormat.plain : HostFormat Bool where
  next := PlainFormat.next
  entry := PlainFormat.entry
  hostPatterns := PlainFormat.hostPatterns
  publicKey := PlainFormat.publicKey
  keyText := PlainFormat.keyText
  mac salt message := salt ++ message

namespace PlainFormat

theorem prefix_snoc (pre : List Char) {text : List Char} (hpre : '\r' ∉ pre) : pre <+: text ++ ['\r'] ↔ pre <+: text := by
  rw [List.prefix_concat_iff]
  constructor
  · rintro (h | h)
    · exact absurd (h ▸ by simp) hpre
    · exact h
  · exact Or.inr

theorem publicKey_return (text : List Char) : publicKey (text ++ ['\r']) = publicKey text := by
  simp only [publicKey, prefix_snoc ['k', ' ', '1'] (by decide), prefix_snoc ['k', ' ', '0'] (by decide)]

theorem fields_return (marker : Option Marker) (line : List Char) : fields marker (line ++ ['\r']) = fields marker line := by
  rw [fields, fields, splitOnce_snoc line (by decide)]
  cases splitOnce line with
  | none => rfl
  | some parts => simp [publicKey_return]

theorem next_return (line : List Char) : next (line ++ ['\r']) = next line := by
  cases line with
  | nil => decide
  | cons c line =>
    have hentry : entry (c :: line ++ ['\r']) = entry (c :: line) := by
      simp only [entry, List.cons_append, List.head?_cons]
      rw [← List.cons_append, splitOnce_snoc (c :: line) (by decide), fields_return]
      cases splitOnce (c :: line) with
      | none => rfl
      | some parts => simp [fields_return]
    have hwhite : isWhitespace '\r' = true := by decide
    simp only [next, hentry]
    simp [hwhite]

end PlainFormat

theorem HostFormat.plain_lawful : HostFormat.plain.Lawful where
  comment line h := if_pos (.inl h)
  blank line h := if_pos (.inr h)
  next line hcomment hblank := if_neg (by simp [hcomment, hblank])
  carriageReturn := PlainFormat.next_return
  unmarked hosts key hne hspace hmark := by
    have hhead : (hosts ++ ' ' :: key).head? ≠ some '@' := by
      obtain ⟨c, rest, rfl⟩ := List.exists_cons_of_ne_nil hne
      simpa using hmark
    simp only [HostFormat.plain, PlainFormat.entry, if_neg hhead, PlainFormat.fields, splitOnce_append hspace]
    rfl
  marked marker hosts key hmark hspace hhosts := by
    have hhead : (marker ++ ' ' :: (hosts ++ ' ' :: key)).head? = some '@' := by
      obtain ⟨rest, rfl⟩ := List.head?_eq_some_iff.mp hmark
      rfl
    simp only [HostFormat.plain, PlainFormat.entry, if_pos hhead, PlainFormat.fields, splitOnce_append hspace,
      splitOnce_append hhosts, Option.bind_some]
  single hosts hne hcomma hhash := by
    simp only [HostFormat.plain, PlainFormat.hostPatterns, hne, hhash, or_self, if_false, List.splitOn_eq_singleton hcomma]
  several hosts hcomma hhash := by
    have hne : hosts ≠ [] := List.ne_nil_of_mem hcomma
    refine ⟨hosts.splitOn ',', ?_, List.splitOn_ne_nil _ _, fun name hname => not_mem_piece hname⟩
    simp only [HostFormat.plain, PlainFormat.hostPatterns, hne, hhash, or_self, if_false]
  hashed hosts patterns hhash h := by simp [HostFormat.plain, PlainFormat.hostPatterns, hhash] at h
  algorithm key := by
    refine ⟨['k'], (if key.keyData then '1' else '0') :: (if key.comment = [] then [] else ' ' :: key.comment), rfl, by decide, ?_⟩
    cases hkey : key.keyData <;> simp [HostFormat.plain, PlainFormat.publicKey]
  publicKey key _ _ := by
    cases hkey : key.keyData <;> simp [HostFormat.plain, PlainFormat.publicKey, PlainFormat.keyText, hkey]
  collision salt message other h := List.append_cancel_left h

end MacSftp
