import MacSftp.Session.ServerTree
import Mathlib.Data.List.TakeWhile

namespace MacSftp.Session

open Lib

theorem mem_trimEndSlash {text : List Char} {c : Char} (other : c ≠ '/') : c ∈ trimEndSlash text ↔ c ∈ text := by
  induction text using List.reverseRecOn with
  | nil => rfl
  | append_singleton text last ih =>
    by_cases slash : last = '/'
    · subst slash
      rw [trimEndSlash_slash, ih, List.mem_append, List.mem_singleton]
      simp [other]
    · rw [trimEndSlash_char text slash]

theorem trimEndSlash_prefix (text : List Char) : trimEndSlash text <+: text := by
  induction text using List.reverseRecOn with
  | nil => exact List.prefix_rfl
  | append_singleton text last ih =>
    by_cases slash : last = '/'
    · subst slash
      rw [trimEndSlash_slash]
      exact ih.trans (List.prefix_append _ _)
    · rw [trimEndSlash_char text slash]

/-- A text that ends with a name has no slash at its end. -/
theorem trimEndSlash_name (front : List Char) {name : List Char} (plain : '/' ∉ name) (some_ : name ≠ []) :
    trimEndSlash (front ++ name) = front ++ name := by
  obtain ⟨name, last, rfl⟩ := (List.eq_nil_or_concat name).resolve_left some_
  rw [List.concat_eq_append] at plain ⊢
  rw [← List.append_assoc]
  exact trimEndSlash_char _ fun same => plain (same ▸ by simp)

theorem trimSlashes_name {name : List Char} (plain : '/' ∉ name) (some_ : name ≠ []) : trimSlashes name = name := by
  have kept : name.dropWhile (· = '/') = name := by
    cases name with
    | nil => rfl
    | cons c name =>
      have other : c ≠ '/' := fun same => plain (same ▸ List.mem_cons_self)
      exact List.dropWhile_cons_of_neg (by simpa using other)
  rw [trimSlashes, kept]
  exact trimEndSlash_name [] plain some_

theorem dropWhile_slash {text : List Char} : text.dropWhile (· = '/') = [] ↔ ∀ c ∈ text, c = '/' := by
  rw [List.dropWhile_eq_nil_iff]
  simp only [decide_eq_true_eq]

/-- What is not refused has a character besides the slashes. -/
theorem exists_plain {path : RemotePath} (taken : refusesDeletion path = false) : ∃ c ∈ path.chars, c ≠ '/' := by
  by_contra slashes
  push Not at slashes
  have gone : path.chars.dropWhile (· = '/') = [] := dropWhile_slash.mpr slashes
  have nothing : trimSlashes path.chars = [] := by
    rw [trimSlashes, gone]
    rfl
  simp [refusesDeletion, nothing] at taken

theorem join_chars {path : RemotePath} {name : List Char} (taken : refusesDeletion path = false) (valid : validName name) :
    (path.join name).chars = trimEndSlash path.chars ++ '/' :: name := by
  obtain ⟨c, mem, other⟩ := exists_plain taken
  change joinPathComponent path.chars name = _
  rw [joinPathComponent, trimSlashes_name valid.1 valid.2.1, if_neg]
  rintro (empty | root)
  · rw [empty] at mem
    cases mem
  · rw [root, List.mem_singleton] at mem
    exact other mem

theorem join_taken {path : RemotePath} {name : List Char} (taken : refusesDeletion path = false) (valid : validName name) :
    refusesDeletion (path.join name) = false := by
  obtain ⟨c, mem, other⟩ := exists_plain taken
  have trimmed : trimSlashes (path.join name).chars =
      (trimEndSlash path.chars).dropWhile (· = '/') ++ '/' :: name := by
    have kept : (trimEndSlash path.chars).dropWhile (· = '/') ≠ [] := by
      rw [ne_eq, dropWhile_slash]
      exact fun slashes => other (slashes c ((mem_trimEndSlash other).mpr mem))
    have dropped : (trimEndSlash path.chars ++ '/' :: name).dropWhile (· = '/') =
        (trimEndSlash path.chars).dropWhile (· = '/') ++ '/' :: name := by
      rw [List.dropWhile_append, if_neg (by simpa using kept)]
    rw [join_chars taken valid, trimSlashes, dropped, List.append_cons]
    exact trimEndSlash_name _ valid.1 valid.2.1
  have slash : '/' ∈ trimSlashes (path.join name).chars := by
    rw [trimmed]
    exact List.mem_append_right _ List.mem_cons_self
  have others : ∀ text : List Char, '/' ∉ text → trimSlashes (path.join name).chars ≠ text := by
    rintro text plain rfl
    exact plain slash
  rw [refusesDeletion, decide_eq_false (others [] (by decide)), decide_eq_false (others ['.'] (by decide)),
    decide_eq_false (others ['.', '.'] (by decide))]
  rfl

theorem join_text {path : RemotePath} {name : List Char} (taken : refusesDeletion path = false) (valid : validName name) :
    pathText (path.join name).chars = ⟨(pathText path.chars).absolute, (pathText path.chars).steps ++ [.name name], false⟩ := by
  obtain ⟨c, mem, other⟩ := exists_plain taken
  obtain ⟨rest, whole⟩ := trimEndSlash_prefix path.chars
  have some_ : trimEndSlash path.chars ≠ [] := List.ne_nil_of_mem ((mem_trimEndSlash other).mpr mem)
  have head : (trimEndSlash path.chars ++ '/' :: name).head? = path.chars.head? := by
    rw [List.head?_append_of_ne_nil _ some_, ← whole, List.head?_append_of_ne_nil _ some_, whole]
  have last : ((trimEndSlash path.chars ++ '/' :: name).splitOn '/').getLastD [] = name := by
    rw [splitOn_rsplit valid.1, List.getLastD_concat]
  have steps : segments (trimEndSlash path.chars ++ '/' :: name) = segments path.chars ++ [name] := by
    rw [segments_slash, segments_trimEndSlash, segments_single valid.1 valid.2.1 valid.2.2.1]
  rw [pathText, join_chars taken valid, head, last, steps, List.map_append, List.map_singleton, pathStep, if_neg valid.2.2.2]
  simp [pathText, valid.2.1, valid.2.2.1]

end MacSftp.Session
