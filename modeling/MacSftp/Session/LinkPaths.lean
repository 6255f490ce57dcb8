import MacSftp.Jobs.Siblings
import MacSftp.Session.Resolve

namespace MacSftp.Session

open Lib

theorem segments_slash (a b : List Char) : segments (a ++ '/' :: b) = segments a ++ segments b := by
  rw [segments, List.splitOn_append_cons_self, List.filter_append]
  rfl

theorem segments_nil : segments [] = [] := rfl

theorem segments_single {name : List Char} (plain : '/' ∉ name) (some_ : name ≠ []) (dot : name ≠ ['.']) :
    segments name = [name] := by
  rw [segments, List.splitOn_eq_singleton plain]
  simp [some_, dot]

theorem trimEndSlash_slash (text : List Char) : trimEndSlash (text ++ ['/']) = trimEndSlash text := by
  simp [trimEndSlash]

theorem trimEndSlash_char (text : List Char) {c : Char} (other : c ≠ '/') : trimEndSlash (text ++ [c]) = text ++ [c] := by
  simp [trimEndSlash, other]

theorem segments_trimEndSlash (text : List Char) : segments (trimEndSlash text) = segments text := by
  induction text using List.reverseRecOn with
  | nil => rfl
  | append_singleton text c ih =>
    by_cases slash : c = '/'
    · subst slash
      rw [trimEndSlash_slash, ih, segments_slash, segments_nil, List.append_nil]
    · rw [trimEndSlash_char text slash]

/-- What the loop keeps of components that do not climb. -/
theorem normalizeLoop_plain {components rest : List (List Char)} (plain : ['.', '.'] ∉ rest) :
    Core.normalizeLoop components rest = components ++ rest.filter fun c => c ≠ [] ∧ c ≠ ['.'] := by
  induction rest generalizing components with
  | nil => rw [Core.normalizeLoop, List.filter_nil, List.append_nil]
  | cons c rest ih =>
    obtain ⟨climbs, plain⟩ := List.ne_and_not_mem_of_not_mem_cons plain
    rw [Core.normalizeLoop]
    split_ifs with detour dots
    · rw [ih plain, List.filter_cons_of_neg]
      rcases detour with rfl | rfl <;> simp
    · exact absurd dots.symm climbs
    · rw [ih plain, List.filter_cons_of_pos, List.append_assoc]
      · rfl
      · simpa [not_or] using detour

theorem normalizeRemotePath_plain {text : List Char} (plain : ['.', '.'] ∉ text.splitOn '/') :
    Core.normalizeRemotePath text = '/' :: ['/'].intercalate (segments text) := by
  rw [Core.normalizeRemotePath, normalizeLoop_plain plain, List.nil_append]
  rfl

theorem segments_valid {text segment : List Char} (mem : segment ∈ segments text) :
    '/' ∉ segment ∧ segment ≠ [] ∧ segment ≠ ['.'] := by
  obtain ⟨listed, kept⟩ := List.mem_filter.mp mem
  exact ⟨slash_not_mem_splitOn listed, by simpa using kept⟩

/-- The components of a text that is made of them. -/
theorem splitOn_joined {names : List (List Char)} (valid : ∀ name ∈ names, '/' ∉ name) (some_ : names ≠ []) :
    ('/' :: ['/'].intercalate names).splitOn '/' = [] :: names := by
  have cut := List.splitOn_append_cons_self (a := '/') [] (['/'].intercalate names)
  rw [List.nil_append] at cut
  rw [cut, List.splitOn_intercalate '/' valid some_]
  rfl

theorem segments_joined {names : List (List Char)} (valid : ∀ name ∈ names, '/' ∉ name ∧ name ≠ [] ∧ name ≠ ['.']) :
    segments ('/' :: ['/'].intercalate names) = names := by
  by_cases some_ : names = []
  · subst some_
    rfl
  · rw [segments, splitOn_joined (fun name mem => (valid name mem).1) some_, List.filter_cons_of_neg (by simp)]
    refine List.filter_eq_self.mpr ?_
    intro name mem
    simpa using (valid name mem).2

theorem climbs_iff {text : List Char} : ['.', '.'] ∈ text.splitOn '/' ↔ ['.', '.'] ∈ segments text := by
  simp [segments]

theorem targetEscapes_iff {target : List Char} : targetEscapesThroughParent target = true ↔ ['.', '.'] ∈ segments target := by
  rw [← climbs_iff, targetEscapesThroughParent, List.any_eq_true]
  simp

/-- A target that is followed does not climb. -/
theorem segments_of_not_refused {target : List Char} (taken : refusedTarget target = false) : ['.', '.'] ∉ segments target := by
  intro climbs
  have escapes := targetEscapes_iff.mpr climbs
  simp [refusedTarget, escapes] at taken

theorem normalizeRemotePath_segments {text : List Char} (plain : ['.', '.'] ∉ segments text) :
    segments (Core.normalizeRemotePath text) = segments text ∧
      (pathText (Core.normalizeRemotePath text)).absolute = true ∧
      ((pathText (Core.normalizeRemotePath text)).directory = true → segments text = []) := by
  rw [normalizeRemotePath_plain fun climbs => plain (climbs_iff.mp climbs)]
  refine ⟨segments_joined fun name mem => segments_valid mem, by simp [pathText], ?_⟩
  intro directory
  by_contra some_
  have cut := splitOn_joined (fun name (mem : name ∈ segments text) => (segments_valid mem).1) some_
  obtain ⟨front, last, joined⟩ := (List.eq_nil_or_concat (segments text)).resolve_left some_
  rw [List.concat_eq_append] at joined
  have valid := @segments_valid text last (by simp [joined])
  simp only [pathText, decide_eq_true_eq] at directory
  have ends : ([] :: (front ++ [last])).getLastD [] = last := by rw [← List.cons_append, List.getLastD_concat]
  rw [cut, joined, ends] at directory
  exact directory.elim valid.2.1 valid.2.2

theorem parent_named {front name : List Char} (plain : '/' ∉ name) (some_ : name ≠ []) :
    (RemotePath.mk (front ++ '/' :: name)).parent = some ⟨if front = [] then ['/'] else front⟩ := by
  obtain ⟨name, last, rfl⟩ := (List.eq_nil_or_concat name).resolve_left some_
  have other : last ≠ '/' := fun same => plain (same ▸ by simp)
  have trimmed : trimEndSlash (front ++ '/' :: (name.concat last)) = front ++ '/' :: name.concat last := by
    have moved : front ++ '/' :: name.concat last = (front ++ '/' :: name) ++ [last] := by simp
    rw [moved, trimEndSlash_char _ other]
  unfold RemotePath.parent Core.parentPath
  simp only [trimmed, rsplitOnce_append plain]
  cases front <;> rfl

/-- The lexical join of a target that does not climb: its own components when it is absolute, and else those of the
directory of the link in front of them. -/
theorem resolveLinkTarget_segments {front name target : List Char} (plain : '/' ∉ name) (some_ : name ≠ [])
    (level : ['.', '.'] ∉ segments front) (taken : ['.', '.'] ∉ segments target) :
    let names := if target.head? = some '/' then segments target else segments front ++ segments target
    let joined := ((RemotePath.mk (front ++ '/' :: name)).resolveLinkTarget target).chars
    segments joined = names ∧ ['.', '.'] ∉ names ∧ (pathText joined).absolute = true ∧
      ((pathText joined).directory = true → names = []) := by
  unfold RemotePath.resolveLinkTarget
  split_ifs with absolute
  · obtain ⟨same, begins, ends⟩ := normalizeRemotePath_segments taken
    exact ⟨same, taken, begins, ends⟩
  · have lead : segments (trimEndSlash (if front = [] then ['/'] else front)) = segments front := by
      rw [segments_trimEndSlash]
      split_ifs with empty
      · rw [empty]
        rfl
      · rfl
    have whole : segments (trimEndSlash (if front = [] then ['/'] else front) ++ '/' :: target) =
        segments front ++ segments target := by
      rw [segments_slash, lead]
    have low : ['.', '.'] ∉ segments front ++ segments target := by
      rw [List.mem_append]
      exact fun climbs => climbs.elim level taken
    obtain ⟨same, begins, ends⟩ := normalizeRemotePath_segments (whole ▸ low)
    rw [parent_named plain some_]
    exact ⟨same.trans whole, low, begins, fun directory => whole ▸ ends directory⟩

end MacSftp.Session
