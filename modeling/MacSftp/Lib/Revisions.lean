namespace MacSftp.Lib

/-- Numbered records that carry a revision, and a mark above the numbers of those there have been. -/
structure Records (K V : Type) where
  find : K → Option V
  mark : Nat

namespace Records

variable {K V : Type} {number : K → Nat} {revision : V → Nat} {s s' s'' : Records K V}

def Marked (number : K → Nat) (s : Records K V) : Prop := ∀ k, s.find k ≠ none → number k < s.mark

/-- What may have become of the records: a number is not used again, and a record that has changed has a larger revision. -/
structure Later (number : K → Nat) (revision : V → Nat) (s s' : Records K V) : Prop where
  mark : s.mark ≤ s'.mark
  gone : ∀ k, s.find k = none → number k < s.mark → s'.find k = none
  found : ∀ k v, s.find k = some v → s'.find k = none ∨ ∃ v', s'.find k = some v' ∧ (revision v < revision v' ∨ v' = v)

theorem Later.refl (s : Records K V) : Later number revision s s where
  mark := Nat.le_refl s.mark
  gone _ absent _ := absent
  found _ v found := Or.inr ⟨v, found, Or.inr rfl⟩

theorem Later.trans (marked : s.Marked number) (h : Later number revision s s') (h' : Later number revision s' s'') :
    Later number revision s s'' where
  mark := Nat.le_trans h.mark h'.mark
  gone k absent below := h'.gone k (h.gone k absent below) (Nat.lt_of_lt_of_le below h.mark)
  found k v found := by
    have below : number k < s'.mark := Nat.lt_of_lt_of_le (marked k (by simp [found])) h.mark
    rcases h.found k v found with absent | ⟨v', found', moved⟩
    · exact Or.inl (h'.gone k absent below)
    · rcases h'.found k v' found' with absent | ⟨v'', found'', moved'⟩
      · exact Or.inl absent
      · refine Or.inr ⟨v'', found'', ?_⟩
        rcases moved with older | rfl
        · rcases moved' with older' | rfl
          · exact Or.inl (Nat.lt_trans older older')
          · exact Or.inl older
        · exact moved'

/-- The revision tells the record, whenever it is looked up. -/
theorem Later.same {k : K} {v v' : V} (h : Later number revision s s') (found : s.find k = some v) (found' : s'.find k = some v')
    (revisions : revision v = revision v') : v' = v := by
  rcases h.found k v found with absent | ⟨_, found'', moved⟩
  · rw [found'] at absent
    cases absent
  · rw [found'] at found''
    cases found''
    rcases moved with older | same
    · omega
    · exact same

end Records

end MacSftp.Lib
