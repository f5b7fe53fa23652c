import Mathlib.Data.List.Nodup
import Mathlib.Data.List.Perm.Subperm
import TemplateCompiler.Name.Fresh

namespace TemplateCompiler.FreshNames

/-- What an index adds to the spelling of a base. -/
def suffix (index : Nat) : List Char := if index = 1 then [] else (Nat.repr index).toList

theorem toList_spelling (base : String) (index : Nat) :
    (spelling base index).toList = '_' :: (base.toList ++ suffix index) := by
  unfold spelling suffix
  by_cases hindex : index = 1
  · simp [hindex]
  · simp [hindex]

theorem repr_toList_injective {i j : Nat} (h : (Nat.repr i).toList = (Nat.repr j).toList) :
    i = j := by
  simp only [Nat.repr, String.toList_ofList] at h
  have hdigits := congrArg (fun cs => Nat.ofDigitChars 10 cs 0) h
  simpa only [Nat.ofDigitChars_ten_toDigits] using hdigits

theorem suffix_ne_nil {index : Nat} (h : index ≠ 1) : suffix index ≠ [] := by
  simp only [suffix, h, if_false, Nat.repr, String.toList_ofList]
  exact Nat.toDigits_ne_nil

theorem suffix_injective {i j : Nat} (h : suffix i = suffix j) : i = j := by
  by_cases hi : i = 1
  · by_cases hj : j = 1
    · rw [hi, hj]
    · exact absurd (by rw [← h, hi]; rfl) (suffix_ne_nil hj)
  · by_cases hj : j = 1
    · exact absurd (by rw [h, hj]; rfl) (suffix_ne_nil hi)
    · apply repr_toList_injective
      simpa only [suffix, hi, hj, if_false] using h

theorem spelling_injective (base : String) {i j : Nat} (h : spelling base i = spelling base j) :
    i = j := by
  have hchars := congrArg String.toList h
  rw [toList_spelling, toList_spelling] at hchars
  exact suffix_injective (List.append_cancel_left (List.cons.inj hchars).2)

theorem isDigit_of_mem_suffix {index : Nat} {c : Char} (h : c ∈ suffix index) :
    c.isDigit = true := by
  unfold suffix at h
  split at h
  · simp at h
  · simp only [Nat.repr, String.toList_ofList] at h
    exact Nat.isDigit_of_mem_toDigits (by decide) (by decide) h

/-- A base whose spellings no other such base has: it does not end with a digit. -/
def IsStem (base : String) : Prop := (base.toList.getLast?.map Char.isDigit) = some false

instance (base : String) : Decidable (IsStem base) := inferInstanceAs (Decidable (_ = _))

theorem dropWhile_digits {digits letters : List Char} (hdigits : ∀ c ∈ digits, c.isDigit = true)
    (hletters : (letters.head?.map Char.isDigit) = some false) :
    (digits ++ letters).dropWhile Char.isDigit = letters := by
  induction digits with
  | nil =>
      cases letters with
      | nil => simp at hletters
      | cons c cs =>
          have hc : c.isDigit = false := by simpa using hletters
          simp [hc]
  | cons c digits ih =>
      have hc : c.isDigit = true := hdigits c (by simp)
      simp only [List.cons_append, List.dropWhile_cons, hc, if_true]
      exact ih fun d hd => hdigits d (by simp [hd])

theorem dropWhile_reverse_spelling {base : String} (hbase : IsStem base) (index : Nat) :
    (spelling base index).toList.reverse.dropWhile Char.isDigit =
      base.toList.reverse ++ ['_'] := by
  rw [toList_spelling]
  simp only [List.reverse_cons, List.reverse_append, List.append_assoc]
  apply dropWhile_digits
  · intro c hc
    exact isDigit_of_mem_suffix (List.mem_reverse.mp hc)
  · unfold IsStem at hbase
    rw [← List.head?_reverse] at hbase
    cases hreverse : base.toList.reverse with
    | nil => simp [hreverse] at hbase
    | cons c cs => simpa [hreverse] using hbase

theorem eq_of_spelling_eq {b c : String} (hb : IsStem b) (hc : IsStem c) {i j : Nat}
    (h : spelling b i = spelling c j) : b = c := by
  have hstem := dropWhile_reverse_spelling hb i
  rw [h, dropWhile_reverse_spelling hc j] at hstem
  have hreverse := List.append_cancel_right hstem
  exact String.toList_inj.mp (List.reverse_inj.mp hreverse).symm

theorem mem_of_search_mem (used : List String) (base : String) :
    ∀ (limit index : Nat), spelling base (search used base index limit) ∈ used →
      ∀ k, k ≤ limit → spelling base (index + k) ∈ used := by
  intro limit
  induction limit with
  | zero =>
      intro index h k hk
      obtain rfl : k = 0 := by omega
      exact h
  | succ limit ih =>
      intro index h k hk
      unfold search at h
      split at h
      · rename_i htaken
        cases k with
        | zero => simpa using htaken
        | succ k =>
            have hnext := ih (index + 1) h k (by omega)
            rwa [show index + 1 + k = index + (k + 1) by omega] at hnext
      · rename_i hfree
        exact absurd h (by simpa using hfree)

theorem le_length_of_spelling_mem {used : List String} {base : String} {index count : Nat}
    (h : ∀ k, k < count → spelling base (index + k) ∈ used) : count ≤ used.length := by
  let tried := (List.range count).map fun k => spelling base (index + k)
  have hnodup : tried.Nodup := by
    refine List.Nodup.map ?_ List.nodup_range
    intro i j hij
    have hindex := spelling_injective base hij
    omega
  have hsubset : tried ⊆ used := by
    intro name hname
    obtain ⟨k, hk, rfl⟩ := List.mem_map.mp hname
    exact h k (List.mem_range.mp hk)
  have hlength := (List.subperm_of_subset hnodup hsubset).length_le
  simpa only [tried, List.length_map, List.length_range] using hlength

/-- As many spellings as there are taken names are enough to find one that is not taken. -/
theorem search_not_mem (used : List String) (base : String) (index : Nat) :
    spelling base (search used base index used.length) ∉ used := by
  intro h
  have hall := mem_of_search_mem used base used.length index h
  have hcount : used.length + 1 ≤ used.length :=
    le_length_of_spelling_mem fun k hk => hall k (Nat.le_of_lt_succ hk)
  omega

@[simp] theorem used_generate (s : FreshNames) (name : String) :
    (s.generate name).2.used = (s.generate name).1 :: s.used := rfl

theorem generate_not_mem (s : FreshNames) (name : String) : (s.generate name).1 ∉ s.used :=
  search_not_mem s.used (base name) (s.counter (base name) + 1)

theorem generate_eq_spelling (s : FreshNames) (name : String) :
    ∃ index, (s.generate name).1 = spelling (base name) index := ⟨_, rfl⟩

end TemplateCompiler.FreshNames
