import TemplateCompiler.Proofs.Text.Folding

namespace TemplateCompiler.Text

def IsWord (w : List Char) : Prop := w ≠ [] ∧ ∀ c ∈ w, isSpace c = false

/-- The words of a text, from left to right. No word can be made longer: next to it there is white
space or an end of the text. -/
inductive HasWords : List Char → List (List Char) → Prop
  | blank {cs : List Char} (hblank : ∀ c ∈ cs, isSpace c = true) : HasWords cs []
  | word {gap w rest : List Char} {ws : List (List Char)} (hgap : ∀ c ∈ gap, isSpace c = true)
      (hword : IsWord w) (hend : ∀ c ∈ rest.head?, isSpace c = true) (hrest : HasWords rest ws) :
      HasWords (gap ++ (w ++ rest)) (w :: ws)

/-- The words of a text, computed: the pieces between white space, without those that are empty. -/
def words (cs : List Char) : List (List Char) := (cs.splitOnP isSpace).filter fun w => !w.isEmpty

def joinWords (ws : List (List Char)) : List Char := [' '].intercalate ws

/-- White space that is left in a text stands between words, and it is a single space each time. -/
structure Tidy (cs : List Char) : Prop where
  head : ∀ c ∈ cs.head?, isSpace c = false
  last : ∀ c ∈ cs.getLast?, isSpace c = false
  eq_space : ∀ c ∈ cs, isSpace c = true → c = ' '
  single : ¬[' ', ' '] <:+: cs

theorem words_nil : words [] = [] := by simp [words]

theorem words_append_cons {c : Char} (hc : isSpace c = true) (cs rest : List Char) :
    words (cs ++ c :: rest) = words cs ++ words rest := by
  simp [words, List.splitOnP_append_cons cs rest hc]

theorem words_append_of_blank {gap : List Char} (hgap : ∀ c ∈ gap, isSpace c = true)
    (cs : List Char) :
    words (gap ++ cs) = words cs := by
  induction gap with
  | nil => rfl
  | cons c gap ih =>
      have hfirst : words (c :: (gap ++ cs)) = words (gap ++ cs) :=
        words_append_cons (hgap c (by simp)) [] _
      rw [List.cons_append, hfirst, ih fun d hd => hgap d (List.mem_cons_of_mem _ hd)]

theorem IsWord.words_eq {w : List Char} (h : IsWord w) : words w = [w] := by
  simp [words, List.splitOnP_eq_singleton h.2, h.1]

theorem HasWords.words_eq {cs : List Char} {ws : List (List Char)} (h : HasWords cs ws) :
    words cs = ws := by
  induction h with
  | blank hblank => simpa [words_nil] using words_append_of_blank hblank []
  | @word gap w rest ws hgap hword hend _ ih =>
      rw [words_append_of_blank hgap]
      cases rest with
      | nil => simpa [hword.words_eq, words_nil] using ih
      | cons c rest =>
          have hc : isSpace c = true := hend c rfl
          have hrest : words (c :: rest) = words rest := words_append_cons hc [] rest
          rw [words_append_cons hc, hword.words_eq, ← hrest, ih]
          rfl

theorem HasWords.cons_space {cs : List Char} {ws : List (List Char)} (h : HasWords cs ws) {c : Char}
    (hc : isSpace c = true) : HasWords (c :: cs) ws := by
  cases h with
  | blank hblank => exact .blank (List.forall_mem_cons.mpr ⟨hc, hblank⟩)
  | word hgap hword hend hrest => exact .word (List.forall_mem_cons.mpr ⟨hc, hgap⟩) hword hend hrest

theorem exists_hasWords (cs : List Char) : ∃ ws, HasWords cs ws := by
  induction cs with
  | nil => exact ⟨[], .blank (by simp)⟩
  | cons c cs ih =>
      obtain ⟨ws, h⟩ := ih
      by_cases hc : isSpace c = true
      · exact ⟨ws, h.cons_space hc⟩
      · rw [Bool.not_eq_true] at hc
        have hletter : IsWord [c] := ⟨by simp, by simpa using hc⟩
        have hstart : ∀ d ∈ ([] : List Char), isSpace d = true := by simp
        cases h with
        | blank hblank =>
            exact ⟨[[c]],
              .word hstart hletter (fun d hd => hblank d (List.mem_of_mem_head? hd))
                (.blank hblank)⟩
        | @word gap w rest ws hgap hword hend hrest =>
            -- the character belongs to the first word only if there is no
            -- white space in front of that
            cases gap with
            | nil =>
                have hlonger : IsWord (c :: w) := ⟨by simp, List.forall_mem_cons.mpr ⟨hc, hword.2⟩⟩
                exact ⟨(c :: w) :: ws, .word hstart hlonger hend hrest⟩
            | cons d gap =>
                exact ⟨[c] :: w :: ws, .word hstart hletter (by simpa using hgap d (by simp))
                  (.word hgap hword hend hrest)⟩

theorem hasWords_iff {cs : List Char} {ws : List (List Char)} : HasWords cs ws ↔ words cs = ws := by
  refine ⟨HasWords.words_eq, fun h => ?_⟩
  obtain ⟨ws', hws'⟩ := exists_hasWords cs
  rwa [← h, hws'.words_eq]

theorem isWord_of_mem_words {cs w : List Char} (h : w ∈ words cs) : IsWord w := by
  have hwords : HasWords cs (words cs) := hasWords_iff.mpr rfl
  generalize words cs = ws at h hwords
  induction hwords with
  | blank => cases h
  | word _ hword _ _ ih =>
      rcases List.mem_cons.mp h with rfl | h
      · exact hword
      · exact ih h

theorem words_eq_nil_iff {cs : List Char} : words cs = [] ↔ ∀ c ∈ cs, isSpace c = true := by
  rw [← hasWords_iff]
  refine ⟨fun h => ?_, .blank⟩
  cases h with
  | blank hblank => exact hblank

section Joining

variable {w : List Char} {ws : List (List Char)}

theorem joinWords_cons (hws : ws ≠ []) : joinWords (w :: ws) = w ++ ' ' :: joinWords ws := by
  rw [joinWords, List.intercalate_cons_of_ne_nil hws, List.append_assoc]
  rfl

theorem hasWords_joinWords (hws : ∀ w ∈ ws, IsWord w) : HasWords (joinWords ws) ws := by
  induction ws with
  | nil => exact .blank (by simp [joinWords])
  | cons w ws ih =>
      obtain ⟨hword, hws⟩ := List.forall_mem_cons.mp hws
      have hstart : ∀ d ∈ ([] : List Char), isSpace d = true := by simp
      by_cases hne : ws = []
      · subst hne
        simpa [joinWords] using HasWords.word hstart hword (by simp) (.blank hstart)
      · rw [joinWords_cons hne]
        exact .word hstart hword (by simp; decide) ((ih hws).cons_space (by decide))

theorem words_joinWords (hws : ∀ w ∈ ws, IsWord w) : words (joinWords ws) = ws :=
  (hasWords_joinWords hws).words_eq

theorem Tidy.cons {cs : List Char} (h : Tidy cs) (hne : cs ≠ []) (hword : IsWord w) :
    Tidy (w ++ ' ' :: cs) where
  head := by
    obtain ⟨c, w, rfl⟩ := List.exists_cons_of_ne_nil hword.1
    simpa using hword.2 c
  last := by
    obtain ⟨c, cs, rfl⟩ := List.exists_cons_of_ne_nil hne
    simpa [List.getLast?_append] using h.last
  eq_space := by
    intro c hc hspace
    rcases List.mem_append.mp hc with hc | hc
    · rw [hword.2 c hc] at hspace
      cases hspace
    · rcases List.mem_cons.mp hc with rfl | hc
      · rfl
      · exact h.eq_space c hc hspace
  single := by
    have hfirst : ∀ y, cs ≠ ' ' :: y := by
      rintro y rfl
      exact absurd (h.head ' ' rfl) (by decide)
    rintro ⟨x, y, heq⟩
    rw [List.append_assoc] at heq
    rcases List.append_eq_append_iff.mp heq with ⟨l, hw, hl⟩ | ⟨l, -, hl⟩
    · cases l with
      | nil => exact hfirst y (List.cons.inj hl).2.symm
      | cons c l =>
          obtain ⟨rfl, -⟩ := List.cons.inj hl
          exact absurd (hword.2 ' ' (by simp [hw])) (by decide)
    · cases l with
      | nil => exact hfirst y (List.cons.inj hl).2
      | cons c l => exact h.single ⟨l, y, by simpa using (List.cons.inj hl).2.symm⟩

theorem IsWord.tidy (hword : IsWord w) : Tidy w where
  head := fun c hc => hword.2 c (List.mem_of_mem_head? hc)
  last := fun c hc => hword.2 c (List.mem_of_mem_getLast? hc)
  eq_space := by
    intro c hc hspace
    rw [hword.2 c hc] at hspace
    cases hspace
  single := fun h => absurd (hword.2 ' ' (h.subset (by simp))) (by decide)

theorem joinWords_eq_nil_iff (hws : ∀ w ∈ ws, IsWord w) : joinWords ws = [] ↔ ws = [] := by
  refine ⟨fun h => ?_, fun h => h ▸ rfl⟩
  rw [← words_joinWords hws, h, words_nil]

theorem tidy_joinWords (hws : ∀ w ∈ ws, IsWord w) : Tidy (joinWords ws) := by
  induction ws with
  | nil =>
      exact ⟨by simp [joinWords], by simp [joinWords], by simp [joinWords], by simp [joinWords]⟩
  | cons w ws ih =>
      obtain ⟨hword, hws⟩ := List.forall_mem_cons.mp hws
      by_cases hne : ws = []
      · subst hne
        simpa [joinWords] using hword.tidy
      · rw [joinWords_cons hne]
        exact (ih hws).cons (mt (joinWords_eq_nil_iff hws).mp hne) hword

end Joining

theorem squeeze_append_of_isWord {w : List Char} (hword : IsWord w) (inRun : Bool)
    (rest : List Char) :
    squeeze inRun (w ++ rest) = w ++ squeeze false rest := by
  obtain ⟨hne, hletters⟩ := hword
  induction w generalizing inRun with
  | nil => exact absurd rfl hne
  | cons c w ih =>
      obtain ⟨hc, hletters⟩ := List.forall_mem_cons.mp hletters
      cases w with
      | nil => simp [squeeze, hc]
      | cons d w => simpa [squeeze, hc] using ih false (by simp) hletters

theorem squeeze_false_cons {c : Char} (hc : isSpace c = true) (cs : List Char) :
    squeeze false (c :: cs) = ' ' :: squeeze true (c :: cs) := by
  simp [squeeze, hc]

theorem exists_squeeze_false_eq (cs : List Char) :
    ∃ lead, (∀ c ∈ lead, isSpace c = true) ∧ squeeze false cs = lead ++ squeeze true cs := by
  cases cs with
  | nil => exact ⟨[], by simp, rfl⟩
  | cons c cs =>
      by_cases hc : isSpace c = true
      · exact ⟨[' '], List.forall_mem_singleton.mpr rfl, squeeze_false_cons hc cs⟩
      · exact ⟨[], by simp, by simp [squeeze, hc]⟩

/-- Inside a run of white space, what comes is written as its words, and a space if white
space is left behind them. -/
theorem HasWords.exists_squeeze_eq {cs : List Char} {ws : List (List Char)} (h : HasWords cs ws) :
    ∃ tail, (∀ c ∈ tail, isSpace c = true) ∧ squeeze true cs = joinWords ws ++ tail := by
  induction h with
  | @blank cs hblank =>
      exact ⟨[], by simp, by simpa [joinWords, squeeze] using squeeze_true_append hblank []⟩
  | @word gap w rest ws hgap hword hend hrest ih =>
      rw [squeeze_true_append hgap, squeeze_append_of_isWord hword]
      cases rest with
      | nil =>
          have hws : ws = [] := by rw [← hrest.words_eq, words_nil]
          exact ⟨[], by simp, by simp [hws, joinWords, squeeze]⟩
      | cons c rest =>
          obtain ⟨tail, htail, heq⟩ := ih
          rw [squeeze_false_cons (hend c rfl), heq]
          by_cases hne : ws = []
          · exact ⟨' ' :: tail, List.forall_mem_cons.mpr ⟨by decide, htail⟩,
              by simp [hne, joinWords]⟩
          · exact ⟨tail, htail, by simp [joinWords_cons hne]⟩

theorem collapse_eq_joinWords (cs : List Char) : collapse cs = joinWords (words cs) := by
  have hwords : HasWords cs (words cs) := hasWords_iff.mpr rfl
  obtain ⟨tail, htail, hsqueeze⟩ := hwords.exists_squeeze_eq
  obtain ⟨lead, hlead, hstart⟩ := exists_squeeze_false_eq cs
  have htidy : Tidy (joinWords (words cs)) := tidy_joinWords fun _ => isWord_of_mem_words
  exact Trims.trim_eq ⟨lead, tail, by rw [hstart, hsqueeze], hlead, htail, htidy.head, htidy.last⟩

theorem collapse_joinWords {ws : List (List Char)} (hws : ∀ w ∈ ws, IsWord w) :
    collapse (joinWords ws) = joinWords ws := by
  rw [collapse_eq_joinWords, words_joinWords hws]

/-- Collapsing gives the words of a text, in order and as they are, with one space between two of
them. So the result is tidy, it is empty only if there are no words, collapsing it once more changes
nothing, and it is the result of exactly the texts that have these words. -/
theorem normalize_collapse_words (text : String) :
    HasWords text.toList (words text.toList) ∧
      (normalize .collapse text).toList = [' '].intercalate (words text.toList) ∧
      Tidy (normalize .collapse text).toList ∧
      (normalize .collapse text = "" ↔ ∀ c ∈ text.toList, isSpace c = true) ∧
      normalize .collapse (normalize .collapse text) = normalize .collapse text ∧
      normalize .smart (normalize .collapse text) = normalize .collapse text ∧
      ∀ other : String, normalize .collapse other = normalize .collapse text ↔
        words other.toList = words text.toList := by
  have hws : ∀ cs : List Char, ∀ w ∈ words cs, IsWord w := fun _ _ => isWord_of_mem_words
  have hnormal : ∀ t : String, normalize .collapse t = String.ofList (joinWords (words t.toList)) :=
    fun t => by
    rw [normalize, collapse_eq_joinWords]
  simp only [hnormal, String.toList_ofList]
  refine ⟨hasWords_iff.mpr rfl, rfl, tidy_joinWords (hws _), ?_, ?_, ?_, fun other => ?_⟩
  · rw [← words_eq_nil_iff, ← joinWords_eq_nil_iff (hws _)]
    exact String.ofList_eq_empty_iff
  · rw [words_joinWords (hws _)]
  · rw [normalize, collapse_foldIndents, String.toList_ofList, collapse_joinWords (hws _)]
  · rw [String.ofList_inj]
    refine ⟨fun h => ?_, fun h => h ▸ rfl⟩
    rw [← words_joinWords (hws other.toList), h, words_joinWords (hws _)]

end TemplateCompiler.Text
