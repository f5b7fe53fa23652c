import Mathlib.Data.List.TakeWhile
import TemplateCompiler.Text.Space

namespace TemplateCompiler.Text

/-- Replacement of the matches of a pattern, from left to right. Where no match begins, a character
is copied; where one begins, the longest is taken, and the search goes on behind it. -/
inductive Replaces (pattern : List Char → Prop) (substitute : List Char) :
    List Char → List Char → Prop
  | nil : Replaces pattern substitute [] []
  | copy {c : Char} {cs out : List Char} (hnone : ∀ m, m <+: c :: cs → ¬pattern m)
      (hrest : Replaces pattern substitute cs out) :
      Replaces pattern substitute (c :: cs) (c :: out)
  | found {m rest out : List Char} (hmatch : pattern m)
      (hlongest : ∀ l, l <+: m ++ rest → pattern l → l.length ≤ m.length)
      (hrest : Replaces pattern substitute rest out) :
      Replaces pattern substitute (m ++ rest) (substitute ++ out)

/-- White space and nothing else: `\s+`. -/
def SpaceRun (m : List Char) : Prop := m ≠ [] ∧ ∀ c ∈ m, isSpace c = true

/-- A line end with indentation around it: `[ \t]*\n[ \t]*`. -/
def IndentRun (m : List Char) : Prop :=
  ∃ before behind, m = before ++ '\n' :: behind ∧ (∀ c ∈ before, isIndent c = true) ∧
  ∀ c ∈ behind, isIndent c = true

/-- A text without the white space at its ends. -/
def Trims (cs core : List Char) : Prop :=
  ∃ before behind, cs = before ++ (core ++ behind) ∧ (∀ c ∈ before, isSpace c = true) ∧
    (∀ c ∈ behind, isSpace c = true) ∧ (∀ c ∈ core.head?, isSpace c = false) ∧
    ∀ c ∈ core.getLast?, isSpace c = false

section Replacement

variable {pattern : List Char → Prop} {substitute : List Char}

theorem Replaces.unique (hempty : ¬pattern []) {cs out out' : List Char}
    (h : Replaces pattern substitute cs out) (h' : Replaces pattern substitute cs out') :
    out = out' := by
  induction h generalizing out' with
  | nil =>
      generalize hcs : ([] : List Char) = cs at h'
      cases h' with
      | nil => rfl
      | copy => cases hcs
      | found hmatch =>
          rw [(List.append_eq_nil_iff.mp hcs.symm).1] at hmatch
          exact absurd hmatch hempty
  | @copy c cs out hnone _ ih =>
      generalize hcs : c :: cs = text at h'
      cases h' with
      | nil => cases hcs
      | copy _ hrest =>
          cases hcs
          rw [ih hrest]
      | @found m rest _ hmatch => exact absurd hmatch (hnone m ⟨rest, hcs.symm⟩)
  | @found m rest out hmatch hlongest _ ih =>
      generalize hcs : m ++ rest = text at h'
      cases h' with
      | nil =>
          rw [(List.append_eq_nil_iff.mp hcs).1] at hmatch
          exact absurd hmatch hempty
      | copy hnone => exact absurd hmatch (hnone m ⟨rest, hcs⟩)
      | @found m' rest' _ hmatch' hlongest' hrest' =>
          have hlength : m.length = m'.length :=
            Nat.le_antisymm (hlongest' m ⟨rest, hcs⟩ hmatch) (hlongest m' ⟨rest', hcs.symm⟩ hmatch')
          obtain ⟨rfl, rfl⟩ := List.append_inj hcs hlength
          rw [ih hrest']

end Replacement

theorem length_le_of_prefix {m run rest : List Char} (hbegins : m <+: run ++ rest)
    (hstop : ∀ c more, c ∈ rest.head? → m ≠ run ++ c :: more) : m.length ≤ run.length := by
  obtain ⟨t, ht⟩ := hbegins
  rcases List.append_eq_append_iff.mp ht with ⟨l, rfl, -⟩ | ⟨l, rfl, rfl⟩
  · simp
  · cases l with
    | nil => simp
    | cons c more => exact absurd rfl (hstop c more (by simp))

theorem not_spaceRun_nil : ¬SpaceRun [] := fun h => h.1 rfl

theorem SpaceRun.length_le {m run rest : List Char} (hm : SpaceRun m) (hbegins : m <+: run ++ rest)
    (hrest : ∀ c ∈ rest.head?, isSpace c = false) : m.length ≤ run.length := by
  refine length_le_of_prefix hbegins fun c more hc heq => ?_
  have hspace := hm.2 c (by simp [heq])
  rw [hrest c hc] at hspace
  cases hspace

theorem SpaceRun.replaces {run rest out : List Char} (hrun : SpaceRun run)
    (hrest : ∀ c ∈ rest.head?, isSpace c = false) (h : Replaces SpaceRun [' '] rest out) :
    Replaces SpaceRun [' '] (run ++ rest) (' ' :: out) :=
  .found hrun (fun _ hbegins hm => hm.length_le hbegins hrest) h

theorem replaces_cons_of_not_isSpace {c : Char} (hc : isSpace c = false) {cs out : List Char}
    (h : Replaces SpaceRun [' '] cs out) : Replaces SpaceRun [' '] (c :: cs) (c :: out) := by
  refine .copy (fun m hbegins hm => ?_) h
  have hlength : m.length ≤ ([] : List Char).length := hm.length_le hbegins (by simpa using hc)
  exact hm.1 (List.eq_nil_of_length_eq_zero (by simpa using hlength))

/-- The scan for runs of white space, at the start of a text and inside of a run. -/
theorem replaces_squeeze_and (cs : List Char) :
    Replaces SpaceRun [' '] cs (squeeze false cs) ∧
      ∀ run, SpaceRun run → Replaces SpaceRun [' '] (run ++ cs) (' ' :: squeeze true cs) := by
  induction cs with
  | nil => exact ⟨.nil, fun run hrun => hrun.replaces (by simp) .nil⟩
  | cons c cs ih =>
      by_cases hc : isSpace c = true
      · simp only [squeeze, hc, if_true, Bool.false_eq_true, if_false]
        refine ⟨ih.2 [c] ⟨by simp, by simpa using hc⟩, fun run hrun => ?_⟩
        have hlonger : SpaceRun (run ++ [c]) :=
          ⟨by simp, List.forall_mem_append.mpr ⟨hrun.2, by simpa using hc⟩⟩
        simpa using ih.2 _ hlonger
      · rw [Bool.not_eq_true] at hc
        have hcons := replaces_cons_of_not_isSpace hc ih.1
        simp only [squeeze, hc, Bool.false_eq_true, if_false]
        exact ⟨hcons, fun run hrun => hrun.replaces (by simpa using hc) hcons⟩

theorem replaces_spaceRun_iff {cs out : List Char} :
    Replaces SpaceRun [' '] cs out ↔ out = squeeze false cs :=
  ⟨fun h => h.unique not_spaceRun_nil (replaces_squeeze_and cs).1,
    fun h => h ▸ (replaces_squeeze_and cs).1⟩

theorem isSpace_of_isIndent {c : Char} (h : isIndent c = true) : isSpace c = true := by
  rcases Bool.or_eq_true_iff.mp h with h | h
  · rw [beq_iff_eq.mp h]
    decide
  · rw [beq_iff_eq.mp h]
    decide

theorem IndentRun.spaceRun {m : List Char} (h : IndentRun m) : SpaceRun m := by
  obtain ⟨before, behind, rfl, hbefore, hbehind⟩ := h
  refine ⟨by simp, fun c hc => ?_⟩
  rcases List.mem_append.mp hc with hc | hc
  · exact isSpace_of_isIndent (hbefore c hc)
  · rcases List.mem_cons.mp hc with rfl | hc
    · decide
    · exact isSpace_of_isIndent (hbehind c hc)

theorem not_indentRun_of_prefix {indent rest : List Char}
    (hindent : ∀ c ∈ indent, isIndent c = true)
    (hrest : ∀ c ∈ rest.head?, isIndent c = false ∧ c ≠ '\n') {m : List Char}
    (hbegins : m <+: indent ++ rest) :
    ¬IndentRun m := by
  rintro ⟨before, behind, rfl, hbefore, -⟩
  induction indent generalizing before with
  | nil =>
      obtain ⟨t, rfl⟩ := hbegins
      cases before with
      | nil => exact (hrest '\n' (by simp)).2 rfl
      | cons c before =>
          have hc := hbefore c (by simp)
          rw [(hrest c (by simp)).1] at hc
          cases hc
  | cons c indent ih =>
      cases before with
      | nil =>
          have hline := hindent c (by simp)
          rw [← (List.cons_prefix_cons.mp hbegins).1] at hline
          exact absurd hline (by decide)
      | cons d before =>
          exact ih (fun c hc => hindent c (List.mem_cons_of_mem _ hc)) before
            (List.cons_prefix_cons.mp hbegins).2
            fun c hc => hbefore c (List.mem_cons_of_mem _ hc)

theorem IndentRun.isIndent_of_mem {x y : List Char} {c : Char} (h : IndentRun (x ++ c :: y))
    (hx : '\n' ∈ x) :
    isIndent c = true := by
  obtain ⟨before, behind, heq, hbefore, hbehind⟩ := h
  have hline : '\n' ∉ before := fun hmem => absurd (hbefore _ hmem) (by decide)
  rcases List.append_eq_append_iff.mp heq with ⟨l, rfl, -⟩ | ⟨l, rfl, hl⟩
  · exact absurd (List.mem_append_left l hx) hline
  · cases l with
    | nil => exact absurd (by simpa using hx) hline
    | cons d l =>
        obtain ⟨-, rfl⟩ := List.cons.inj hl
        exact hbehind c (by simp)

theorem IndentRun.replaces {before behind rest out : List Char}
    (hbefore : ∀ c ∈ before, isIndent c = true) (hbehind : ∀ c ∈ behind, isIndent c = true)
    (hrest : ∀ c ∈ rest.head?, isIndent c = false) (h : Replaces IndentRun [' '] rest out) :
    Replaces IndentRun [' '] (before ++ '\n' :: behind ++ rest) (' ' :: out) := by
  refine .found ⟨before, behind, rfl, hbefore, hbehind⟩ (fun l hbegins hl => ?_) h
  refine length_le_of_prefix hbegins fun c more hc heq => ?_
  have hindent := (heq ▸ hl).isIndent_of_mem (by simp)
  rw [hrest c hc] at hindent
  cases hindent

theorem replaces_append_of_isIndent {indent rest out : List Char}
    (hindent : ∀ c ∈ indent, isIndent c = true)
    (hrest : ∀ c ∈ rest.head?, isIndent c = false ∧ c ≠ '\n')
    (h : Replaces IndentRun [' '] rest out) :
    Replaces IndentRun [' '] (indent ++ rest) (indent ++ out) := by
  induction indent with
  | nil => exact h
  | cons c indent ih =>
      exact .copy (fun _ hbegins => not_indentRun_of_prefix hindent hrest hbegins)
        (ih fun c hc => hindent c (List.mem_cons_of_mem _ hc))

/-- The scan for line ends, behind indentation that it holds and behind a line end. -/
theorem replaces_foldIndents_and (cs : List Char) :
    (∀ held : List Char, (∀ c ∈ held, isIndent c = true) →
        Replaces IndentRun [' '] (held.reverse ++ cs) (foldIndents (.before held) cs)) ∧
      ∀ before behind : List Char, (∀ c ∈ before, isIndent c = true) →
        (∀ c ∈ behind, isIndent c = true) →
        Replaces IndentRun [' '] (before ++ '\n' :: behind ++ cs)
          (' ' :: foldIndents .behind cs) := by
  induction cs with
  | nil =>
      refine ⟨fun held hheld => ?_, fun before behind hbefore hbehind => ?_⟩
      · simpa [foldIndents] using
          replaces_append_of_isIndent (by simpa using hheld : ∀ c ∈ held.reverse, _) (by simp) .nil
      · exact IndentRun.replaces hbefore hbehind (by simp) .nil
  | cons c cs ih =>
      by_cases hline : c = '\n'
      · subst hline
        simp only [foldIndents, beq_self_eq_true, if_true]
        refine ⟨fun held hheld => ?_, fun before behind hbefore hbehind => ?_⟩
        · simpa using ih.2 held.reverse [] (by simpa using hheld) (by simp)
        · -- a match ends at the next line end, which begins a match of its own
          exact IndentRun.replaces hbefore hbehind (by simp [isIndent])
            (ih.2 [] [] (by simp) (by simp))
      · by_cases hc : isIndent c = true
        · simp only [foldIndents, beq_iff_eq, hline, if_false, hc, if_true]
          refine ⟨fun held hheld => ?_, fun before behind hbefore hbehind => ?_⟩
          · simpa using ih.1 (c :: held) (by simpa [hc] using hheld)
          · simpa
              using ih.2 before (behind ++ [c]) hbefore
                (List.forall_mem_append.mpr ⟨hbehind, by simpa using hc⟩)
        · rw [Bool.not_eq_true] at hc
          have hcopy : Replaces IndentRun [' '] (c :: cs) (c :: foldIndents (.before []) cs) :=
            .copy (fun _ => not_indentRun_of_prefix (List.forall_mem_nil _) (by simp [hc, hline]))
              (ih.1 [] (by simp))
          simp only [foldIndents, beq_iff_eq, hline, if_false, hc, Bool.false_eq_true]
          exact ⟨fun held hheld => replaces_append_of_isIndent (by simpa using hheld)
            (by simp [hc, hline]) hcopy, fun before behind hbefore hbehind =>
            IndentRun.replaces hbefore hbehind (by simp [hc]) hcopy⟩

theorem replaces_indentRun_iff {cs out : List Char} :
    Replaces IndentRun [' '] cs out ↔ out = foldIndents (.before []) cs := by
  have hscan : Replaces IndentRun [' '] cs (foldIndents (.before []) cs) :=
    (replaces_foldIndents_and cs).1 [] (by simp)
  exact ⟨fun h => h.unique (fun hempty => hempty.spaceRun.1 rfl) hscan, fun h => h ▸ hscan⟩

theorem dropWhile_eq_self {cs : List Char} (h : ∀ c ∈ cs.head?, isSpace c = false) :
    cs.dropWhile isSpace = cs := by
  cases cs with
  | nil => rfl
  | cons c cs => exact List.dropWhile_cons_of_neg (by simp [h c rfl])

theorem not_isSpace_of_mem_head?_dropWhile {cs : List Char} {c : Char}
    (h : c ∈ (cs.dropWhile isSpace).head?) :
    isSpace c = false := by
  have hnot := List.head?_dropWhile_not isSpace cs
  rwa [Option.mem_def.mp h] at hnot

theorem Trims.trim_eq {cs core : List Char} (h : Trims cs core) : trim cs = core := by
  obtain ⟨before, behind, rfl, hbefore, hbehind, hhead, hlast⟩ := h
  unfold trim
  rw [List.dropWhile_append_of_pos hbefore]
  cases core with
  | nil => simp [List.dropWhile_eq_nil_iff.mpr hbehind]
  | cons c core =>
      have hfirst : (c :: core ++ behind).dropWhile isSpace = c :: core ++ behind :=
        dropWhile_eq_self (by simpa using hhead)
      have hfinal : (c :: core).reverse.dropWhile isSpace = (c :: core).reverse :=
        dropWhile_eq_self (by simpa only [List.head?_reverse] using hlast)
      rw [hfirst, List.reverse_append, List.dropWhile_append_of_pos (by simpa using hbehind),
        hfinal, List.reverse_reverse]

theorem trims_trim (cs : List Char) : Trims cs (trim cs) := by
  have hends : trim cs ++ ((cs.dropWhile isSpace).reverse.takeWhile isSpace).reverse =
      cs.dropWhile isSpace := by
    rw [trim, ← List.reverse_append, List.takeWhile_append_dropWhile, List.reverse_reverse]
  refine ⟨cs.takeWhile isSpace, ((cs.dropWhile isSpace).reverse.takeWhile isSpace).reverse, ?_,
    fun c => List.mem_takeWhile_imp, fun c hc => List.mem_takeWhile_imp (List.mem_reverse.mp hc),
    fun c hc => ?_, fun c hc => ?_⟩
  · rw [hends, List.takeWhile_append_dropWhile]
  · -- the text begins where the text with the white space at its end does
    have hhead : c ∈ (cs.dropWhile isSpace).head? := by
      rw [← hends, List.head?_append, Option.mem_def.mp hc]
      rfl
    exact not_isSpace_of_mem_head?_dropWhile hhead
  · rw [trim, List.getLast?_reverse] at hc
    exact not_isSpace_of_mem_head?_dropWhile hc

theorem trims_iff {cs core : List Char} : Trims cs core ↔ trim cs = core :=
  ⟨Trims.trim_eq, fun h => h ▸ trims_trim cs⟩

theorem squeeze_true_append {gap : List Char} (hgap : ∀ c ∈ gap, isSpace c = true)
    (rest : List Char) :
    squeeze true (gap ++ rest) = squeeze true rest := by
  induction gap with
  | nil => rfl
  | cons c gap ih =>
      obtain ⟨hc, hgap⟩ := List.forall_mem_cons.mp hgap
      simpa [squeeze, hc] using ih hgap

theorem squeeze_spaceRun {run : List Char} (hrun : SpaceRun run) (inRun : Bool) (rest : List Char) :
    squeeze inRun (run ++ rest) = (if inRun then [] else [' ']) ++ squeeze true rest := by
  obtain ⟨hne, hspace⟩ := hrun
  obtain ⟨c, run, rfl⟩ := List.exists_cons_of_ne_nil hne
  obtain ⟨hc, hspace⟩ := List.forall_mem_cons.mp hspace
  cases inRun <;> simp [squeeze, hc, squeeze_true_append hspace]

/-- A scan that replaces white space by a space is not noticed by the scan
for runs of white space. -/
theorem Replaces.squeeze_eq {pattern : List Char → Prop} (hpattern : ∀ m, pattern m → SpaceRun m)
    {cs out : List Char} (h : Replaces pattern [' '] cs out) (inRun : Bool) :
    squeeze inRun out = squeeze inRun cs := by
  induction h generalizing inRun with
  | nil => rfl
  | copy _ _ ih => simp only [squeeze, ih]
  | found hmatch _ _ ih =>
      have hspace : SpaceRun [' '] := ⟨by simp, List.forall_mem_singleton.mpr rfl⟩
      rw [squeeze_spaceRun hspace, squeeze_spaceRun (hpattern _ hmatch), ih]

theorem collapse_foldIndents (cs : List Char) :
    collapse (foldIndents (.before []) cs) = collapse cs := by
  unfold collapse
  rw [(replaces_indentRun_iff.mpr rfl).squeeze_eq fun _ => IndentRun.spaceRun]

/-- The mode that folds indentation keeps the same text as the one that does not. Both are what
their patterns say: `out` is reached by replacing all matches, first of line ends with the
indentation around them and then of runs of white space, or of the latter alone, and by trimming. -/
theorem normalize_smart_eq_collapse (text : String) :
    normalize .smart text = normalize .collapse text ∧
      (∀ out, normalize .smart text = String.ofList out ↔
        ∃ folded squeezed, Replaces IndentRun [' '] text.toList folded ∧
          Replaces SpaceRun [' '] folded squeezed ∧
          Trims squeezed out) ∧
      ∀ out, normalize .collapse text = String.ofList out ↔
        ∃ squeezed, Replaces SpaceRun [' '] text.toList squeezed ∧ Trims squeezed out := by
  refine ⟨?_, fun out => ?_, fun out => ?_⟩
  · simp only [normalize, collapse_foldIndents]
  · simp [normalize, collapse, replaces_indentRun_iff, replaces_spaceRun_iff, trims_iff,
      String.ofList_inj]
  · simp [normalize, collapse, replaces_spaceRun_iff, trims_iff, String.ofList_inj]

/-- Where other white space stands beside a line end, the first scan splits the run and
the second one joins it. -/
example :
    foldIndents (.before []) "a \r\n\t\u00a0b".toList = "a \r \u00a0b".toList ∧
      normalize .smart "a \r\n\t\u00a0b" = "a b" := by
  decide

end TemplateCompiler.Text
