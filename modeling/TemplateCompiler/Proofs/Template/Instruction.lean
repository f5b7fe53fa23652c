import TemplateCompiler.Proofs.Template.Derivation
import TemplateCompiler.Proofs.Template.Runtime

namespace TemplateCompiler

namespace AttributeKind

theorem ofParts_eq_compile_iff {name rest modifier : String} :
    ofParts name rest = .compile modifier ↔ name = "compile" ∧ rest = modifier := by
  unfold ofParts
  repeat' split
  all_goals simp_all

theorem ofName_eq_compile_iff {name modifier : String} :
    ofName name = .compile modifier ↔ name = "compile:" ++ modifier := by
  constructor
  · intro h
    unfold ofName at h
    split at h
    · rename_i c rest hrest
      obtain ⟨hname, rfl⟩ := ofParts_eq_compile_iff.mp h
      have hcolon : c = ':' := by
        have hhead := List.head_dropWhile_not (· != ':') (l := name.toList) (by simp [hrest])
        simpa [hrest] using hhead
      subst hcolon
      have hword : name.toList.takeWhile (· != ':') = "compile".toList := by
        rw [← hname, String.toList_ofList]
      apply String.toList_injective
      rw [← List.takeWhile_append_dropWhile (p := (· != ':')) (l := name.toList), hword, hrest]
      simp
    · repeat' split at h
      all_goals cases h
  · rintro rfl
    simp [ofName, ofParts]

end AttributeKind

theorem compileInstruction_eq_ok_iff {modifier : String} {value : AttributeValue} {start : Nat}
    {options : TextOptions} :
    compileInstruction modifier value start = .ok options ↔
      modifier = "preserveWhitespace" ∧ options = ⟨some value.spaceMode⟩ := by
  unfold compileInstruction
  split
  · rename_i hmodifier
    simp only [beq_iff_eq.mp hmodifier, Except.ok.injEq, true_and]
    exact eq_comm
  · rename_i hmodifier
    have hne : modifier ≠ "preserveWhitespace" := fun h => hmodifier (beq_iff_eq.mpr h)
    simp [hne]

theorem ownOptions_cons (a : Attribute) (as : List Attribute) :
    ownOptions (a :: as) = (⟨a.spaceMode?⟩ : TextOptions).merge (ownOptions as) := by
  unfold ownOptions TextOptions.merge
  cases hmode : a.spaceMode? with
  | none => simp [hmode]
  | some mode =>
      rw [List.filterMap_cons_some hmode, List.getLast?_cons]
      cases (as.filterMap Attribute.spaceMode?).getLast? <;> rfl

theorem Attribute.spaceMode?_of_compile {name modifier : String} {value : AttributeValue}
    {start : Nat} {options : TextOptions} (hkind : AttributeKind.ofName name = .compile modifier)
    (hoptions : compileInstruction modifier value start = .ok options) :
    options = ⟨(Attribute.named name value start).spaceMode?⟩ := by
  obtain ⟨rfl, rfl⟩ := compileInstruction_eq_ok_iff.mp hoptions
  obtain rfl := AttributeKind.ofName_eq_compile_iff.mp hkind
  rfl

theorem Attribute.spaceMode?_of_not_compile {name : String} {value : AttributeValue} {start : Nat}
    (hkind : ∀ modifier, AttributeKind.ofName name ≠ .compile modifier) :
    (Attribute.named name value start).spaceMode? = none := by
  refine if_neg fun hname => hkind "preserveWhitespace" ?_
  exact AttributeKind.ofName_eq_compile_iff.mpr hname

theorem ownOptions_cons_of_none {a : Attribute} (h : a.spaceMode? = none) (as : List Attribute) :
    ownOptions (a :: as) = ownOptions as := by
  rw [ownOptions_cons, h]
  simp [TextOptions.merge]

theorem LowersAttributes.options_eq {scope : Scope} {target : String} {as : List Attribute}
    {lowered : LoweredAttributes} {s s' : Session}
    (h : LowersAttributes scope target s as lowered s') : lowered.options = ownOptions as := by
  induction h with
  | nil s => rfl
  | spread _ ih =>
      rw [ownOptions_cons_of_none rfl, ← ih]
      simp [LoweredAttributes.append, TextOptions.merge]
  | compile hkind hoptions _ ih =>
      rw [ownOptions_cons, ← ih, ← Attribute.spaceMode?_of_compile hkind hoptions]
      rfl
  | directive hkind _ _ ih =>
      rw [ownOptions_cons_of_none (Attribute.spaceMode?_of_not_compile (by simp [hkind])), ← ih]
      simp [LoweredAttributes.append, TextOptions.merge]
  | prop hkind _ ih =>
      rw [ownOptions_cons_of_none (Attribute.spaceMode?_of_not_compile (by simp [hkind])), ← ih]
      simp [LoweredAttributes.append, TextOptions.merge]

theorem ownOptions_of_instructions {as : List Attribute} :
    ∀ {own : TextOptions}, instructions as = .ok own → own = ownOptions as := by
  induction as with
  | nil =>
      intro own h
      cases h
      rfl
  | cons a as ih =>
      intro own h
      cases a with
      | spread value =>
          rw [ownOptions_cons_of_none rfl]
          exact ih h
      | named name value start =>
          simp only [instructions] at h
          cases hkind : AttributeKind.ofName name with
          | compile modifier =>
              cases hoptions : compileInstruction modifier value start with
              | error cause =>
                  simp only [hkind, hoptions] at h
                  cases h
              | ok first =>
                  cases hrest : instructions as with
                  | error cause =>
                      simp only [hkind, hoptions, hrest] at h
                      cases h
                  | ok rest =>
                      simp only [hkind, hoptions, hrest] at h
                      cases h
                      rw [ownOptions_cons, ← ih hrest,
                        ← Attribute.spaceMode?_of_compile hkind hoptions]
          | directive directive =>
              rw [hkind] at h
              rw [ownOptions_cons_of_none (Attribute.spaceMode?_of_not_compile (by simp [hkind]))]
              exact ih h
          | prop =>
              rw [hkind] at h
              rw [ownOptions_cons_of_none (Attribute.spaceMode?_of_not_compile (by simp [hkind]))]
              exact ih h

end TemplateCompiler
