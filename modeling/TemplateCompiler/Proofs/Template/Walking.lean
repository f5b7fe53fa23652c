import TemplateCompiler.Proofs.Template.Literal
import TemplateCompiler.Template.Program

/-!
The walk over a program as a relation without a bound on the depth. Every walk that is
given at least the depth at which literals are nested has a derivation, and its result does
not depend on the depth.
-/

namespace TemplateCompiler

open Node

def Walk.succeed (w : Walk) (session : Session) : Walk :=
  { w with session, templates := w.templates + 1 }

def Walk.fail (w : Walk) (session : Session) (cause : Cause) : Walk :=
  { w with session, errors := w.errors ++ [cause] }

/-- What trees become, from left to right. A replaced literal is walked again as its closure; one
that cannot be replaced stays, and so does everything in it. -/
inductive Walks : Walk → List Node → List Node → Walk → Prop
  | nil (w : Walk) : Walks w [] [] w
  | inner {w w₁ w₂ : Walk} {form : Form} {children images rest rest' : List Node} (span : Span)
      (hform : form.isMarkup = false) (hchildren : Walks w children images w₁)
      (hrest : Walks w₁ rest rest' w₂) :
      Walks w (.node form span children :: rest) (.node form span images :: rest') w₂
  | replaced {w w₁ w₂ : Walk} {literal closure image : Node} {rest rest' : List Node}
      {session : Session} (hform : literal.form.isMarkup = true)
      (hrun : (lowerTemplate (.ofNode literal)).run w.session = (.ok closure, session))
      (hclosure : Walks (w.succeed session) [closure] [image] w₁) (hrest : Walks w₁ rest rest' w₂) :
      Walks w (literal :: rest) (image :: rest') w₂
  | failed {w w₁ : Walk} {literal : Node} {rest rest' : List Node} {session : Session}
      {cause : Cause} (hform : literal.form.isMarkup = true)
      (hrun : (lowerTemplate (.ofNode literal)).run w.session = (.error cause, session))
      (hrest : Walks (w.fail session cause) rest rest' w₁) :
      Walks w (literal :: rest) (literal :: rest') w₁

namespace Walks

variable {w w₁ w₂ : Walk} {n image : Node} {ns ns' ms ms' : List Node}

theorem cons (h : Walks w [n] [image] w₁) (h' : Walks w₁ ns ns' w₂) :
    Walks w (n :: ns) (image :: ns') w₂ := by
  cases h with
  | inner span hform hchildren hrest =>
      cases hrest
      exact .inner span hform hchildren h'
  | replaced hform hrun hclosure hrest =>
      cases hrest
      exact .replaced hform hrun hclosure h'
  | failed hform hrun hrest =>
      cases hrest
      exact .failed hform hrun h'

theorem unique (h : Walks w ns ms w₁) (h' : Walks w ns ms' w₂) : ms = ms' ∧ w₁ = w₂ := by
  induction h generalizing ms' w₂ with
  | nil w =>
      cases h'
      exact ⟨rfl, rfl⟩
  | inner span hform _ _ ihchildren ihrest =>
      cases h' with
      | inner _ _ hchildren' hrest' =>
          obtain ⟨rfl, rfl⟩ := ihchildren hchildren'
          obtain ⟨rfl, rfl⟩ := ihrest hrest'
          exact ⟨rfl, rfl⟩
      | replaced hform' => exact absurd hform' (by simp [Node.form, hform])
      | failed hform' => exact absurd hform' (by simp [Node.form, hform])
  | replaced hform hrun _ _ ihclosure ihrest =>
      cases h' with
      | inner _ hform' => exact absurd hform (by simp [Node.form, hform'])
      | replaced _ hrun' hclosure' hrest' =>
          cases hrun.symm.trans hrun'
          obtain ⟨himage, rfl⟩ := ihclosure hclosure'
          cases himage
          obtain ⟨rfl, rfl⟩ := ihrest hrest'
          exact ⟨rfl, rfl⟩
      | failed _ hrun' => cases hrun.symm.trans hrun'
  | failed hform hrun _ ihrest =>
      cases h' with
      | inner _ hform' => exact absurd hform (by simp [Node.form, hform'])
      | replaced _ hrun' => cases hrun.symm.trans hrun'
      | failed _ hrun' hrest' =>
          cases hrun.symm.trans hrun'
          obtain ⟨rfl, rfl⟩ := ihrest hrest'
          exact ⟨rfl, rfl⟩

theorem errors_append (h : Walks w ns ms w₁) : ∃ causes, w₁.errors = w.errors ++ causes := by
  induction h with
  | nil w => exact ⟨[], by simp⟩
  | inner _ _ _ _ ihchildren ihrest =>
      obtain ⟨causes, hchildren⟩ := ihchildren
      obtain ⟨causes', hrest⟩ := ihrest
      exact ⟨causes ++ causes', by rw [hrest, hchildren, List.append_assoc]⟩
  | replaced _ _ _ _ ihclosure ihrest =>
      obtain ⟨causes, hclosure⟩ := ihclosure
      obtain ⟨causes', hrest⟩ := ihrest
      exact ⟨causes ++ causes', by rw [hrest, hclosure, List.append_assoc]; rfl⟩
  | @failed w _ _ _ _ _ cause _ _ _ ihrest =>
      obtain ⟨causes, hrest⟩ := ihrest
      exact ⟨cause :: causes, by rw [hrest, Walk.fail, List.append_assoc]; rfl⟩

theorem errors_eq_nil (h : Walks w ns ms w₁) (herrors : w₁.errors = []) : w.errors = [] := by
  obtain ⟨causes, hcauses⟩ := h.errors_append
  rw [herrors] at hcauses
  exact (List.append_eq_nil_iff.mp hcauses.symm).1

end Walks

mutual

theorem walks_of_markupDepth_eq_zero (w : Walk) :
    (n : Node) → n.markupDepth = 0 → Walks w [n] [n] w
  | .node form span children => by
      intro h
      simp only [markupDepth, Nat.add_eq_zero_iff, ite_eq_right_iff, Nat.one_ne_zero, imp_false,
        Bool.not_eq_true] at h
      exact .inner span h.1 (walks_of_markupDepthOfList_eq_zero w children h.2) (.nil w)

theorem walks_of_markupDepthOfList_eq_zero (w : Walk) :
    (ns : List Node) → markupDepthOfList ns = 0 → Walks w ns ns w
  | [] => fun _ => .nil w
  | n :: ns => by
      intro h
      simp only [markupDepthOfList, Nat.max_eq_zero_iff] at h
      exact (walks_of_markupDepth_eq_zero w n h.1).cons
        (walks_of_markupDepthOfList_eq_zero w ns h.2)

end

theorem run_settle (lowering : Lower Node) (w : Walk) :
    (settle lowering).run w =
      match lowering.run w.session with
      | (.ok closure, session) => (some closure, w.succeed session)
      | (.error cause, session) => (none, w.fail session cause) := by
  simp only [settle, StateT.run_bind, StateT.run_get, pure_bind]
  rcases lowering.run w.session with ⟨_ | _, session⟩
  · rfl
  · rfl

/-- What a walk does when it meets a literal. -/
def visit (depth : Nat) (literal : Node) : StateM Walk Node := do
  match ← replaceLiteral literal with
  | some closure => walk depth closure
  | none => return literal

theorem walk_succ (depth : Nat) (n : Node) : walk (depth + 1) n = walkWith (visit depth) n := rfl

theorem run_visit (depth : Nat) (literal : Node) (w : Walk) :
    (visit depth literal).run w =
      match (lowerTemplate (.ofNode literal)).run w.session with
      | (.ok closure, session) => (walk depth closure).run (w.succeed session)
      | (.error cause, session) => (literal, w.fail session cause) := by
  rw [visit, StateT.run_bind, replaceLiteral, run_settle]
  rcases (lowerTemplate (.ofNode literal)).run w.session with ⟨_ | _, session⟩
  · rfl
  · rfl

/-- A visit to any literal that is not nested too deeply is a walk. -/
def VisitWalks (depth : Nat) : Prop :=
  ∀ (literal : Node) (w : Walk), literal.form.isMarkup = true → literal.markupDepth ≤ depth + 1 →
    Walks w [literal] [((visit depth literal).run w).1] ((visit depth literal).run w).2

mutual

theorem walks_walkWith {depth : Nat} (hvisit : VisitWalks depth) :
    (n : Node) → n.markupDepth ≤ depth + 1 → ∀ w,
      Walks w [n] [((walkWith (visit depth) n).run w).1] ((walkWith (visit depth) n).run w).2
  | .node form span children => by
      intro hdepth w
      unfold walkWith
      split
      · rename_i hform
        exact hvisit _ w hform hdepth
      · rename_i hform
        simp only [Bool.not_eq_true] at hform
        refine .inner span hform (walks_walkListWith hvisit children ?_ w) (.nil _)
        simp only [markupDepth] at hdepth
        omega

theorem walks_walkListWith {depth : Nat} (hvisit : VisitWalks depth) :
    (ns : List Node) → markupDepthOfList ns ≤ depth + 1 → ∀ w,
      Walks w ns ((walkListWith (visit depth) ns).run w).1 ((walkListWith (visit depth) ns).run w).2
  | [] => fun _ w => .nil w
  | n :: ns => by
      intro hdepth w
      simp only [markupDepthOfList, Nat.max_le] at hdepth
      exact (walks_walkWith hvisit n hdepth.1 w).cons (walks_walkListWith hvisit ns hdepth.2 _)

end

/-- A walk that is given enough depth meets every literal. -/
theorem walks_walk {depth : Nat} :
    ∀ {n : Node}, n.markupDepth ≤ depth → ∀ w,
      Walks w [n] [((walk depth n).run w).1] ((walk depth n).run w).2 := by
  induction depth with
  | zero =>
      intro n hdepth w
      exact walks_of_markupDepth_eq_zero w n (Nat.le_zero.mp hdepth)
  | succ depth ih =>
      intro n hdepth w
      rw [walk_succ]
      refine walks_walkWith ?_ n hdepth w
      intro literal w hform hliteral
      rw [run_visit]
      rcases hrun : (lowerTemplate (.ofNode literal)).run w.session with ⟨cause | closure, session⟩
      · exact .failed hform hrun (.nil _)
      · have hclosure := markupDepth_lt_of_run_template hform hrun
        exact .replaced hform hrun (ih (by omega) _) (.nil _)

/-- More depth than literals are nested in one another makes no difference. -/
theorem run_walk_eq {n : Node} {depth : Nat} (h : n.markupDepth ≤ depth) (w : Walk) :
    (walk depth n).run w = (walk n.markupDepth n).run w := by
  obtain ⟨hnode, hwalk⟩ := (walks_walk h w).unique (walks_walk (Nat.le_refl _) w)
  exact Prod.ext (List.cons.inj hnode).1 hwalk

end TemplateCompiler
