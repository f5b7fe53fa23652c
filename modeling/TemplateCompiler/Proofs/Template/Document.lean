import TemplateCompiler.Proofs.Template.Runtime

namespace TemplateCompiler.Runtime

theorem appendAt_nil {path : List Nat} :
    ∀ {views siblings : List View}, viewsAt path views = some siblings →
      appendAt [] path views = some views := by
  induction path with
  | nil =>
      intro views siblings _
      simp [appendAt]
  | cons i path ih =>
      intro views siblings h
      unfold viewsAt at h
      unfold appendAt
      split at h
      · rename_i tag children hview
        obtain ⟨hi, hget⟩ := List.getElem?_eq_some_iff.mp hview
        simp only [ih h, Option.map_some, ← hget, List.set_getElem_self]
      · cases h

theorem exists_appendAt (added : List View) {path : List Nat} :
    ∀ {views siblings : List View}, viewsAt path views = some siblings →
      ∃ views', appendAt added path views = some views' ∧
        viewsAt path views' = some (siblings ++ added) := by
  induction path with
  | nil =>
      intro views siblings h
      cases h
      exact ⟨views ++ added, rfl, rfl⟩
  | cons i path ih =>
      intro views siblings h
      unfold viewsAt at h
      split at h
      · rename_i tag children hview
        obtain ⟨children', happend, hviews⟩ := ih h
        have hi : i < views.length := (List.getElem?_eq_some_iff.mp hview).1
        refine ⟨views.set i (.element tag children'), ?_, ?_⟩
        · simp [appendAt, hview, happend]
        · simp [viewsAt, hi, hviews]
      · cases h

theorem appendAt_append {a b : List View} {path : List Nat} :
    ∀ {views views' : List View}, appendAt a path views = some views' →
      appendAt b path views' = appendAt (a ++ b) path views := by
  induction path with
  | nil =>
      intro views views' h
      cases h
      simp [appendAt]
  | cons i path ih =>
      intro views views' h
      unfold appendAt at h
      split at h
      · rename_i tag children hview
        obtain ⟨children', happend, rfl⟩ := Option.map_eq_some_iff.mp h
        have hi : i < views.length := (List.getElem?_eq_some_iff.mp hview).1
        simp only [appendAt, hview, List.getElem?_set_self hi, ih happend, List.set_set]
      · cases h

theorem viewsAt_appendAt_element {tag : String} {path : List Nat} :
    ∀ {views siblings views' : List View}, viewsAt path views = some siblings →
      appendAt [.element tag []] path views = some views' →
      viewsAt (path ++ [siblings.length]) views' = some [] := by
  induction path with
  | nil =>
      intro views siblings views' hviews happend
      cases hviews
      cases happend
      simp [viewsAt]
  | cons i path ih =>
      intro views siblings views' hviews happend
      unfold viewsAt at hviews
      split at hviews
      · rename_i tag' children hview
        simp only [appendAt, hview] at happend
        obtain ⟨children', hchildren, rfl⟩ := Option.map_eq_some_iff.mp happend
        have hi : i < views.length := (List.getElem?_eq_some_iff.mp hview).1
        simp only [List.cons_append, viewsAt, List.getElem?_set_self hi]
        exact ih hviews hchildren
      · cases hviews

theorem appendAt_inside {tag : String} {kids : List View} {path : List Nat} :
    ∀ {views siblings views' : List View}, viewsAt path views = some siblings →
      appendAt [.element tag []] path views = some views' →
      appendAt kids (path ++ [siblings.length]) views' =
        appendAt [.element tag kids] path views := by
  induction path with
  | nil =>
      intro views siblings views' hviews happend
      cases hviews
      cases happend
      simp [appendAt]
  | cons i path ih =>
      intro views siblings views' hviews happend
      unfold viewsAt at hviews
      split at hviews
      · rename_i tag' children hview
        simp only [appendAt, hview] at happend
        obtain ⟨children', hchildren, rfl⟩ := Option.map_eq_some_iff.mp happend
        have hi : i < views.length := (List.getElem?_eq_some_iff.mp hview).1
        simp only [List.cons_append, appendAt, List.getElem?_set_self hi, hview,
          ih hviews hchildren, List.set_set]
      · cases hviews

theorem slotAt_inside {kind : ComponentKind} {slot : List View} {path : List Nat} :
    ∀ {views siblings views' : List View}, viewsAt path views = some siblings →
      appendAt [.component kind none] path views = some views' →
      slotAt slot (path ++ [siblings.length]) views' =
        appendAt [.component kind (some slot)] path views := by
  induction path with
  | nil =>
      intro views siblings views' hviews happend
      cases hviews
      cases happend
      simp [appendAt, slotAt]
  | cons i path ih =>
      intro views siblings views' hviews happend
      unfold viewsAt at hviews
      split at hviews
      · rename_i tag' children hview
        simp only [appendAt, hview] at happend
        obtain ⟨children', hchildren, rfl⟩ := Option.map_eq_some_iff.mp happend
        have hi : i < views.length := (List.getElem?_eq_some_iff.mp hview).1
        have hstep := ih hviews hchildren
        cases hpath : path ++ [siblings.length] with
        | nil => simp at hpath
        | cons j rest =>
            rw [hpath] at hstep
            rw [List.cons_append, hpath]
            unfold slotAt
            simp only [List.getElem?_set_self hi, hstep, appendAt, hview, List.set_set]
      · cases hviews

/-- Views can be added at a place. -/
def IsOpen (place : Place) (doc : Document) : Prop :=
  ∃ views siblings, doc[place.fragment]? = some views ∧ viewsAt place.path views = some siblings

/-- A document and what becomes of it when views are added at a place. Fragments may have been
made in the meantime. -/
def Adds (place : Place) (added : List View) (doc doc' : Document) : Prop :=
  ∃ views views' made, doc[place.fragment]? = some views ∧
    appendAt added place.path views = some views' ∧
    doc' = doc.set place.fragment views' ++ made

theorem Adds.refl {place : Place} {doc : Document} (h : IsOpen place doc) :
    Adds place [] doc doc := by
  obtain ⟨views, siblings, hviews, hsiblings⟩ := h
  refine ⟨views, views, [], hviews, appendAt_nil hsiblings, ?_⟩
  obtain ⟨hi, rfl⟩ := List.getElem?_eq_some_iff.mp hviews
  simp

theorem getElem?_set_append {place : Place} {views views' : List View} {doc made : Document}
    (hviews : doc[place.fragment]? = some views) :
    (doc.set place.fragment views' ++ made)[place.fragment]? = some views' := by
  have hi : place.fragment < doc.length := (List.getElem?_eq_some_iff.mp hviews).1
  rw [List.getElem?_append_left (by simpa using hi), List.getElem?_set_self hi]

theorem Adds.trans {place : Place} {a b : List View} {doc doc₁ doc₂ : Document}
    (h : Adds place a doc doc₁) (h' : Adds place b doc₁ doc₂) : Adds place (a ++ b) doc doc₂ := by
  obtain ⟨views, views₁, made, hviews, happend, rfl⟩ := h
  obtain ⟨views₁', views₂, made', hviews', happend', rfl⟩ := h'
  rw [getElem?_set_append hviews] at hviews'
  cases hviews'
  have hi : place.fragment < doc.length := (List.getElem?_eq_some_iff.mp hviews).1
  refine ⟨views, views₂, made ++ made', hviews, ?_, ?_⟩
  · rw [← appendAt_append happend]
    exact happend'
  · rw [List.set_append_left _ _ (by simpa using hi), List.set_set, List.append_assoc]

theorem IsOpen.adds {place : Place} {added : List View} {doc doc' : Document}
    (hopen : IsOpen place doc) (h : Adds place added doc doc') : IsOpen place doc' := by
  obtain ⟨views, siblings, hviews, hsiblings⟩ := hopen
  obtain ⟨views₀, views', made, hviews₀, happend, rfl⟩ := h
  rw [hviews] at hviews₀
  cases hviews₀
  obtain ⟨views'', happend', hsiblings'⟩ := exists_appendAt added hsiblings
  rw [happend] at happend'
  cases happend'
  exact ⟨views', siblings ++ added, getElem?_set_append hviews, hsiblings'⟩

theorem change_appendAt {place : Place} {doc : Document} (hopen : IsOpen place doc)
    (added : List View) :
    ∃ doc', change (appendAt added) place doc = .ok doc' ∧ Adds place added doc doc' := by
  obtain ⟨views, siblings, hviews, hsiblings⟩ := hopen
  obtain ⟨views', happend, -⟩ := exists_appendAt added hsiblings
  refine ⟨doc.set place.fragment views', ?_, views, views', [], hviews, happend, by simp⟩
  simp [change, hviews, happend]

theorem attach_eq {place : Place} {doc : Document} {views siblings views' : List View} {view : View}
    (hviews : doc[place.fragment]? = some views)
    (hsiblings : viewsAt place.path views = some siblings)
    (happend : appendAt [view] place.path views = some views') :
    attach view place doc =
      .ok (⟨place.fragment, place.path ++ [siblings.length]⟩, doc.set place.fragment views') := by
  simp only [attach, viewsUnder, change, hviews, hsiblings, happend]
  rfl

theorem attach_element {place : Place} {doc : Document} (hopen : IsOpen place doc) (tag : String) :
    ∃ inner doc₁, attach (.element tag []) place doc = .ok (inner, doc₁) ∧
      IsOpen inner doc₁ ∧
      ∀ kids doc₂, Adds inner kids doc₁ doc₂ → Adds place [.element tag kids] doc doc₂ := by
  obtain ⟨views, siblings, hviews, hsiblings⟩ := hopen
  obtain ⟨views', happend, -⟩ := exists_appendAt [.element tag []] hsiblings
  have hi : place.fragment < doc.length := (List.getElem?_eq_some_iff.mp hviews).1
  refine ⟨_, _, attach_eq hviews hsiblings happend, ?_, ?_⟩
  · exact ⟨views', [], List.getElem?_set_self hi, viewsAt_appendAt_element hsiblings happend⟩
  · rintro kids doc₂ ⟨views₁, views₂, made, hviews₁, hkids, rfl⟩
    rw [List.getElem?_set_self hi] at hviews₁
    cases hviews₁
    refine ⟨views, views₂, made, hviews, ?_, by rw [List.set_set]⟩
    rw [← appendAt_inside hsiblings happend]
    exact hkids

/-- A new component can be given views, whatever fragments are made before that. -/
theorem attach_component {place : Place} {doc : Document} (hopen : IsOpen place doc)
    (kind : ComponentKind) :
    ∃ inner doc₁, attach (.component kind none) place doc = .ok (inner, doc₁) ∧
      Adds place [.component kind none] doc doc₁ ∧
      ∀ slot made, ∃ doc₂, change (slotAt slot) inner (doc₁ ++ made) = .ok doc₂ ∧
        Adds place [.component kind (some slot)] doc doc₂ := by
  obtain ⟨views, siblings, hviews, hsiblings⟩ := hopen
  obtain ⟨views', happend, -⟩ := exists_appendAt [.component kind none] hsiblings
  have hi : place.fragment < doc.length := (List.getElem?_eq_some_iff.mp hviews).1
  refine ⟨_, _, attach_eq hviews hsiblings happend, ?_, ?_⟩
  · exact ⟨views, views', [], hviews, happend, by simp⟩
  · intro slot made
    obtain ⟨views₂, happend₂, -⟩ := exists_appendAt [.component kind (some slot)] hsiblings
    have hslot := (slotAt_inside hsiblings happend).trans happend₂
    refine ⟨doc.set place.fragment views₂ ++ made, ?_, views, views₂, made, hviews, happend₂, rfl⟩
    have hget : (doc.set place.fragment views' ++ made)[place.fragment]? = some views' :=
      getElem?_set_append hviews
    simp only [change, hget, hslot]
    rw [List.set_append_left _ _ (by simpa using hi), List.set_set]

end TemplateCompiler.Runtime
