import TemplateCompiler.Proofs.Template.Embedding

namespace TemplateCompiler

/-- `Chain n segments` says that `n` reads members by their names, one from the other, from a
variable or from `this`; the names are the segments. -/
inductive Node.Chain : Node → List String → Prop
  | reference (name : String) (span : Span) : Chain (.reference name span) [name]
  | this (span : Span) : Chain (.leaf .thisValue span) ["this"]
  | member {object : Node} {segments : List String} (hobject : Chain object segments)
      (property : String) (propertySpan span : Span) :
      Chain (.member object property propertySpan span) (segments ++ [property])

theorem takeWhile_append_cons {c : Char} {p : Char → Bool} (hc : p c = false) (cs ds : List Char) :
    (cs ++ c :: ds).takeWhile p = cs.takeWhile p := by
  induction cs with
  | nil => simp [hc]
  | cons d cs ih => rw [List.cons_append, List.takeWhile_cons, List.takeWhile_cons, ih]

/-- Of a spelling with a point in it, only what follows the point counts, if there is no
colon in front of it. -/
theorem isComponentName_point (object property : String) :
    isComponentName (object ++ "." ++ property) =
      (!object.toList.contains ':' && isComponentName property) := by
  have hlast : (object ++ "." ++ property).toList.reverse.takeWhile (· != '.') =
      property.toList.reverse.takeWhile (· != '.') := by
    have hreverse : (object ++ "." ++ property).toList.reverse =
        property.toList.reverse ++ '.' :: object.toList.reverse := by
      simp
    rw [hreverse, takeWhile_append_cons rfl]
  have hcolon : (object ++ "." ++ property).toList.contains ':' =
      (object.toList.contains ':' || property.toList.contains ':') := by
    simp [List.contains_eq_mem]
  simp only [isComponentName, hlast, hcolon]
  cases object.toList.contains ':' with
  | true => rfl
  | false => rfl

namespace TagPath

/-- The names that a path is made of. -/
def segments : TagPath → List String
  | reference name _ => [name]
  | this _ => ["this"]
  | member object property _ _ => object.segments ++ [property]

theorem segments_ne_nil (p : TagPath) : p.segments ≠ [] := by
  cases p with
  | reference name span => exact List.cons_ne_nil _ _
  | this span => exact List.cons_ne_nil _ _
  | member object property propertySpan span => exact List.concat_ne_nil _ _

theorem spelling_eq_intercalate (p : TagPath) : p.spelling = ".".intercalate p.segments := by
  induction p with
  | reference name span => rfl
  | this span => rfl
  | member object property propertySpan span ih =>
      rw [spelling, segments,
        String.intercalate_append_of_ne_nil object.segments_ne_nil (List.cons_ne_nil _ _),
        String.intercalate_singleton, ih]

theorem chain_toNode (p : TagPath) : p.toNode.Chain p.segments := by
  induction p with
  | reference name span => exact .reference name span
  | this span => exact .this span
  | member object property propertySpan span ih => exact .member ih property propertySpan span

theorem colon_not_mem_spelling {p : TagPath} (h : ∀ segment ∈ p.segments, ':' ∉ segment.toList) :
    ':' ∉ p.spelling.toList := by
  induction p with
  | reference name span => exact h name (List.mem_singleton_self name)
  | this span =>
      rw [spelling]
      decide
  | member object property propertySpan span ih =>
      have hobject := ih fun segment hsegment => h segment (List.mem_append_left _ hsegment)
      have hproperty := h property (List.mem_append_right _ (List.mem_singleton_self property))
      simpa [spelling] using ⟨hobject, hproperty⟩

end TagPath

namespace Tag

/-- No segment of a tag with several has a colon in it. Points would do no harm. -/
def ColonFree : Tag → Prop
  | path p@(.member _ _ _ _) => ∀ segment ∈ p.segments, ':' ∉ segment.toList
  | _ => True

theorem isComponentName_spelling {tag : Tag} (h : tag.ColonFree) :
    isComponentName tag.spelling = tag.isComponent := by
  cases tag with
  | plain tag span => rfl
  | namespaced space name span => simp [spelling, isComponent, isComponentName]
  | path p =>
      cases p with
      | reference name span => rfl
      | this span =>
          rw [spelling, TagPath.spelling, isComponent]
          decide
      | member object property propertySpan span =>
          have hobject : ':' ∉ object.spelling.toList :=
            TagPath.colon_not_mem_spelling fun segment hsegment =>
            h segment (List.mem_append_left _ hsegment)
          rw [spelling, TagPath.spelling, isComponentName_point, isComponent]
          simp [hobject]

/-- The names that a tag is made of, if it is an expression. -/
def segments : Tag → List String
  | path p => p.segments
  | tag => [tag.spelling]

theorem intercalate_segments (tag : Tag) : ".".intercalate tag.segments = tag.spelling := by
  cases tag with
  | plain tag span => exact String.intercalate_singleton
  | namespaced space name span => exact String.intercalate_singleton
  | path p => exact p.spelling_eq_intercalate.symm

theorem segments_ne_nil (tag : Tag) : tag.segments ≠ [] := by
  cases tag with
  | plain tag span => exact List.cons_ne_nil _ _
  | namespaced space name span => exact List.cons_ne_nil _ _
  | path p => exact p.segments_ne_nil

theorem segments_of_spelling {tag : Tag} (h : ∀ segment ∈ tag.segments, '.' ∉ segment.toList) :
    tag.segments.map String.toList = tag.spelling.toList.splitOn '.' := by
  rw [← intercalate_segments, String.toList_intercalate, show ".".toList = ['.'] from rfl,
    List.splitOn_intercalate]
  · simpa using h
  · simpa using tag.segments_ne_nil

theorem chain_component {tag : Tag} {n : Node} (h : tag.component = .ok n) :
    n.Chain tag.segments := by
  cases tag with
  | plain tag span =>
      rw [component] at h
      split at h
      · cases h
        exact .reference tag.text span
      · cases h
  | namespaced space name span => cases h
  | path p =>
      cases p with
      | reference name span =>
          cases h
          exact .reference name span
      | this span => cases h
      | member object property propertySpan span =>
          cases h
          exact TagPath.chain_toNode (.member object property propertySpan span)

theorem exists_component_iff {tag : Tag} (htag : tag.isComponent = true) :
    (∃ n, tag.component = .ok n) ↔ ∃ p, tag = .path p := by
  constructor
  · rintro ⟨n, hn⟩
    obtain ⟨p, hp, -⟩ := exists_path_of_component htag hn
    exact ⟨p, hp⟩
  · rintro ⟨p, rfl⟩
    cases p with
    | reference name span => exact ⟨_, rfl⟩
    | this span => cases htag
    | member object property propertySpan span => exact ⟨_, rfl⟩

theorem spelling_decides {tag : Tag} (h : tag.ColonFree) :
    tag.isComponent = isComponentName tag.spelling ∧
      (tag.isComponent = true → ((∃ n, tag.component = .ok n) ↔ ∃ p, tag = .path p)) ∧
      ∀ n, tag.component = .ok n →
        n.Chain tag.segments ∧ ".".intercalate tag.segments = tag.spelling ∧
          ((∀ segment ∈ tag.segments, '.' ∉ segment.toList) →
            tag.segments.map String.toList = tag.spelling.toList.splitOn '.') := by
  refine ⟨(isComponentName_spelling h).symm, exists_component_iff, fun n hn => ?_⟩
  exact ⟨chain_component hn, tag.intercalate_segments, segments_of_spelling⟩

theorem spelling_decides_card :
    let tag :=
  path (.member (.member (.member (.this ⟨1, 5⟩) "ui-kit" ⟨6, 12⟩ ⟨1, 12⟩) "v2" ⟨13, 15⟩ ⟨1, 15⟩)
    "Card"
      ⟨16, 20⟩ ⟨1, 20⟩)
    tag.ColonFree ∧ tag.spelling = "this.ui-kit.v2.Card" ∧
    tag.isComponent = isComponentName tag.spelling ∧
      ∃ n, tag.component = .ok n ∧ n.Chain ["this", "ui-kit", "v2", "Card"] := by
  intro tag
  have hfree : tag.ColonFree := by
    simp [tag, ColonFree, TagPath.segments]
  obtain ⟨hcomponent, hexists, hchain⟩ := spelling_decides hfree
  obtain ⟨n, hn⟩ := (hexists rfl).mpr ⟨_, rfl⟩
  exact ⟨hfree, rfl, hcomponent, n, hn, (hchain n hn).1⟩

/-- A point in the last segment: still only what follows it counts. -/
example : (path (.member (.reference "a" ⟨0, 1⟩) "b.C" ⟨2, 5⟩ ⟨0, 5⟩)).isComponent =
      isComponentName "a.b.C" := by
  decide +kernel

end Tag

end TemplateCompiler
