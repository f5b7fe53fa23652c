import TemplateCompiler.Proofs.Template.Delegation

namespace TemplateCompiler

open Lower Node Session

def Attribute.requests : Attribute → List String
  | .spread _ => []
  | .named name _ _ =>
    match AttributeKind.ofName name with
    | .directive directive => directive.helpers
    | _ => []

namespace Template

mutual

/-- The helpers that a template asks for, in the order in which it does. -/
def requests : Template → List String
  | .element tag attributes children =>
    let own := attributes.flatMap Attribute.requests
    match tag.control? with
    | some .conditional => "createIfComponent" :: own
    | some .loop => "createForComponent" :: own
    | some .fragment => "appendText" :: requestsOfList children
    | none =>
      (if tag.isComponent then "createComponent" else "element") :: own ++
        if children.isEmpty then [] else "appendText" :: requestsOfList children
  | .fragment children => "appendText" :: requestsOfList children
  | .part _ => ["reactivePart"]
  | .text _ => []
  | .nothing => []

def requestsOfList : List Template → List String
  | [] => []
  | t :: ts => t.requests ++ requestsOfList ts

end

end Template

/-- A session in which helpers have been asked for: they are imported from one module, in the order
in which they were first asked for. -/
structure Session.Asked (s : Session) (asked : List String) : Prop where
  single : s.imports.modules = [] ∨ ∃ symbols, s.imports.modules = [⟨s.environment, symbols⟩]
  symbols : s.imports.entries.map Prod.fst = asked.eraseDups
  nodup : (s.imports.entries.map Prod.fst).Nodup

namespace Session.Asked

variable {s s' : Session} {asked : List String}

theorem fresh (h : s.Asked asked) {base name : String}
    (hrun : (Lower.fresh base).run s = (.ok name, s')) :
    s'.Asked asked := by
  obtain ⟨hgrows, -, -, himports, -⟩ := of_run_fresh hrun
  refine ⟨?_, ?_, ?_⟩
  · rw [himports, hgrows.environment]
    exact h.single
  · rw [himports]
    exact h.symbols
  · rw [himports]
    exact h.nodup

theorem localName?_isSome (h : s.Asked asked) (symbol : String) :
    (s.imports.localName? symbol s.environment).isSome = true ↔ symbol ∈ asked := by
  rw [← List.mem_eraseDups, ← h.symbols]
  unfold Imports.localName? Imports.entries
  rcases h.single with hnone | ⟨symbols, hone⟩
  · simp [hnone]
  · simp [hone]

theorem require (h : s.Asked asked) {symbol name : String}
    (hrun : (Lower.require symbol).run s = (.ok name, s')) : s'.Asked (asked ++ [symbol]) := by
  have hsome := h.localName?_isSome symbol
  obtain ⟨names, -, -, rfl⟩ := run_require_ok hrun
  unfold Imports.require
  cases hlocal : s.imports.localName? symbol s.environment with
  | some localName =>
      have hmem : symbol ∈ asked := hsome.mp (by rw [hlocal]; rfl)
      exact ⟨h.single, by rw [eraseDups_concat, if_pos hmem]; exact h.symbols, h.nodup⟩
  | none =>
      have hmem : symbol ∉ asked := fun hmem => by simpa [hlocal] using hsome.mpr hmem
      have hnew : symbol ∉ s.imports.entries.map Prod.fst := by rwa [h.symbols, List.mem_eraseDups]
      have hmodules : ∃ symbols,
          Imports.add symbol (names.generate symbol).1 s.environment s.imports.modules =
            [⟨s.environment, symbols⟩] ∧
          symbols.map Prod.fst = s.imports.entries.map Prod.fst ++ [symbol] := by
        unfold Imports.entries
        rcases h.single with hnone | ⟨symbols, hone⟩
        · exact ⟨[(symbol, (names.generate symbol).1)], by rw [hnone]; rfl, by rw [hnone]; rfl⟩
        · exact ⟨symbols ++ [(symbol, (names.generate symbol).1)], by simp [hone, Imports.add],
            by simp [hone]⟩
      obtain ⟨symbols, hadd, hsymbols⟩ := hmodules
      have hentries : (Imports.entries ⟨[⟨s.environment, symbols⟩]⟩).map Prod.fst =
          s.imports.entries.map Prod.fst ++ [symbol] := by
        simpa [Imports.entries] using hsymbols
      refine ⟨.inr ⟨symbols, hadd⟩, ?_, ?_⟩
      · simp only [hadd, hentries, eraseDups_concat, if_neg hmem, h.symbols]
      · simp only [hadd, hentries]
        exact h.nodup.append (List.nodup_singleton symbol) (List.disjoint_singleton.mpr hnew)

end Session.Asked

theorem LowersDirective.asked {scope : Scope} {target : String} {value call : Node}
    {directive : Directive} {s s' : Session} {asked : List String}
    (h : LowersDirective scope target value s directive call s') (hs : s.Asked asked) :
    s'.Asked (asked ++ directive.helpers) := by
  cases h with
  | on event hhelper =>
      have hasked := hs.require hhelper
      exact ⟨hasked.single, hasked.symbols, hasked.nodup⟩
  | model hdetect hsetState hparameter =>
      simpa [Directive.helpers] using ((hs.require hdetect).require hsetState).fresh hparameter
  | bind _ hhelper | attr _ hhelper | ref hhelper | view hhelper | custom _ _ hhelper =>
      exact hs.require hhelper

theorem LowersAttributes.asked {scope : Scope} {target : String} {as : List Attribute}
    {lowered : LoweredAttributes} {s s' : Session} {asked : List String}
    (h : LowersAttributes scope target s as lowered s') (hs : s.Asked asked) :
    s'.Asked (asked ++ as.flatMap Attribute.requests) := by
  induction h generalizing asked with
  | nil => simpa using hs
  | spread _ ih => simpa [Attribute.requests] using ih hs
  | compile hkind _ _ ih => simpa [Attribute.requests, hkind] using ih hs
  | directive hkind hcall _ ih => simpa [Attribute.requests, hkind] using ih (hcall.asked hs)
  | prop hkind _ ih => simpa [Attribute.requests, hkind] using ih hs

def Job.requests : Job → List String
  | .tree t => t.requests
  | .run _ _ ts => Template.requestsOfList ts

theorem Lowers.asked {scope : Scope} {options : TextOptions} {job : Job} {items : List Node}
    {s s' : Session} {asked : List String} (h : Lowers s scope options job items s')
    (hs : s.Asked asked) :
    s'.Asked (asked ++ job.requests) := by
  induction h generalizing asked with
  | leafElement htag hhelper htarget hattributes =>
      have hhead := hattributes.asked ((hs.require hhelper).fresh htarget)
      simpa [Job.requests, Template.requests, Tag.control?_eq_none htag, htag] using hhead
  | element htag hhelper htarget hattributes htext _ ih =>
      have hhead := hattributes.asked ((hs.require hhelper).fresh htarget)
      simpa [Job.requests, Template.requests, Tag.control?_eq_none htag, htag]
        using ih (hhead.require htext)
  | @control _ _ _ _ _ _ _ _ _ control _ _ _ _ _ _ hcontrol hconstructor hhelper htarget
      hattributes =>
      have hhead := hattributes.asked ((hs.require hhelper).fresh htarget)
      cases control with
      | conditional | loop =>
          cases hconstructor
          simpa [Job.requests, Template.requests, hcontrol] using hhead
      | fragment => cases hconstructor
  | splice _ hcontrol _ htext _ ih =>
      simpa [Job.requests, Template.requests, hcontrol] using ih (hs.require htext)
  | leafComponent htag hcontrol _ hhelper htarget hattributes =>
      have hhead := hattributes.asked ((hs.require hhelper).fresh htarget)
      simpa [Job.requests, Template.requests, hcontrol, htag] using hhead
  | component htag hcontrol _ hhelper htarget hattributes hroot hctx htext _ ih =>
      have hhead := hattributes.asked ((hs.require hhelper).fresh htarget)
      have hslot := ((hhead.fresh hroot).fresh hctx).require htext
      simpa [Job.requests, Template.requests, hcontrol, htag] using ih hslot
  | fragment htext _ ih => simpa [Job.requests, Template.requests] using ih (hs.require htext)
  | part _ hhelper => exact hs.require hhelper
  | text | nothing => simpa [Job.requests, Template.requests] using hs
  | done => simpa [Job.requests, Template.requestsOfList] using hs
  | gather _ ih => simpa [Job.requests, Template.requestsOfList, Template.requests] using ih hs
  | next _ _ _ ihfirst ihlater =>
      simpa [Job.requests, Template.requestsOfList] using ihlater (ihfirst hs)

theorem LowersEach.asked {s s' : Session} {met : List Node} {asked : List String}
    (h : LowersEach s met s') (hs : s.Asked asked) :
    s'.Asked (asked ++ met.flatMap fun literal => (Template.ofNode literal).requests) := by
  induction h generalizing asked with
  | nil => simpa using hs
  | cons hrun _ ih =>
      obtain ⟨scope, s₁, s₂, items, trace, hroot, hctx, hitems, -⟩ := lowers_of_run_template hrun
      have hscope := (hs.fresh hroot).fresh hctx
      have hnoted : Session.Asked { s₂ with trace } asked :=
        ⟨hscope.single, hscope.symbols, hscope.nodup⟩
      simpa [Job.requests] using ih (hitems.asked hnoted)

theorem mem_ofDirectives {as : List Attribute} {symbol : String}
    (h : symbol ∈ as.flatMap Attribute.requests) : .use symbol ∈ markAccount.ofDirectives as := by
  induction as with
  | nil => cases h
  | cons a as ih =>
      rw [List.flatMap_cons, List.mem_append] at h
      cases a with
      | spread value => exact ih (h.resolve_left (by simp [Attribute.requests]))
      | named name value start =>
          simp only [Attribute.requests, Account.ofDirectives] at h ⊢
          cases hkind : AttributeKind.ofName name with
          | compile modifier | prop => exact ih (by simpa [hkind] using h)
          | directive directive =>
              rw [hkind] at h
              rcases h with hown | hrest
              · simp [Account.ofDirective, markAccount, hown]
              · simp [ih hrest]

theorem mem_ofCreation {as : List Attribute} {symbol helper : String}
    (h : symbol ∈ helper :: as.flatMap Attribute.requests) :
    .use symbol ∈ markAccount.ofCreation helper as := by
  unfold Account.ofCreation
  rcases List.mem_cons.mp h with rfl | hdirective
  · exact List.mem_append_left _ (List.mem_append_left _ List.mem_cons_self)
  · exact List.mem_append_right _ (mem_ofDirectives hdirective)

mutual

/-- What a template asks for it uses, apart from the helper for texts. -/
theorem Template.use_mem_ofTemplate {symbol : String} (hsymbol : symbol ≠ "appendText")
    (options : TextOptions) :
    (t : Template) → symbol ∈ t.requests → .use symbol ∈ markAccount.ofTemplate options t
  | .element tag attributes children => by
      have hchildren :=
        use_mem_ofTemplates hsymbol (options.merge (ownOptions attributes)) false children
      unfold Template.requests Account.ofTemplate
      intro h
      cases hcontrol : tag.control? with
      | none =>
          rw [hcontrol] at h
          rw [List.mem_append]
          refine (List.mem_append.mp h).imp mem_ofCreation fun hinner => ?_
          split at hinner
          · cases hinner
          · exact hchildren ((List.mem_cons.mp hinner).resolve_left hsymbol)
      | some control =>
          rw [hcontrol] at h
          cases control with
          | conditional | loop => exact mem_ofCreation h
          | fragment => exact hchildren ((List.mem_cons.mp h).resolve_left hsymbol)
  | .fragment children => fun h =>
      use_mem_ofTemplates hsymbol options false children ((List.mem_cons.mp h).resolve_left hsymbol)
  | .part value => by
      intro h
      obtain rfl := List.mem_singleton.mp h
      exact List.mem_cons_self
  | .text _ => fun h => absurd h List.not_mem_nil
  | .nothing => fun h => absurd h List.not_mem_nil

theorem Template.use_mem_ofTemplates {symbol : String} (hsymbol : symbol ≠ "appendText")
    (options : TextOptions) (inText : Bool) :
    (ts : List Template) → symbol ∈ requestsOfList ts →
      .use symbol ∈ markAccount.ofTemplates options inText ts
  | [] => fun h => absurd h List.not_mem_nil
  | t :: ts => by
      intro h
      rw [requestsOfList, List.mem_append] at h
      have hfirst := use_mem_ofTemplate hsymbol options t
      have hrest := fun inText => use_mem_ofTemplates hsymbol options inText ts
      cases t with
      | text raw =>
          rw [Account.ofTemplates]
          exact List.mem_append_right _ (hrest true (h.resolve_left List.not_mem_nil))
      | element | fragment | part | nothing =>
          rw [Account.ofTemplates]
          · exact List.mem_append.mpr (h.imp hfirst (hrest false))
          · rintro raw ⟨⟩

end

theorem Unfolds.mem_of_met {marks unfolded : List Mark} (h : Unfolds marks unfolded) {m : Mark}
    (hm : m.literal? = none) :
    ∀ {met : List Node}, Visits firstReported (marks.filterMap Mark.literal?) met [] →
      (m ∈ marks ∨ ∃ literal ∈ met, m ∈ (Template.ofNode literal).outline) → m ∈ unfolded := by
  induction h with
  | nil =>
      intro met hvisits hmem
      cases hvisits
      simp at hmem
  | @keep m' rest rest' hm' _ ih =>
      intro met hvisits hmem
      rw [List.filterMap_cons_none hm'] at hvisits
      rw [List.mem_cons] at hmem ⊢
      rcases hmem with (rfl | hrest) | hmet
      · exact .inl rfl
      · exact .inr (ih hvisits (.inl hrest))
      · exact .inr (ih hvisits (.inr hmet))
  | @literal n rest unfolded _ ih =>
      intro met hvisits hmem
      rw [List.filterMap_cons_some (show Mark.literal? (.literal n) = some n from rfl)] at hvisits
      cases hvisits with
      | clean _ hrest =>
          have hinner := ih (by rwa [List.filterMap_append, (Template.filterMap_outline _).1])
          rcases hmem with hmem | ⟨literal, hliteral, hmem⟩
          · rcases List.mem_cons.mp hmem with rfl | hlater
            · cases hm
            · exact hinner (.inl (List.mem_append_right _ hlater))
          · rcases List.mem_cons.mp hliteral with rfl | hlater
            · exact hinner (.inl (List.mem_append_left _ hmem))
            · exact hinner (.inr ⟨literal, hlater, hmem⟩)

theorem not_mem_attributeRequests {symbol : String}
    (h : symbol = "appendText" ∨ symbol = "eventDelegate") (as : List Attribute) :
    symbol ∉ as.flatMap Attribute.requests := by
  intro hmem
  obtain ⟨a, -, ha⟩ := List.mem_flatMap.mp hmem
  unfold Attribute.requests at ha
  split at ha
  · cases ha
  · split at ha
    · rename_i directive _
      rcases h with rfl | rfl <;> cases directive <;> simp [Directive.helpers] at ha
    · cases ha

mutual

theorem Template.eventDelegate_not_mem_requests : (t : Template) → "eventDelegate" ∉ t.requests
  | .element tag attributes children => by
      have hown := not_mem_attributeRequests (.inr rfl) attributes
      have hchildren := eventDelegate_not_mem_requestsOfList children
      unfold Template.requests
      cases tag.control? with
      | none =>
          simp only [List.cons_append, List.mem_cons, List.mem_append]
          rintro (hhead | hdirective | hinner)
          · split at hhead <;> simp at hhead
          · exact hown hdirective
          · split at hinner
            · cases hinner
            · exact hchildren ((List.mem_cons.mp hinner).resolve_left (by decide))
      | some control =>
          cases control with
          | conditional | loop =>
              exact fun h => hown ((List.mem_cons.mp h).resolve_left (by decide))
          | fragment => exact fun h => hchildren ((List.mem_cons.mp h).resolve_left (by decide))
  | .fragment children => by simp [Template.requests, eventDelegate_not_mem_requestsOfList children]
  | .part value => by simp [Template.requests]
  | .text _ => List.not_mem_nil
  | .nothing => List.not_mem_nil

theorem Template.eventDelegate_not_mem_requestsOfList :
    (ts : List Template) → "eventDelegate" ∉ requestsOfList ts
  | [] => List.not_mem_nil
  | t :: ts => by
      simp [requestsOfList, eventDelegate_not_mem_requests t,
        eventDelegate_not_mem_requestsOfList ts]

end

/-- Whether a tag has a list of children that is lowered: every fragment has one,
conditionals and loops have none, and elements and other components have one if there is
anything between their tags. -/
def lowersChildren : Node → Bool
  | .node .element _ [tag, _, .node .group _ _, .node .group _ children] =>
    match (Tag.ofNode tag).control? with
    | some .fragment => true
    | some _ => false
    | none => !children.isEmpty
  | .node .fragment _ _ => true
  | _ => false

theorem isMarkup_of_lowersChildren {n : Node} (h : lowersChildren n = true) :
    n.form.isMarkup = true := by
  unfold lowersChildren at h
  split at h
  · rfl
  · rfl
  · cases h

theorem appendText_mem_requests_iff {n : Node} (h : n.form.isMarkup = true) :
    "appendText" ∈ (Template.ofNode n).requests ↔ lowersChildren n = true := by
  unfold lowersChildren
  split
  · rename_i tag types span₁ attributes span₂ children
    have hown := not_mem_attributeRequests (.inl rfl) (attributes.map Attribute.ofNode)
    have hempty : (Template.ofNodes children).isEmpty = children.isEmpty := by
      cases children <;> rfl
    have hhead : "appendText" ≠
        if (Tag.ofNode tag).isComponent then "createComponent" else "element" := by
      split <;> decide
    rw [Template.ofNode, Template.requests]
    cases (Tag.ofNode tag).control? with
    | none =>
        rw [hempty, List.cons_append, List.mem_cons, List.mem_append, or_iff_right hhead,
          or_iff_right hown]
        cases children.isEmpty <;> simp
    | some control =>
        cases control with
        | conditional | loop => simpa using hown
        | fragment => simp
  · simp [Template.ofNode, Template.requests]
  · rename_i helement hfragment
    obtain ⟨form, span, children⟩ := n
    cases form with
    | element =>
        have hnothing : Template.ofNode (.node .element span children) = .nothing := by
          unfold Template.ofNode
          split
          case h_1 heq =>
            cases heq
            exact (helement _ _ _ _ _ _ _ rfl).elim
          all_goals simp_all
        simp [hnothing, Template.requests]
    | fragment => exact (hfragment _ _ rfl).elim
    | _ => cases h

theorem lowersChildren_element (span : Span) (tag types : Node) (span₁ : Span)
    (attributes : List Node) (span₂ : Span) (children : List Node) :
    lowersChildren (.node .element span [tag, types, .node .group span₁ attributes,
      .node .group span₂ children]) =
      match (Tag.ofNode tag).control? with
      | some .fragment => true
      | some _ => false
      | none => !children.isEmpty := rfl

theorem lowersChildren_of_elementPositions {span : Span} {parts : List Node}
    {part v : Position × Node} (hpart : part ∈ (elementPositions parts).zip parts)
    (hposition : part.1 = .child ∨ part.1 = .children) (hv : v ∈ part.2.reached positions part.1)
    (hchild : v.1 = .child) :
    lowersChildren (.node .element span parts) = true := by
  unfold elementPositions at hpart
  split at hpart
  · rename_i tag types span₁ attributes span₂ children
    rw [lowersChildren_element]
    cases hcontrol : (Tag.ofNode tag).control? with
    | none =>
        have hgroup : part = (.children, .node .group span₂ children) := by
          rw [hcontrol] at hpart
          simp only [List.zip_cons_cons, List.zip_nil_left, List.mem_cons, List.not_mem_nil,
            or_false] at hpart
          rcases hpart with rfl | rfl | rfl | rfl
          · split at hposition <;> simp at hposition
          · simp at hposition
          · simp at hposition
          · rfl
        subst hgroup
        cases children with
        | nil =>
            simp only [reached, reachedOfList_nil, List.mem_singleton] at hv
            rw [hv] at hchild
            cases hchild
        | cons child children => rfl
    | some control =>
        cases control with
        | conditional | loop =>
            rw [hcontrol] at hpart
            have hmem := (List.of_mem_zip hpart).1
            rcases hposition with hposition | hposition <;> simp [hposition] at hmem
        | fragment => rfl
  · cases hpart

theorem AttributeValue.position_ne (value : AttributeValue) :
    value.position ≠ .child ∧ value.position ≠ .children := by
  cases value <;> simp [AttributeValue.position]

theorem valuePosition_ne (name : String) (value : Node) :
    valuePosition name value ≠ .child ∧ valuePosition name value ≠ .children := by
  unfold valuePosition
  split
  · simp
  · exact AttributeValue.position_ne _

/-- The node that hands down one of the positions between tags stands between tags, or
has such a list itself. -/
theorem lowersChildren_of_part {position : Position} {form : Form} (span : Span)
    {children : List Node} {part v : Position × Node}
    (hpart : part ∈ (positions position form children).zip children)
    (hposition : part.1 = .child ∨ part.1 = .children) (hv : v ∈ part.2.reached positions part.1)
    (hchild : v.1 = .child) :
    position = .child ∨ position = .children ∨
      position = .value ∧ lowersChildren (.node form span children) = true := by
  have hnone : ∀ {ps : List Position}, part ∈ ps.zip children → ¬ ∀ p ∈ ps, p ≠ .child ∧
      p ≠ .children := by
    intro ps hzip hall
    have hne := hall part.1 (List.of_mem_zip hzip).1
    exact hposition.elim hne.1 hne.2
  unfold positions at hpart
  split at hpart
  case h_1 => exact .inr (.inr ⟨rfl, lowersChildren_of_elementPositions hpart hposition hv hchild⟩)
  case h_2 => exact .inr (.inr ⟨rfl, rfl⟩)
  case h_6 => exact (hnone hpart (by simp [valuePosition_ne])).elim
  case h_8 => exact .inr (.inl rfl)
  case h_9 | h_10 | h_11 | h_12 | h_13 => exact .inl rfl
  all_goals exact (hnone hpart (by simp)).elim

mutual

theorem exists_lowersChildren : (n : Node) → ∀ ⦃position : Position⦄ ⦃v : Position × Node⦄,
    v ∈ n.reached positions position → v.1 = .child →
      position = .child ∨ position = .children ∨
        ∃ u ∈ n.reached positions position, u.1 = .value ∧ lowersChildren u.2 = true
  | .node form span children => by
      intro position v hv hchild
      rw [reached, List.mem_cons] at hv
      rcases hv with rfl | hv
      · exact .inl hchild
      · obtain ⟨part, hpart, hv, hparts | hparts⟩ := exists_lowersChildrenOfList children hv hchild
        · refine (lowersChildren_of_part span hpart hparts hv hchild).imp_right (Or.imp_right ?_)
          rintro ⟨rfl, hlowers⟩
          exact ⟨_, List.mem_cons_self, rfl, hlowers⟩
        · obtain ⟨u, hu, hvalue⟩ := hparts
          exact .inr (.inr ⟨u, List.mem_cons_of_mem _ hu, hvalue⟩)

theorem exists_lowersChildrenOfList :
    (ns : List Node) → ∀ ⦃values : List Position⦄ ⦃v : Position × Node⦄,
    v ∈ reachedOfList positions values ns → v.1 = .child →
      ∃ part ∈ values.zip ns, v ∈ part.2.reached positions part.1 ∧
        ((part.1 = .child ∨ part.1 = .children) ∨
          ∃ u ∈ reachedOfList positions values ns, u.1 = .value ∧ lowersChildren u.2 = true)
  | [] => by simp
  | n :: ns => by
      intro values v hv hchild
      cases values with
      | nil => cases hv
      | cons position values =>
          rw [reachedOfList, List.mem_append] at hv
          rcases hv with hfirst | hrest
          · refine ⟨(position, n), List.mem_cons_self, hfirst, ?_⟩
            rcases exists_lowersChildren n hfirst hchild with
              hposition | hposition | ⟨u, hu, hvalue⟩
            · exact .inl (.inl hposition)
            · exact .inl (.inr hposition)
            · exact .inr ⟨u, List.mem_append_left _ hu, hvalue⟩
          · obtain ⟨part, hpart, hv, hparts⟩ := exists_lowersChildrenOfList ns hrest hchild
            refine ⟨part, List.mem_cons_of_mem _ hpart, hv, hparts.imp_right ?_⟩
            rintro ⟨u, hu, hvalue⟩
            exact ⟨u, List.mem_append_right _ hu, hvalue⟩

end

theorem mem_survivors_iff {program literal : Node} :
    literal ∈ program.survivors ↔
      (.value, literal) ∈ program.reached positions .value ∧ literal.form.isMarkup = true := by
  unfold Node.survivors
  rw [List.mem_flatMap]
  constructor
  · rintro ⟨⟨position, n⟩, hv, hn⟩
    split at hn
    · rename_i hvalue
      obtain rfl := List.mem_singleton.mp hn
      obtain ⟨rfl, hmarkup⟩ := hvalue
      exact ⟨hv, hmarkup⟩
    · cases hn
  · rintro ⟨hv, hmarkup⟩
    exact ⟨_, hv, by simp [hmarkup]⟩

/-- Some literal that survives asks for the helper for texts if anywhere a list
of children is lowered. -/
theorem exists_survivor_iff (program : Node) :
    (∃ literal ∈ program.survivors, "appendText" ∈ (Template.ofNode literal).requests) ↔
      ∃ v ∈ program.reached positions .value, (v.1 = .value ∨ v.1 = .child) ∧
        lowersChildren v.2 = true := by
  constructor
  · rintro ⟨literal, hliteral, htext⟩
    obtain ⟨hv, hmarkup⟩ := mem_survivors_iff.mp hliteral
    exact ⟨_, hv, .inl rfl, (appendText_mem_requests_iff hmarkup).mp htext⟩
  · have hsurvivor : ∀ u ∈ program.reached positions .value, u.1 = .value →
        lowersChildren u.2 = true →
        ∃ literal ∈ program.survivors, "appendText" ∈ (Template.ofNode literal).requests := by
      rintro ⟨_, literal⟩ hu rfl hlowers
      have hmarkup := isMarkup_of_lowersChildren hlowers
      exact ⟨literal, mem_survivors_iff.mpr ⟨hu, hmarkup⟩,
        (appendText_mem_requests_iff hmarkup).mpr hlowers⟩
    rintro ⟨v, hv, hvalue | hchild, hlowers⟩
    · exact hsurvivor v hv hvalue hlowers
    · rcases exists_lowersChildren program hv hchild with
        hposition | hposition | ⟨u, hu, hvalue, hlowers⟩
      · cases hposition
      · cases hposition
      · exact hsurvivor u hu hvalue hlowers

def Node.isImport (n : Node) : Bool :=
  match n.form with
  | .importDeclaration _ => true
  | _ => false

theorem Images.filter_isImport {ns ns' : List Node} (h : Images ns ns') :
    (ns'.filter isImport).map place = (ns.filter isImport).map place := by
  induction h with
  | nil => rfl
  | @inner form children images _ _ span _ _ _ _ ihrest =>
      have hsame : (Node.node form span images).isImport =
          (Node.node form span children).isImport := rfl
      rw [List.filter_cons, List.filter_cons, hsame]
      split
      · rw [List.map_cons, List.map_cons, ihrest]
        rfl
      · exact ihrest
  | @literal literal _ _ _ _ _ _ _ _ hform _ _ _ _ ihrest =>
      have hliteral : literal.isImport = false := by
        obtain ⟨form, span, children⟩ := literal
        cases form with
        | element | fragment => rfl
        | _ => cases hform
      rw [List.filter_cons_of_neg (by exact Bool.false_ne_true),
        List.filter_cons_of_neg (ne_true_of_eq_false hliteral)]
      exact ihrest

/-- A program behind whose one declaration of imports every helper is used as
what it is imported as. -/
structure ImportsExactly (environment : String) (program : Node) (result : Transformed)
    (symbols : List (String × String)) (rest : List Node) : Prop where
  /-- The declaration stands in front, and it is the only one that was not written. -/
  declared : result.program =
    .node program.form program.span (Imports.declaration ⟨environment, symbols⟩ :: rest)
  written : (rest.filter isImport).map place = (program.children.filter isImport).map place
  /-- Symbols are listed once, in the order of their first requests, and the one
  for events is the last. -/
  nodup : (symbols.map Prod.fst).Nodup
  requested : ∃ met, Visits firstReported program.literals met [] ∧
    symbols.map Prod.fst =
      (met.flatMap fun literal => (Template.ofNode literal).requests).eraseDups ++ ["eventDelegate"]
  /-- No two of them have the same local name, and the local names behind the declaration, read from
  left to right, stand for the helpers that the literals call for. -/
  nodup_aliases : (symbols.map Prod.snd).Nodup
  uses : ∃ marks, Unfolds (program.literals.map .literal) marks ∧
    (nodesOfList rest).filterMap
        (fun n => helperUse? (Imports.symbol? ⟨[⟨environment, symbols⟩]⟩) n.form) =
      marks.filterMap Mark.use? ++ ["eventDelegate"]
  /-- Nothing is imported for nothing, apart from the helper for texts. -/
  referenced : ∀ e ∈ symbols, e.1 ≠ "appendText" → ∃ n ∈ nodesOfList rest, n.form = .reference e.2
  /-- That one is imported if a list of children is lowered. -/
  text : "appendText" ∈ symbols.map Prod.fst ↔
    ∃ v ∈ program.reached positions .value, (v.1 = .value ∨ v.1 = .child) ∧
    lowersChildren v.2 = true

theorem mem_of_symbol? {symbols : List (String × String)} {environment name symbol : String}
    (h : Imports.symbol? ⟨[⟨environment, symbols⟩]⟩ name = some symbol) :
    (symbol, name) ∈ symbols := by
  obtain ⟨e, he, rfl⟩ := Option.map_eq_some_iff.mp h
  have hname : e.2 = name := by simpa using List.find?_some he
  have hmem : e ∈ Imports.entries ⟨[⟨environment, symbols⟩]⟩ := List.mem_of_find?_eq_some he
  simpa [Imports.entries, ← hname] using hmem

theorem nodup_aliases {symbols : List (String × String)} {environment : String} {program : Node}
    {s : Session} (hreads : Reads s.imports.symbol? program s)
    (himports : s.imports = ⟨[⟨environment, symbols⟩]⟩) (hnodup : (symbols.map Prod.fst).Nodup) :
    (symbols.map Prod.snd).Nodup := by
  have hentries : s.imports.entries = symbols := by simp [Imports.entries, himports]
  refine (List.Nodup.of_map _ hnodup).map_on fun e he e' he' heq => Prod.ext ?_ heq
  rw [← hentries] at he he'
  have hsymbol := (hreads.knows e he).1
  rw [heq, (hreads.knows e' he').1] at hsymbol
  exact (Option.some.inj hsymbol).symm

theorem exists_reference_of_use {symbols : List (String × String)} {environment : String}
    {ns : List Node} (hnodup : (symbols.map Prod.fst).Nodup) {e : String × String}
    (he : e ∈ symbols)
    (huse : e.1 ∈ ns.filterMap fun n =>
      helperUse? (Imports.symbol? ⟨[⟨environment, symbols⟩]⟩) n.form) :
    ∃ n ∈ ns, n.form = .reference e.2 := by
  obtain ⟨n, hn, hform⟩ := List.mem_filterMap.mp huse
  refine ⟨n, hn, ?_⟩
  unfold helperUse? at hform
  split at hform
  · rename_i name heq
    have hsame := List.inj_on_of_nodup_map hnodup (mem_of_symbol? hform) he rfl
    rw [heq, ← hsame]
  · cases hform

theorem transform_importsExactly (environment : String) (prologue : Prologue) (span : Span)
    (statements : List Node)
    (h : (transform environment (.node (.program prologue) span statements)).errors = []) :
    ∃ symbols rest, ImportsExactly environment (.node (.program prologue) span statements)
      (transform environment (.node (.program prologue) span statements)) symbols rest := by
  obtain ⟨images, w, hwalks, ⟨herrors, hresult⟩ | ⟨herrors, helper, s, trace, hhelper, hresult⟩⟩ :=
    transform_cases environment prologue span statements
  · rw [hresult] at h
    exact absurd h herrors
  · rw [hresult]
    obtain ⟨met, hmet, hvisits⟩ := hwalks.lowersEach herrors rfl
    have hvisits' : Visits firstReported (literalsOfList statements) met [] := by
      simpa using hvisits .nil
    have hstart : (Walk.start environment (.node (.program prologue) span statements)).session.Asked
        [] :=
      ⟨.inl rfl, rfl, List.nodup_nil⟩
    have hasked := (hmet.asked hstart).require hhelper
    have henvironment : s.environment = environment :=
      ((hwalks.keeps (stable_grows _) (.refl _)).trans (of_run_require hhelper).1).environment
    have hlast : "eventDelegate" ∉ met.flatMap fun literal =>
        (Template.ofNode literal).requests := by
      intro hmem
      obtain ⟨literal, -, hliteral⟩ := List.mem_flatMap.mp hmem
      exact Template.eventDelegate_not_mem_requests _ hliteral
    obtain ⟨symbols, hmodules⟩ : ∃ symbols, s.imports.modules = [⟨environment, symbols⟩] := by
      rcases hasked.single with hnone | ⟨symbols, hone⟩
      · have hlisted := (of_run_require hhelper).2
        simp [Imports.entries, hnone] at hlisted
      · exact ⟨symbols, henvironment ▸ hone⟩
    have hentries : s.imports.entries = symbols := by simp [Imports.entries, hmodules]
    have himports : s.imports = ⟨[⟨environment, symbols⟩]⟩ := by
      cases hs : s.imports
      simpa [hs] using hmodules
    have hsymbols : symbols.map Prod.fst =
        (met.flatMap fun literal => (Template.ofNode literal).requests).eraseDups ++
        ["eventDelegate"] := by
      rw [← hentries, hasked.symbols, List.nil_append, eraseDups_concat, if_neg hlast]
    have hnodup : (symbols.map Prod.fst).Nodup := hentries ▸ hasked.nodup
    obtain ⟨hreads, marks, hunfolds, hmarks, -⟩ := unfolds_finished hwalks herrors hhelper
    have hnone : literalsOfList (images ++ [delegateStatement helper s.events]) = [] := by
      simp [literalsOfList_append, literalsOfList, literals_delegateStatement,
        (hwalks.images herrors).literalsOfList_eq_nil]
    have huses := (@marksOfList_of_literals s.imports.symbol? _ hnone).1
    rw [hmarks, List.filterMap_append, himports] at huses
    refine ⟨symbols, images ++ [delegateStatement helper s.events], ?_, ?_, hnodup,
      ⟨met, hvisits', hsymbols⟩, nodup_aliases hreads himports hnodup,
      ⟨marks, hunfolds, huses.symm⟩, ?_, ?_⟩
    · simp [finished, Session.declarations, hmodules, Node.form, Node.span]
    · rw [List.filter_append, List.map_append, (hwalks.images herrors).filter_isImport]
      exact List.append_nil _
    · intro e he htext
      have hmark : .use e.1 ∈ marks ++ [.use "eventDelegate"] := by
        have hrequested : e.1 ∈ symbols.map Prod.fst := List.mem_map_of_mem he
        rw [hsymbols, List.mem_append, List.mem_eraseDups] at hrequested
        rcases hrequested with hmem | hmem
        · obtain ⟨literal, hliteral, hrequest⟩ := List.mem_flatMap.mp hmem
          refine List.mem_append_left _ (hunfolds.mem_of_met rfl (by rwa [literal?_literalMarks])
            (.inr ?_))
          exact ⟨literal, hliteral, Template.use_mem_ofTemplate htext .root _ hrequest⟩
        · rw [List.mem_singleton.mp hmem]
          exact List.mem_append_right _ List.mem_cons_self
      have huse : e.1 ∈ (marks ++ [Mark.use "eventDelegate"]).filterMap Mark.use? :=
        List.mem_filterMap.mpr ⟨_, hmark, rfl⟩
      rw [List.filterMap_append, huses] at huse
      exact exists_reference_of_use hnodup he huse
    · rw [hsymbols, ← exists_survivor_iff, List.mem_append, List.mem_eraseDups, List.mem_flatMap]
      have hmet : met.Perm (Node.node (.program prologue) span statements).survivors :=
        Visits.perm_survivors hvisits'
      simp [hmet.mem_iff]

theorem transform_importsExactly_sample :
    (transform "rumious" (.node (.program {}) ⟨0, 79⟩ sampleStatements)).errors = [] ∧
      ∃ symbols rest, ImportsExactly "rumious" (.node (.program {}) ⟨0, 79⟩ sampleStatements)
        (transform "rumious" (.node (.program {}) ⟨0, 79⟩ sampleStatements)) symbols rest :=
  ⟨errors_transform_sampleStatements,
    transform_importsExactly _ _ _ _ errors_transform_sampleStatements⟩

/-- A fragment in the type arguments of a tag is dropped with them. The program has one fragment and
neither attributes nor anything between tags, and the helper for texts is not imported. -/
theorem imports_typeArguments :
    ((Grammar.readProgram (Metadata.language ⟨"view.tsx", .module⟩)
      "const v = <Foo<\x7b[<></>]: string\x7d>/>;").node.map fun program =>
        ((program.nodes.filter fun n => n.form == .fragment).length,
          (program.nodes.filter fun n => n.form == .group).all fun n => n.children.isEmpty,
          (transform "rumious" program).errors,
          (transform "rumious" program).session.imports.entries.map Prod.fst)) =
      some (1, true, [], ["createComponent", "eventDelegate"]) := by
  decide +kernel

end TemplateCompiler
