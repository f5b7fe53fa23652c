import TemplateCompiler.Proofs.Name.ImportText
import TemplateCompiler.Proofs.Name.Registry

namespace TemplateCompiler

open Text

theorem Text.isNamePart_of_isDigit {c : Char} (h : c.isDigit = true) : isNamePart c = true := by
  have hsmall : c.toNat < 0x80 := by
    simp only [Char.isDigit, Bool.and_eq_true, decide_eq_true_eq] at h
    have hle : c.val.toNat ≤ ('9' : Char).val.toNat := UInt32.le_iff_toNat_le.mp h.2
    exact Nat.lt_of_le_of_lt hle (by decide)
  unfold isNamePart
  rw [if_pos hsmall]
  simp [Char.isAlphanum, h]

theorem Text.all_isNamePart_of_isName {cs : List Char} (h : isName cs = true) :
    cs.all isNamePart = true := by
  cases cs with
  | nil => rfl
  | cons c cs =>
      simp only [isName, Bool.and_eq_true] at h
      simp [Scanner.isNamePart_of_isNameStart h.1, h.2]

namespace FreshNames

theorem isName_spelling {base : String} (h : base.toList.all isNamePart = true) (index : Nat) :
    isName (spelling base index).toList = true := by
  have hsuffix : (suffix index).all isNamePart = true := by
    rw [List.all_eq_true]
    exact fun d hd => isNamePart_of_isDigit (isDigit_of_mem_suffix hd)
  have hstart : isNameStart '_' = true := by decide
  rw [toList_spelling]
  simp [isName, hstart, h, hsuffix]

theorem mem_of_mem_stripUnderscores {cs : List Char} {c : Char} (h : c ∈ stripUnderscores cs) :
    c ∈ cs := by
  rw [stripUnderscores, List.mem_reverse] at h
  have hreverse := (List.dropWhile_sublist _).subset h
  rw [List.mem_reverse] at hreverse
  exact (List.dropWhile_sublist _).subset hreverse

theorem all_isNamePart_base {name : String} (h : isName name.toList = true) :
    (base name).toList.all isNamePart = true := by
  unfold base
  split
  · decide
  · rename_i cs hcs
    rw [String.toList_ofList, List.all_eq_true]
    exact fun c hc => List.all_eq_true.mp (all_isNamePart_of_isName h) c
      (mem_of_mem_stripUnderscores hc)

theorem isName_generate (s : FreshNames) {name : String} (h : isName name.toList = true) :
    isName (s.generate name).1.toList = true := by
  obtain ⟨index, hname⟩ := s.generate_eq_spelling name
  rw [hname]
  exact isName_spelling (all_isNamePart_base h) index

end FreshNames

/-- A symbol that is asked for is a name of the language. -/
def Request.isNamed : Request → Bool
  | .symbol asked _ => isName asked.toList
  | .name _ => true

namespace Registry

theorem areNames_answer {r : Registry} (hr : Imports.AreNames r.imports.entries) {request : Request}
    (hrequest : request.isNamed = true) :
    Imports.AreNames (r.answer request).2.imports.entries := by
  cases request with
  | name name => exact hr
  | symbol symbol source =>
      simp only [answer]
      rcases r.imports.require_cases r.names symbol source with ⟨name, -, heq⟩ | heq
      · rw [heq]
        exact hr
      · rw [heq]
        intro e he
        rcases (Imports.mem_entries_add ..).mp he with rfl | hold
        · exact ⟨hrequest, r.names.isName_generate hrequest⟩
        · exact hr e hold

theorem areNames_answerAll {r : Registry} (hr : Imports.AreNames r.imports.entries)
    {requests : List Request} (hrequests : ∀ request ∈ requests, request.isNamed = true) :
    Imports.AreNames (r.answerAll requests).2.imports.entries := by
  induction requests generalizing r with
  | nil => exact hr
  | cons request requests ih =>
      obtain ⟨hrequest, hrequests⟩ := List.forall_mem_cons.mp hrequests
      exact ih (areNames_answer hr hrequest) hrequests

end Registry

namespace Imports

/-- The symbol and the local name that a specifier gives. -/
def ofSpecifier? : Node → Option (String × String)
  | .node (.importSpecifier false) _ [.node (.label symbol) _ [],
    .node (.binding localName) _ []] =>
    some (symbol, localName)
  | _ => none

def ofDeclaration? : Node → Option ModuleImports
  | .node (.importDeclaration false) _ [.node .group _ specifiers, .node (.string source) _ [],
    .node .absent _ []] =>
    (specifiers.mapM ofSpecifier?).map fun symbols => { source, symbols }
  | _ => none

/-- What statements import that are declarations and nothing else. -/
def ofDeclarations? (statements : List Node) : Option Imports :=
  (statements.mapM ofDeclaration?).map fun modules => { modules }

theorem mapM_map_of_leftInverse {α β : Type} {read : β → Option α} {write : α → β}
    (h : ∀ a, read (write a) = some a) (l : List α) : (l.map write).mapM read = some l := by
  have hread : read ∘ write = fun a => pure (id a) := funext h
  rw [List.mapM_map, hread, List.mapM_pure, List.map_id]
  rfl

theorem ofSpecifier?_specifier (entry : String × String) :
    ofSpecifier? (specifier entry) = some entry := rfl

theorem ofDeclaration?_declaration (m : ModuleImports) :
    ofDeclaration? (declaration m) = some m := by
  have hsymbols := mapM_map_of_leftInverse ofSpecifier?_specifier m.symbols
  simp only [declaration, Emit.made, Emit.string, Node.string, Node.absent, Node.leaf,
    ofDeclaration?, hsymbols, Option.map_some]

theorem ofDeclarations?_declarations (r : Imports) :
    ofDeclarations? (r.modules.map declaration) = some r := by
  simp [ofDeclarations?, mapM_map_of_leftInverse ofDeclaration?_declaration]

end Imports

namespace Registry

theorem sources_answerAll (initial : List String) (requests : List Request) :
    (answerAll { names := { used := initial } } requests).2.imports.modules.map
      ModuleImports.source =
      (requests.filterMap Request.source?).eraseDups := by
  have hrecords := ((Records.start initial).answerAll requests).sources
  rw [hrecords, List.nil_append, Transcript.sources]
  conv_rhs => rw [← map_fst_answerAll { names := { used := initial } } requests, List.filterMap_map]
  rfl

theorem eraseDups_eq_nil_iff {l : List String} : l.eraseDups = [] ↔ l = [] := by
  simp only [List.eq_nil_iff_forall_not_mem, List.mem_eraseDups]

/-- The declarations of what has been requested: one for each module, in the order of the first
requests, from which the modules and their symbols with the local names are read back. -/
theorem importDeclarations_readBack (initial : List String) (requests : List Request)
    (hsymbols : ∀ request ∈ requests, request.isNamed = true) :
    let imports := (answerAll { names := { used := initial } } requests).2.imports
    ∃ statements, Snippet.importDeclarations imports.text = .ok statements ∧
      statements = imports.modules.map Imports.declaration ∧
      Imports.ofDeclarations? statements = some imports ∧
      (statements = [] ↔ ∀ request ∈ requests, request.source? = none) := by
  intro imports
  have hnames : Imports.AreNames imports.entries :=
    areNames_answerAll (by simp [Imports.AreNames, Imports.entries]) hsymbols
  have htext : Snippet.importDeclarations imports.text =
      .ok (imports.modules.map Imports.declaration) :=
    Snippet.statements_text fun m hm e he => hnames e (List.mem_flatMap.mpr ⟨m, hm, he⟩)
  refine ⟨_, htext, rfl, Imports.ofDeclarations?_declarations imports, ?_⟩
  calc imports.modules.map Imports.declaration = []
      ↔ imports.modules.map ModuleImports.source = [] := by
        rw [List.map_eq_nil_iff, List.map_eq_nil_iff]
    _ ↔ requests.filterMap Request.source? = [] := by rw [sources_answerAll, eraseDups_eq_nil_iff]
    _ ↔ ∀ request ∈ requests, request.source? = none := List.filterMap_eq_nil_iff

/-- Words of the language as symbols, a symbol that is nothing but underscores, and modules with
every kind of character that is written in another way or could end a string or a line. -/
theorem importDeclarations_readBack_strange :
    let requests : List Request :=
      [.symbol "ref" "a\"\\\n\x01\u2028𝕏", .name "if", .symbol "if" "", .symbol "__" "",
        .symbol "ref" ""]
    let imports := (answerAll { names := { used := ["_ref"] } } requests).2.imports
    imports.modules = [⟨"a\"\\\n\x01\u2028𝕏", [("ref", "_ref2")]⟩,
        ⟨"", [("if", "_if2"), ("__", "_temp"), ("ref", "_ref3")]⟩] ∧
      Snippet.importDeclarations imports.text = .ok (imports.modules.map Imports.declaration) := by
  intro requests imports
  refine ⟨by decide +kernel, ?_⟩
  obtain ⟨statements, htext, rfl, -⟩ :=
    importDeclarations_readBack ["_ref"] requests (by decide +kernel)
  exact htext

end Registry

end TemplateCompiler
