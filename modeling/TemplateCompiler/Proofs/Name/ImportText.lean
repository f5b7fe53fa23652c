import TemplateCompiler.Name.Imports
import TemplateCompiler.Proofs.Grammar.Outcome
import TemplateCompiler.Template.Emit

namespace TemplateCompiler

open Scanner Text

namespace Imports

/-- A specifier that imports a symbol under a local name. -/
def specifier (entry : String × String) : Node :=
  Emit.made (.importSpecifier false)
    [.leaf (.label entry.1) .synthetic, .leaf (.binding entry.2) .synthetic]

def declaration (m : ModuleImports) : Node :=
  Emit.made (.importDeclaration false)
    [Emit.made .group (m.symbols.map specifier), Emit.string m.source, .absent]

/-- Symbols and local names are names of the language. -/
def AreNames (entries : List (String × String)) : Prop :=
  ∀ e ∈ entries, isName e.1.toList = true ∧ isName e.2.toList = true

def specifierChars (entry : String × String) : List Char := (specifierText entry).toList

/-- The text of a declaration behind its first word. -/
def declarationTail (m : ModuleImports) (rest : List Char) : List Char :=
  ' ' :: '{' :: ' ' ::
    ([',', ' '].intercalate (m.symbols.map specifierChars) ++
      ' ' :: '}' :: ' ' :: ("from".toList ++
        ' ' :: ((Quoted.moduleText m.source).toList ++ ';' :: rest)))

theorem specifierChars_append (e : String × String) (rest : List Char) :
    specifierChars e ++ rest = e.1.toList ++ ' ' ::
      ("as".toList ++ ' ' :: (e.2.toList ++ rest)) := by
  simp [specifierChars, specifierText]

theorem toList_moduleText (m : ModuleImports) (rest : List Char) :
    (moduleText m).toList ++ rest = "import".toList ++ declarationTail m rest := by
  simp only [moduleText, declarationTail, String.toList_append, String.toList_intercalate,
    List.map_map, List.append_assoc]
  rfl

end Imports

namespace Grammar

open Imports

theorem isName_word (w : String) (h : isName w.toList = true) (rest : List Char) :
    Lexes (w.toList ++ ' ' :: rest) .word w.toList (' ' :: rest) :=
  lexes_word h rfl

theorem quiet_atTypeModifier : Quiet atTypeModifier := by
  unfold atTypeModifier
  refine (quiet_atWord _).bind fun isType => .ite (quiet_pure _) ?_
  refine quiet_peek.bind fun next => .ite ?_ (quiet_pure _)
  refine quiet_peekSecond.bind fun second => .ite ?_ (quiet_pure _)
  exact (quiet_lookahead _).bind fun third => quiet_pure _

theorem quiet_atTypeImport : Quiet atTypeImport := by
  unfold atTypeImport
  refine (quiet_atWord _).bind fun isType => .ite (quiet_pure _) ?_
  refine quiet_peek.bind fun next => quiet_peekSecond.bind fun second => .ite (quiet_pure _) ?_
  exact .ite (quiet_pure _) (quiet_pure _)

theorem reads_importSpecifier {ctx : Context} (hctx : ctx.isTyped = false) {e : String × String}
    (hsymbol : isName e.1.toList = true) (hname : isName e.2.toList = true) {rest : List Char}
    (hrest : endsName rest = true) :
    Reads (importSpecifier ctx) (specifierChars e ++ rest) (fun n => n.erase = specifier e)
      rest := by
  rw [specifierChars_append]
  have hfirst := isName_word e.1 hsymbol ("as".toList ++ ' ' :: (e.2.toList ++ rest))
  have has := lexes_blank (isName_word "as" rfl (e.2.toList ++ rest))
  have hsecond := lexes_blank (lexes_word hname hrest)
  refine .bind reads_position fun start _ => ?_
  have hspecifier : Reads (moduleSpecifier ctx.isTyped)
      (e.1.toList ++ ' ' :: ("as".toList ++ ' ' :: (e.2.toList ++ rest)))
      (fun r => r.1 = false ∧ (∃ span, r.2.1 = .leaf (.label e.1) span) ∧
        ∃ span, r.2.2 = some (.leaf (.label e.2) span)) rest := by
    rw [hctx]
    refine .bind quiet_atTypeModifier.reads fun _ _ => ?_
    simp only [Bool.false_and, Bool.false_eq_true, if_false, pure_bind]
    refine .bind (reads_moduleName hfirst) fun name hname => ?_
    refine .bind (reads_eatWord has String.ofList_toList) fun b hb => ?_
    subst hb
    refine .bind (reads_moduleName hsecond) fun other hother => reads_pure ?_
    simpa using And.intro hname hother
  refine .bind hspecifier fun r hr => (reads_finish _ _ _).mono fun n hn => ?_
  obtain ⟨isType, imported, renamed⟩ := r
  obtain ⟨rfl, ⟨span, rfl⟩, span', rfl⟩ := hr
  obtain ⟨span'', rfl⟩ := hn
  rfl

theorem endsName_following {ι : Type} (write : ι → List Char) (items : List ι) (rest : List Char) :
    endsName (following write items (' ' :: rest)) = true := by
  cases items <;> rfl

theorem startsItem_specifierChars {e : String × String} (h : isName e.1.toList = true)
    (rest : List Char) : StartsItem (specifierChars e ++ rest) := by
  rw [specifierChars_append]
  exact ⟨.word, _, _, isName_word e.1 h _, by decide, by decide, by decide⟩

theorem reads_bracketed_importSpecifier {ctx : Context} (hctx : ctx.isTyped = false)
    {entries : List (String × String)} (hnames : AreNames entries) (rest : List Char) :
    Reads (bracketed "\x7b" "\x7d" (importSpecifier ctx))
      (' ' :: '{' :: ' ' :: ([',', ' '].intercalate (entries.map specifierChars) ++ ' ' :: '}' ::
        rest))
      (fun ns => Node.eraseList ns = entries.map specifier) rest := by
  have hclose : Lexes (' ' :: '}' :: rest) .punctuator ['}'] rest :=
    lexes_blank (lexes_mark (by decide) rest)
  refine .bind (reads_expectMark (lexes_blank (lexes_mark (by decide) _)) rfl) fun _ _ => ?_
  refine .bind ?_ fun ns hns => .bind (reads_expectMark hclose rfl) fun _ _ => reads_pure hns
  have hitems : Reads (commaItems "\x7d" (importSpecifier ctx))
      ([',', ' '].intercalate (entries.map specifierChars) ++ ' ' :: '}' :: rest)
      (fun ns => List.Forall₂ (fun e n => n.erase = specifier e) entries ns)
        (' ' :: '}' :: rest) := by
    refine reads_commaItems (by decide) hclose rfl ?_
    rintro before e after rfl
    obtain ⟨hsymbol, hname⟩ := hnames e (by simp)
    exact ⟨startsItem_specifierChars hsymbol _,
      reads_importSpecifier hctx hsymbol hname (endsName_following _ after _)⟩
  exact hitems.blank.mono fun ns hns => eraseList_of_forall₂ hns

theorem reads_importSpecifiers {ctx : Context} (hctx : ctx.isTyped = false)
    {entries : List (String × String)} (hnames : AreNames entries) (rest : List Char) :
    Reads (importSpecifiers ctx)
      (' ' :: '{' :: ' ' :: ([',', ' '].intercalate (entries.map specifierChars) ++ ' ' :: '}' ::
        rest))
      (fun ns => Node.eraseList ns = entries.map specifier) rest := by
  have hopen := lexes_blank (lexes_mark (show '{' ∈ soloMarks by decide)
    (' ' :: ([',', ' '].intercalate (entries.map specifierChars) ++ ' ' :: '}' :: rest)))
  refine .bind (reads_current hopen) fun t ht => ?_
  simp only [Token.isVariable, ht.kind_eq]
  refine .bind reads_position fun start _ => ?_
  refine .bind (reads_eatMark_other hopen rfl) fun b hb => ?_
  subst hb
  refine .bind (reads_atMark hopen _) fun b hb => ?_
  subst hb
  exact reads_bracketed_importSpecifier hctx hnames rest

theorem reads_moduleAttributes {cs rest : List Char} (h : Lexes cs .punctuator [';'] rest) :
    Reads moduleAttributes cs (fun n => n = .absent) cs := by
  refine .bind (reads_current h) fun t ht => ?_
  simp only [Token.isWord, ht.kind_eq]
  exact reads_pure rfl

theorem reads_importDeclaration {ctx : Context} (hctx : ctx.isTyped = false) {m : ModuleImports}
    (hnames : AreNames m.symbols) {cs rest : List Char}
    (h : Lexes cs .word "import".toList (declarationTail m rest)) :
    Reads (importDeclaration ctx) cs (fun n => n.erase = declaration m) rest := by
  have hopen := lexes_blank (lexes_mark (show '{' ∈ soloMarks by decide)
    (' ' :: ([',', ' '].intercalate (m.symbols.map specifierChars) ++
      ' ' :: '}' :: ' ' :: ("from".toList ++
        ' ' :: ((Quoted.moduleText m.source).toList ++ ';' :: rest)))))
  have hfrom := lexes_blank (isName_word "from" rfl
    ((Quoted.moduleText m.source).toList ++ ';' :: rest))
  have hsource := lexes_blank (lexes_moduleText m.source (';' :: rest))
  have hend := lexes_mark (show ';' ∈ soloMarks by decide) rest
  refine .bind reads_position fun start _ => ?_
  refine .bind (reads_expectWord h String.ofList_toList) fun _ _ => ?_
  refine .bind (reads_current hopen) fun t ht => ?_
  simp only [ht.kind_eq, hctx]
  refine .bind quiet_atTypeImport.reads fun _ _ => ?_
  simp only [Bool.false_and, Bool.false_eq_true, if_false, pure_bind]
  refine .bind quiet_current.reads fun _ _ => .bind quiet_peek.reads fun _ _ => ?_
  refine .bind (reads_importSpecifiers hctx hnames _) fun specifiers hspecifiers => ?_
  have hmoduleSource := Reads.bind (reads_expectWord hfrom String.ofList_toList)
    fun _ _ => reads_stringLiteral hsource
  refine .bind hmoduleSource fun source hsource => ?_
  refine .bind (reads_moduleAttributes hend) fun attributes hattributes => ?_
  refine .bind (reads_endStatement hend) fun _ _ => (reads_finish _ _ _).mono fun n hn => ?_
  obtain ⟨span, rfl⟩ := hsource
  obtain ⟨span', rfl⟩ := hn
  subst hattributes
  simp [declaration, Emit.made, Emit.string, Node.erase, Node.eraseList, hspecifiers, Node.absent]

theorem reads_statement (rules : Rules) {ctx : Context} (hctx : ctx.isTyped = false)
    {m : ModuleImports} (hnames : AreNames m.symbols) {cs rest : List Char}
    (h : Lexes cs .word "import".toList (declarationTail m rest)) :
    Reads (statementRule rules ctx) cs (fun n => n.erase = declaration m) rest := by
  have hopen : ∃ rest', Lexes (declarationTail m rest) .punctuator ['{'] rest' :=
    ⟨_, lexes_blank (lexes_mark (by decide) _)⟩
  obtain ⟨rest', hopen⟩ := hopen
  have hplain : Reads (plainStatement rules ctx) cs (fun n => n.erase = declaration m) rest := by
    refine .bind reads_position fun start _ => .bind (reads_current h) fun t ht => ?_
    have htext : t.text = "import" := by simpa using ht.text_eq
    have hblock : t.isMark "\x7b" = false := by simp [Token.isMark, ht.kind_eq]
    have hempty : t.isMark ";" = false := by simp [Token.isMark, ht.kind_eq]
    have hword : (t.kind != .word || t.isEscaped) = false := by simp [ht.kind_eq, ht.plain]
    simp only [hblock, hempty, hword, htext, keywordStatement?, Bool.false_eq_true, if_false]
    refine .bind (reads_peek h hopen) fun next hnext => ?_
    refine .bind (reads_peek h hopen) fun next' hnext' => ?_
    simp only [Token.isMark, hnext.kind_eq, hnext.text_eq, hnext'.kind_eq, hnext'.text_eq]
    exact reads_importDeclaration hctx hnames h
  exact reads_statementRule h hplain

/-- The text of declarations behind the first one. -/
def moreModules (ms : List ModuleImports) : List Char :=
  ms.foldr (fun m rest => '\n' :: ((moduleText m).toList ++ rest)) []

/-- A text that starts with the first of some declarations and goes on with the others. -/
def StartsWith (cs : List Char) : List ModuleImports → Prop
  | [] => Lexes cs .eof [] []
  | m :: ms => Lexes cs .word "import".toList (declarationTail m (moreModules ms))

theorem startsWith_moduleText (m : ModuleImports) (ms : List ModuleImports) :
    StartsWith ((moduleText m).toList ++ moreModules ms) (m :: ms) := by
  rw [toList_moduleText]
  exact isName_word "import" rfl _

theorem startsWith_moreModules (ms : List ModuleImports) : StartsWith (moreModules ms) ms := by
  cases ms with
  | nil => exact lexes_nil
  | cons m ms => exact lexes_newline (startsWith_moduleText m ms)

theorem reads_moduleItems (depth : Nat) {ctx : Context} (hctx : ctx.isTyped = false)
    {ms : List ModuleImports} (hnames : ∀ m ∈ ms, AreNames m.symbols) {cs : List Char}
    (hcs : StartsWith cs ms) {limit : Nat} (hlimit : ms.length < limit) :
    ∃ rest, Lexes rest .eof [] [] ∧
      Reads (bodyItems (rulesTo (depth + 1)) ctx none true limit) cs
        (fun ns => Node.eraseList ns = ms.map declaration) rest := by
  have hform : ∀ m, (declaration m).form ≠ .expressionStatement := fun m h => by cases h
  obtain ⟨rest, ⟨hrest, -⟩, hread⟩ := reads_bodyItems (rulesTo (depth + 1)) ctx none
    (fun cs ms => StartsWith cs ms ∧ ∀ m ∈ ms, AreNames m.symbols) hform
    (by
      rintro cs ⟨hend, -⟩
      exact (reads_get hend).mono fun s hs => by simp [hs.kind_eq])
    (by
      rintro cs m ms ⟨hcs, hnames⟩
      obtain ⟨hm, hms⟩ := List.forall_mem_cons.mp hnames
      exact ⟨⟨_, _, hcs⟩, _, ⟨startsWith_moreModules ms, hms⟩,
        reads_statement (rulesTo depth) hctx hm hcs⟩)
    ms cs true limit ⟨hcs, hnames⟩ hlimit
  exact ⟨rest, hrest, hread⟩

theorem length_moreModules (ms : List ModuleImports) : ms.length ≤ (moreModules ms).length := by
  induction ms with
  | nil => simp
  | cons m ms ih =>
      simp only [moreModules, List.foldr_cons, List.length_cons, List.length_append] at ih ⊢
      omega

theorem length_declarationTail (m : ModuleImports) (rest : List Char) :
    rest.length < (declarationTail m rest).length := by
  simp only [declarationTail, List.length_cons, List.length_append]
  omega

theorem reads_stepLimit_of_startsWith {cs : List Char} {ms : List ModuleImports}
    (h : StartsWith cs ms) : Reads stepLimit cs (fun limit => ms.length < limit) cs := by
  cases ms with
  | nil =>
      refine (reads_stepLimit h).mono fun limit hlimit => ?_
      simp only [List.length_nil] at hlimit ⊢
      exact hlimit
  | cons m ms =>
      refine (reads_stepLimit h).mono fun limit hlimit => ?_
      have hms := length_moreModules ms
      have htail := length_declarationTail m (moreModules ms)
      simp only [List.length_cons]
      omega

end Grammar

open Grammar

theorem Imports.toList_text_cons (m : ModuleImports) (ms : List ModuleImports) :
    (⟨m :: ms⟩ : Imports).text.toList = (moduleText m).toList ++ moreModules ms := by
  simp only [Imports.text]
  induction ms generalizing m with
  | nil => simp [moreModules]
  | cons m' ms ih =>
      have htail := ih m'
      simp only [String.toList_intercalate, List.map_cons, moreModules, List.foldr_cons] at htail ⊢
      rw [List.intercalate_cons_cons, htail]
      simp

theorem Imports.startsWith_text (r : Imports) : StartsWith r.text.toList r.modules := by
  obtain ⟨_ | ⟨m, ms⟩⟩ := r
  · exact lexes_nil
  · rw [Imports.toList_text_cons]
    exact startsWith_moduleText m ms

theorem Imports.hashbang?_text (r : Imports) : hashbang? r.text.toList = none := by
  obtain ⟨_ | ⟨m, ms⟩⟩ := r
  · rfl
  · rw [Imports.toList_text_cons, Imports.toList_moduleText]
    rfl

/-- Whatever has been imported, the text of the declarations is read as those declarations. -/
theorem Snippet.statements_text {r : Imports}
    (hnames : ∀ m ∈ r.modules, Imports.AreNames m.symbols) :
    Snippet.statements r.text = .ok (r.modules.map Imports.declaration) := by
  refine Snippet.statements_eq _ r.hashbang?_text
    (reads_stepLimit_of_startsWith r.startsWith_text) ?_ ?_
  · intro depth limit hlimit
    exact reads_moduleItems (depth + 15) rfl hnames r.startsWith_text hlimit
  · intro n hn
    obtain ⟨m, -, rfl⟩ := List.mem_map.mp hn
    rfl

end TemplateCompiler
