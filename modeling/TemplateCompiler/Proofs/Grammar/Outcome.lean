import TemplateCompiler.Proofs.Grammar.Reading
import TemplateCompiler.Snippet

namespace TemplateCompiler

open Scanner Grammar

theorem Grammar.Outcome.exists_node {result : Except Failure (Node × State)}
    (h : (Outcome.of result).diagnostics = []) : ∃ node, (Outcome.of result).node = some node := by
  cases result with
  | ok answer => exact ⟨answer.1, rfl⟩
  | error failure => exact absurd h (List.append_ne_nil_of_right_ne_nil _ (List.cons_ne_nil _ _))

namespace Snippet

/-- Snippets are read as modules are, where `await` is a word of the language. -/
def place : Context := { language with inAsync := language.isModule }

theorem exists_depthFor_eq (length : Nat) : ∃ depth, depthFor length = depth + 16 :=
  ⟨16 * (length + 1), by unfold depthFor; omega⟩

theorem expression_eq {code : String} {value : Node}
    (h : ∀ depth, Reads (rulesTo (depth + 16) place .expression) code.toList
      (fun n => n.erase = value) []) : expression code = .ok value := by
  obtain ⟨depth, hdepth⟩ := exists_depthFor_eq code.toList.length
  obtain ⟨n, s, hrun, hs, hn⟩ := h depth _ (before_start code.toList 0)
  have hfacing := hs.facing lexes_nil
  have houtcome : readExpression language code = .of (.ok (n, s)) := by
    unfold readExpression
    simp only [hdepth]
    exact congrArg Outcome.of hrun
  unfold expression
  rw [houtcome]
  simp [Outcome.of, hfacing.lexical, hfacing.reported, hfacing.openDefaults, hn]

theorem splitDirectives_of_eraseList {ns nodes : List Node} (h : Node.eraseList ns = nodes)
    (hnodes : ∀ n ∈ nodes, isStatement n = true) : splitDirectives ns = ([], ns) := by
  subst h
  cases ns with
  | nil => rfl
  | cons n ns =>
      have hn : isStatement n.erase = true := hnodes _ (List.mem_cons_self ..)
      obtain ⟨form, span, children⟩ := n
      unfold splitDirectives
      split
      · rename_i heq
        cases heq
        cases hn
      · rfl

theorem statements_eq (count : Nat) {code : String} {nodes : List Node}
    (hhashbang : hashbang? code.toList = none)
    (hlimit : Reads stepLimit code.toList (fun limit => count < limit) code.toList)
    (hitems : ∀ depth limit, count < limit → ∃ rest, Lexes rest .eof [] [] ∧
      Reads (bodyItems (rulesTo (depth + 16)) place none true limit) code.toList
        (fun ns => Node.eraseList ns = nodes) rest)
    (hnodes : ∀ n ∈ nodes, isStatement n = true) : statements code = .ok nodes := by
  obtain ⟨depth, hdepth⟩ := exists_depthFor_eq code.toList.length
  obtain ⟨limit, s, hlimit, hs, hcount⟩ := hlimit _ (before_start code.toList 0)
  obtain ⟨rest, hend, hreads⟩ := hitems depth limit hcount
  obtain ⟨items, s', hitems, hs', herase⟩ := hreads s hs
  have hfacing := hs'.facing hend
  have hprogram : readProgram language code =
      .of (.ok (.node (.program { hashbang := none, directives := [] })
        ⟨0, byteLength code.toList⟩ items, s')) := by
    unfold readProgram
    simp only [hhashbang, hdepth, StateT.run_bind, hlimit]
    change Outcome.of ((bodyItems (rulesTo (depth + 16)) place none true limit).run s >>= _) = _
    rw [hitems]
    simp only [bind, Except.bind, splitDirectives_of_eraseList herase hnodes]
    rfl
  unfold statements
  rw [hprogram]
  simp [Outcome.of, hfacing.lexical, hfacing.reported, hfacing.openDefaults, Node.children, herase]

end Snippet

end TemplateCompiler
