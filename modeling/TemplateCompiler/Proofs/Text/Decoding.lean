import Mathlib.Data.List.Basic
import TemplateCompiler.Text.Entity
import TemplateCompiler.Text.Numeral

namespace TemplateCompiler.Text

def isHexDigit (c : Char) : Bool := c.isDigit || ('a' ≤ c && c ≤ 'f') || ('A' ≤ c && c ≤ 'F')

/-- What stands between `&` and `;`, and the character that it stands for. A number stands for the
character that has it as its code: no character has the code of a surrogate or one above `10FFFF`,
however many digits spell it. -/
inductive Denotes (table : EntityTable) : List Char → Char → Prop
  | named {first : Char} {rest : List Char} {c : Char} (hfirst : first.isAlpha = true)
      (hrest : ∀ d ∈ rest, d.isAlphanum = true) (hc : table (String.ofList (first :: rest)) =
        some c) :
      Denotes table (first :: rest) c
  | decimal {digits : List Char} {c : Char} (hne : digits ≠ [])
      (hdigits : ∀ d ∈ digits, d.isDigit = true) (hc : Numeral.ofDigits 10 digits = c.toNat) :
      Denotes table ('#' :: digits) c
  | hexadecimal {mark : Char} {digits : List Char} {c : Char} (hmark : mark = 'x' ∨ mark = 'X')
      (hne : digits ≠ []) (hdigits : ∀ d ∈ digits,
        isHexDigit d = true) (hc : Numeral.ofDigits 16 digits = c.toNat) :
      Denotes table ('#' :: mark :: digits) c

theorem scalar?_eq_some_iff {code : Nat} {c : Char} : scalar? code = some c ↔ code = c.toNat := by
  unfold scalar?
  constructor
  · intro h
    split at h
    · rename_i hcode
      have hvalid : code.isValidChar := by simpa [Nat.isValidChar] using hcode
      cases h
      rw [Char.ofNat, dif_pos hvalid]
      rfl
    · cases h
  · rintro rfl
    have hvalid : c.toNat.isValidChar := c.valid
    have hcode : (c.toNat < 0xD800 || (0xDFFF < c.toNat && c.toNat < 0x110000)) = true := by
      simpa [Nat.isValidChar] using hvalid
    rw [if_pos hcode, Char.ofNat_toNat]

theorem toNat_lt (c : Char) : c.toNat < 0x100000000 := c.val.toNat_lt

theorem decimalDigit?_eq (c : Char) :
    decimalDigit? c = if c.isDigit then some (Numeral.digitValue c) else none := by
  have hrange : c.isDigit = ('0' ≤ c && c ≤ '9') := rfl
  unfold decimalDigit? Numeral.digitValue
  rw [hrange]
  split <;> rfl

theorem hexValue?_eq (c : Char) :
    Scanner.hexValue? c = if isHexDigit c then some (Numeral.digitValue c) else none := by
  have hrange : c.isDigit = ('0' ≤ c && c ≤ '9') := rfl
  unfold Scanner.hexValue? Numeral.digitValue isHexDigit
  rw [hrange]
  split
  · simp [*]
  · split
    · simp [*]
    · split <;> simp [*]

theorem le_foldl_digits {base : Nat} (hbase : 0 < base) (digits : List Char) (number : Nat) :
    number ≤ digits.foldl (fun n c => n * base + Numeral.digitValue c) number := by
  induction digits generalizing number with
  | nil => exact Nat.le_refl number
  | cons c cs ih =>
      calc number ≤ number * base := Nat.le_mul_of_pos_right number hbase
        _ ≤ number * base + Numeral.digitValue c := Nat.le_add_right _ _
        _ ≤ _ := ih _

theorem numberFrom?_eq_some_iff {base : Nat} (hbase : 0 < base) {digit? : Char → Option Nat}
    {isDigit : Char → Bool}
    (hdigit : ∀ c, digit? c = if isDigit c then some (Numeral.digitValue c) else none)
    {digits : List Char} :
    ∀ {number m : Nat}, number < 0x100000000 →
      (numberFrom? base digit? number digits = some m ↔
        (∀ d ∈ digits, isDigit d = true) ∧
          digits.foldl (fun n c => n * base + Numeral.digitValue c) number = m ∧
          m < 0x100000000) := by
  induction digits with
  | nil =>
      intro number m hnumber
      simp only [numberFrom?, Option.some.injEq, List.not_mem_nil, false_implies, implies_true,
        List.foldl_nil, true_and]
      exact ⟨fun h => ⟨h, h ▸ hnumber⟩, And.left⟩
  | cons c cs ih =>
      intro number m hnumber
      simp only [numberFrom?, hdigit, List.forall_mem_cons, List.foldl_cons]
      by_cases hc : isDigit c = true
      · simp only [hc, if_true, true_and]
        split
        · rename_i hfits
          exact ih hfits
        · rename_i hlarge
          -- the number never gets smaller again, so it does not fit at the end either
          have hle := le_foldl_digits hbase cs (number * base + Numeral.digitValue c)
          simp only [reduceCtorEq, false_iff, not_and]
          intro _ hm
          omega
      · simp [hc]

theorem number?_bind_scalar?_eq_some_iff {base : Nat} (hbase : 0 < base)
    {digit? : Char → Option Nat} {isDigit : Char → Bool}
    (hdigit : ∀ c, digit? c = if isDigit c then some (Numeral.digitValue c) else none)
    {digits : List Char} {c : Char} : (number? base digit? digits).bind scalar? = some c ↔
      digits ≠ [] ∧ (∀ d ∈ digits, isDigit d = true) ∧ Numeral.ofDigits base digits = c.toNat := by
  simp only [Option.bind_eq_some_iff, scalar?_eq_some_iff, exists_eq_right]
  unfold number?
  cases digits with
  | nil => simp
  | cons d ds =>
      simp only [List.isEmpty_cons, Bool.false_eq_true, if_false, ne_eq, reduceCtorEq,
        not_false_eq_true, true_and, numberFrom?_eq_some_iff hbase hdigit (by decide : 0 < _)]
      exact ⟨fun h => ⟨h.1, h.2.1⟩, fun h => ⟨h.1, h.2, toNat_lt c⟩⟩

theorem reference?_decimal (table : EntityTable) {digits : List Char}
    (hdigits : ∀ d ∈ digits, d.isDigit = true) :
    reference? table ('#' :: digits) = (number? 10 decimalDigit? digits).bind scalar? := by
  unfold reference?
  split
  · rename_i heq
    cases heq
    exact absurd (hdigits 'x' (by simp)) (by decide)
  · rename_i heq
    cases heq
    exact absurd (hdigits 'X' (by simp)) (by decide)
  · rename_i heq
    cases heq
    rfl
  · rename_i hname
    exact absurd rfl (hname digits)

theorem reference?_name (table : EntityTable) {first : Char} {rest : List Char}
    (hfirst : first.isAlpha = true) (hrest : ∀ d ∈ rest, d.isAlphanum = true) :
    reference? table (first :: rest) = table (String.ofList (first :: rest)) := by
  have hname : isEntityName (first :: rest) = true :=
    Bool.and_eq_true_iff.mpr ⟨hfirst, List.all_eq_true.mpr hrest⟩
  have hletter : first ≠ '#' := by
    rintro rfl
    exact absurd hfirst (by decide)
  unfold reference?
  split
  · rename_i heq
    exact absurd (List.cons.inj heq).1 hletter
  · rename_i heq
    exact absurd (List.cons.inj heq).1 hletter
  · rename_i heq
    exact absurd (List.cons.inj heq).1 hletter
  · exact if_pos hname

/-- What the scanner takes for a reference is one. -/
theorem reference?_eq_some_iff {table : EntityTable} {body : List Char} {c : Char} :
    reference? table body = some c ↔ Denotes table body c := by
  have hhexadecimal {digits : List Char} : (number? 16 Scanner.hexValue? digits).bind scalar? =
      some c ↔ _ :=
    number?_bind_scalar?_eq_some_iff (by decide) hexValue?_eq
  have hdecimal {digits : List Char} : (number? 10 decimalDigit? digits).bind scalar? = some c ↔
      _ :=
    number?_bind_scalar?_eq_some_iff (by decide) decimalDigit?_eq
  constructor
  · intro h
    unfold reference? at h
    split at h
    · obtain ⟨hne, hdigits, hc⟩ := hhexadecimal.mp h
      exact .hexadecimal (.inl rfl) hne hdigits hc
    · obtain ⟨hne, hdigits, hc⟩ := hhexadecimal.mp h
      exact .hexadecimal (.inr rfl) hne hdigits hc
    · obtain ⟨hne, hdigits, hc⟩ := hdecimal.mp h
      exact .decimal hne hdigits hc
    · obtain ⟨hname, hc⟩ := Option.ite_none_right_eq_some.mp h
      cases body with
      | nil => cases hname
      | cons first rest =>
          obtain ⟨hfirst, hrest⟩ := Bool.and_eq_true_iff.mp hname
          exact .named hfirst (List.all_eq_true.mp hrest) hc
  · intro h
    cases h with
    | named hfirst hrest hc => rw [reference?_name table hfirst hrest, hc]
    | decimal hne hdigits hc =>
        rw [reference?_decimal table hdigits]
        exact hdecimal.mpr ⟨hne, hdigits, hc⟩
    | hexadecimal hmark hne hdigits hc =>
        rcases hmark with rfl | rfl
        · exact hhexadecimal.mpr ⟨hne, hdigits, hc⟩
        · exact hhexadecimal.mpr ⟨hne, hdigits, hc⟩

namespace Denotes

variable {table : EntityTable} {body : List Char} {c : Char}

theorem not_mem (h : Denotes table body c) {mark : Char} (hmark : mark ∉ ['#', 'x', 'X'])
    (hletter : mark.isAlphanum = false) (hdigit : isHexDigit mark = false) : mark ∉ body := by
  simp only [List.mem_cons, List.not_mem_nil, or_false, not_or] at hmark
  obtain ⟨hhash, hx, hX⟩ := hmark
  obtain ⟨halpha, hdecimal⟩ := Bool.or_eq_false_iff.mp hletter
  intro hmem
  cases h with
  | named hfirst hrest =>
      rcases List.mem_cons.mp hmem with rfl | hmem
      · exact absurd hfirst (by simp [halpha])
      · exact absurd (hrest mark hmem) (by simp [hletter])
  | decimal hne hdigits =>
      rcases List.mem_cons.mp hmem with rfl | hmem
      · exact hhash rfl
      · exact absurd (hdigits mark hmem) (by simp [hdecimal])
  | hexadecimal hmark hne hdigits =>
      rcases List.mem_cons.mp hmem with rfl | hmem
      · exact hhash rfl
      · rcases List.mem_cons.mp hmem with rfl | hmem
        · exact hmark.elim hx hX
        · exact absurd (hdigits mark hmem) (by simp [hdigit])

theorem ampersand_not_mem (h : Denotes table body c) : '&' ∉ body :=
  h.not_mem (by decide) (by decide) (by decide)

theorem semicolon_not_mem (h : Denotes table body c) : ';' ∉ body :=
  h.not_mem (by decide) (by decide) (by decide)

end Denotes

/-- A text that starts with a reference. -/
def StartsReference (table : EntityTable) (cs : List Char) : Prop :=
  ∃ body c rest, Denotes table body c ∧ cs = '&' :: (body ++ ';' :: rest)

/-- One pass from left to right: a reference is replaced by its character, and a character at which
no reference starts is copied. -/
inductive Decodes (table : EntityTable) : List Char → List Char → Prop
  | done : Decodes table [] []
  | replace {body rest out : List Char} {c : Char} (h : Denotes table body c) :
      Decodes table rest out → Decodes table ('&' :: (body ++ ';' :: rest)) (c :: out)
  | copy {c : Char} {rest out : List Char} (h : ¬ StartsReference table (c :: rest)) :
      Decodes table rest out → Decodes table (c :: rest) (c :: out)

section Scanner

variable {table : EntityTable}

@[simp] theorem decodeFrom_open (cs : List Char) :
    decodeFrom table none ('&' :: cs) = decodeFrom table (some []) cs := rfl

theorem decodeFrom_cons {c : Char} (h : c ≠ '&') (cs : List Char) :
    decodeFrom table none (c :: cs) = c :: decodeFrom table none cs := by
  simp [decodeFrom, h]

@[simp] theorem decodeFrom_reopen (read cs : List Char) :
    decodeFrom table (some read) ('&' :: cs) =
      '&' :: (read.reverse ++ decodeFrom table (some []) cs) := rfl

theorem decodeFrom_close {read : List Char} {d : Char} (h : reference? table read.reverse = some d)
    (cs : List Char) :
    decodeFrom table (some read) (';' :: cs) = d :: decodeFrom table none cs := by
  simp [decodeFrom, h]

theorem decodeFrom_close_none {read : List Char} (h : reference? table read.reverse = none)
    (cs : List Char) :
    decodeFrom table (some read) (';' :: cs) =
      '&' :: (read.reverse ++ ';' :: decodeFrom table none cs) := by
  simp [decodeFrom, h]

theorem decodeFrom_keep {c : Char} (hopen : c ≠ '&') (hclose : c ≠ ';') (read cs : List Char) :
    decodeFrom table (some read) (c :: cs) = decodeFrom table (some (c :: read)) cs := by
  simp [decodeFrom, hopen, hclose]

theorem decodeFrom_append {body : List Char} (hopen : '&' ∉ body) (hclose : ';' ∉ body)
    (read cs : List Char) :
    decodeFrom table (some read) (body ++ cs) =
      decodeFrom table (some (body.reverse ++ read)) cs := by
  induction body generalizing read with
  | nil => rfl
  | cons c body ih =>
      simp only [List.mem_cons, not_or] at hopen hclose
      rw [List.cons_append, decodeFrom_keep (Ne.symm hopen.1) (Ne.symm hclose.1),
        ih hopen.2 hclose.2]
      simp

theorem decodeFrom_reference {body : List Char} {c : Char} (h : Denotes table body c)
    (rest : List Char) :
    decodeFrom table none ('&' :: (body ++ ';' :: rest)) = c :: decodeFrom table none rest := by
  rw [decodeFrom_open, decodeFrom_append h.ampersand_not_mem h.semicolon_not_mem]
  exact decodeFrom_close (by simpa using reference?_eq_some_iff.mpr h) rest

theorem decodeFrom_kept {cs : List Char} : ∀ {read : List Char},
    (∀ body rest, cs = body ++ ';' :: rest → reference? table (read.reverse ++ body) = none) →
    decodeFrom table (some read) cs = '&' :: (read.reverse ++ decodeFrom table none cs) := by
  induction cs with
  | nil =>
      intro read _
      simp [decodeFrom]
  | cons c cs ih =>
      intro read h
      by_cases hopen : c = '&'
      · rw [hopen, decodeFrom_reopen, decodeFrom_open]
      · rw [decodeFrom_cons hopen]
        by_cases hclose : c = ';'
        · subst hclose
          exact decodeFrom_close_none (by simpa using h [] cs rfl) cs
        · rw [decodeFrom_keep hopen hclose, ih, List.reverse_cons, List.append_assoc,
            List.singleton_append]
          intro body rest hcs
          simpa using h (c :: body) rest (by rw [hcs, List.cons_append])

/-- A character at which no reference starts is copied; what follows it is decoded
as if it stood alone. -/
theorem decodeFrom_copy {c : Char} {rest : List Char} (h : ¬ StartsReference table (c :: rest)) :
    decodeFrom table none (c :: rest) = c :: decodeFrom table none rest := by
  by_cases hopen : c = '&'
  · subst hopen
    rw [decodeFrom_open]
    refine decodeFrom_kept fun body after hrest => ?_
    cases hread : reference? table body with
    | none => simpa using hread
    | some d => exact absurd ⟨body, d, after, reference?_eq_some_iff.mp hread, by rw [hrest]⟩ h
  · exact decodeFrom_cons hopen rest

theorem decodes_decodeFrom (cs : List Char) : Decodes table cs (decodeFrom table none cs) := by
  -- by the length of the text, since a reference takes several characters off it at once
  induction hlength : cs.length using Nat.strongRecOn generalizing cs with
  | _ length ih =>
      cases cs with
      | nil => exact .done
      | cons c rest =>
          by_cases hstarts : StartsReference table (c :: rest)
          · obtain ⟨body, d, after, hd, heq⟩ := hstarts
            rw [heq, decodeFrom_reference hd]
            refine .replace hd (ih after.length ?_ after rfl)
            rw [← hlength, heq]
            simp only [List.length_cons, List.length_append]
            omega
          · rw [decodeFrom_copy hstarts]
            exact .copy hstarts (ih rest.length (by simp [← hlength]) rest rfl)

theorem decodes_iff {cs out : List Char} :
    Decodes table cs out ↔ out = decodeFrom table none cs := by
  constructor
  · intro h
    induction h with
    | done => rfl
    | replace h _ ih => rw [decodeFrom_reference h, ih]
    | copy h _ ih => rw [decodeFrom_copy h, ih]
  · rintro rfl
    exact decodes_decodeFrom cs

theorem decodeFrom_append_of_not_mem {cs : List Char} (h : '&' ∉ cs) (rest : List Char) :
    decodeFrom table none (cs ++ rest) = cs ++ decodeFrom table none rest := by
  induction cs with
  | nil => rfl
  | cons c cs ih =>
      rw [List.mem_cons, not_or] at h
      rw [List.cons_append, decodeFrom_cons (Ne.symm h.1), ih h.2, List.cons_append]

theorem decodeFrom_of_not_mem {cs : List Char} (h : '&' ∉ cs) : decodeFrom table none cs = cs := by
  simpa [decodeFrom] using decodeFrom_append_of_not_mem h []

end Scanner

/-- A reference that starts in one text and ends in the next one. -/
def Straddles (table : EntityTable) (a b : List Char) : Prop :=
  ∃ before left right after c, Denotes table (left ++ right) c ∧ a = before ++ '&' :: left ∧
  b = right ++ ';' :: after

section Pieces

variable {table : EntityTable} {a b : List Char}

theorem Straddles.append_left (h : Straddles table a b) (before : List Char) :
    Straddles table (before ++ a) b := by
  obtain ⟨before', left, right, after, c, hc, rfl, rfl⟩ := h
  exact ⟨before ++ before', left, right, after, c, hc, by rw [List.append_assoc], rfl⟩

/-- A reference at the start of a text ends in the first part of it or straddles the cut. -/
theorem StartsReference.of_append {c : Char} (h : StartsReference table (c :: (a ++ b))) :
    StartsReference table (c :: a) ∨ Straddles table (c :: a) b := by
  obtain ⟨body, d, rest, hd, heq⟩ := h
  obtain ⟨rfl, htail⟩ := List.cons.inj heq
  rcases List.append_eq_append_iff.mp htail with ⟨right, rfl, rfl⟩ | ⟨inner, rfl, hinner⟩
  · exact .inr ⟨[], a, right, rest, d, hd, rfl, rfl⟩
  · cases inner with
    | nil => exact .inr ⟨[], body, [], rest, d, by simpa using hd, by simp, hinner.symm⟩
    | cons e inner =>
        obtain ⟨rfl, rfl⟩ := List.cons.inj hinner
        exact .inl ⟨body, d, inner, hd, rfl⟩

theorem decodeFrom_append_of_not_straddles (h : ¬ Straddles table a b) :
    decodeFrom table none (a ++ b) = decodeFrom table none a ++ decodeFrom table none b := by
  -- along the pass over the first piece, whose last characters the second one
  -- can complete to a reference
  have hpass : Decodes table a _ := decodes_decodeFrom a
  generalize decodeFrom table none a = out at hpass
  induction hpass with
  | done => rfl
  | @replace body rest out c hc _ ih =>
      have hrest : ¬ Straddles table rest b :=
        fun hcut => h (by simpa using hcut.append_left ('&' :: body ++ [';']))
      rw [List.cons_append, List.append_assoc, List.cons_append, decodeFrom_reference hc, ih hrest,
        List.cons_append]
  | @copy c rest out hcopy _ ih =>
      have hrest : ¬ Straddles table rest b := fun hcut => h (hcut.append_left [c])
      have hstarts : ¬ StartsReference table (c :: (rest ++ b)) :=
        fun hstarts => hstarts.of_append.elim hcopy h
      rw [List.cons_append, decodeFrom_copy hstarts, ih hrest, List.cons_append]

/-- No reference straddles a cut in front of an `&`. -/
theorem decodeFrom_append_open (before rest : List Char) :
    decodeFrom table none (before ++ '&' :: rest) =
      decodeFrom table none before ++ decodeFrom table none ('&' :: rest) := by
  refine decodeFrom_append_of_not_straddles ?_
  rintro ⟨_, left, right, after, c, hc, -, hright⟩
  cases right with
  | nil => cases hright
  | cons d right =>
      obtain ⟨rfl, -⟩ := List.cons.inj hright
      exact hc.ampersand_not_mem (by simp)

theorem decodeFrom_append_reference {body : List Char} {c : Char} (h : Denotes table body c)
    (before rest : List Char) :
    decodeFrom table none (before ++ '&' :: (body ++ ';' :: rest)) =
      decodeFrom table none before ++ c :: decodeFrom table none rest := by
  rw [decodeFrom_append_open, decodeFrom_reference h]

/-- A reference that is cut is copied in two halves, which are longer than its character. -/
theorem Straddles.length_lt (h : Straddles table a b) :
    (decodeFrom table none (a ++ b)).length <
      (decodeFrom table none a ++ decodeFrom table none b).length := by
  obtain ⟨before, left, right, after, c, hc, rfl, rfl⟩ := h
  have hopen := hc.ampersand_not_mem
  have hclose := hc.semicolon_not_mem
  rw [List.mem_append, not_or] at hopen hclose
  have hstarts : ¬ StartsReference table ('&' :: left) := by
    rintro ⟨body, d, rest, -, heq⟩
    exact hclose.1 (by simp [(List.cons.inj heq).2])
  have hwhole : decodeFrom table none (before ++ '&' :: left ++ (right ++ ';' :: after)) =
      decodeFrom table none before ++ c :: decodeFrom table none after := by
    simpa using decodeFrom_append_reference hc before after
  have hleft : decodeFrom table none ('&' :: left) = '&' :: left := by
    rw [decodeFrom_copy hstarts, decodeFrom_of_not_mem hopen.1]
  have hright : decodeFrom table none (right ++ ';' :: after) =
      right ++ ';' :: decodeFrom table none after := by
    rw [decodeFrom_append_of_not_mem hopen.2, decodeFrom_cons (by decide)]
  rw [hwhole, decodeFrom_append_open, hleft, hright]
  simp only [List.length_append, List.length_cons]
  omega

theorem decodeFrom_append_iff :
    decodeFrom table none (a ++ b) = decodeFrom table none a ++ decodeFrom table none b ↔
      ¬ Straddles table a b := by
  refine ⟨fun heq h => ?_, decodeFrom_append_of_not_straddles⟩
  have hlength := h.length_lt
  rw [heq] at hlength
  exact Nat.lt_irrefl _ hlength

end Pieces

theorem toList_decodeWith (table : EntityTable) (text : String) :
    (decodeWith table text).toList = decodeFrom table none text.toList := by
  unfold decodeWith
  split
  · exact String.toList_ofList
  · rename_i hnone
    have hopen : '&' ∉ text.toList := by simpa using hnone
    exact (decodeFrom_of_not_mem hopen).symm

/-- A way to decode texts that changes the references of a table and nothing else. -/
structure DecodesExactly (table : EntityTable) (decode : String → String) : Prop where
  /-- It is the one pass from left to right. -/
  pass : ∀ text out : String, Decodes table text.toList out.toList ↔ out = decode text
  /-- References are replaced wherever they stand. -/
  replaced : ∀ (a b : String) (body : List Char) (c : Char), Denotes table body c →
    decode (a ++ String.ofList ('&' :: body ++ [';']) ++ b) =
    decode a ++ String.singleton c ++ decode b
  /-- A text can be decoded in two pieces unless that cuts a reference. -/
  append_iff : ∀ a b : String, decode (a ++ b) = decode a ++ decode b ↔
    ¬ Straddles table a.toList b.toList
  /-- Where there is no `&`, the text that is returned at once is the one that
  the scanner would give. -/
  scanned : ∀ text : String, decode text = String.ofList (decodeFrom table none text.toList)

theorem decodeEntities_exact :
    (∀ table, DecodesExactly table (decodeWith table)) ∧
      DecodesExactly entityTable decodeEntities := by
  have hexact : ∀ table, DecodesExactly table (decodeWith table) := by
    intro table
    refine ⟨fun text out => ?_, fun a b body c hc => ?_, fun a b => ?_, fun text => ?_⟩
    · rw [decodes_iff, ← toList_decodeWith, String.toList_inj]
    · apply String.toList_injective
      simpa [toList_decodeWith] using decodeFrom_append_reference hc a.toList b.toList
    · rw [← String.toList_inj, String.toList_append, toList_decodeWith, toList_decodeWith,
        toList_decodeWith, String.toList_append, decodeFrom_append_iff]
    · rw [← toList_decodeWith, String.ofList_toList]
  exact ⟨hexact, hexact entityTable⟩

/-- Candidates that fail: an `&` in front of a reference, no digits or too many, a surrogate,
a name inside another. -/
example :
    decodeEntities "&&#38;#38; &#x; &#99999999999999; &#xD800; &a&b; &amp &bogus; &amp;lt;" =
      "&&#38; &#x; &#99999999999999; &#xD800; &a&b; &amp &bogus; &lt;" := by
  decide +kernel

end TemplateCompiler.Text
