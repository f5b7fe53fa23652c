import TemplateCompiler.Proofs.Text.Decoding

namespace TemplateCompiler.Text

theorem ofDigits_append_singleton (base : Nat) (digits : List Char) (c : Char) :
    Numeral.ofDigits base (digits ++ [c]) = Numeral.ofDigits base digits * base +
      Numeral.digitValue c := by
  simp [Numeral.ofDigits]

theorem ofDigits_zeros (base zeros : Nat) (digits : List Char) :
    Numeral.ofDigits base (List.replicate zeros '0' ++ digits) = Numeral.ofDigits base digits := by
  have hzero : (List.replicate zeros '0').foldl (fun n c => n * base + Numeral.digitValue c) 0 =
      0 := by
    induction zeros with
    | zero => rfl
    | succ zeros ih => simpa [List.replicate_succ, Numeral.digitValue] using ih
  simp [Numeral.ofDigits, hzero]

theorem digitChar_values :
    ∀ d < 16, Numeral.digitValue (Nat.digitChar d) = d ∧ isHexDigit (Nat.digitChar d) = true := by
  decide

theorem ofDigits_toDigits {base : Nat} (hbase : 1 < base) (hdigits : base ≤ 16) (n : Nat) :
    Numeral.ofDigits base (Nat.toDigits base n) = n := by
  induction n using Nat.base_induction base hbase with
  | single m hm =>
      rw [Nat.toDigits_of_lt_base hm]
      simpa [Numeral.ofDigits] using (digitChar_values m (by omega)).1
  | digit m k hk hm ih =>
      rw [← Nat.toDigits_append_toDigits hbase hm hk, Nat.toDigits_of_lt_base hk,
        ofDigits_append_singleton, ih, (digitChar_values k (by omega)).1, Nat.mul_comm]

theorem isHexDigit_of_mem_toDigits {n : Nat} {d : Char} (h : d ∈ Nat.toDigits 16 n) :
    isHexDigit d = true := by
  induction n using Nat.base_induction 16 (by decide) with
  | single m hm =>
      rw [Nat.toDigits_of_lt_base hm, List.mem_singleton] at h
      exact h ▸ (digitChar_values m hm).2
  | digit m k hk hm ih =>
      rw [← Nat.toDigits_append_toDigits (by decide) hm hk, Nat.toDigits_of_lt_base hk,
        List.mem_append, List.mem_singleton] at h
      rcases h with h | rfl
      · exact ih h
      · exact (digitChar_values k hk).2

theorem toLower_values (c : Char) :
    Numeral.digitValue c.toLower = Numeral.digitValue c ∧ isHexDigit c.toLower = isHexDigit c := by
  -- only the capital letters change, and they can be gone through
  by_cases hupper : c.val ≥ 'A'.val ∧ c.val ≤ 'Z'.val
  · have hletters : ∀ n : Fin 26,
        Numeral.digitValue (Char.ofNat (65 + n)).toLower =
        Numeral.digitValue (Char.ofNat (65 + n)) ∧
          isHexDigit (Char.ofNat (65 + n)).toLower = isHexDigit (Char.ofNat (65 + n)) := by
      decide
    have hlow : 65 ≤ c.toNat := hupper.1
    have hhigh : c.toNat ≤ 90 := hupper.2
    have hc := hletters ⟨c.toNat - 65, by omega⟩
    rwa [show 65 + (c.toNat - 65) = c.toNat by omega, Char.ofNat_toNat] at hc
  · have hself : c.toLower = c := dif_neg hupper
    rw [hself]
    exact ⟨rfl, rfl⟩

theorem ofDigits_map_toLower (base : Nat) (digits : List Char) :
    Numeral.ofDigits base (digits.map Char.toLower) = Numeral.ofDigits base digits := by
  simp [Numeral.ofDigits, List.foldl_map, toLower_values]

/-- The ways to write a character. Digits may be in either case, with any
number of zeros in front. -/
inductive WritesChar : Char → List Char → Prop
  | itself {c : Char} (h : c ≠ '&') : WritesChar c [c]
  | decimal (c : Char) (zeros : Nat) :
      WritesChar c ('&' :: '#' :: (List.replicate zeros '0' ++ Nat.toDigits 10 c.toNat) ++ [';'])
  | hexadecimal {c mark : Char} {digits : List Char} (hmark : mark = 'x' ∨ mark = 'X') (zeros : Nat)
      (hdigits : digits.map Char.toLower = Nat.toDigits 16 c.toNat) :
      WritesChar c ('&' :: '#' :: mark :: (List.replicate zeros '0' ++ digits) ++ [';'])
  | ampersand : WritesChar '&' ['&', 'a', 'm', 'p', ';']

/-- The ways to write a text: each character in one of its ways. -/
inductive WritesText : List Char → List Char → Prop
  | nil : WritesText [] []
  | cons {c : Char} {piece cs text : List Char} :
      WritesChar c piece → WritesText cs text → WritesText (c :: cs) (piece ++ text)

section Encoding

variable {table : EntityTable}

theorem denotes_decimal (table : EntityTable) (c : Char) (zeros : Nat) :
    Denotes table ('#' :: (List.replicate zeros '0' ++ Nat.toDigits 10 c.toNat)) c := by
  refine .decimal (by simp [Nat.toDigits_ne_nil]) (fun d hd => ?_) ?_
  · rcases List.mem_append.mp hd with hzero | hdigit
    · rw [List.eq_of_mem_replicate hzero]
      rfl
    · exact Nat.isDigit_of_mem_toDigits (by decide) (by decide) hdigit
  · rw [ofDigits_zeros, ofDigits_toDigits (by decide) (by decide)]

theorem denotes_hexadecimal (table : EntityTable) {c mark : Char} {digits : List Char}
    (hmark : mark = 'x' ∨ mark = 'X') (zeros : Nat)
    (hdigits : digits.map Char.toLower = Nat.toDigits 16 c.toNat) :
    Denotes table ('#' :: mark :: (List.replicate zeros '0' ++ digits)) c := by
  have hne : digits ≠ [] := by
    rintro rfl
    exact Nat.toDigits_ne_nil hdigits.symm
  refine .hexadecimal hmark (by simp [hne]) (fun d hd => ?_) ?_
  · rcases List.mem_append.mp hd with hzero | hdigit
    · rw [List.eq_of_mem_replicate hzero]
      rfl
    · rw [← (toLower_values d).2]
      exact isHexDigit_of_mem_toDigits (hdigits ▸ List.mem_map_of_mem hdigit)
  · rw [ofDigits_zeros, ← ofDigits_map_toLower, hdigits, ofDigits_toDigits (by decide) (by decide)]

/-- However a character is written, it is decoded before what follows it. -/
theorem decodeFrom_piece (hamp : table "amp" = some '&') {c : Char} {piece : List Char}
    (h : WritesChar c piece) (text : List Char) :
    decodeFrom table none (piece ++ text) = c :: decodeFrom table none text := by
  cases h with
  | itself h => exact decodeFrom_cons h text
  | decimal c zeros => simpa using decodeFrom_reference (denotes_decimal table c zeros) text
  | hexadecimal hmark zeros hdigits =>
      simpa using decodeFrom_reference (denotes_hexadecimal table hmark zeros hdigits) text
  | ampersand =>
      have hname : Denotes table ['a', 'm', 'p'] '&' := .named rfl (List.all_eq_true.mp rfl) hamp
      exact decodeFrom_reference hname text

theorem decodeFrom_text (hamp : table "amp" = some '&') {cs text : List Char}
    (h : WritesText cs text) :
    decodeFrom table none text = cs := by
  induction h with
  | nil => rfl
  | cons hpiece _ ih => rw [decodeFrom_piece hamp hpiece, ih]

end Encoding

/-- Of the names of references, only that of `&` matters. -/
theorem decodeEntities_written {text written : String} (h : WritesText text.toList written.toList) :
    (∀ table : EntityTable, table "amp" = some '&' → decodeWith table written = text) ∧
      decodeEntities written = text := by
  have hdecode : ∀ table : EntityTable, table "amp" = some '&' →
      decodeWith table written = text := by
    intro table hamp
    rw [← String.toList_inj, toList_decodeWith, decodeFrom_text hamp h]
  exact ⟨hdecode, hdecode entityTable (by decide +kernel)⟩

theorem decodeEntities_written_mixed :
    WritesText "&lt;é𝕏".toList "&amp;lt&#059;&#XE9;&#x01D54f;".toList ∧
      decodeEntities "&amp;lt&#059;&#XE9;&#x01D54f;" = "&lt;é𝕏" := by
  have hwrites : WritesText "&lt;é𝕏".toList "&amp;lt&#059;&#XE9;&#x01D54f;".toList :=
    .cons .ampersand <| .cons (.itself (by decide)) <| .cons (.itself (by decide)) <|
    .cons (.decimal ';' 1) <|
      .cons (.hexadecimal (.inr rfl) 0 (show ['E', '9'].map Char.toLower = _ by decide)) <|
      .cons (.hexadecimal (.inl rfl) 1 (show ['1', 'D', '5', '4', 'f'].map Char.toLower = _ by
        decide)) .nil
  exact ⟨hwrites, (decodeEntities_written hwrites).2⟩

end TemplateCompiler.Text
