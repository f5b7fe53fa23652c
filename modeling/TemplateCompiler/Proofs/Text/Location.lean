import Mathlib.Data.List.DropRight
import Mathlib.Data.Prod.Lex
import TemplateCompiler.Proofs.Syntax.Lexing
import TemplateCompiler.Report

namespace TemplateCompiler

namespace Text

open Scanner (byteLength byteLength_append length_le_byteLength)

theorem byteLength_toList (s : String) : byteLength s.toList = s.utf8ByteSize := by
  have hofList : ∀ cs : List Char, byteLength cs = (String.ofList cs).utf8ByteSize := by
    intro cs
    induction cs with
    | nil => rfl
    | cons c cs ih => simp [byteLength, String.ofList_cons, ih]
  rw [hofList, String.ofList_toList]

/-- `Cuts offset before behind` says which characters of a text start in front of a byte offset, and
which do not. An offset inside of a character lies behind its start. -/
inductive Cuts : Nat → List Char → List Char → Prop
  | ended (offset : Nat) : Cuts offset [] []
  | reached (behind : List Char) : Cuts 0 [] behind
  | passed {offset : Nat} {c : Char} {before behind : List Char} (hleft : 0 < offset)
      (hrest : Cuts (offset - c.utf8Size) before behind) : Cuts offset (c :: before) behind

theorem exists_cuts (offset : Nat) (cs : List Char) :
    ∃ before behind, cs = before ++ behind ∧ Cuts offset before behind := by
  induction cs generalizing offset with
  | nil => exact ⟨[], [], rfl, .ended offset⟩
  | cons c cs ih =>
      rcases Nat.eq_zero_or_pos offset with rfl | hleft
      · exact ⟨[], c :: cs, rfl, .reached _⟩
      · obtain ⟨before, behind, rfl, hrest⟩ := ih (offset - c.utf8Size)
        exact ⟨c :: before, behind, rfl, .passed hleft hrest⟩

theorem Cuts.append {offset : Nat} {middle behind : List Char} (h : Cuts offset middle behind)
    (before : List Char) :
    Cuts (byteLength before + offset) (before ++ middle) behind := by
  induction before with
  | nil => simpa [byteLength] using h
  | cons c before ih =>
      have hsize := c.utf8Size_pos
      refine .passed (by simp only [byteLength]; omega) ?_
      rwa [byteLength, show c.utf8Size + byteLength before + offset - c.utf8Size =
        byteLength before + offset by omega]

theorem cuts_boundary (before behind : List Char) : Cuts (byteLength before) before behind := by
  simpa using (Cuts.reached behind).append before

theorem cuts_inside {c : Char} {part : Nat} (hpart : 0 < part) (hsize : part ≤ c.utf8Size)
    (before behind : List Char) :
    Cuts (byteLength before + part) (before ++ [c]) behind := by
  refine Cuts.append (.passed hpart ?_) before
  rw [Nat.sub_eq_zero_of_le hsize]
  exact .reached behind

theorem cuts_beyond {cs : List Char} {offset : Nat} (h : byteLength cs ≤ offset) :
    Cuts offset cs [] := by
  obtain ⟨more, rfl⟩ := Nat.exists_eq_add_of_le h
  simpa using (Cuts.ended more).append cs

/-- The line and column behind a character at a line and column. -/
def advance (place : Nat × Nat) (c : Char) : Nat × Nat :=
  if c = '\n' then (place.1 + 1, 1) else (place.1, place.2 + 1)

/-- The offset counts from the start of the whole text, a cut from where the count has come to. -/
theorem lineColumnFrom_of_cuts {left : Nat} {before behind : List Char}
    (h : Cuts left before behind) {offset index : Nat} (hleft : offset - index = left)
    (line column : Nat) :
    lineColumnFrom offset index line column (before ++ behind) =
      before.foldl advance (line, column) := by
  induction h generalizing index line column with
  | ended left => rfl
  | reached behind =>
      cases behind with
      | nil => rfl
      | cons c behind => exact if_pos (Nat.le_of_sub_eq_zero hleft)
  | @passed left c before behind hpos hrest ih =>
      have hgo : ¬ offset ≤ index := by omega
      have hnext : offset - (index + c.utf8Size) = left - c.utf8Size := by omega
      rw [List.cons_append, lineColumnFrom, if_neg hgo, List.foldl_cons]
      by_cases hline : c = '\n'
      · rw [if_pos (beq_iff_eq.mpr hline), ih hnext, advance, if_pos hline]
      · rw [if_neg (by simpa using hline), ih hnext, advance, if_neg hline]

theorem lineColumn_of_cuts {source : String} {offset : Nat} {before behind : List Char}
    (hsource : source.toList = before ++ behind) (h : Cuts offset before behind) :
    lineColumn source offset = before.foldl advance (1, 1) := by
  rw [lineColumn, hsource]
  exact lineColumnFrom_of_cuts h (Nat.sub_zero offset) 1 1

theorem foldl_advance (cs : List Char) :
    cs.foldl advance (1, 1) = (1 + cs.count '\n', 1 + (cs.rtakeWhile (· != '\n')).length) := by
  induction cs using List.reverseRecOn with
  | nil => rfl
  | append_singleton cs c ih =>
      rw [List.foldl_concat, ih]
      by_cases hline : c = '\n'
      · subst hline
        simp [advance, List.rtakeWhile_concat_neg, Nat.add_assoc]
      · simp [advance, hline, List.rtakeWhile_concat_pos, Nat.add_assoc]

theorem toLex_lt_advance (place : Nat × Nat) (c : Char) :
    toLex place < toLex (advance place c) := by
  rw [Prod.Lex.toLex_lt_toLex, advance]
  split
  · exact .inl (Nat.lt_succ_self _)
  · exact .inr ⟨rfl, Nat.lt_succ_self _⟩

theorem toLex_lt_foldl_advance {cs : List Char} (hcs : cs ≠ []) (place : Nat × Nat) :
    toLex place < toLex (cs.foldl advance place) := by
  induction cs generalizing place with
  | nil => exact absurd rfl hcs
  | cons c cs ih =>
      have hfirst := toLex_lt_advance place c
      cases cs with
      | nil => exact hfirst
      | cons d cs => exact lt_trans hfirst (ih (List.cons_ne_nil d cs) _)

def lines (source : String) : List (List Char) := source.toList.splitOn '\n'

/-- The text that is left from a line on, without the characters in front of a column. -/
def textFrom (source : String) (place : Nat × Nat) : List Char :=
  (['\n'].intercalate ((lines source).drop (place.1 - 1))).drop (place.2 - 1)

theorem length_splitOn (cs : List Char) : (cs.splitOn '\n').length = cs.count '\n' + 1 := by
  induction cs with
  | nil => rfl
  | cons c cs ih =>
      rw [List.splitOn_cons_eq_if_modifyHead, List.count_cons]
      split
      · simp [ih]
      · simp [ih]

theorem drop_splitOn (before behind : List Char) :
    ((before ++ behind).splitOn '\n').drop (before.count '\n') =
      (before.rtakeWhile (· != '\n') ++ behind).splitOn '\n' := by
  induction before using List.reverseRecOn generalizing behind with
  | nil => rfl
  | append_singleton before c ih =>
      rw [List.append_assoc, List.singleton_append]
      by_cases hline : c = '\n'
      · subst hline
        rw [List.splitOn_append_cons_self, List.rtakeWhile_concat_neg _ _ _ (by simp),
          List.nil_append]
        apply List.drop_left'
        simp [length_splitOn]
      · have hcount : (before ++ [c]).count '\n' = before.count '\n' := by simp [hline]
        rw [hcount, ih, List.rtakeWhile_concat_pos _ _ _ (by simpa using hline), List.append_assoc,
          List.singleton_append]

theorem head?_splitOn {tail : List Char} (htail : '\n' ∉ tail) (behind : List Char) :
    ∃ rest, ((tail ++ behind).splitOn '\n').head? = some (tail ++ rest) := by
  induction tail with
  | nil =>
      obtain ⟨line, others, hsplit⟩ := List.exists_cons_of_ne_nil (List.splitOn_ne_nil '\n' behind)
      exact ⟨line, by simp [hsplit]⟩
  | cons c tail ih =>
      rw [List.mem_cons, not_or] at htail
      obtain ⟨rest, hrest⟩ := ih htail.2
      refine ⟨rest, ?_⟩
      rw [List.cons_append, List.splitOn_cons_eq_if_modifyHead,
        if_neg (by simpa using Ne.symm htail.1), List.head?_modifyHead, hrest]
      rfl

section Places

variable {source before behind : String} {p : source.Pos}

theorem lineColumn_of_splits (h : p.Splits before behind) :
    lineColumn source p.offset.byteIdx = before.toList.foldl advance (1, 1) := by
  have hsource : source.toList = before.toList ++ behind.toList := by
    rw [h.eq_append, String.toList_append]
  rw [h.offset_eq_rawEndPos, String.byteIdx_rawEndPos, ← byteLength_toList]
  exact lineColumn_of_cuts hsource (cuts_boundary _ _)

theorem textFrom_lineColumn (h : p.Splits before behind) :
    textFrom source (lineColumn source p.offset.byteIdx) = behind.toList := by
  rw [lineColumn_of_splits h, foldl_advance, textFrom, lines, h.eq_append, String.toList_append,
    Nat.add_sub_cancel_left, Nat.add_sub_cancel_left, drop_splitOn, List.intercalate_splitOn,
    List.drop_left]

theorem exists_line (h : p.Splits before behind) :
    ∃ line, (lines source)[(lineColumn source p.offset.byteIdx).1 - 1]? = some line ∧
      (lineColumn source p.offset.byteIdx).2 ≤ line.length + 1 := by
  have htail : '\n' ∉ before.toList.rtakeWhile (· != '\n') := by
    intro hmem
    simpa using List.mem_rtakeWhile_imp hmem
  obtain ⟨rest, hrest⟩ := head?_splitOn htail behind.toList
  refine ⟨before.toList.rtakeWhile (· != '\n') ++ rest, ?_, ?_⟩
  · rw [lineColumn_of_splits h, foldl_advance, Nat.add_sub_cancel_left, ← List.head?_drop, lines,
      h.eq_append, String.toList_append, drop_splitOn, hrest]
  · rw [lineColumn_of_splits h, foldl_advance, List.length_append]
    omega

theorem toLex_lineColumn_lt {q : source.Pos} (h : p < q) :
    toLex (lineColumn source p.offset.byteIdx) < toLex (lineColumn source q.offset.byteIdx) := by
  obtain ⟨middle, hmiddle, hbefore, -⟩ := (p.splits.lt_iff_exists_eq_append q.splits).mp h
  rw [lineColumn_of_splits p.splits, lineColumn_of_splits q.splits, hbefore, String.toList_append,
    List.foldl_append]
  exact toLex_lt_foldl_advance (by simpa using hmiddle) _

theorem lineColumn_inside (hp : p ≠ source.endPos) {offset : Nat} (hlow : p.offset.byteIdx < offset)
    (hhigh : offset < (p.next hp).offset.byteIdx) :
    lineColumn source offset = lineColumn source (p.next hp).offset.byteIdx := by
  have hright := p.splits_next_right hp
  have hnext := p.splits_next hp
  rw [hright.offset_eq_rawEndPos, String.byteIdx_rawEndPos] at hlow
  rw [hnext.offset_eq_rawEndPos, String.byteIdx_rawEndPos, String.utf8ByteSize_append,
    String.utf8ByteSize_singleton] at hhigh
  rw [lineColumn_of_splits hnext]
  obtain ⟨part, rfl⟩ := Nat.exists_eq_add_of_lt hlow
  apply lineColumn_of_cuts
  · rw [← String.toList_append, ← hnext.eq_append]
  · rw [String.toList_append, String.toList_singleton, Nat.add_assoc, ← byteLength_toList]
    exact cuts_inside (Nat.succ_pos part) (by omega) _ _

theorem lineColumn_beyond {offset : Nat} (h : source.utf8ByteSize ≤ offset) :
    lineColumn source offset = lineColumn source source.utf8ByteSize := by
  have hend : ∀ {offset}, source.utf8ByteSize ≤ offset →
      lineColumn source offset = source.toList.foldl advance (1, 1) := by
    intro offset hoffset
    exact lineColumn_of_cuts (List.append_nil _).symm (cuts_beyond (by rwa [byteLength_toList]))
  rw [hend h, hend (Nat.le_refl _)]

theorem lineColumn_le (source : String) (offset : Nat) :
    (lineColumn source offset).1 ≤ source.utf8ByteSize + 1 ∧
      (lineColumn source offset).2 ≤ source.utf8ByteSize + 1 := by
  obtain ⟨before, behind, hsource, hcuts⟩ := exists_cuts offset source.toList
  have hlength := length_le_byteLength before
  have hbytes : byteLength before ≤ source.utf8ByteSize := by
    rw [← byteLength_toList, hsource, byteLength_append]
    omega
  have hcount : before.count '\n' ≤ before.length := List.count_le_length
  have htail := (List.rtakeWhile_suffix (· != '\n') before).length_le
  rw [lineColumn_of_cuts hsource hcuts, foldl_advance]
  constructor
  · simp only
    omega
  · simp only
    omega

end Places

/-- What the lines and columns of a text say. -/
structure LeadsBack (source : String) : Prop where
  /-- The line feeds in front of a place, and the characters behind the last of them. -/
  counted (p : source.Pos) (before behind : String) (h : p.Splits before behind) :
    lineColumn source p.offset.byteIdx =
      (1 + before.toList.count '\n', 1 + (before.toList.rtakeWhile (· != '\n')).length)
  /-- The characters in front of the column, taken away from the text of the lines, leave the
  text behind the place. -/
  inverted (p : source.Pos) (before behind : String) (h : p.Splits before behind) :
    textFrom source (lineColumn source p.offset.byteIdx) = behind.toList
  inLine (p : source.Pos) :
    ∃ line, (lines source)[(lineColumn source p.offset.byteIdx).1 - 1]? = some line ∧
      (lineColumn source p.offset.byteIdx).2 ≤ line.length + 1
  increasing (p q : source.Pos) (h : p < q) :
    toLex (lineColumn source p.offset.byteIdx) < toLex (lineColumn source q.offset.byteIdx)
  /-- Inside of a character the place is that behind it. -/
  inside (p : source.Pos) (hp : p ≠ source.endPos) (offset : Nat) (hlow : p.offset.byteIdx < offset)
    (hhigh : offset < (p.next hp).offset.byteIdx) :
    lineColumn source offset = lineColumn source (p.next hp).offset.byteIdx
  beyond (offset : Nat) (h : source.utf8ByteSize ≤ offset) :
    lineColumn source offset = lineColumn source source.utf8ByteSize

end Text

namespace Report

/-- A report after it has been located in some files, given with their
texts, one after the other. -/
def locateAll (r : Report) (files : List (String × String)) : Report :=
  files.foldl (fun r file => r.locate file.1 file.2) r

theorem locate_of_offset_eq_none {r : Report} (h : r.offset = none) (file source : String) :
    r.locate file source = { r with file } := by
  rw [locate, h]

theorem locate_of_offset_eq_some {r : Report} {offset : Nat} (h : r.offset = some offset)
    (file source : String) :
    r.locate file source =
      { r with
        file, offset := none,
        line := .ofNat (Text.lineColumn source offset).1, column :=
        .ofNat (Text.lineColumn source offset).2 } := by
  rw [locate, h]

theorem offset_locate (r : Report) (file source : String) :
    (r.locate file source).offset = none := by
  cases h : r.offset with
  | none => rw [locate_of_offset_eq_none h, h]
  | some offset => rw [locate_of_offset_eq_some h]

theorem file_locate (r : Report) (file source : String) : (r.locate file source).file = file := by
  cases h : r.offset with
  | none => rw [locate_of_offset_eq_none h]
  | some offset => rw [locate_of_offset_eq_some h]

/-- The line and column of a place fit into 32 bits unless the text is larger than that. -/
theorem toNat_locate {r : Report} {offset : Nat} (h : r.offset = some offset) (file : String)
    {source : String} (hsource : source.utf8ByteSize + 1 < UInt32.size) :
    ((r.locate file source).line.toNat, (r.locate file source).column.toNat) =
      Text.lineColumn source offset := by
  obtain ⟨hline, hcolumn⟩ := Text.lineColumn_le source offset
  rw [locate_of_offset_eq_some h]
  simp only [UInt32.toNat_ofNat_of_lt' (Nat.lt_of_le_of_lt hline hsource),
    UInt32.toNat_ofNat_of_lt' (Nat.lt_of_le_of_lt hcolumn hsource)]

theorem locateAll_of_offset_eq_none {r : Report} (h : r.offset = none)
    (files : List (String × String)) :
    r.locateAll files = { r with file := (files.getLast?.map Prod.fst).getD r.file } := by
  induction files using List.reverseRecOn with
  | nil => rfl
  | append_singleton files file ih =>
      have hrun : r.locateAll (files ++ [file]) = (r.locateAll files).locate file.1 file.2 := by
        simp [locateAll]
      rw [hrun, ih, locate_of_offset_eq_none (by exact h)]
      simp

/-- A report is given its line and column by the first text in which it is
located, and keeps them. -/
structure LocatedOnce (r : Report) (file source : String) : Prop where
  pending (offset : Nat) (h : r.offset = some offset) :
    r.locate file source =
      { r with
        file, offset := none,
        line := .ofNat (Text.lineColumn source offset).1
        column := .ofNat (Text.lineColumn source offset).2 }
  fits (offset : Nat) (h : r.offset = some offset)
    (hsource : source.utf8ByteSize + 1 < UInt32.size) :
    ((r.locate file source).line.toNat, (r.locate file source).column.toNat) =
      Text.lineColumn source offset
  found (h : r.offset = none) : r.locate file source = { r with file }
  kept (later : List (String × String)) :
    r.locateAll ((file, source) :: later) =
      { r.locate file source with file := (later.getLast?.map Prod.fst).getD file }

end Report

theorem lineColumn_leadsBack (source : String) :
    Text.LeadsBack source ∧ ∀ (r : Report) (file : String), r.LocatedOnce file source := by
  constructor
  · exact {
      counted := fun p before behind h => by rw [Text.lineColumn_of_splits h, Text.foldl_advance]
      inverted := fun p before behind h => Text.textFrom_lineColumn h
      inLine := fun p => Text.exists_line p.splits
      increasing := fun p q h => Text.toLex_lineColumn_lt h
      inside := fun p hp offset hlow hhigh => Text.lineColumn_inside hp hlow hhigh
      beyond := fun offset h => Text.lineColumn_beyond h }
  · intro r file
    exact {
      pending := fun offset h => Report.locate_of_offset_eq_some h file source
      fits := fun offset h hsource => Report.toNat_locate h file hsource
      found := fun h => Report.locate_of_offset_eq_none h file source
      kept := fun later => by
        rw [Report.locateAll, List.foldl_cons, ← Report.locateAll,
          Report.locateAll_of_offset_eq_none (Report.offset_locate ..), Report.file_locate] }

/-- A carriage return is a character like any other, and the second byte of `é` belongs
to the place behind it. -/
example : [0, 1, 2, 3, 4, 5, 8, 9].map (Text.lineColumn "é\r\n𝕏") =
    [(1, 1), (1, 2), (1, 2), (1, 3), (2, 1), (2, 2), (2, 2), (2, 2)] := by
  decide +kernel

end TemplateCompiler
