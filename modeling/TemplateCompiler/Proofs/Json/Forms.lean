import Mathlib.Data.List.Nodup
import Mathlib.Data.List.Perm.Subperm
import TemplateCompiler.Request

namespace TemplateCompiler

namespace Json

/-- The values that give a record by its fields: an array of the fields in the order in which they
are declared, or an object in which the members with the names of fields are the fields. Whatever
else is in the object does not count. -/
inductive Gives (fields : List (String × Json)) : Json → Prop
  | array : Gives fields (array (fields.map Prod.snd))
  | object {members : List (String × Json)}
      (h : (members.filter fun m => (fields.map Prod.fst).contains m.1).Perm fields) :
      Gives fields (object members)

theorem member?_of_mem {members : List (String × Json)} {key : String} {v : Json}
    (hmem : (key, v) ∈ members) (hsole : ∀ w, (key, w) ∈ members → w = v) :
    member? members key = some v := by
  cases hlookup : members.lookup key with
  | none =>
      have hdiffers := List.lookup_eq_none_iff.mp hlookup (key, v) hmem
      simp at hdiffers
  | some w =>
      obtain ⟨before, behind, hsplit, -⟩ := List.lookup_eq_some_iff.mp hlookup
      have hw : (key, w) ∈ members := by simp [hsplit]
      rw [member?, hlookup, hsole w hw]

theorem member?_of_perm {fields members : List (String × Json)}
    (h : (members.filter fun m => (fields.map Prod.fst).contains m.1).Perm fields)
    (hnodup : (fields.map Prod.fst).Nodup) :
    ∀ field ∈ fields, member? members field.1 = some field.2 := by
  rintro ⟨key, v⟩ hfield
  have hmem : ∀ w, (key, w) ∈ fields ↔ (key, w) ∈ members := by
    intro w
    have hkey : (fields.map Prod.fst).contains key = true :=
      List.contains_iff_mem.mpr (List.mem_map_of_mem hfield)
    rw [← h.mem_iff, List.mem_filter]
    exact and_iff_left hkey
  refine member?_of_mem ((hmem v).mp hfield) fun w hw => ?_
  have hsame := List.inj_on_of_nodup_map hnodup ((hmem w).mpr hw) hfield rfl
  exact congrArg Prod.snd hsame

theorem exists_of_bind {α β : Type} {x : Decode α} {f : α → Decode β} {b : β}
    (h : x >>= f = .ok b) :
    ∃ a, x = .ok a ∧ f a = .ok b := by
  cases x with
  | error e => cases h
  | ok a => exact ⟨a, rfl, h⟩

theorem toWord_integer (w : UInt32) : toWord (.integer w.toNat) = .ok w := by
  have hrange : (w.toNat : Int) < Int.pow 2 32 := by
    rw [show Int.pow 2 32 = UInt32.size by decide +kernel]
    exact Int.ofNat_lt.mpr w.toNat_lt_size
  have hword : (decide (0 ≤ (w.toNat : Int)) && decide ((w.toNat : Int) < Int.pow 2 32)) =
      true := by
    rw [decide_eq_true (Int.natCast_nonneg _), decide_eq_true hrange]
    rfl
  rw [toWord, if_pos hword, Int.toNat_natCast, UInt32.ofNat_toNat]

theorem toItems_map {α : Type} {read : Json → Decode α} {write : α → Json}
    (hread : ∀ a, read (write a) = .ok a) (as : List α) : toItems read (as.map write) = .ok as := by
  induction as with
  | nil => rfl
  | cons a as ih =>
      rw [List.map_cons, toItems, hread, ih]
      rfl

/-- Values and their forms: what is written can be read back, apart from what the forms leave
out, in whichever of its forms it is given; and whatever can be read is not changed by being
written and read again. -/
structure RoundTrips {α : Type} (read : Json → Decode α) (write : α → Json)
    (Given : α → Json → Prop) (kept : α → α) :
    Prop where
  back (a : α) : read (write a) = .ok (kept a)
  written (a : α) : Given a (write a)
  given (a : α) (v : Json) (h : Given a v) : read v = .ok (kept a)
  again (v : Json) (a : α) (h : read v = .ok a) : read (write a) = .ok a

theorem RoundTrips.of_forms {α : Type} {read : Json → Decode α} {write : α → Json}
    {Given : α → Json → Prop} {kept : α → α} (hwritten : ∀ a, Given a (write a))
    (hgiven : ∀ a v, Given a v → read v = .ok (kept a))
    (hkept : ∀ v a, read v = .ok a → kept a = a) : RoundTrips read write Given kept where
  back a := hgiven a (write a) (hwritten a)
  written := hwritten
  given := hgiven
  again v a h := by rw [hgiven a (write a) (hwritten a), hkept v a h]

end Json

open Json (Gives RoundTrips member?_of_perm readMember readItem readItemOr)

theorem SourceKind.ofJson_toJson (k : SourceKind) : ofJson k.toJson = .ok k := by
  cases k with
  | module => rfl
  | script => rfl

namespace Options

/-- The fields of the record, in the order in which they are declared. -/
def fields (o : Options) : List (String × Json) :=
  [("environment", .string o.environment), ("verbose", .bool o.verbose)]

theorem gives_toJson (o : Options) : Gives o.fields o.toJson := .object (List.Perm.refl _)

theorem ofJson_of_gives {o : Options} {v : Json} (h : Gives o.fields v) : ofJson v = .ok o := by
  cases h with
  | array => rfl
  | object h =>
      have hmembers := member?_of_perm h (by simp [fields])
      simp only [fields, List.forall_mem_cons] at hmembers
      obtain ⟨henvironment, hverbose, -⟩ := hmembers
      simp only [ofJson, readMember, henvironment, hverbose]
      rfl

end Options

namespace Metadata

def fields (m : Metadata) : List (String × Json) :=
  [("filename", .string m.filename), ("sourceType", m.kind.toJson)]

theorem gives_toJson (m : Metadata) : Gives m.fields m.toJson := .object (List.Perm.refl _)

theorem ofJson_of_gives {m : Metadata} {v : Json} (h : Gives m.fields v) : ofJson v = .ok m := by
  cases h with
  | array =>
      simp only [fields, List.map_cons, List.map_nil, ofJson, readItem, readItemOr,
        List.getElem?_cons_zero, List.getElem?_cons_succ, SourceKind.ofJson_toJson]
      rfl
  | object h =>
      have hmembers := member?_of_perm h (by simp [fields])
      simp only [fields, List.forall_mem_cons] at hmembers
      obtain ⟨hfilename, hkind, -⟩ := hmembers
      simp only [ofJson, readMember, hfilename, hkind, SourceKind.ofJson_toJson]
      rfl

end Metadata

namespace Input

/-- The forms of an input. The metadata in it may be in any of their forms. -/
def Given (i : Input) (v : Json) : Prop :=
  ∃ metadata, Gives i.metadata.fields metadata ∧
  Gives [("source", .string i.source), ("metadata", metadata)] v

theorem given_toJson (i : Input) : i.Given i.toJson :=
  ⟨i.metadata.toJson, i.metadata.gives_toJson, .object (List.Perm.swap _ _ _)⟩

theorem ofJson_of_given {i : Input} {v : Json} (h : i.Given v) : ofJson v = .ok i := by
  obtain ⟨metadata, hmetadata, h⟩ := h
  have hread := Metadata.ofJson_of_gives hmetadata
  cases h with
  | array =>
      simp only [List.map_cons, List.map_nil, ofJson, readItem, List.getElem?_cons_zero,
        List.getElem?_cons_succ, hread]
      rfl
  | object h =>
      have hmembers := member?_of_perm h (by simp)
      simp only [List.forall_mem_cons] at hmembers
      obtain ⟨hsource, hmetadata, -⟩ := hmembers
      simp only [ofJson, readMember, hsource, hmetadata, hread]
      rfl

end Input

namespace Output

def fields (o : Output) : List (String × Json) := [("code", .string o.code), ("map", o.map)]

theorem gives_toJson (o : Output) : Gives o.fields o.toJson := .object (List.Perm.refl _)

theorem ofJson_of_gives {o : Output} {v : Json} (h : Gives o.fields v) : ofJson v = .ok o := by
  cases h with
  | array => rfl
  | object h =>
      have hmembers := member?_of_perm h (by simp [fields])
      simp only [fields, List.forall_mem_cons] at hmembers
      obtain ⟨hcode, hmap, -⟩ := hmembers
      simp only [ofJson, readMember, hcode, hmap]
      rfl

end Output

namespace Report

/-- The fields of a report that are part of its form. -/
def fields (r : Report) : List (String × Json) :=
  [("code", .string r.code), ("errorType", .string r.errorType), ("message", .string r.message),
    ("file", .string r.file), ("line", .integer r.line.toNat), ("column", .integer r.column.toNat),
    ("hints", .array (r.hints.map .string))]

theorem gives_toJson (r : Report) : Gives r.fields r.toJson := by
  have hnames : ["code", "column", "errorType", "file", "hints", "line", "message"].Nodup := by
    decide
  refine .object (List.Subperm.perm_of_length_le (List.Nodup.subperm (.of_map Prod.fst hnames) ?_)
    (Nat.le_refl 7))
  simp [fields]

theorem ofJson_of_gives {r : Report} {v : Json} (h : Gives r.fields v) :
    ofJson v = .ok { r with offset := none } := by
  have htext : ∀ s, Json.toText (.string s) = .ok s := fun _ => rfl
  have hhints : Json.toList Json.toText (.array (r.hints.map .string)) = .ok r.hints :=
    Json.toItems_map htext r.hints
  cases h with
  | array =>
      simp only [fields, List.map_cons, List.map_nil, ofJson, readItem, List.getElem?_cons_zero,
        List.getElem?_cons_succ, Json.toWord_integer, hhints]
      rfl
  | object h =>
      have hmembers := member?_of_perm h (by simp [fields])
      simp only [fields, List.forall_mem_cons] at hmembers
      obtain ⟨hcode, herrorType, hmessage, hfile, hline, hcolumn, hhintsMember, -⟩ := hmembers
      simp only [ofJson, readMember, hcode, herrorType, hmessage, hfile, hline, hcolumn,
        hhintsMember, hhints, Json.toWord_integer]
      rfl

/-- A report that is read has no byte offset. -/
theorem offset_of_ofJson {v : Json} {r : Report} (h : ofJson v = .ok r) : r.offset = none := by
  cases v with
  | object members =>
      rw [ofJson] at h
      -- seven fields are looked for, and then seven are demanded
      iterate 14 obtain ⟨_, -, h⟩ := Json.exists_of_bind h
      cases h
      rfl
  | array items =>
      rw [ofJson] at h
      iterate 8 obtain ⟨_, -, h⟩ := Json.exists_of_bind h
      cases h
      rfl
  | null => cases h
  | bool b => cases h
  | number m places => cases h
  | string s => cases h

end Report

theorem forms_roundTrip :
    RoundTrips Options.ofJson Options.toJson (fun o => Gives o.fields) id ∧
      RoundTrips Metadata.ofJson Metadata.toJson (fun m => Gives m.fields) id ∧
      RoundTrips Input.ofJson Input.toJson Input.Given id ∧
      RoundTrips Output.ofJson Output.toJson (fun o => Gives o.fields) id ∧
      RoundTrips Report.ofJson Report.toJson (fun r => Gives r.fields) fun r =>
        { r with offset := none } := by
  refine ⟨?_, ?_, ?_, ?_, ?_⟩
  · exact .of_forms Options.gives_toJson (fun _ _ => Options.ofJson_of_gives) fun _ _ _ => rfl
  · exact .of_forms Metadata.gives_toJson (fun _ _ => Metadata.ofJson_of_gives) fun _ _ _ => rfl
  · exact .of_forms Input.given_toJson (fun _ _ => Input.ofJson_of_given) fun _ _ _ => rfl
  · exact .of_forms Output.gives_toJson (fun _ _ => Output.ofJson_of_gives) fun _ _ _ => rfl
  · refine .of_forms Report.gives_toJson (fun _ _ => Report.ofJson_of_gives) fun v r h => ?_
    rw [← Report.offset_of_ofJson h]

/-- An object with a member that is no field, and an array inside of it. -/
example :
    Input.ofJson (.object [("cached", .null),
      ("metadata", .array [.string "a.jsx", .string "script"]),
    ("source", .string "<b/>")]) = .ok ⟨"<b/>", ⟨"a.jsx", .script⟩⟩ := by
  rfl

end TemplateCompiler
