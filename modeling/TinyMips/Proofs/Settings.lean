import Mathlib
import TinyMips.Settings
import TinyMips.Proofs.Json.Printer
import TinyMips.Proofs.Json.Record
import TinyMips.Proofs.Json.Soundness

/-!
# Settings read back

* **overrides** — a subset of the four settings (`Overrides`), the fields that give them and the
  settings that they make of the defaults;
* **records** — the run settings are read whatever the order of their fields and whatever stands
  between them (`Settings.ofGeneral?_of_gives`), and so is the document around them;
* **texts** — `Settings.configuration_read` says all of it of the texts that write such documents.
-/

namespace TinyMips

/-- Values for some of the settings. -/
structure Overrides where
  trace : Option Bool := none
  maxSteps : Option UInt64 := none
  printRegisters : Option Bool := none
  printMemory : Option Bool := none

namespace Overrides

/-- The settings with the given values, and the default of every other. -/
def settings (overrides : Overrides) : Settings where
  trace := overrides.trace.getD true
  maxSteps := overrides.maxSteps.getD 100000
  printRegisters := overrides.printRegisters.getD true
  printMemory := overrides.printMemory.getD true

/-- The field of a value, if there is one. -/
def given (name : String) (value : Option Json) : List (String × Json) :=
  (value.map fun value => (name, value)).toList

/-- The fields of the given values. -/
def fields (overrides : Overrides) : List (String × Json) :=
  given "trace" (overrides.trace.map .bool) ++
  given "max_steps" (overrides.maxSteps.map fun value => .ofNat value.toNat) ++
  given "print_registers" (overrides.printRegisters.map .bool) ++
  given "print_memory" (overrides.printMemory.map .bool)

end Overrides

namespace Settings

open Json

/-- The fields of the run settings, in order. -/
def fieldNames : List String :=
  ["trace", "max_steps", "print_registers", "print_memory"]

/-- The settings of the fields that a record gives. -/
def ofFields? (fields : List (String × Json)) : Option Settings := do
  let trace ← field? fields "trace" bool? true
  let maxSteps ← field? fields "max_steps" uint64? 100000
  let printRegisters ← field? fields "print_registers" bool? true
  let printMemory ← field? fields "print_memory" bool? true
  return { trace, maxSteps, printRegisters, printMemory }

theorem ofGeneral?_eq (value : Json) :
    ofGeneral? value = (value.record? fieldNames).bind ofFields? :=
  rfl

theorem ofJson?_eq (value : Json) :
    ofJson? value = (value.record? ["general"]).bind fun fields =>
      field? fields "general" ofGeneral? {} :=
  rfl

/-! ## Overrides -/

@[simp] theorem lookup_given (name other : String) (value : Option Json) :
    (Overrides.given name value).lookup other = if other = name then value else none := by
  cases value with
  | none => simp [Overrides.given]
  | some value =>
    by_cases same : other = name
    · simp [Overrides.given, same]
    · have apart : (other == name) = false := beq_eq_false_iff_ne.mpr same
      simp [Overrides.given, List.lookup_cons, same, apart]

theorem field?_of_lookup {α : Type} {fields : List (String × Json)} {name : String}
    {value : Option α} {encode : α → Json} (here : fields.lookup name = value.map encode)
    {read : Json → Option α} (reads : ∀ value, read (encode value) = some value) (default : α) :
    field? fields name read default = some (value.getD default) := by
  rw [field?, here]
  cases value with
  | none => rfl
  | some value => exact reads value

theorem uint64?_ofNat (value : UInt64) : uint64? (.ofNat value.toNat) = some value := by
  have small : value.toNat < UInt64.size := value.toNat_lt
  have digits : Numeral.value? 10 (Numeral.decimal (value.toNat : Int)) = some value.toNat :=
    Numeral.value?_toDigits value.toNat
  simp [Json.ofNat, Json.ofInt, uint64?, digits, small]

theorem ofFields?_fields (overrides : Overrides) :
    ofFields? overrides.fields = some overrides.settings := by
  have trace : overrides.fields.lookup "trace" = overrides.trace.map .bool := by
    simp [Overrides.fields, List.lookup_append]
  have maxSteps : overrides.fields.lookup "max_steps" =
      overrides.maxSteps.map fun value => .ofNat value.toNat := by
    simp [Overrides.fields, List.lookup_append]
  have printRegisters : overrides.fields.lookup "print_registers" =
      overrides.printRegisters.map .bool := by
    simp [Overrides.fields, List.lookup_append]
  have printMemory : overrides.fields.lookup "print_memory" = overrides.printMemory.map .bool := by
    simp [Overrides.fields, List.lookup_append]
  have bools : ∀ value, bool? (.bool value) = some value := fun _ => rfl
  simp only [ofFields?, field?_of_lookup trace bools, field?_of_lookup maxSteps uint64?_ofNat,
    field?_of_lookup printRegisters bools, field?_of_lookup printMemory bools]
  rfl

theorem keys_fields_sublist (overrides : Overrides) :
    (overrides.fields.map Prod.fst).Sublist fieldNames := by
  have single (name : String) (value : Option Json) :
      ((Overrides.given name value).map Prod.fst).Sublist [name] := by
    cases value with
    | none => exact List.nil_sublist _
    | some value => exact List.Sublist.refl _
  simp only [Overrides.fields, List.map_append]
  exact (((single _ _).append (single _ _)).append (single _ _)).append (single _ _)

/-! ## Records -/

theorem ofFields?_perm {fields fields' : List (String × Json)} (same : fields.Perm fields')
    (distinct : (fields.map Prod.fst).Nodup) : ofFields? fields = ofFields? fields' := by
  simp only [ofFields?, field?_perm same distinct]

/-- Overrides are read, in any order and among any members of other names. -/
theorem ofGeneral?_of_gives {overrides : Overrides} {value : Json}
    (gives : Gives fieldNames overrides.fields value) :
    ofGeneral? value = some overrides.settings := by
  have keys := keys_fields_sublist overrides
  have distinct : (overrides.fields.map Prod.fst).Nodup := keys.nodup (by decide)
  obtain ⟨fields, read, same⟩ := exists_perm_of_gives gives
    (fun field here => keys.subset (List.mem_map_of_mem here)) distinct
  rw [ofGeneral?_eq, read, Option.bind_some, ← ofFields?_perm same.symm distinct]
  exact ofFields?_fields overrides

theorem ofJson?_of_gives {general document : Json}
    (gives : Gives ["general"] [("general", general)] document) :
    ofJson? document = ofGeneral? general := by
  obtain ⟨fields, read, same⟩ := exists_perm_of_gives gives (by simp) (by simp)
  obtain rfl := List.perm_singleton.mp same
  rw [ofJson?_eq, read]
  rfl

theorem ofJson?_of_missing {document : Json} (gives : Gives ["general"] [] document) :
    ofJson? document = some {} := by
  obtain ⟨fields, read, same⟩ := exists_perm_of_gives gives (by simp) (by simp)
  obtain rfl := List.perm_nil.mp same
  rw [ofJson?_eq, read]
  rfl

section Member

variable {key : String} (named : name? key = some "general") (general : Json)
  {before after : List (String × Json)}
include named

/-- A document is what its run settings are read as, if its other members allow it. -/
theorem ofJson?_of_leaves (leaves : Leaves ["general"] "general" (before ++ after)) :
    ofJson? (.object (before ++ (key, general) :: after)) = ofGeneral? general := by
  obtain ⟨fields, read, value⟩ :=
    knownMembers?_middle named List.mem_cons_self before after general leaves
  rw [ofJson?_eq, record?, read, Option.bind_some, value]

theorem ofJson?_of_taken (taken : ¬Leaves ["general"] "general" (before ++ after)) :
    ofJson? (.object (before ++ (key, general) :: after)) = none := by
  rw [ofJson?_eq, record?,
    knownMembers?_middle_eq_none named List.mem_cons_self before after general taken]
  rfl

end Member

/-- The places of the run settings in a document, whatever stands beside them. -/
inductive Holds (general : Json) : Json → Prop where
  | member {members : List (String × Json)} {key : String} (named : name? key = some "general")
    (here : (key, general) ∈ members) : Holds general (.object members)
  | element (rest : List Json) : Holds general (.array (general :: rest))

/-- A document is not read when its run settings are not. -/
theorem ofJson?_eq_none_of_holds {general document : Json} (holds : Holds general document)
    (bad : ofGeneral? general = none) : ofJson? document = none := by
  cases holds with
  | @member members key named here =>
    obtain ⟨before, after, rfl⟩ := List.append_of_mem here
    by_cases leaves : Leaves ["general"] "general" (before ++ after)
    · rw [ofJson?_of_leaves named general leaves, bad]
    · exact ofJson?_of_taken named general leaves
  | element rest =>
    rw [ofJson?_eq, record?]
    split
    · exact bad
    · rfl

/-! ## Lists for records -/

/-- The documents with a record as a list of its first fields, and as the object of them. -/
inductive Corresponds : Json → Json → Prop where
  | document {values : List Json} (short : values.length ≤ 1) :
    Corresponds (.array values) (.object (["general"].zip values))
  | general {values : List Json} (short : values.length ≤ fieldNames.length) {key : String}
    (named : name? key = some "general") (before after : List (String × Json)) :
    Corresponds (.object (before ++ (key, .array values) :: after))
      (.object (before ++ (key, .object (fieldNames.zip values)) :: after))

/-- The names of the fields stand for themselves as keys. -/
theorem unescape?_name : ∀ name ∈ "general" :: fieldNames,
    unescape? name.toList = some name.toList := by
  decide

theorem ofGeneral?_zip {values : List Json} (short : values.length ≤ fieldNames.length) :
    ofGeneral? (.object (fieldNames.zip values)) = ofGeneral? (.array values) := by
  have plain := (List.forall_mem_cons.mp unescape?_name).2
  rw [ofGeneral?_eq, ofGeneral?_eq, record?_zip plain (by decide) short]

theorem ofJson?_zip {values : List Json} (short : values.length ≤ 1) :
    ofJson? (.object (["general"].zip values)) = ofJson? (.array values) := by
  have plain := (List.forall_mem_cons.mp unescape?_name).1
  rw [ofJson?_eq, ofJson?_eq,
    record?_zip (List.forall_mem_singleton.mpr plain) (List.nodup_singleton _) short]

/-- Run settings that are read alike may take each other's place. -/
theorem ofJson?_congr {key : String} (named : name? key = some "general") {general general' : Json}
    (same : ofGeneral? general = ofGeneral? general') (before after : List (String × Json)) :
    ofJson? (.object (before ++ (key, general) :: after)) =
      ofJson? (.object (before ++ (key, general') :: after)) := by
  by_cases leaves : Leaves ["general"] "general" (before ++ after)
  · rw [ofJson?_of_leaves named general leaves, ofJson?_of_leaves named general' leaves, same]
  · rw [ofJson?_of_taken named general leaves, ofJson?_of_taken named general' leaves]

theorem Corresponds.ofJson?_eq {document document' : Json}
    (corresponds : Corresponds document document') : ofJson? document = ofJson? document' := by
  cases corresponds with
  | document short => exact (ofJson?_zip short).symm
  | general short named before after =>
    exact ofJson?_congr named (ofGeneral?_zip short).symm before after

/-- Nor does it matter how often lists and objects take each other's place. -/
theorem ofJson?_eq_of_eqvGen {document document' : Json}
    (same : Relation.EqvGen Corresponds document document') :
    ofJson? document = ofJson? document' := by
  induction same with
  | rel _ _ corresponds => exact corresponds.ofJson?_eq
  | refl _ => rfl
  | symm _ _ _ ih => exact ih.symm
  | trans _ _ _ _ _ ih ih' => exact ih.trans ih'

/-! ## Settings written -/

/-- Values for all of the settings. -/
def overrides (settings : Settings) : Overrides where
  trace := settings.trace
  maxSteps := settings.maxSteps
  printRegisters := settings.printRegisters
  printMemory := settings.printMemory

theorem ofJson?_toJson (settings : Settings) : ofJson? settings.toJson = some settings := by
  obtain ⟨plain, others⟩ := List.forall_mem_cons.mp unescape?_name
  have general : Gives ["general"] [("general", _)] settings.toJson :=
    gives_own (List.forall_mem_singleton.mpr plain)
  rw [ofJson?_of_gives general]
  have fields : Gives fieldNames settings.overrides.fields _ :=
    gives_own fun field here => others _ (List.mem_map_of_mem (f := Prod.fst) here)
  exact ofGeneral?_of_gives fields

theorem wellFormed_toJson (settings : Settings) : settings.toJson.WellFormed := by
  have plain : ∀ name ∈ "general" :: fieldNames, IsStringBody name.toList := by
    intro name here
    apply isStringBody_of_plain
    revert name
    decide
  obtain ⟨general, others⟩ := List.forall_mem_cons.mp plain
  refine .object (List.forall_mem_singleton.mpr general) (List.forall_mem_singleton.mpr ?_)
  refine .object (fun member here => ?_) ?_
  · exact others _ (List.mem_map_of_mem (f := Prod.fst) here)
  · simp only [List.forall_mem_cons]
    exact ⟨.bool _, wellFormed_ofInt _, .bool _, .bool _, List.forall_mem_nil _⟩

/-- **Every text of a configuration is read as it should be.** Given values are read in any order
and among any unknown members, with the defaults for the rest; a known field that is given twice is
refused; a list of the first fields of a record does as well as the object of them; and every text
of the document of some settings, the printed one among them, gives these settings back. -/
theorem configuration_read :
    (∀ (overrides : Overrides) (general document : Json) (text : String),
      Gives fieldNames overrides.fields general →
      Gives ["general"] [("general", general)] document → Document document text →
      ofText? text = some overrides.settings) ∧
    (∀ (document : Json) (text : String), Gives ["general"] [] document →
      Document document text → ofText? text = some {}) ∧
    (∀ (members : List (String × Json)) (text : String), 2 ≤ timesGiven "general" members →
      Document (.object members) text → ofText? text = none) ∧
    (∀ name ∈ fieldNames, ∀ (members : List (String × Json)) (document : Json) (text : String),
      2 ≤ timesGiven name members → Holds (.object members) document → Document document text →
      ofText? text = none) ∧
    (∀ (document document' : Json) (text text' : String),
      Relation.EqvGen Corresponds document document' → Document document text →
      Document document' text' → ofText? text = ofText? text') ∧
    (∀ settings : Settings, Document settings.toJson settings.toText ∧
      ∀ text, Document settings.toJson text → ofText? text = some settings) := by
  have reads {value : Json} {text : String} (h : Document value text) :
      ofText? text = ofJson? value := by
    rw [ofText?, ofDocument?_of_document h, Option.bind_some]
  refine ⟨?given, ?missing, ?documentTwice, ?fieldTwice, ?lists, ?written⟩
  case given =>
    intro overrides general document text given holds spelled
    rw [reads spelled, ofJson?_of_gives holds, ofGeneral?_of_gives given]
  case missing =>
    intro document text missing spelled
    rw [reads spelled, ofJson?_of_missing missing]
  case documentTwice =>
    intro members text twice spelled
    rw [reads spelled, ofJson?_eq, record?, knownMembers?_eq_none_of_twice List.mem_cons_self twice]
    rfl
  case fieldTwice =>
    intro name known members document text twice holds spelled
    have bad : ofGeneral? (.object members) = none := by
      rw [ofGeneral?_eq, record?, knownMembers?_eq_none_of_twice known twice]
      rfl
    rw [reads spelled, ofJson?_eq_none_of_holds holds bad]
  case lists =>
    intro document document' text text' same spelled spelled'
    rw [reads spelled, reads spelled', ofJson?_eq_of_eqvGen same]
  case written =>
    intro settings
    refine ⟨document_print settings.wellFormed_toJson, fun text spelled => ?_⟩
    rw [reads spelled, ofJson?_toJson]

/-- Fields out of order among unknown members, with escapes in their keys and the greatest limit,
then lists in place of both records, and then a field given twice by different keys. -/
theorem configuration_read_of_texts :
    ofText? ("\x7b\"x\":[1],\"gener\\u0061l\":\x7b\"max_steps\":18446744073709551615," ++
        "\"y\":-1.5e3,\"tr\\u0061ce\":false\x7d\x7d") =
      some { trace := false, maxSteps := 18446744073709551615 } ∧
    ofText? "[[false,7]]" = some { trace := false, maxSteps := 7 } ∧
    ofText? "[\x7b\"trace\":true,\"tr\\u0061ce\":true\x7d]" = none := by
  obtain ⟨given, -, -, twice, -⟩ := configuration_read
  refine ⟨?_, ?_, ?_⟩
  · have x : Unknown ["general"] ("x", .array [.number "1"]) := ⟨"x", by cbv, by decide⟩
    have y : Unknown fieldNames ("y", .number "-1.5e3") := ⟨"y", by cbv, by decide⟩
    have general : Gives fieldNames
        (Overrides.fields { trace := false, maxSteps := some 18446744073709551615 })
        (.object [("max_steps", .number "18446744073709551615"), ("y", .number "-1.5e3"),
          ("tr\\u0061ce", .bool false)]) :=
      .object ⟨[("tr\\u0061ce", .bool false), ("max_steps", .number "18446744073709551615")],
        [("y", .number "-1.5e3")], List.perm_append_singleton _ [_, _], by cbv,
        List.forall_mem_singleton.mpr y⟩
    have document (general : Json) : Gives ["general"] [("general", general)]
        (.object [("x", .array [.number "1"]), ("gener\\u0061l", general)]) :=
      .object ⟨[("gener\\u0061l", general)], [("x", .array [.number "1"])], .swap _ _ _, by cbv,
        List.forall_mem_singleton.mpr x⟩
    exact given _ _ _ _ general (document _) (ofDocument?_eq_some_iff.mp (by cbv))
  · have general : Gives fieldNames (Overrides.fields { trace := false, maxSteps := some 7 })
        (.array [.bool false, .number "7"]) :=
      @Gives.list fieldNames [.bool false, .number "7"] (by decide)
    have document (general : Json) : Gives ["general"] [("general", general)] (.array [general]) :=
      @Gives.list ["general"] [general] (Nat.le_refl 1)
    exact given _ _ _ _ general (document _) (ofDocument?_eq_some_iff.mp (by cbv))
  · have members : 2 ≤ timesGiven "trace" [("trace", .bool true), ("tr\\u0061ce", .bool true)] := by
      cbv
    have document : Document (.array [.object [("trace", .bool true), ("tr\\u0061ce", .bool true)]])
        "[\x7b\"trace\":true,\"tr\\u0061ce\":true\x7d]" :=
      ofDocument?_eq_some_iff.mp (by cbv)
    exact twice "trace" (by decide) _ _ _ members (.element []) document

end Settings

end TinyMips
