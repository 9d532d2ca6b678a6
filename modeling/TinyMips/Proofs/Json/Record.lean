import TinyMips.Json.Record
import Mathlib.Data.List.Perm.Lattice

/-!
# Records, whatever the order of their fields

* **members** — `Json.name?` is the name that a key stands for, `Json.entries` are the known members
  of an object in their order, and `Json.knownMembers?_eq_some_iff` says when they are read;
* **the ways to give fields** — `Json.Gives`, for an object that has them in any order among members
  of other names, and for a list of the first of them;
* **reading them back** — `Json.exists_perm_of_gives`, and no field has two values
  (`Json.knownMembers?_eq_none_of_twice`);
* **one member among others** — `Json.knownMembers?_middle`, where the others alone decide whether
  an object is read;
* **lists** — `Json.record?_zip`, for a list and the object of the same fields.
-/

namespace TinyMips.Json

/-- The name that a key stands for. -/
def name? (key : String) : Option String :=
  (unescape? key.toList).map String.ofList

/-- A member with the name of its key in place of the key. -/
def named? (member : String × Json) : Option (String × Json) :=
  (name? member.1).map fun name => (name, member.2)

/-- How many members give a name. -/
def timesGiven (name : String) (members : List (String × Json)) : Nat :=
  members.countP fun member => name? member.1 = some name

/-- Whether a member has a name that is none of these. -/
def Unknown (names : List String) (member : String × Json) : Prop :=
  ∃ name, name? member.1 = some name ∧ name ∉ names

/-- Whether members give fields in any order, mixed with any others of unknown names. -/
def Mixes (names : List String) (fields members : List (String × Json)) : Prop :=
  ∃ known unknown, members.Perm (known ++ unknown) ∧ known.map named? = fields.map some ∧
    ∀ member ∈ unknown, Unknown names member

/-- The values that give fields of a record: an object with members for them, and a list of the
first of them in order. -/
inductive Gives (names : List String) : List (String × Json) → Json → Prop where
  | object {fields members : List (String × Json)} (mixes : Mixes names fields members) :
    Gives names fields (.object members)
  | list {values : List Json} (short : values.length ≤ names.length) :
    Gives names (names.zip values) (.array values)

/-! ## Known members -/

/-- The members of known names. -/
def entries (names : List String) (members : List (String × Json)) : List (String × Json) :=
  (members.filterMap named?).filter fun field => field.1 ∈ names

section Entries

variable {names : List String} {member : String × Json} {members : List (String × Json)}
  {name : String}

theorem entries_cons_known (named : name? member.1 = some name) (known : name ∈ names) :
    entries names (member :: members) = (name, member.2) :: entries names members := by
  simp [entries, named?, named, known]

theorem entries_cons_unknown (named : name? member.1 = some name) (unknown : name ∉ names) :
    entries names (member :: members) = entries names members := by
  simp [entries, named?, named, unknown]

/-- A known name stands among the entries as often as members give it. -/
theorem count_entries (known : name ∈ names) (members : List (String × Json)) :
    ((entries names members).map Prod.fst).count name = timesGiven name members := by
  induction members with
  | nil => rfl
  | cons member members ih =>
    unfold timesGiven at ih ⊢
    cases named : name? member.1 with
    | none => simp [entries, named?, named, ← ih]
    | some other =>
      by_cases here : other ∈ names
      · rw [entries_cons_known named here]
        simp [named, ih, List.count_cons, List.countP_cons]
      · have apart : other ≠ name := by
          rintro rfl
          exact here known
        rw [entries_cons_unknown named here]
        simp [named, ih, apart]

end Entries

theorem lookup_isSome_iff {name : String} {fields : List (String × Json)} :
    (fields.lookup name).isSome = true ↔ name ∈ fields.map Prod.fst := by
  rw [List.lookup_isSome_iff, List.mem_map]
  simp only [beq_iff_eq]
  exact exists_congr fun field => and_congr_right fun _ => eq_comm

theorem knownMembers?_cons (names : List String) (member : String × Json)
    (members : List (String × Json)) :
    knownMembers? names (member :: members) =
      (name? member.1).bind fun name => (knownMembers? names members).bind fun known =>
        if name ∈ names then
          if name ∈ known.map Prod.fst then none else some ((name, member.2) :: known)
        else some known := by
  obtain ⟨key, value⟩ := member
  rw [knownMembers?]
  cases decoded : unescape? key.toList with
  | none => simp [name?, decoded]
  | some text =>
    simp only [name?, decoded, Option.map_some, Option.bind_some, bind, lookup_isSome_iff]
    refine congrArg _ (funext fun known => ?_)
    by_cases here : String.ofList text ∈ names <;> simp [here]

/-- The known members are read if every key stands for a name and no known name stands twice. -/
theorem knownMembers?_eq_some_iff {names : List String} {members fields : List (String × Json)} :
    knownMembers? names members = some fields ↔
      (∀ member ∈ members, name? member.1 ≠ none) ∧ ((entries names members).map Prod.fst).Nodup ∧
        entries names members = fields := by
  induction members generalizing fields with
  | nil => simp [knownMembers?, entries]
  | cons member members ih =>
    rw [knownMembers?_cons]
    cases named : name? member.1 with
    | none => simp [named]
    | some name =>
      by_cases known : name ∈ names
      · rw [entries_cons_known named known]
        simp only [Option.bind_some, if_pos known, Option.bind_eq_some_iff, ih,
          List.forall_mem_cons, named, ne_eq, reduceCtorEq, not_false_iff, true_and, List.map_cons,
          List.nodup_cons]
        constructor
        · rintro ⟨_, ⟨all, distinct, rfl⟩, here⟩
          split at here
          · contradiction
          · next fresh => exact ⟨all, ⟨fresh, distinct⟩, Option.some.inj here⟩
        · rintro ⟨all, ⟨fresh, distinct⟩, rfl⟩
          exact ⟨_, ⟨all, distinct, rfl⟩, if_neg fresh⟩
      · rw [entries_cons_unknown named known]
        simp [ih, named, known]

/-! ## Reading fields -/

theorem lookup_eq_some_iff_mem {fields : List (String × Json)}
    (distinct : (fields.map Prod.fst).Nodup) {name : String} {value : Json} :
    fields.lookup name = some value ↔ (name, value) ∈ fields := by
  induction fields with
  | nil => simp
  | cons field fields ih =>
    obtain ⟨other, first⟩ := field
    obtain ⟨fresh, distinct⟩ := List.nodup_cons.mp distinct
    rw [List.lookup_cons]
    cases same : name == other with
    | true =>
      obtain rfl := eq_of_beq same
      have alone : (name, value) ∉ fields := fun here => fresh (List.mem_map.mpr ⟨_, here, rfl⟩)
      simp [alone, eq_comm]
    | false =>
      have apart := ne_of_beq_false same
      simp [ih distinct, apart]

/-- With no name twice, a field does not depend on the order of the fields. -/
theorem field?_perm {α : Type} {fields fields' : List (String × Json)} (same : fields.Perm fields')
    (distinct : (fields.map Prod.fst).Nodup) (name : String) (read : Json → Option α)
    (default : α) : field? fields name read default = field? fields' name read default := by
  have distinct' : (fields'.map Prod.fst).Nodup := (same.map Prod.fst).nodup_iff.mp distinct
  have lookup : fields.lookup name = fields'.lookup name := by
    ext value
    rw [lookup_eq_some_iff_mem distinct, lookup_eq_some_iff_mem distinct', same.mem_iff]
  unfold field?
  rw [lookup]

/-! ## The ways to give fields -/

namespace Mixes

variable {names : List String} {fields members : List (String × Json)}
  (mixes : Mixes names fields members)
include mixes

theorem entries_perm (known : ∀ field ∈ fields, field.1 ∈ names) :
    (entries names members).Perm fields := by
  obtain ⟨given, unknown, same, gives, others⟩ := mixes
  have front : given.filterMap named? = fields := by
    calc given.filterMap named? = (given.map named?).filterMap id := by
          rw [List.filterMap_map, Function.id_comp]
      _ = fields := by rw [gives, List.filterMap_map]; exact List.filterMap_some
  have back : (unknown.filterMap named?).filter (fun field => field.1 ∈ names) = [] := by
    rw [List.filter_eq_nil_iff]
    intro field here
    obtain ⟨member, here, decoded⟩ := List.mem_filterMap.mp here
    obtain ⟨name, named, fresh⟩ := others member here
    obtain rfl : (name, member.2) = field := by simpa [named?, named] using decoded
    simp [fresh]
  calc (entries names members).Perm (entries names (given ++ unknown)) :=
        (same.filterMap _).filter _
    _ = fields := by
      rw [entries, List.filterMap_append, List.filter_append, front, back, List.append_nil]
      exact List.filter_eq_self.mpr fun field here => decide_eq_true (known field here)

theorem named : ∀ member ∈ members, name? member.1 ≠ none := by
  obtain ⟨given, unknown, same, gives, others⟩ := mixes
  intro member here
  rcases List.mem_append.mp (same.mem_iff.mp here) with here | here
  · have mapped := List.mem_map_of_mem (f := named?) here
    rw [gives] at mapped
    obtain ⟨field, -, same⟩ := List.mem_map.mp mapped
    rintro none
    simp [named?, none] at same
  · obtain ⟨name, named, -⟩ := others member here
    simp [named]

end Mixes

/-- Fields that are given are read, whatever their order. -/
theorem exists_perm_of_gives {names : List String} {fields : List (String × Json)} {value : Json}
    (gives : Gives names fields value) (known : ∀ field ∈ fields, field.1 ∈ names)
    (distinct : (fields.map Prod.fst).Nodup) :
    ∃ read, value.record? names = some read ∧ read.Perm fields := by
  cases gives with
  | @list values short => exact ⟨_, if_pos short, .refl _⟩
  | @object _ members mixes =>
    have same := mixes.entries_perm known
    have distinct' := (same.map Prod.fst).nodup_iff.mpr distinct
    exact ⟨_, knownMembers?_eq_some_iff.mpr ⟨mixes.named, distinct', rfl⟩, same⟩

/-- No known name may be given twice. -/
theorem knownMembers?_eq_none_of_twice {names : List String} {name : String}
    {members : List (String × Json)} (known : name ∈ names)
    (twice : 2 ≤ timesGiven name members) : knownMembers? names members = none := by
  by_contra some
  obtain ⟨fields, read⟩ := Option.ne_none_iff_exists'.mp some
  obtain ⟨-, distinct, -⟩ := knownMembers?_eq_some_iff.mp read
  have once := List.nodup_iff_count_le_one.mp distinct name
  rw [count_entries known] at once
  omega

/-- An object gives its members when their keys are the names themselves. -/
theorem gives_own {names : List String} {fields : List (String × Json)}
    (plain : ∀ field ∈ fields, unescape? field.1.toList = some field.1.toList) :
    Gives names fields (.object fields) := by
  refine .object ⟨fields, [], by simp, List.map_congr_left fun field here => ?_, by simp⟩
  simp [named?, name?, plain field here]

/-! ## A member among others -/

/-- Whether the other members of an object leave a name to one member: their keys stand for names,
and no known name stands twice. -/
def Leaves (names : List String) (name : String) (others : List (String × Json)) : Prop :=
  (∀ member ∈ others, name? member.1 ≠ none) ∧
    (name :: (entries names others).map Prod.fst).Nodup

section Middle

variable {names : List String} {name key : String} (named : name? key = some name)
  (known : name ∈ names) (before after : List (String × Json)) (value : Json)
include named known

theorem entries_middle :
    (entries names (before ++ (key, value) :: after)).Perm
      ((name, value) :: entries names (before ++ after)) := by
  have first : entries names ((key, value) :: (before ++ after)) =
      (name, value) :: entries names (before ++ after) := entries_cons_known named known
  rw [← first]
  exact (List.perm_middle.filterMap _).filter _

/-- Whether an object is read does not depend on the value of a known member. -/
theorem knownMembers?_middle (leaves : Leaves names name (before ++ after)) :
    ∃ fields, knownMembers? names (before ++ (key, value) :: after) = some fields ∧
      ∀ {α : Type} (read : Json → Option α) (default : α),
        field? fields name read default = read value := by
  have same := entries_middle named known before after value
  have distinct := (same.map Prod.fst).nodup_iff.mpr leaves.2
  refine ⟨_, knownMembers?_eq_some_iff.mpr ⟨?_, distinct, rfl⟩, fun read default => ?_⟩
  · intro member here
    rcases List.mem_cons.mp (List.perm_middle.mem_iff.mp here) with rfl | here
    · simp [named]
    · exact leaves.1 member here
  · have found := (lookup_eq_some_iff_mem distinct).mpr (same.mem_iff.mpr List.mem_cons_self)
    rw [field?, found]

theorem knownMembers?_middle_eq_none (taken : ¬Leaves names name (before ++ after)) :
    knownMembers? names (before ++ (key, value) :: after) = none := by
  by_contra some
  obtain ⟨fields, read⟩ := Option.ne_none_iff_exists'.mp some
  obtain ⟨all, distinct, -⟩ := knownMembers?_eq_some_iff.mp read
  have same := entries_middle named known before after value
  refine taken ⟨fun member here => all member ?_, (same.map Prod.fst).nodup_iff.mp distinct⟩
  exact List.perm_middle.mem_iff.mpr (List.mem_cons_of_mem _ here)

end Middle

/-! ## Lists and objects -/

theorem map_fst_zip_sublist : ∀ (names : List String) (values : List Json),
    ((names.zip values).map Prod.fst).Sublist names
  | [], _ => .slnil
  | _ :: _, [] => List.nil_sublist _
  | name :: names, _ :: values => (map_fst_zip_sublist names values).cons_cons name

/-- A list of the first fields stands for the object that has them under their names. -/
theorem record?_zip {names : List String}
    (plain : ∀ name ∈ names, unescape? name.toList = some name.toList) (distinct : names.Nodup)
    {values : List Json} (short : values.length ≤ names.length) :
    record? names (.object (names.zip values)) = record? names (.array values) := by
  have own : ∀ member ∈ names.zip values, member.1 ∈ names ∧ name? member.1 = some member.1 := by
    intro member here
    have known := (List.of_mem_zip here).1
    exact ⟨known, by rw [name?, plain _ known]; simp⟩
  have same : entries names (names.zip values) = names.zip values := by
    rw [entries, List.filterMap_congr (g := some) fun member here => ?_, List.filterMap_some]
    · exact List.filter_eq_self.mpr fun field here => decide_eq_true (own field here).1
    · rw [named?, (own member here).2]
      rfl
  rw [record?, record?, if_pos short, knownMembers?_eq_some_iff]
  refine ⟨fun member here => ?_, ?_, same⟩
  · simp [(own member here).2]
  · rw [same]
    exact distinct.sublist (map_fst_zip_sublist names values)

end TinyMips.Json
