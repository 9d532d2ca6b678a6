import TinyMips.Store.Labels
import Mathlib.Data.List.Nodup

/-!
# The label table as a set of definitions

A table is its entries: looking up finds exactly these (`LabelTable.get?_eq_some_iff`), no two have
the same name (`LabelTable.nodup_names`), and what is found decides the table
(`LabelTable.eq_of_get?`). Defining a new name adds one entry
(`LabelTable.perm_define`) and keeps the others where they are (`LabelTable.extends_define`).
-/

namespace TinyMips.LabelTable

/-- The defined names. -/
def names (table : LabelTable) : List String :=
  table.entries.map Prod.fst

theorem nodup_names (table : LabelTable) : table.names.Nodup := by
  unfold names
  rw [List.Nodup, List.pairwise_map]
  refine table.sorted.imp ?_
  intro a b lt same
  rw [same] at lt
  exact String.lt_irrefl _ lt

theorem get?_eq_some_iff {table : LabelTable} {name : String} {address : Address} :
    table.get? name = some address ↔ (name, address) ∈ table.entries := by
  unfold get?
  rw [List.lookup_eq_some_iff]
  constructor
  · rintro ⟨before, after, split, -⟩
    rw [split]
    exact List.mem_append_right _ List.mem_cons_self
  · intro mem
    obtain ⟨before, after, split⟩ := List.append_of_mem mem
    refine ⟨before, after, split, ?_⟩
    intro entry earlier
    -- an entry in front has a smaller name
    have sorted := table.sorted
    rw [split, List.pairwise_append] at sorted
    have lt := sorted.2.2 entry earlier _ List.mem_cons_self
    have ne : name ≠ entry.1 := by
      intro same
      exact String.lt_irrefl name (same ▸ lt)
    simpa using ne

theorem mem_names_iff {table : LabelTable} {name : String} :
    name ∈ table.names ↔ ∃ address, table.get? name = some address := by
  simp only [names, List.mem_map, Prod.exists, exists_and_right, exists_eq_right,
    get?_eq_some_iff]

theorem contains_iff {table : LabelTable} {name : String} :
    table.contains name = true ↔ name ∈ table.names := by
  rw [mem_names_iff, contains, Option.isSome_iff_exists]

/-- A table is known by what looking up finds. -/
theorem eq_of_get? {table other : LabelTable} (same : ∀ name, other.get? name = table.get? name) :
    other = table := by
  have members (entry : String × Address) : entry ∈ other.entries ↔ entry ∈ table.entries := by
    rw [← get?_eq_some_iff, ← get?_eq_some_iff, same]
  have perm : other.entries.Perm table.entries :=
    (List.perm_ext_iff_of_nodup other.nodup_names.of_map table.nodup_names.of_map).mpr members
  -- both are in the order of their names
  have entries : other.entries = table.entries := by
    refine List.Perm.eq_of_pairwise ?_ other.sorted table.sorted perm
    intro a b _ _ lt gt
    exact absurd (String.lt_trans lt gt) (String.lt_irrefl a.1)
  cases table
  cases other
  cases entries
  rfl

theorem perm_insertEntry {name : String} {address : Address} {entries : List (String × Address)}
    (absent : name ∉ entries.map Prod.fst) :
    (insertEntry name address entries).Perm ((name, address) :: entries) := by
  induction entries with
  | nil => exact List.Perm.refl _
  | cons entry rest ih =>
    rw [List.map_cons, List.mem_cons, not_or] at absent
    simp only [insertEntry]
    split
    · exact List.Perm.refl _
    · rw [if_neg absent.1]
      exact ((ih absent.2).cons entry).trans (List.Perm.swap _ _ _)

/-- Defining a new name adds its entry. -/
theorem perm_define {table : LabelTable} {name : String} (absent : name ∉ table.names)
    (address : Address) :
    (table.define name address).entries.Perm ((name, address) :: table.entries) :=
  perm_insertEntry absent

/-! ## Larger tables -/

/-- Whether a table has every label of another one, at the same address. -/
def Extends (table larger : LabelTable) : Prop :=
  ∀ name address, table.get? name = some address → larger.get? name = some address

theorem Extends.refl (table : LabelTable) : table.Extends table := fun _ _ defined => defined

theorem Extends.trans {first second third : LabelTable} (h : first.Extends second)
    (later : second.Extends third) : first.Extends third :=
  fun name address defined => later name address (h name address defined)

theorem extends_define (table : LabelTable) (name : String) (address : Address) :
    table.Extends (table.define name address) := by
  intro other target defined
  rw [get?_define, if_neg, defined]
  rintro ⟨rfl, absent⟩
  rw [defined] at absent
  contradiction

end TinyMips.LabelTable
