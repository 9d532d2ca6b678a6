import TinyMips.Address.Word

/-!
# The label table

Label names with the addresses of the items that they stand for, sorted by name. The first
definition of a name stays.
-/

namespace TinyMips

/-- Defined labels, in the order of their names and each only once. -/
structure LabelTable where
  entries : List (String × Address) := []
  sorted : entries.Pairwise fun a b => a.1 < b.1 := by exact List.Pairwise.nil

namespace LabelTable

/-- The table without labels. -/
def empty : LabelTable := {}

/-- The address of a label. -/
def get? (table : LabelTable) (name : String) : Option Address :=
  table.entries.lookup name

/-- Whether a label is defined. -/
def contains (table : LabelTable) (name : String) : Bool :=
  (table.get? name).isSome

/-- The number of labels. -/
def size (table : LabelTable) : Nat :=
  table.entries.length

/-- The entries with one more in its place, unless the name is there already. -/
def insertEntry (name : String) (address : Address) :
    List (String × Address) → List (String × Address)
  | [] => [(name, address)]
  | entry :: rest =>
    if name < entry.1 then (name, address) :: entry :: rest
    else if name = entry.1 then entry :: rest
    else entry :: insertEntry name address rest

/-- Whatever comes after an insertion was there before or is the new entry. -/
theorem mem_insertEntry {name : String} {address : Address} {entries : List (String × Address)}
    {e : String × Address} (h : e ∈ insertEntry name address entries) :
    e = (name, address) ∨ e ∈ entries := by
  induction entries with
  | nil => simpa [insertEntry] using h
  | cons entry rest ih =>
    simp only [insertEntry] at h
    split at h
    · simpa using h
    · split at h
      · exact .inr h
      · rcases List.mem_cons.mp h with h | h
        · exact .inr (h ▸ List.mem_cons_self)
        · exact (ih h).imp_right (List.mem_cons_of_mem _)

/-- An insertion keeps the order. -/
theorem pairwise_insertEntry {name : String} {address : Address}
    {entries : List (String × Address)} (h : entries.Pairwise fun a b => a.1 < b.1) :
    (insertEntry name address entries).Pairwise fun a b => a.1 < b.1 := by
  induction entries with
  | nil => exact List.pairwise_singleton _ _
  | cons entry rest ih =>
    obtain ⟨first, later⟩ := List.pairwise_cons.mp h
    simp only [insertEntry]
    split
    · next lt =>
      refine List.pairwise_cons.mpr ⟨fun e he => ?_, h⟩
      rcases List.mem_cons.mp he with rfl | he
      · exact lt
      · exact String.lt_trans lt (first e he)
    · split
      · exact h
      · next nlt ne =>
        refine List.pairwise_cons.mpr ⟨fun e he => ?_, ih later⟩
        rcases mem_insertEntry he with rfl | he
        · exact String.not_le.mp fun le => ne (String.le_antisymm (String.not_lt.mp nlt) le).symm
        · exact first e he

/-- The table with one more label. A name that is defined keeps its address. -/
def define (table : LabelTable) (name : String) (address : Address) : LabelTable :=
  { entries := insertEntry name address table.entries
    sorted := pairwise_insertEntry table.sorted }

/-- Looking up after an insertion finds the new name, unless it was there before. -/
theorem lookup_insertEntry {name : String} {address : Address} {entries : List (String × Address)}
    (h : entries.Pairwise fun a b => a.1 < b.1) (other : String) :
    (insertEntry name address entries).lookup other =
      if other = name ∧ entries.lookup name = none then some address
      else entries.lookup other := by
  induction entries with
  | nil =>
    by_cases ho : other = name
    · simp [insertEntry, ho]
    · have miss : (other == name) = false := by simpa using ho
      simp [insertEntry, List.lookup_cons, ho, miss]
  | cons entry rest ih =>
    obtain ⟨first, later⟩ := List.pairwise_cons.mp h
    obtain ⟨key, value⟩ := entry
    simp only [insertEntry]
    split
    · next lt =>
      -- a name in front of the first one stands nowhere in the list
      have absent : ((key, value) :: rest).lookup name = none := by
        rw [List.lookup_eq_none_iff]
        intro e he
        rcases List.mem_cons.mp he with rfl | he
        · simpa using fun (heq : name = key) => String.lt_irrefl name (heq ▸ lt)
        · have := String.lt_trans lt (first e he)
          simpa using fun (heq : name = e.1) => String.lt_irrefl name (heq ▸ this)
      by_cases ho : other = name
      · simp [ho, absent]
      · have miss : (other == name) = false := by simpa using ho
        simp [List.lookup_cons, ho, miss]
    · split
      · next eq => simp [List.lookup_cons, eq]
      · next ne =>
        -- the name comes later, so its look-up passes the first entry
        have skip : ((key, value) :: rest).lookup name = rest.lookup name := by
          rw [List.lookup_cons, beq_false_of_ne ne]
        by_cases ho : other = key
        · have hn : ¬other = name := fun he => ne (he.symm.trans ho)
          simp [ho, Ne.symm ne]
        · have miss : (other == key) = false := by simpa using ho
          rw [skip, List.lookup_cons, miss, List.lookup_cons, miss]
          exact ih later

/-- A definition adds its name with its address, unless the name is defined. -/
theorem get?_define (table : LabelTable) (name : String) (address : Address) (other : String) :
    (table.define name address).get? other =
      if other = name ∧ table.get? name = none then some address else table.get? other :=
  lookup_insertEntry table.sorted other

/-- The table of a list of definitions, of which the first for each name counts. -/
def ofList (definitions : List (String × Address)) : LabelTable :=
  definitions.foldl (fun table entry => table.define entry.1 entry.2) .empty

end LabelTable

end TinyMips
