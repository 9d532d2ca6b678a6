import TinyMips.Machine.Statistics

/-!
# Counts add up

The counters of a run are sums: an instruction adds its own counts to those before it
(`Statistics.retire_eq_add`). Every completed instruction falls into one category, and it discards
at most one write (`Statistics.Balanced`), so no counter runs ahead of the number of completed
instructions (`Statistics.Balanced.le_retired`).
-/

namespace TinyMips.Statistics

attribute [ext] Statistics

instance : Add Statistics where
  add a b :=
    { retired := a.retired + b.retired
      alu := a.alu + b.alu
      loads := a.loads + b.loads
      stores := a.stores + b.stores
      taken := a.taken + b.taken
      notTaken := a.notTaken + b.notTaken
      jumps := a.jumps + b.jumps
      other := a.other + b.other
      discarded := a.discarded + b.discarded }

theorem retired_add (a b : Statistics) : (a + b).retired = a.retired + b.retired := rfl

theorem add_empty (stats : Statistics) : stats + {} = stats := rfl

theorem empty_add (stats : Statistics) : {} + stats = stats := by
  ext <;> exact Nat.zero_add _

theorem add_assoc (a b c : Statistics) : a + b + c = a + (b + c) := by
  ext <;> exact Nat.add_assoc _ _ _

theorem retire_eq_add (stats : Statistics) (op : Opcode) (taken : Option Bool) :
    stats.retire op taken = stats + ({} : Statistics).retire op taken := by
  unfold retire
  cases op.format with
  | none | register | immediateArith | jump => rfl
  | memory =>
    dsimp only
    split <;> rfl
  | branch =>
    dsimp only
    split <;> rfl

/-- Whether every completed instruction is counted in one category, and no more writes are
discarded than instructions completed. -/
structure Balanced (stats : Statistics) : Prop where
  categories :
    stats.alu + stats.loads + stats.stores + stats.taken + stats.notTaken + stats.jumps +
      stats.other = stats.retired
  discarded_le : stats.discarded ≤ stats.retired

theorem balanced_empty : Balanced {} := ⟨rfl, Nat.le_refl 0⟩

theorem Balanced.add {a b : Statistics} (first : a.Balanced) (second : b.Balanced) :
    (a + b).Balanced := by
  obtain ⟨categories, discarded⟩ := first
  obtain ⟨categories', discarded'⟩ := second
  constructor
  · show a.alu + b.alu + (a.loads + b.loads) + (a.stores + b.stores) + (a.taken + b.taken) +
      (a.notTaken + b.notTaken) + (a.jumps + b.jumps) + (a.other + b.other) =
        a.retired + b.retired
    omega
  · exact Nat.add_le_add discarded discarded'

/-- All counters. -/
def counters (stats : Statistics) : List Nat :=
  [stats.retired, stats.alu, stats.loads, stats.stores, stats.taken, stats.notTaken, stats.jumps,
    stats.other, stats.discarded]

theorem Balanced.le_retired {stats : Statistics} (h : stats.Balanced) :
    ∀ counter ∈ stats.counters, counter ≤ stats.retired := by
  obtain ⟨categories, discarded⟩ := h
  simp only [counters, List.forall_mem_cons, List.not_mem_nil, false_implies, implies_true,
    and_true]
  omega

/-- A completed instruction is one, in one category, before any write of it is discarded. -/
theorem balanced_retire (op : Opcode) (taken : Option Bool) :
    (({} : Statistics).retire op taken).retired = 1 ∧
      (({} : Statistics).retire op taken).discarded = 0 ∧
      (({} : Statistics).retire op taken).Balanced := by
  unfold retire
  cases op.format with
  | none | register | immediateArith | jump => exact ⟨rfl, rfl, rfl, Nat.zero_le 1⟩
  | memory =>
    dsimp only
    split <;> exact ⟨rfl, rfl, rfl, Nat.zero_le 1⟩
  | branch =>
    dsimp only
    split <;> exact ⟨rfl, rfl, rfl, Nat.zero_le 1⟩

theorem Balanced.discard {stats : Statistics} (h : stats.Balanced)
    (room : stats.discarded < stats.retired) : (stats + ({} : Statistics).discard).Balanced :=
  ⟨h.categories, room⟩

end TinyMips.Statistics
