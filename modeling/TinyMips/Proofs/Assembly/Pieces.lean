import TinyMips.Assembly.Operand
import TinyMips.Proofs.Text.Blank
import Mathlib.Data.List.DropRight

/-!
# The last operand of a text

The operands of a text are its pieces between commas. Writing a word where the last of them stands
leaves the other pieces as they are (`Operand.pieces_replaceLast`).
-/

namespace TinyMips.Operand

/-- The text with another word for its last operand, between the blanks that stand there. -/
def replaceLast (text word : List Char) : List Char :=
  text.rdropWhile (· ≠ ',') ++ Text.exchange (text.rtakeWhile (· ≠ ',')) word

/-- The pieces in front of the last one do not depend on it. -/
theorem exists_splitOn (text : List Char) :
    ∃ before, ∀ last, ',' ∉ last →
      (text.rdropWhile (· ≠ ',') ++ last).splitOn ',' = before ++ [last] := by
  by_cases single : text.rdropWhile (· ≠ ',') = []
  · refine ⟨[], ?_⟩
    intro last plain
    rw [single]
    exact List.splitOn_eq_singleton plain
  · -- what is in front ends with a comma
    have comma := List.rdropWhile_last_not (· ≠ ',') text single
    rw [decide_eq_true_eq, not_not] at comma
    have front := List.dropLast_append_getLast single
    rw [comma] at front
    refine ⟨(text.rdropWhile (· ≠ ',')).dropLast.splitOn ',', ?_⟩
    intro last plain
    rw [← front, List.append_assoc, List.singleton_append, List.splitOn_append_cons_self,
      List.splitOn_eq_singleton plain, front]

theorem comma_not_mem_last (text : List Char) : ',' ∉ text.rtakeWhile (· ≠ ',') := by
  intro mem
  simpa using List.mem_rtakeWhile_imp mem

theorem pieces_of_mem {text : List Char} {c : Char} (mem : c ∈ text)
    (plain : Text.isBlank c = false) : pieces text = (text.splitOn ',').map Text.trim := by
  have kept := Text.mem_trim mem plain
  have nonempty : (Text.trim text).isEmpty = false := by
    rw [List.isEmpty_eq_false_iff]
    exact List.ne_nil_of_mem kept
  unfold pieces
  rw [if_neg (by rw [nonempty]; exact Bool.false_ne_true)]

/-- A word that takes the place of the last piece is the last piece. -/
theorem pieces_replaceLast {text word : List Char} {before : List (List Char)} {token : List Char}
    (split : pieces text = before ++ [token]) (nonempty : word ≠ [])
    (plain : ∀ c ∈ word, Text.isBlank c = false) (single : ',' ∉ word) :
    pieces (replaceLast text word) = before ++ [word] := by
  obtain ⟨first, cut⟩ := exists_splitOn text
  have whole : text.splitOn ',' = first ++ [text.rtakeWhile (· ≠ ',')] := by
    have joined := cut _ (comma_not_mem_last text)
    rwa [List.rdropWhile_append_rtakeWhile] at joined
  have same : first.map Text.trim = before := by
    unfold pieces at split
    split at split
    · simp at split
    · rw [whole, List.map_append, List.map_singleton] at split
      exact (List.append_inj' split rfl).1
  have replaced := cut (Text.exchange (text.rtakeWhile (· ≠ ',')) word) fun mem =>
    single (Text.mem_of_mem_exchange mem rfl)
  obtain ⟨c, rest, eq⟩ := List.exists_cons_of_ne_nil nonempty
  have here : c ∈ word := eq ▸ List.mem_cons_self
  have inside : c ∈ replaceLast text word := by simp [replaceLast, Text.exchange, here]
  rw [pieces_of_mem inside (plain c here)]
  unfold replaceLast
  rw [replaced, List.map_append, List.map_singleton, same, Text.trim_exchange plain nonempty]

example :
    replaceLast "r1, r0 , loop ".toList "-2".toList = "r1, r0 , -2 ".toList := by
  decide

end TinyMips.Operand
