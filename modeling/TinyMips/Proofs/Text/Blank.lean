import TinyMips.Text.Blank
import Mathlib.Data.List.DropRight

/-!
# Trimmed texts

A text without blanks is what trimming leaves of it between blanks (`Text.trim_between`). So a word
can take the place of what is trimmed out of a text (`Text.exchange`, `Text.trim_exchange`).
-/

namespace TinyMips.Text

/-- The visible characters of ASCII are not blank. -/
theorem isBlank_of_visible {c : Char} (low : 33 ≤ c.toNat) (high : c.toNat ≤ 126) :
    isBlank c = false := by
  simp [isBlank, blankRanges]
  omega

theorem dropWhile_isBlank_of_not_mem {text : List Char} (plain : ∀ c ∈ text, isBlank c = false)
    (rest : List Char) (nonempty : text ≠ []) :
    (text ++ rest).dropWhile isBlank = text ++ rest := by
  cases text with
  | nil => exact absurd rfl nonempty
  | cons c others => exact List.dropWhile_cons_of_neg (by simp [plain c List.mem_cons_self])

/-- Trimming takes exactly the blanks off that stand around a text without blanks. -/
theorem trim_between {front text back : List Char} (before : ∀ c ∈ front, isBlank c = true)
    (plain : ∀ c ∈ text, isBlank c = false) (after : ∀ c ∈ back, isBlank c = true)
    (nonempty : text ≠ []) : trim (front ++ text ++ back) = text := by
  have start : trimStart (front ++ text ++ back) = text ++ back := by
    unfold trimStart
    rw [List.append_assoc, List.dropWhile_append_of_pos before]
    exact dropWhile_isBlank_of_not_mem plain back nonempty
  have reversed : (text ++ back).reverse.dropWhile isBlank = text.reverse := by
    rw [List.reverse_append, List.dropWhile_append_of_pos (by simpa using after)]
    have reversed : ∀ c ∈ text.reverse, isBlank c = false := by simpa using plain
    have all := dropWhile_isBlank_of_not_mem reversed [] (by simpa using nonempty)
    rwa [List.append_nil] at all
  unfold trim trimEnd
  rw [start, reversed, List.reverse_reverse]

theorem trim_eq_self {text : List Char} (plain : ∀ c ∈ text, isBlank c = false) :
    trim text = text := by
  by_cases empty : text = []
  · rw [empty]
    rfl
  · have between := @trim_between [] text [] nofun plain nofun empty
    rwa [List.nil_append, List.append_nil] at between

theorem mem_dropWhile_isBlank {text : List Char} {c : Char} (mem : c ∈ text)
    (plain : isBlank c = false) : c ∈ text.dropWhile isBlank := by
  rw [← List.takeWhile_append_dropWhile (p := isBlank) (l := text), List.mem_append] at mem
  rcases mem with front | rest
  · have blank := List.mem_takeWhile_imp front
    rw [plain] at blank
    contradiction
  · exact rest

/-- Trimming takes nothing but blanks. -/
theorem mem_trim {text : List Char} {c : Char} (mem : c ∈ text) (plain : isBlank c = false) :
    c ∈ trim text := by
  unfold trim trimEnd trimStart
  rw [List.mem_reverse]
  exact mem_dropWhile_isBlank (List.mem_reverse.mpr (mem_dropWhile_isBlank mem plain)) plain

/-! ## Exchanging the trimmed text -/

/-- The text with a word between the blanks at its ends. -/
def exchange (text word : List Char) : List Char :=
  text.takeWhile isBlank ++ word ++ text.rtakeWhile isBlank

theorem trim_exchange {word : List Char} (plain : ∀ c ∈ word, isBlank c = false)
    (nonempty : word ≠ []) (text : List Char) : trim (exchange text word) = word :=
  trim_between (fun _ => List.mem_takeWhile_imp) plain (fun _ => List.mem_rtakeWhile_imp) nonempty

theorem mem_of_mem_exchange {text word : List Char} {c : Char} (mem : c ∈ exchange text word)
    (plain : isBlank c = false) : c ∈ word := by
  unfold exchange at mem
  rw [List.mem_append, List.mem_append] at mem
  rcases mem with (front | inside) | back
  · rw [List.mem_takeWhile_imp front] at plain
    contradiction
  · exact inside
  · rw [List.mem_rtakeWhile_imp back] at plain
    contradiction

end TinyMips.Text
