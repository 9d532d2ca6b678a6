import TinyMips.Proofs.Text.Blank
import Mathlib.Data.List.TakeWhile

/-!
# Letter case, blanks at the ends and cuts

* **letter case** — lower case changes letters alone, so it commutes with trimming
  (`Text.trim_lower`);
* **blanks** — blanks at either end of a text are trimmed off (`Text.trim_append_left`,
  `Text.trim_append_right`), and a character that is not blank keeps what is around it apart
  (`Text.trim_append_cons`);
* **cuts** — a text is cut at its first character of a kind (`Text.cut?_append_cons`).
-/

namespace TinyMips.Text

/-! ## Letter case -/

/-- Lower case leaves a character as it is, or moves a capital letter by 32. -/
theorem toLower_cases (c : Char) :
    c.toLower = c ∨ (65 ≤ c.toNat ∧ c.toNat ≤ 90 ∧ c.toLower.toNat = c.toNat + 32) := by
  by_cases capital : c.val ≥ 'A'.val ∧ c.val ≤ 'Z'.val
  · have low : 65 ≤ c.toNat := UInt32.le_iff_toNat_le.mp capital.1
    have high : c.val.toNat ≤ 90 := UInt32.le_iff_toNat_le.mp capital.2
    refine .inr ⟨low, high, ?_⟩
    unfold Char.toLower
    rw [dif_pos capital]
    show (c.val + 32).toNat = c.val.toNat + 32
    rw [UInt32.toNat_add]
    show (c.val.toNat + 32) % 2 ^ 32 = _
    omega
  · exact .inl (dif_neg capital)

theorem isBlank_toLower (c : Char) : isBlank c.toLower = isBlank c := by
  rcases toLower_cases c with same | ⟨low, high, moved⟩
  · rw [same]
  · rw [isBlank_of_visible (by omega) (by omega), isBlank_of_visible (by omega) (by omega)]

theorem isBlank_of_mem_lower {text : List Char} {blank : Bool}
    (all : ∀ c ∈ text, isBlank c = blank) : ∀ c ∈ lower text, isBlank c = blank := by
  intro c mem
  obtain ⟨d, known, rfl⟩ := List.mem_map.mp mem
  rw [isBlank_toLower, all d known]

theorem lower_append (front back : List Char) : lower (front ++ back) = lower front ++ lower back :=
  List.map_append

theorem trimStart_lower (text : List Char) : trimStart (lower text) = lower (trimStart text) := by
  have kept : isBlank ∘ Char.toLower = isBlank := funext isBlank_toLower
  unfold trimStart lower
  rw [List.dropWhile_map, kept]

theorem trimEnd_eq (text : List Char) : trimEnd text = (trimStart text.reverse).reverse := rfl

/-- Trimming does not depend on letter case. -/
theorem trim_lower (text : List Char) : trim (lower text) = lower (trim text) := by
  have reversed (text : List Char) : (lower text).reverse = lower text.reverse :=
    List.map_reverse.symm
  unfold trim
  rw [trimStart_lower, trimEnd_eq, trimEnd_eq, reversed, trimStart_lower, reversed]

/-- Nothing but a letter comes from another character. -/
theorem eq_of_toLower {c d : Char} (lowered : c.toLower = d) (small : d.toNat < 97) : c = d := by
  rcases toLower_cases c with same | ⟨low, high, moved⟩
  · rw [← same, lowered]
  · rw [lowered] at moved
    omega

theorem eq_colon_of_toLower {c : Char} (lowered : c.toLower = ':') : c = ':' :=
  eq_of_toLower lowered (by decide)

theorem colon_not_mem_lower {text : List Char} (single : ':' ∉ text) : ':' ∉ lower text := by
  intro mem
  obtain ⟨c, known, lowered⟩ := List.mem_map.mp mem
  rw [eq_colon_of_toLower lowered] at known
  exact single known

/-! ## Blanks at the ends -/

theorem mem_of_mem_trimStart {text : List Char} {c : Char} (mem : c ∈ trimStart text) :
    c ∈ text :=
  (List.dropWhile_sublist isBlank).mem mem

theorem mem_of_mem_trim {text : List Char} {c : Char} (mem : c ∈ trim text) : c ∈ text := by
  unfold trim at mem
  rw [trimEnd_eq, List.mem_reverse] at mem
  exact mem_of_mem_trimStart (List.mem_reverse.mp (mem_of_mem_trimStart mem))

section Ends

variable {blanks : List Char} (blank : ∀ c ∈ blanks, isBlank c = true)
include blank

/-- Blanks at the front of a text are trimmed off. -/
theorem trim_append_left (text : List Char) : trim (blanks ++ text) = trim text := by
  unfold trim trimStart
  rw [List.dropWhile_append_of_pos blank]

/-- Blanks at the end of a text are trimmed off. -/
theorem trim_append_right (text : List Char) : trim (text ++ blanks) = trim text := by
  unfold trim trimStart
  rw [List.dropWhile_append]
  split
  · next empty =>
    have none : blanks.dropWhile isBlank = [] := List.dropWhile_eq_nil_iff.mpr blank
    rw [none, List.isEmpty_iff.mp empty]
  · unfold trimEnd
    rw [List.reverse_append, List.dropWhile_append_of_pos (by simpa using blank)]

theorem trim_of_blank : trim blanks = [] := by
  have trimmed := trim_append_left blank []
  rw [List.append_nil] at trimmed
  exact trimmed

end Ends

theorem trim_trimEnd (text : List Char) : trim (trimEnd text) = trim text := by
  have whole : trimEnd text ++ text.rtakeWhile isBlank = text :=
    List.rdropWhile_append_rtakeWhile
  have blank : ∀ c ∈ text.rtakeWhile isBlank, isBlank c = true :=
    fun c => List.mem_rtakeWhile_imp
  have trimmed := trim_append_right blank (trimEnd text)
  rw [whole] at trimmed
  exact trimmed.symm

theorem trim_trim (text : List Char) : trim (trim text) = trim text := by
  have whole : text.takeWhile isBlank ++ trimStart text = text := List.takeWhile_append_dropWhile
  have blank : ∀ c ∈ text.takeWhile isBlank, isBlank c = true := fun c => List.mem_takeWhile_imp
  have trimmed := trim_append_left blank (trimStart text)
  rw [whole] at trimmed
  show trim (trimEnd (trimStart text)) = _
  rw [trim_trimEnd, trimmed]

/-- A text without blanks at its ends is what trimming leaves. -/
theorem trim_of_ends {text : List Char}
    (first : ∀ c, text.head? = some c → isBlank c = false)
    (last : ∀ c, text.getLast? = some c → isBlank c = false) : trim text = text := by
  have start {text : List Char} (first : ∀ c, text.head? = some c → isBlank c = false) :
      trimStart text = text := by
    cases text with
    | nil => rfl
    | cons c rest => exact List.dropWhile_cons_of_neg (by simp [first c rfl])
  have turned : ∀ c, text.reverse.head? = some c → isBlank c = false := by
    intro c here
    rw [List.head?_reverse] at here
    exact last c here
  unfold trim
  rw [start first, trimEnd_eq, start turned, List.reverse_reverse]

/-- A trimmed text does not end with a blank. -/
theorem isBlank_getLast_of_trimmed {text : List Char} (trimmed : trim text = text) {c : Char}
    (last : text.getLast? = some c) : isBlank c = false := by
  have stops := List.head?_dropWhile_not isBlank (trimStart text).reverse
  have turned : text.reverse = (trimStart text).reverse.dropWhile isBlank :=
    (congrArg List.reverse trimmed).symm.trans (List.reverse_reverse _)
  rw [← turned, List.head?_reverse, last] at stops
  exact stops

theorem trimStart_append_cons {c : Char} (plain : isBlank c = false) (front back : List Char) :
    trimStart (front ++ c :: back) = trimStart front ++ c :: back := by
  have stops : (c :: back).dropWhile isBlank = c :: back :=
    List.dropWhile_cons_of_neg (by simp [plain])
  unfold trimStart
  rw [List.dropWhile_append, stops]
  split
  · next empty => rw [List.isEmpty_iff.mp empty, List.nil_append]
  · rfl

/-- A character that is not blank keeps what is around it apart. -/
theorem trim_append_cons {c : Char} (plain : isBlank c = false) (front back : List Char) :
    trim (front ++ c :: back) = trimStart front ++ c :: trimEnd back := by
  have turned : (trimStart front ++ c :: back).reverse =
      back.reverse ++ c :: (trimStart front).reverse := by
    simp
  unfold trim
  rw [trimStart_append_cons plain, trimEnd_eq, turned, trimStart_append_cons plain, trimEnd_eq]
  simp

/-! ## Cuts -/

theorem decide_eq_false_of_not_mem {mark : Char} {text : List Char} (single : mark ∉ text) :
    ∀ c ∈ text, decide (c = mark) = false := by
  intro c mem
  rw [decide_eq_false_iff_not]
  rintro rfl
  exact single mem

section Cuts

variable {kind : Char → Bool} {front : List Char} (plain : ∀ c ∈ front, kind c = false)
include plain

theorem cut?_of_plain : cut? kind front = none := by
  have all : front.dropWhile (fun c => !kind c) = [] :=
    List.dropWhile_eq_nil_iff.mpr fun c mem => by simp [plain c mem]
  unfold cut?
  rw [all]

/-- A text is cut at its first character of a kind. -/
theorem cut?_append_cons {c : Char} (found : kind c = true) (back : List Char) :
    cut? kind (front ++ c :: back) = some (front, back) := by
  have before : ∀ c ∈ front, (!kind c) = true := fun c mem => by simp [plain c mem]
  unfold cut?
  rw [List.dropWhile_append_of_pos before, List.takeWhile_append_of_pos before]
  simp [found]

end Cuts

end TinyMips.Text
