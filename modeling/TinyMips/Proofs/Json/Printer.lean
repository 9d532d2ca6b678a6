import TinyMips.Json.Printer
import TinyMips.Proofs.Json.Grammar
import TinyMips.Proofs.Numeral.Decimal

/-!
# Printing within the grammar

The printed form of a value whose literals are those of the grammar is a document of that value
(`Json.document_print`): the lines and the indentation are blanks where blanks may stand.
-/

namespace TinyMips.Json

/-- Whether the numbers, the strings and the keys within a value are written by the grammar. -/
inductive WellFormed : Json → Prop where
  | null : WellFormed .null
  | bool (value : Bool) : WellFormed (.bool value)
  | number {literal : String} (number : IsNumber literal.toList) : WellFormed (.number literal)
  | string {literal : String} (body : IsStringBody literal.toList) : WellFormed (.string literal)
  | array {elements : List Json} (all : ∀ element ∈ elements, WellFormed element) :
    WellFormed (.array elements)
  | object {members : List (String × Json)}
    (keys : ∀ member ∈ members, IsStringBody member.1.toList)
    (all : ∀ member ∈ members, WellFormed member.2) : WellFormed (.object members)

/-! ## Literals -/

/-- A text without quotes, backslashes and control characters may stand between quotes. -/
theorem isStringBody_of_plain {text : List Char}
    (plain : text.all fun c => 0x20 ≤ c.toNat ∧ c ≠ '"' ∧ c ≠ '\\') : IsStringBody text := by
  induction text with
  | nil => exact .nil
  | cons c text ih =>
    obtain ⟨here, later⟩ := Bool.and_eq_true_iff.mp plain
    obtain ⟨visible, noQuote, noEscape⟩ := of_decide_eq_true here
    exact .plain visible noQuote noEscape (ih later)

/-- Only zero is written with a zero in front. -/
theorem head_toDigits {n : Nat} (positive : 0 < n) :
    (Nat.toDigits 10 n).head? ≠ some '0' := by
  induction n using Nat.strongRecOn with
  | ind n ih =>
    rw [Nat.toDigits_eq_if (by decide)]
    split
    · next small =>
      have digits : ∀ d < 10, 0 < d → [Nat.digitChar d].head? ≠ some '0' := by decide
      exact digits n small positive
    · have leading := ih (n / 10) (by omega) (by omega)
      rwa [List.head?_append_of_ne_nil _ Nat.toDigits_ne_nil]

theorem isWhole_toDigits (n : Nat) : IsWhole (Nat.toDigits 10 n) := by
  cases n with
  | zero => exact .inl rfl
  | succ n =>
    have digits : IsDigits (Nat.toDigits 10 (n + 1)) :=
      ⟨Nat.toDigits_ne_nil, fun _ => Numeral.isDigit_of_mem_toDigits⟩
    exact .inr ⟨digits, head_toDigits n.succ_pos⟩

theorem isMagnitude_toDigits (n : Nat) : IsMagnitude (Nat.toDigits 10 n) := by
  have whole := IsMagnitude.mk (isWhole_toDigits n) (.inl rfl) (.inl rfl)
  rwa [List.append_nil, List.append_nil] at whole

/-- A decimal is a number. -/
theorem wellFormed_ofInt (value : Int) : WellFormed (ofInt value) := by
  refine .number ?_
  rw [String.toList_ofList]
  cases value with
  | ofNat n => exact .plain (isMagnitude_toDigits n)
  | negSucc n => exact .minus (isMagnitude_toDigits (n + 1))

/-! ## Values -/

/-- The start of a line is blank. -/
theorem isSpaces_newline (level : Nat) : IsSpaces (newline level).toList := by
  intro c here
  simp only [newline, String.toList_append, String.toList_ofList, List.mem_append,
    List.mem_replicate] at here
  rcases here with first | ⟨-, rfl⟩
  · obtain rfl : c = '\n' := by simpa using first
    rfl
  · rfl

theorem isSpaces_nil : IsSpaces [] :=
  List.forall_mem_nil _

/-- A member at the start of a line, with a blank after its colon. -/
theorem SpellsMember.line (level : Nat) {key : String} {value : Json} {spelled after : List Char}
    (body : IsStringBody key.toList) (h : Spells value spelled) (blank : IsSpaces after) :
    SpellsMember (key, value)
      ((newline level ++ quoted key ++ ": ").toList ++ spelled ++ after) := by
  have one : IsSpaces [' '] := by simp [IsSpaces, isSpace]
  have member := SpellsMember.mk (isSpaces_newline level) body isSpaces_nil one h blank
  rw [String.ofList_toList] at member
  convert member using 1
  simp [quoted]

mutual

/-- A printed value is one of the texts that write it. -/
theorem printOnto_spells (level : Nat) (text : String) {value : Json} (h : WellFormed value) :
    ∃ spelled, Spells value spelled ∧
      (printOnto level text value).toList = text.toList ++ spelled := by
  cases h with
  | null => exact ⟨_, .null, by simp [printOnto]⟩
  | bool value =>
    cases value with
    | true => exact ⟨_, .truth, by simp [printOnto]⟩
    | false => exact ⟨_, .falsehood, by simp [printOnto]⟩
  | @number literal number =>
    refine ⟨literal.toList, ?_, by simp [printOnto]⟩
    simpa using Spells.number number
  | @string literal body =>
    refine ⟨'"' :: literal.toList ++ ['"'], ?_, by simp [printOnto, quoted]⟩
    simpa using Spells.string body
  | @array elements all =>
    cases elements with
    | nil => exact ⟨_, .emptyArray isSpaces_nil, by simp [printOnto]⟩
    | cons element rest =>
      obtain ⟨inside, spelled, same⟩ := printElements_spells (level + 1) (text ++ "[") all
        (List.cons_ne_nil element rest) (isSpaces_newline level)
      refine ⟨_, .array spelled, ?_⟩
      rw [printOnto, if_neg (by simp), String.toList_append, String.toList_append, same]
      simp
  | @object members keys all =>
    cases members with
    | nil => exact ⟨_, .emptyObject isSpaces_nil, by simp [printOnto]⟩
    | cons member rest =>
      obtain ⟨inside, spelled, same⟩ := printMembers_spells (level + 1) (text ++ "\x7b") keys all
        (List.cons_ne_nil member rest) (isSpaces_newline level)
      refine ⟨_, .object spelled, ?_⟩
      rw [printOnto, if_neg (by simp), String.toList_append, String.toList_append, same]
      simp

/-- So are printed elements, with the blanks before the closing bracket. -/
theorem printElements_spells (level : Nat) (text : String) {elements : List Json}
    (all : ∀ element ∈ elements, WellFormed element) (some : elements ≠ []) {after : List Char}
    (blank : IsSpaces after) :
    ∃ spelled, SpellsElements elements spelled ∧
      (printElements level text elements).toList ++ after = text.toList ++ spelled := by
  match elements with
  | [element] =>
    obtain ⟨spelled, h, same⟩ := printOnto_spells level (text ++ newline level)
      (all element List.mem_cons_self)
    refine ⟨_, .last (isSpaces_newline level) h blank, ?_⟩
    simp [printElements, same, separator]
  | element :: next :: rest =>
    obtain ⟨spelled, h, same⟩ := printOnto_spells level (text ++ newline level)
      (all element List.mem_cons_self)
    obtain ⟨later, h', same'⟩ := printElements_spells level
      (printOnto level (text ++ newline level) element ++ separator (next :: rest))
      (fun other here => all other (List.mem_cons_of_mem element here)) (List.cons_ne_nil next rest)
      blank
    refine ⟨_, .cons (isSpaces_newline level) h isSpaces_nil h', ?_⟩
    rw [printElements, same']
    simp [same, separator]

/-- And so are printed members, with the blanks before the closing brace. -/
theorem printMembers_spells (level : Nat) (text : String) {members : List (String × Json)}
    (keys : ∀ member ∈ members, IsStringBody member.1.toList)
    (all : ∀ member ∈ members, WellFormed member.2) (some : members ≠ []) {after : List Char}
    (blank : IsSpaces after) :
    ∃ spelled, SpellsMembers members spelled ∧
      (printMembers level text members).toList ++ after = text.toList ++ spelled := by
  match members with
  | [(key, value)] =>
    have body : IsStringBody key.toList := keys (key, value) List.mem_cons_self
    have shape : WellFormed value := all (key, value) List.mem_cons_self
    obtain ⟨spelled, h, same⟩ := printOnto_spells level
      (text ++ newline level ++ quoted key ++ ": ") shape
    refine ⟨_, .last (.line level body h blank), ?_⟩
    simp [printMembers, same, separator]
  | (key, value) :: next :: rest =>
    have body : IsStringBody key.toList := keys (key, value) List.mem_cons_self
    have shape : WellFormed value := all (key, value) List.mem_cons_self
    obtain ⟨spelled, h, same⟩ := printOnto_spells level
      (text ++ newline level ++ quoted key ++ ": ") shape
    obtain ⟨later, h', same'⟩ := printMembers_spells level
      (printOnto level (text ++ newline level ++ quoted key ++ ": ") value ++
        separator (next :: rest))
      (fun other here => keys other (List.mem_cons_of_mem (key, value) here))
      (fun other here => all other (List.mem_cons_of_mem (key, value) here))
      (List.cons_ne_nil next rest) blank
    refine ⟨_, .cons (.line level body h isSpaces_nil) h', ?_⟩
    rw [printMembers, same']
    simp [same, separator]

end

/-- **Printing writes a document.** -/
theorem document_print {value : Json} (h : WellFormed value) : Document value value.print := by
  obtain ⟨spelled, spells, same⟩ := printOnto_spells 0 "" h
  exact ⟨[], spelled, [], isSpaces_nil, spells, isSpaces_nil, by simpa [print] using same⟩

end TinyMips.Json
