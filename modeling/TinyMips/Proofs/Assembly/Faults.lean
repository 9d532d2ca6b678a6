import TinyMips.Proofs.Assembly.Operand

/-!
# What is wrong with an operand text

A refused operand text reports all that is wrong with it and then a summary. What is wrong is either
that the number of pieces is, or else it is found piece by piece, in order:

* **pieces** — a piece that the grammar does not admit in its place (`Operand.value?_checkPiece_iff`)
  reports one error, which quotes it (`Operand.judges_checkPiece`), but for `offset(base)`, whose
  parts are both checked (`Operand.errors_memoryOperand`);
* **texts** — nothing hides what is wrong with a piece (`Operand.errors_ofPieces`), no text is
  refused without any (`Operand.accepts_iff_faults`), and the register that is written is warned
  about whatever the other pieces are (`Operand.warnings_ofPieces`).
-/

namespace TinyMips

/-- The number of operands of a format. -/
def OperandFormat.arity : OperandFormat → Nat
  | .none => 0
  | .jump => 1
  | .memory => 2
  | .register | .immediateArith | .branch => 3

/-- Whether the first operand of an opcode is the register that it writes. -/
def Opcode.WritesFirst (op : Opcode) : Prop :=
  op.formatClass = .register ∨ op.formatClass = .immediateWrite

instance (op : Opcode) : Decidable op.WritesFirst :=
  inferInstanceAs (Decidable (_ ∨ _))

/-- The token that an error about an operand quotes. -/
def Message.token? : Message → Option String
  | .registerNotRecognised token | .immediateNotRecognised token | .immediateOutOfRange token _ _
  | .addressNotSupported token _ | .labelNotRecognised token | .memoryOperandNotRecognised token =>
    some token
  | _ => none

namespace Checked

variable {α β : Type}

/-- A refusal ends with its summary. -/
theorem errors_withSummary {checked : Checked α} (refused : checked.value? = none)
    (summary : Message) : (checked.withSummary summary).errors = checked.errors ++ [summary] := by
  obtain ⟨result, warnings⟩ := checked
  cases result with
  | ok value => nomatch refused
  | error reasons => rfl

/-- Whether a check accepts a token, or refuses it with one error, which quotes it. -/
inductive Judges (token : List Char) : Checked α → Prop where
  | accepts (value : α) (warnings : List Message) : Judges token { result := .ok value, warnings }
  | refuses {reason : Message} (quotes : reason.token? = some (String.ofList token))
    (warnings : List Message) : Judges token { result := .error [reason], warnings }

namespace Judges

variable {token : List Char} {checked : Checked α}

theorem accept (value : α) : (accept value).Judges token := .accepts value []

theorem reject {reason : Message} (quotes : reason.token? = some (String.ofList token)) :
    (reject reason : Checked α).Judges token := .refuses quotes []

theorem map (h : checked.Judges token) (f : α → β) : (checked.map f).Judges token := by
  cases h with
  | accepts value warnings => exact .accepts (f value) warnings
  | refuses quotes warnings => exact .refuses quotes warnings

theorem explained (h : checked.Judges token) : checked.Explained := by
  cases h with
  | accepts value => exact fun _ => ⟨value, rfl⟩
  | refuses => nofun

theorem told (h : checked.Judges token) (refused : checked.errors ≠ []) :
    ∃ reason, checked.errors = [reason] ∧ reason.token? = some (String.ofList token) := by
  cases h with
  | accepts => exact absurd rfl refused
  | @refuses reason quotes => exact ⟨reason, rfl, quotes⟩

end Judges

end Checked

namespace Operand

/-- What a text spells has as many pieces as the format asks for. -/
theorem Spells.length {op : Opcode} {tokens : List (List Char)} {operands : Operands}
    (spelled : Spells op tokens operands) : tokens.length = op.format.arity := by
  cases spelled with
  | none format | register format | arithmetic format | memory format | branch format
  | jump format =>
    rw [format]
    rfl

/-! ## Single pieces -/

section Tokens

variable (token : List Char)

@[simp] theorem errors_writeRegister :
    (writeRegister token).errors = (readRegister token).errors := by
  unfold writeRegister
  dsimp only
  split <;> rfl

theorem errors_memoryRegister (op : Opcode) :
    (if op.formatClass = .immediateWrite then writeRegister token
      else readRegister token).errors = (readRegister token).errors := by
  split
  · exact errors_writeRegister token
  · rfl

theorem judges_readRegister : (readRegister token).Judges token := by
  unfold readRegister
  cases Reg.ofToken? token with
  | none => exact .reject rfl
  | some r => exact .accept r

theorem explained_writeRegister : (writeRegister token).Explained := by
  intro silent
  rw [errors_writeRegister] at silent
  rw [value?_writeRegister, ← value?_readRegister]
  exact (judges_readRegister token).explained silent

theorem judges_signed16 : (signed16 token).Judges token := by
  unfold signed16
  split
  · exact .reject rfl
  · split
    · exact .accept _
    · exact .reject rfl

theorem judges_wordAddress (region : Region) (high : Nat) :
    (wordAddress region high token).Judges token := by
  unfold wordAddress
  split
  · exact .reject rfl
  · split
    · split
      · exact .accept _
      · exact .reject rfl
    · exact .reject rfl

theorem judges_label : (label token).Judges token := by
  unfold label
  dsimp only
  split
  · exact .accept _
  · exact .reject rfl

variable {token}

theorem judges_literalOrLabel {literal : List Char → Checked Word}
    (h : (literal token).Judges token) : (literalOrLabel literal token).Judges token := by
  unfold literalOrLabel
  split
  · exact h.map _
  · exact (judges_label token).map _

end Tokens

/-! ## Memory operands -/

/-- The check of a part of `offset(base)`, with the value that it has where it is left out. -/
def checkPart {α : Type} (omitted : α) (check : List Char → Checked α) (part : List Char) :
    Checked α :=
  if (Text.trim part).isEmpty then .accept omitted else check (Text.trim part)

/-- The check of the offset of `offset(base)`. -/
def checkOffset : List Char → Checked Word := checkPart 0 signed16

/-- The check of the base of `offset(base)`. -/
def checkBase : List Char → Checked Reg := checkPart .zero readRegister

/-- The text of `offset(base)`. -/
def based (before between : List Char) : List Char :=
  before ++ '(' :: (between ++ [')'])

theorem judges_checkPart {α : Type} (omitted : α) {check : List Char → Checked α}
    (judges : ∀ token, (check token).Judges token) (part : List Char) :
    (checkPart omitted check part).Judges (Text.trim part) := by
  unfold checkPart
  split
  · exact .accept omitted
  · exact judges _

theorem judges_checkOffset (before : List Char) :
    (checkOffset before).Judges (Text.trim before) :=
  judges_checkPart 0 judges_signed16 before

theorem judges_checkBase (between : List Char) :
    (checkBase between).Judges (Text.trim between) :=
  judges_checkPart Reg.zero judges_readRegister between

/-- Both parts of `offset(base)` are checked, the offset first. -/
theorem memoryOperand_based {before : List Char} (first : '(' ∉ before) (between : List Char) :
    memoryOperand (based before between) =
      ((checkOffset before).map fun offset base => (base, .literal offset, .plain)).ap
        (checkBase between) := by
  unfold based
  rw [memoryOperand_append_cons first]
  unfold baseOffset
  rw [if_pos List.getLast?_concat, List.dropLast_concat]
  rfl

theorem errors_memoryOperand {before : List Char} (first : '(' ∉ before) (between : List Char) :
    (memoryOperand (based before between)).errors =
      (checkOffset before).errors ++ (checkBase between).errors := by
  rw [memoryOperand_based first, Checked.errors_ap, Checked.errors_map]

theorem judges_memoryOperand {token : List Char}
    (other : ∀ before between, token = based before between → '(' ∈ before) :
    (memoryOperand token).Judges token := by
  by_cases opened : '(' ∈ token
  · obtain ⟨before, after, rfl, first⟩ := List.eq_append_cons_of_mem opened
    rw [memoryOperand_append_cons first]
    unfold baseOffset
    split
    · next closed =>
      obtain ⟨between, rfl⟩ := List.getLast?_eq_some_iff.mp closed
      exact absurd (other before between rfl) first
    · exact .reject rfl
  · rw [memoryOperand_of_bare opened]
    exact (judges_literalOrLabel (judges_wordAddress token _ _)).map _

theorem explained_memoryOperand (token : List Char) : (memoryOperand token).Explained := by
  by_cases other : ∀ before between, token = based before between → '(' ∈ before
  · exact (judges_memoryOperand other).explained
  · push Not at other
    obtain ⟨before, between, rfl, first⟩ := other
    rw [memoryOperand_based first]
    exact ((judges_checkOffset before).explained.map _).ap (judges_checkBase between).explained

/-! ## Places -/

/-- The kinds of pieces. -/
inductive Kind where
  | register
  | literal
  /-- Where a branch leads. -/
  | distance
  /-- Where a jump leads. -/
  | target
  /-- Where data are. -/
  | address

/-- The kind of the piece in a given place. -/
def kind : OperandFormat → Nat → Kind
  | .immediateArith, 2 => .literal
  | .branch, 2 => .distance
  | .jump, _ => .target
  | .memory, 1 => .address
  | _, _ => .register

/-- Whether the grammar admits a token in a given place. -/
def Admits (op : Opcode) (i : Nat) (token : List Char) : Prop :=
  match kind op.format i with
  | .register => ∃ r, Reg.ofToken? token = some r
  | .literal => ∃ value, Literal16 token value
  | .distance => ∃ imm, Destination Literal16 token imm
  | .target => ∃ imm, Destination (AddressLiteral .text (2 ^ 26 - 1)) token imm
  | .address => ∃ base imm mode, AddressText token base imm mode

/-- The check of the piece in a given place, whatever its value is. -/
def checkPiece (op : Opcode) (i : Nat) (token : List Char) : Checked Unit :=
  match kind op.format i with
  | .register => (readRegister token).map fun _ => ()
  | .literal => (signed16 token).map fun _ => ()
  | .distance => (literalOrLabel signed16 token).map fun _ => ()
  | .target => (literalOrLabel (wordAddress .text 0x3FFFFFF) token).map fun _ => ()
  | .address => (memoryOperand token).map fun _ => ()

section Places

variable {op : Opcode} {i : Nat} {token : List Char}

theorem explained_checkPiece : (checkPiece op i token).Explained := by
  unfold checkPiece
  cases kind op.format i with
  | register => exact (judges_readRegister token).explained.map _
  | literal => exact (judges_signed16 token).explained.map _
  | distance => exact (judges_literalOrLabel (judges_signed16 token)).explained.map _
  | target => exact (judges_literalOrLabel (judges_wordAddress token _ _)).explained.map _
  | address => exact (explained_memoryOperand token).map _

theorem kind_eq_address_iff : kind op.format i = .address ↔ op.format = .memory ∧ i = 1 := by
  unfold kind
  split <;> simp_all

/-- A piece is accepted, or refused with one error that quotes it, but for `offset(base)`. -/
theorem judges_checkPiece
    (other : op.format = .memory → i = 1 →
      ∀ before between, token = based before between → '(' ∈ before) :
    (checkPiece op i token).Judges token := by
  unfold checkPiece
  cases place : kind op.format i with
  | register => exact (judges_readRegister token).map _
  | literal => exact (judges_signed16 token).map _
  | distance => exact (judges_literalOrLabel (judges_signed16 token)).map _
  | target => exact (judges_literalOrLabel (judges_wordAddress token _ _)).map _
  | address =>
    obtain ⟨format, second⟩ := kind_eq_address_iff.mp place
    exact (judges_memoryOperand (other format second)).map _

/-- A piece is accepted if and only if the grammar admits it. -/
theorem value?_checkPiece_iff (trimmed : Text.trim token = token) :
    (∃ value, (checkPiece op i token).value? = some value) ↔ Admits op i token := by
  have mapped {α : Type} (checked : Checked α) :
      (∃ value, (checked.map fun _ => ()).value? = some value) ↔
        ∃ value, checked.value? = some value := by
    simp
  unfold checkPiece Admits
  cases kind op.format i with
  | register => rw [mapped, value?_readRegister]
  | literal => exact (mapped _).trans (exists_congr fun _ => value?_signed16_iff)
  | distance =>
    exact (mapped _).trans
      (exists_congr fun _ => value?_literalOrLabel_iff trimmed fun _ => value?_signed16_iff)
  | target =>
    exact (mapped _).trans
      (exists_congr fun _ => value?_literalOrLabel_iff trimmed value?_target_iff)
  | address =>
    simp only [mapped, Prod.exists, value?_memoryOperand_iff trimmed]

end Places

/-! ## Whole texts -/

/-- A wrong number of pieces is all that is wrong. -/
theorem ofPieces_of_ne {op : Opcode} {tokens : List (List Char)}
    (ne : tokens.length ≠ op.format.arity) :
    ofPieces op tokens = .reject (.operandCount op.format.arity tokens.length) := by
  unfold ofPieces
  split <;> simp_all [OperandFormat.arity]

/-- Otherwise the pieces report in order. -/
theorem errors_ofPieces {op : Opcode} {tokens : List (List Char)}
    (eq : tokens.length = op.format.arity) :
    (ofPieces op tokens).errors =
      tokens.zipIdx.flatMap fun (token, i) => (checkPiece op i token).errors := by
  cases format : op.format with
  | none =>
    rw [format] at eq
    obtain rfl := List.eq_nil_of_length_eq_zero eq
    simp [ofPieces, format, Checked.errors, Checked.accept]
  | register =>
    rw [format] at eq
    obtain ⟨target, first, second, rfl⟩ := List.length_eq_three.mp eq
    simp [ofPieces, checkPiece, kind, format]
  | immediateArith =>
    rw [format] at eq
    obtain ⟨target, source, literal, rfl⟩ := List.length_eq_three.mp eq
    simp [ofPieces, checkPiece, kind, format]
  | memory =>
    rw [format] at eq
    obtain ⟨register, address, rfl⟩ := List.length_eq_two.mp eq
    simp [ofPieces, checkPiece, kind, format, errors_memoryRegister]
  | branch =>
    rw [format] at eq
    obtain ⟨first, second, destination, rfl⟩ := List.length_eq_three.mp eq
    simp [ofPieces, checkPiece, kind, format]
  | jump =>
    rw [format] at eq
    obtain ⟨destination, rfl⟩ := List.length_eq_one_iff.mp eq
    simp [ofPieces, checkPiece, kind, format]

theorem explained_memoryRegister (op : Opcode) (token : List Char) :
    (if op.formatClass = .immediateWrite then writeRegister token
      else readRegister token).Explained := by
  split
  · exact explained_writeRegister token
  · exact (judges_readRegister token).explained

/-- No pieces are refused without a reason. -/
theorem explained_ofPieces (op : Opcode) (tokens : List (List Char)) :
    (ofPieces op tokens).Explained := by
  have read (token : List Char) := (judges_readRegister token).explained
  unfold ofPieces
  split
  -- a wrong number of pieces is a reason
  all_goals first | exact Checked.explained_reject _ | skip
  · exact Checked.explained_accept _
  · exact (((explained_writeRegister _).map _).ap (read _)).ap (read _)
  · exact (((explained_writeRegister _).map _).ap (read _)).ap (judges_signed16 _).explained
  · exact ((explained_memoryRegister _ _).map _).ap (explained_memoryOperand _)
  · exact (((read _).map _).ap (read _)).ap (judges_literalOrLabel (judges_signed16 _)).explained
  · exact (judges_literalOrLabel (judges_wordAddress _ _ _)).explained.map _

/-- What the first piece is warned about. -/
def firstWarnings (op : Opcode) : List (List Char) → List Message
  | [] => []
  | token :: _ =>
    if op.WritesFirst ∧ Reg.ofToken? token = some .zero then
      [.registerHardwired (String.ofList token)]
    else []

theorem hardwired_mem_firstWarnings {op : Opcode} {token : List Char} {rest : List (List Char)} :
    (∃ name, .registerHardwired name ∈ firstWarnings op (token :: rest)) ↔
      op.WritesFirst ∧ Reg.ofToken? token = some .zero := by
  rw [firstWarnings]
  split
  · next both => exact ⟨fun _ => both, fun _ => ⟨_, List.mem_singleton_self _⟩⟩
  · next other => exact ⟨fun ⟨_, mem⟩ => (nomatch mem), fun both => absurd both other⟩

theorem warnings_writeRegister (token : List Char) :
    (writeRegister token).warnings =
      if Reg.ofToken? token = some .zero then [.registerHardwired (String.ofList token)]
      else [] := by
  unfold writeRegister
  dsimp only
  split
  · rfl
  · exact warnings_readRegister token

/-- The first piece is warned about, whatever the others are. -/
theorem warnings_ofPieces {op : Opcode} {tokens : List (List Char)}
    (eq : tokens.length = op.format.arity) :
    (ofPieces op tokens).warnings = firstWarnings op tokens := by
  cases format : op.format with
  | none =>
    rw [format] at eq
    obtain rfl := List.eq_nil_of_length_eq_zero eq
    simp [ofPieces, format, firstWarnings]
  | register =>
    rw [format] at eq
    obtain ⟨target, first, second, rfl⟩ := List.length_eq_three.mp eq
    have writes : op.WritesFirst := by
      rcases Opcode.format_eq_register_iff.mp format with rfl | rfl <;> exact .inl rfl
    simp [ofPieces, format, firstWarnings, writes, warnings_writeRegister]
  | immediateArith =>
    rw [format] at eq
    obtain ⟨target, source, literal, rfl⟩ := List.length_eq_three.mp eq
    have writes : op.WritesFirst := by
      obtain rfl := Opcode.format_eq_immediateArith_iff.mp format
      exact .inr rfl
    simp [ofPieces, format, firstWarnings, writes, warnings_writeRegister]
  | memory =>
    rw [format] at eq
    obtain ⟨register, address, rfl⟩ := List.length_eq_two.mp eq
    rcases Opcode.format_eq_memory_iff.mp format with rfl | rfl
    · have writes : Opcode.lw.WritesFirst := .inr rfl
      simp [ofPieces, format, firstWarnings, writes, warnings_writeRegister, Opcode.formatClass]
    · have reads : ¬Opcode.sw.WritesFirst := by decide
      simp [ofPieces, format, firstWarnings, reads, Opcode.formatClass]
  | branch =>
    rw [format] at eq
    obtain ⟨first, second, destination, rfl⟩ := List.length_eq_three.mp eq
    have reads : ¬op.WritesFirst := by
      cases op <;> first | contradiction | decide
    simp [ofPieces, format, firstWarnings, reads]
  | jump =>
    rw [format] at eq
    obtain ⟨destination, rfl⟩ := List.length_eq_one_iff.mp eq
    have reads : ¬op.WritesFirst := by
      rcases Opcode.format_eq_jump_iff.mp format with rfl | rfl <;> decide
    simp [ofPieces, format, firstWarnings, reads]

/-! ## Errors of a text -/

/-- Whether an operand text is accepted. -/
def Accepts (op : Opcode) (text : List Char) : Prop :=
  (check op text).value?.isSome = true

instance (op : Opcode) (text : List Char) : Decidable (Accepts op text) :=
  inferInstanceAs (Decidable (_ = true))

/-- The summary of a refused text. -/
def summary (op : Opcode) (text : List Char) : Message :=
  .operandsNotValid (String.ofList (Text.trim text)) op

/-- What is wrong with a text: its errors without the summary. -/
def faults (op : Opcode) (text : List Char) : List Message :=
  (check op text).errors.dropLast

section Texts

variable {op : Opcode} {text : List Char}

theorem value?_check_eq_none :
    (check op text).value? = none ↔ (ofPieces op (pieces text)).value? = none := by
  unfold check
  rw [Checked.value?_withSummary, Checked.map_eq_map, Checked.value?_map, Option.map_eq_none_iff]

theorem errors_check (refused : (check op text).value? = none) :
    (check op text).errors = (ofPieces op (pieces text)).errors ++ [summary op text] := by
  have parts : (OperandBundle.mk op.formatClass <$> ofPieces op (pieces text)).value? = none := by
    rw [Checked.map_eq_map, Checked.value?_map, value?_check_eq_none.mp refused]
    rfl
  unfold check
  rw [Checked.errors_withSummary parts, Checked.map_eq_map, Checked.errors_map]
  rfl

theorem warnings_check : (check op text).warnings = (ofPieces op (pieces text)).warnings := by
  unfold check
  rw [Checked.warnings_withSummary, Checked.map_eq_map, Checked.warnings_map]

theorem accepts_iff_errors : Accepts op text ↔ (check op text).errors = [] := by
  unfold Accepts
  rw [Option.isSome_iff_exists]
  constructor
  · rintro ⟨bundle, accepted⟩
    exact Checked.errors_of_value? accepted
  · exact Checked.explained_withSummary _ _

/-- What is wrong with a text is what is wrong with its pieces. -/
theorem faults_eq : faults op text = (ofPieces op (pieces text)).errors := by
  unfold faults
  cases accepted : (check op text).value? with
  | none => rw [errors_check accepted, List.dropLast_concat]
  | some bundle =>
    rw [Checked.errors_of_value? accepted]
    unfold check at accepted
    rw [Checked.value?_withSummary, Checked.map_eq_map, Checked.value?_map,
      Option.map_eq_some_iff] at accepted
    obtain ⟨operands, accepted, -⟩ := accepted
    exact (Checked.errors_of_value? accepted).symm

/-- A text is accepted if and only if nothing is wrong with it; there is no bare summary. -/
theorem accepts_iff_faults : Accepts op text ↔ faults op text = [] := by
  constructor
  · intro accepts
    unfold faults
    rw [accepts_iff_errors.mp accepts]
    rfl
  · intro silent
    rw [faults_eq, (explained_ofPieces op _).errors_eq_nil_iff] at silent
    obtain ⟨operands, accepted⟩ := silent
    by_contra refused
    unfold Accepts at refused
    rw [Option.not_isSome_iff_eq_none, value?_check_eq_none, accepted] at refused
    contradiction

/-- An accepted text has as many pieces as its format asks for. -/
theorem length_of_accepts (accepts : Accepts op text) :
    (pieces text).length = op.format.arity := by
  obtain ⟨bundle, accepted⟩ := Option.isSome_iff_exists.mp accepts
  exact (value?_check_iff.mp accepted).2.length

end Texts

end Operand

end TinyMips
