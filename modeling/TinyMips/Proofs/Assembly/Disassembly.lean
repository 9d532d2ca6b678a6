import TinyMips.Proofs.Assembly.Literal
import TinyMips.Proofs.Assembly.Printed

/-!
# Disassembly read back

The text of an instruction that source text can give is read back as a line:

* **words** — the operands are printed as words (`Operands.words`), and they are cut again into the
  same words (`Instruction.toList_disassemble`, `Operand.pieces_spaced`);
* **round trip** — the words spell the operands that they were printed for
  (`Operand.spells_words`);
* **byte addresses** — literal jump targets and data addresses are printed as byte addresses
  (`Operands.ShownAs`), which as word immediates lie outside the region that they address, so that
  they are refused (`Operands.ShownAs.not_spells`).

So the text determines the instruction (`Instruction.disassemble_reads_back`).
-/

namespace TinyMips

open Operand (Spells AddressLiteral Destination pieces spaced check)
open Numeral (decimal hexadecimal)

/-! ## Words -/

theorem Opcode.ofName?_mnemonic (op : Opcode) : ofName? op.mnemonic.toList = some op := by
  cases op <;> decide

theorem Reg.ofToken?_text (r : Reg) : ofToken? r.text.toList = some r := by
  revert r
  decide +kernel

theorem Word.toList_text (value : Word) : value.text.toList = decimal value.toInt :=
  String.toList_ofList

/-- A word of 16 bits is read from its text. -/
theorem Operand.literal16_text {value : Word}
    (bounds : -32768 ≤ value.toInt ∧ value.toInt ≤ 32767) : Literal16 value.text.toList value := by
  rw [Word.toList_text]
  exact literal16_decimal (Word.fits16_iff.mpr bounds)

/-- A well-formed label names itself. -/
theorem Operand.names_self {name : String} (valid : Label.isValid name.toList = true) :
    Names name.toList name := by
  refine ⟨valid, (List.map_congr_left fun c mem => ?_).trans (List.map_id _)⟩
  exact toLower_of_isPrinted ((printed_label valid).plain c mem)

namespace Operands

/-- The words that operands are printed as. -/
def words (op : Opcode) : Operands → List (List Char)
  | none => []
  | register rs rt rd => [rd.text.toList, rs.text.toList, rt.text.toList]
  | immediate rs rt imm mode =>
    match op.format, mode with
    | .memory, .wordAddress => [rt.text.toList, (imm.text mode).toList]
    | .memory, .plain =>
      [rt.text.toList, (imm.text mode).toList ++ '(' :: (rs.text.toList ++ [')'])]
    | .branch, _ => [rs.text.toList, rt.text.toList, (imm.text mode).toList]
    | _, _ => [rt.text.toList, rs.text.toList, (imm.text mode).toList]
  | jump target => [(target.text .wordAddress).toList]

/-- The literal that is printed as a byte address. -/
def addressLiteral? : Operands → Option Word
  | immediate _ _ (.literal value) .wordAddress => some value
  | jump (.literal value) => some value
  | _ => Option.none

end Operands

/-- An instruction is printed as its mnemonic and the words of its operands. -/
theorem Instruction.toList_disassemble (inst : Instruction) :
    inst.disassemble.toList =
      if inst.operands.words inst.opcode = [] then inst.opcode.mnemonic.toList
      else inst.opcode.mnemonic.toList ++ ' ' :: spaced (inst.operands.words inst.opcode) := by
  obtain ⟨op, operands, line, address, assembled⟩ := inst
  unfold disassemble Operands.words
  cases operands with
  | none => rfl
  | register rs rt rd => simp [textOf, spaced]
  | jump target => simp [textOf, spaced]
  | immediate rs rt imm mode =>
    cases format : op.format <;> cases mode <;> simp [textOf, spaced, format]

/-! ## Round trip -/

section Spelled

variable {op : Opcode} {tokens : List (List Char)} {operands : Operands}

/-- The labels of operands that a text spells are well-formed. -/
theorem Operand.Spells.valid_label (spelled : Spells op tokens operands) {name : String}
    (refers : operands.label? = some name) : Label.isValid name.toList = true := by
  have named {literal : List Char → Word → Prop} {token : List Char} {imm : Immediate}
      (destination : Destination literal token imm) (refers : imm.label? = some name) :
      Label.isValid name.toList = true := by
    cases destination with
    | literal => nomatch refers
    | label named =>
      obtain rfl := Option.some.inj refers
      exact named.1
  cases spelled with
  | none | register | arithmetic => nomatch refers
  | memory format register addresses =>
    cases addresses with
    | based => nomatch refers
    | bare plain destination => exact named destination refers
  | branch format read read' leads => exact named leads refers
  | jump format leads => exact named leads refers

theorem printed_immediate {imm : Immediate} {mode : ImmediateMode}
    (valid : ∀ name, imm.label? = some name → Label.isValid name.toList = true) :
    Printed (imm.text mode).toList := by
  cases imm with
  | label name => exact printed_label (valid name rfl)
  | literal value =>
    cases mode with
    | plain =>
      show Printed value.text.toList
      rw [Word.toList_text]
      exact printed_decimal _
    | wordAddress =>
      show Printed (String.ofList (hexadecimal _)).toList
      rw [String.toList_ofList]
      exact printed_hexadecimal _

/-- The operands that a text spells are printed as words. -/
theorem Operand.Spells.printed_words (spelled : Spells op tokens operands) :
    ∀ word ∈ operands.words op, Printed word := by
  have valid : ∀ name, operands.label? = some name → Label.isValid name.toList = true :=
    fun _ => spelled.valid_label
  clear spelled
  cases operands with
  | none => exact nofun
  | register rs rt rd =>
    simp [Operands.words, printed_register]
  | jump target => simp [Operands.words, printed_immediate valid]
  | immediate rs rt imm mode =>
    have own := @printed_immediate imm mode valid
    have based := own.based (printed_register rs)
    cases format : op.format <;> cases mode <;>
      simp [Operands.words, format, printed_register, own, based]

/-- A distance or a label is spelled by its text. -/
theorem Operand.destination_text {token : List Char} {imm : Immediate}
    (leads : Destination Literal16 token imm) :
    Destination Literal16 (imm.text .plain).toList imm := by
  cases leads with
  | @literal value numeric reads =>
    have starts := startsNumeric_decimal value.toInt
    rw [← Word.toList_text] at starts
    exact .literal starts (literal16_text reads.2)
  | label named => exact .label (names_self named.1)

/-- Operands are spelled by the words that they are printed as, unless these show an address. -/
theorem Operand.spells_words (spelled : Spells op tokens operands)
    (plain : operands.addressLiteral? = none) : Spells op (operands.words op) operands := by
  cases spelled with
  | none format => exact .none format
  | @register target first second rd rs rt format written read read' =>
    exact .register format rd.ofToken?_text rs.ofToken?_text rt.ofToken?_text
  | @arithmetic target source literal rt rs value format written read reads =>
    unfold Operands.words
    rw [format]
    exact .arithmetic format rt.ofToken?_text rs.ofToken?_text (literal16_text reads.2)
  | @memory register address rt rs imm mode format named addresses =>
    unfold Operands.words
    rw [format]
    cases addresses with
    | @based before between value base written first offset named =>
      have bounds := bounds_of_offset offset
      have single : '(' ∉ value.text.toList := by
        rw [Word.toList_text]
        exact paren_not_mem_decimal value.toInt
      refine .memory format rt.ofToken?_text (.based rfl single (.inr ?_) (.inr ?_))
      · show Literal16 (Text.trim value.text.toList) value
        rw [Word.toList_text, Numeral.trim_decimal, ← Word.toList_text]
        exact literal16_text bounds
      · rw [(printed_register rs).trim]
        exact rs.ofToken?_text
    | bare single destination =>
      cases destination with
      | literal => nomatch plain
      | label named =>
        refine .memory format rt.ofToken?_text (.bare (fun mem => ?_) (.label (names_self named.1)))
        exact absurd (isRest_of_mem_label named.1 mem) (by decide)
  | @branch first second destination rs rt imm format read read' leads =>
    unfold Operands.words
    rw [format]
    exact .branch format rs.ofToken?_text rt.ofToken?_text (destination_text leads)
  | @jump destination imm format leads =>
    cases leads with
    | literal => nomatch plain
    | label named => exact .jump format (.label (names_self named.1))

end Spelled

/-! ## Byte addresses -/

section Addresses

variable {region : Region} {n : Nat}

theorem Region.lt_of_supports (supported : region.Supports n) : n < 2 ^ 32 := by
  obtain ⟨-, high, -⟩ := supported
  cases region <;> simp only [Region.supportedEnd] at high <;> omega

theorem Word.toList_addressText {value : Word} (bytes : (n : Int) = 4 * value.toInt)
    (supported : region.Supports n) : value.toBytes.addressText.toList = hexadecimal n := by
  have lt := Region.lt_of_supports supported
  have address : (value.toBytes.toUInt64.toNat : Int) = n := by
    rw [Word.toNat_toUInt64] <;> rw [Word.toInt_toBytes] <;> omega
  rw [← Int.ofNat.inj address]
  exact String.toList_ofList

/-- No byte address of a region is a word immediate of one. -/
theorem Operand.not_addressLiteral {high : Int} {value : Word} (supported : region.Supports n) :
    ¬AddressLiteral region high (hexadecimal n) value := by
  rintro ⟨reads, -, -, again⟩
  rw [Numeral.toInt_of_hexadecimal reads] at again
  obtain ⟨low, -, -⟩ := supported
  obtain ⟨-, high, -⟩ := again
  cases region <;> simp only [Region.base, Region.supportedEnd] at low high <;> omega

theorem Operand.not_destination {high : Int} {imm : Immediate} (supported : region.Supports n) :
    ¬Destination (AddressLiteral region high) (hexadecimal n) imm := by
  intro destination
  cases destination with
  | literal numeric reads => exact not_addressLiteral supported reads
  | label named => exact not_startsNumeric_of_names named ⟨'0', _, rfl, .inl rfl⟩

end Addresses

namespace Operands

/-- Whether operands are printed with a byte address in place of their literal, and which one. -/
inductive ShownAs (op : Opcode) : Operands → Nat → Prop where
  | target {value : Word} {n : Nat} (format : op.format = .jump)
    (bytes : (n : Int) = 4 * value.toInt) (supported : Region.text.Supports n) :
    ShownAs op (.jump (.literal value)) n
  | dataAddress (rt : Reg) {value : Word} {n : Nat} (format : op.format = .memory)
    (bytes : (n : Int) = 4 * value.toInt) (supported : Region.data.Supports n) :
    ShownAs op (.immediate .zero rt (.literal value) .wordAddress) n

section Shown

variable {op : Opcode} {tokens : List (List Char)} {operands : Operands} {n : Nat}

theorem words_target {value : Word} (bytes : (n : Int) = 4 * value.toInt)
    (supported : Region.text.Supports n) :
    (jump (.literal value)).words op = [hexadecimal n] := by
  rw [← Word.toList_addressText bytes supported]
  rfl

theorem words_dataAddress (rs rt : Reg) {value : Word} (format : op.format = .memory)
    (bytes : (n : Int) = 4 * value.toInt) (supported : Region.data.Supports n) :
    (immediate rs rt (.literal value) .wordAddress).words op =
      [rt.text.toList, hexadecimal n] := by
  rw [← Word.toList_addressText bytes supported]
  unfold words
  rw [format]
  rfl

/-- Of the operands that a text spells, those with a literal address are printed with it. -/
theorem shownAs_of_spells (spelled : Spells op tokens operands) {value : Word}
    (address : operands.addressLiteral? = some value) :
    ∃ n : Nat, (n : Int) = 4 * value.toInt ∧ operands.ShownAs op n := by
  have natural {region : Region} {high : Int} {token : List Char} {value : Word}
      (reads : AddressLiteral region high token value) :
      ∃ n : Nat, (n : Int) = 4 * value.toInt ∧ region.Supports n := by
    obtain ⟨-, low, -, supported⟩ := reads
    have whole : ((4 * value.toInt).toNat : Int) = 4 * value.toInt := by omega
    exact ⟨_, whole, by rwa [whole]⟩
  cases spelled with
  | none | register | arithmetic => nomatch address
  | @branch first second destination rs rt imm => cases imm <;> nomatch address
  | @memory register token rt rs imm mode format named addresses =>
    cases addresses with
    | based => nomatch address
    | bare single destination =>
      cases destination with
      | label => nomatch address
      | literal numeric reads =>
        obtain rfl := Option.some.inj address
        obtain ⟨n, bytes, supported⟩ := natural reads
        exact ⟨n, bytes, .dataAddress rt format bytes supported⟩
  | jump format leads =>
    cases leads with
    | label => nomatch address
    | literal numeric reads =>
      obtain rfl := Option.some.inj address
      obtain ⟨n, bytes, supported⟩ := natural reads
      exact ⟨n, bytes, .target format bytes supported⟩

/-- The byte address is the last word. -/
theorem ShownAs.getLast?_words (shown : operands.ShownAs op n) :
    (operands.words op).getLast? = some (hexadecimal n) := by
  cases shown with
  | target format bytes supported =>
    rw [words_target bytes supported]
    rfl
  | dataAddress rt format bytes supported =>
    rw [words_dataAddress _ rt format bytes supported]
    rfl

/-- Words with a byte address are refused. -/
theorem ShownAs.not_spells (shown : operands.ShownAs op n) {other : Operands} :
    ¬Spells op (operands.words op) other := by
  intro spelled
  cases shown with
  | target format bytes supported =>
    rw [words_target bytes supported] at spelled
    cases spelled with
    | jump _ leads => exact Operand.not_destination supported leads
  | dataAddress rt format bytes supported =>
    rw [words_dataAddress _ rt format bytes supported] at spelled
    cases spelled with
    | memory _ named addresses =>
      have single : '(' ∉ hexadecimal n := by
        intro mem
        rcases Numeral.digit_or_lower_of_mem_hexadecimal mem with digit | lower <;> contradiction
      cases addresses with
      | bare _ destination => exact Operand.not_destination supported destination
      | based written =>
        rw [written] at single
        exact single (List.mem_append_right _ List.mem_cons_self)

/-- The words determine the operands that are printed with a byte address. -/
theorem ShownAs.eq {other : Operands} {m : Nat} (shown : operands.ShownAs op n)
    (shown' : other.ShownAs op m) (same : operands.words op = other.words op) :
    operands = other := by
  have literal {value value' : Word} (bytes : (n : Int) = 4 * value.toInt)
      (bytes' : (m : Int) = 4 * value'.toInt) : value = value' := by
    have last := congrArg List.getLast? same
    rw [shown.getLast?_words, shown'.getLast?_words] at last
    obtain rfl := Numeral.hexadecimal_injective (Option.some.inj last)
    exact Int64.toInt_inj.mp (by omega)
  cases shown with
  | target format bytes supported =>
    cases shown' with
    | target _ bytes' => rw [literal bytes bytes']
    | dataAddress _ format' =>
      rw [format] at format'
      contradiction
  | dataAddress rt format bytes supported =>
    cases shown' with
    | target format' =>
      rw [format] at format'
      contradiction
    | dataAddress rt' _ bytes' supported' =>
      rw [words_dataAddress _ rt format bytes supported,
        words_dataAddress _ rt' format bytes' supported'] at same
      have names := rt.ofToken?_text
      rw [(List.cons.inj same).1, rt'.ofToken?_text] at names
      rw [literal bytes bytes', Option.some.inj names]

end Shown

/-- The words determine the operands. -/
theorem eq_of_words_eq {op : Opcode} {tokens tokens' : List (List Char)}
    {operands other : Operands} (spelled : Spells op tokens operands)
    (spelled' : Spells op tokens' other) (same : operands.words op = other.words op) :
    operands = other := by
  cases address : operands.addressLiteral? with
  | none =>
    have own := Operand.spells_words spelled address
    cases address' : other.addressLiteral? with
    | none =>
      have own' := Operand.spells_words spelled' address'
      rw [← same] at own'
      exact own.unique own' fun word mem => (spelled.printed_words word mem).trim
    | some value =>
      obtain ⟨n, -, shown⟩ := shownAs_of_spells spelled' address'
      rw [same] at own
      exact absurd own shown.not_spells
  | some value =>
    obtain ⟨n, -, shown⟩ := shownAs_of_spells spelled address
    cases address' : other.addressLiteral? with
    | none =>
      have own' := Operand.spells_words spelled' address'
      rw [← same] at own'
      exact absurd own' shown.not_spells
    | some value' =>
      obtain ⟨m, -, shown'⟩ := shownAs_of_spells spelled' address'
      exact shown.eq shown' same

end Operands

/-! ## Instructions -/

namespace Instruction

/-- Whether source text can give an opcode its operands. -/
def Written (inst : Instruction) : Prop :=
  ∃ text bundle, (check inst.opcode text).value? = some bundle ∧ bundle.operands = inst.operands

/-- What a line reads for the instruction that it was printed for. -/
structure Rereads (inst : Instruction) (line : SourceLine) : Prop where
  label : line.label = none
  /-- The keyword names the opcode. -/
  opcode : ∃ mnemonic, line.keyword = some mnemonic ∧
    Opcode.ofName? mnemonic.toList = some inst.opcode
  /-- The operands are accepted without an error, -/
  same : inst.operands.addressLiteral? = none →
    (check inst.opcode line.operands.toList).value? =
        some ⟨inst.opcode.formatClass, inst.operands⟩ ∧
      (check inst.opcode line.operands.toList).errors = []
  /-- unless a literal address is shown as its byte address. -/
  shown : ∀ value, inst.operands.addressLiteral? = some value →
    ∃ n : Nat, (n : Int) = 4 * value.toInt ∧
      (pieces line.operands.toList).getLast? = some (hexadecimal n)
  /-- Then they are refused. -/
  refused : inst.operands.addressLiteral? ≠ none →
    (check inst.opcode line.operands.toList).value? = none

variable {inst : Instruction}

theorem Written.spells (written : inst.Written) :
    ∃ tokens, Spells inst.opcode tokens inst.operands := by
  obtain ⟨text, bundle, accepted, same⟩ := written
  rw [← same]
  exact ⟨_, (Operand.value?_check_iff.mp accepted).2⟩

/-- The line of a printed instruction. -/
theorem ofText_disassemble
    (printed : ∀ word ∈ inst.operands.words inst.opcode, Printed word) (number : Nat) :
    SourceLine.ofText number inst.disassemble.toList =
      { number, keyword := some inst.opcode.mnemonic,
        operands := String.ofList (spaced (inst.operands.words inst.opcode)) } := by
  have mnemonic := printed_mnemonic inst.opcode
  rw [toList_disassemble]
  split
  · next none =>
    rw [SourceLine.ofText_word mnemonic, none, String.ofList_toList]
    rfl
  · next some => rw [SourceLine.ofText_spaced mnemonic number some printed, String.ofList_toList]

theorem rereads_disassemble (written : inst.Written) (number : Nat) :
    inst.Rereads (SourceLine.ofText number inst.disassemble.toList) := by
  obtain ⟨tokens, spelled⟩ := written.spells
  rw [ofText_disassemble spelled.printed_words]
  have words := Operand.pieces_spaced spelled.printed_words
  refine ⟨rfl, ⟨_, rfl, inst.opcode.ofName?_mnemonic⟩, ?_, ?_, ?_⟩
  · intro plain
    have accepted : (check inst.opcode (spaced (inst.operands.words inst.opcode))).value? =
        some ⟨inst.opcode.formatClass, inst.operands⟩ := by
      rw [Operand.value?_check_iff, words]
      exact ⟨rfl, Operand.spells_words spelled plain⟩
    dsimp only
    rw [String.toList_ofList]
    exact ⟨accepted, Checked.errors_of_value? accepted⟩
  · intro value address
    obtain ⟨n, bytes, shown⟩ := Operands.shownAs_of_spells spelled address
    dsimp only
    rw [String.toList_ofList, words]
    exact ⟨n, bytes, shown.getLast?_words⟩
  · intro some
    obtain ⟨value, address⟩ := Option.ne_none_iff_exists'.mp some
    obtain ⟨n, bytes, shown⟩ := Operands.shownAs_of_spells spelled address
    dsimp only
    rw [String.toList_ofList, Option.eq_none_iff_forall_ne_some]
    intro bundle accepted
    have spelled := (Operand.value?_check_iff.mp accepted).2
    rw [words] at spelled
    exact shown.not_spells spelled

/-- Instructions that are printed alike have the same opcode and the same words. -/
theorem words_of_disassemble_eq {other : Instruction} (written : inst.Written)
    (written' : other.Written) (same : inst.disassemble = other.disassemble) :
    inst.opcode = other.opcode ∧
      inst.operands.words inst.opcode = other.operands.words other.opcode := by
  obtain ⟨_, spelled⟩ := written.spells
  obtain ⟨_, spelled'⟩ := written'.spells
  have line := ofText_disassemble spelled.printed_words 0
  rw [same, ofText_disassemble spelled'.printed_words 0] at line
  obtain ⟨-, -, keyword, operands, -⟩ := (SourceLine.mk.injEq ..).mp line
  constructor
  · have found := inst.opcode.ofName?_mnemonic
    rw [← Option.some.inj keyword, Opcode.ofName?_mnemonic] at found
    exact (Option.some.inj found).symm
  · rw [← Operand.pieces_spaced spelled.printed_words, ← String.ofList_injective operands,
      Operand.pieces_spaced spelled'.printed_words]

/-- Disassembly is read back: the line that an instruction is printed as has its opcode, and its
operands unless a literal address is shown as a byte address, which is refused. Instructions that
are printed alike have the same opcode and operands. -/
theorem disassemble_reads_back (written : inst.Written) :
    (∀ number, inst.Rereads (SourceLine.ofText number inst.disassemble.toList)) ∧
      ∀ other : Instruction, other.Written → inst.disassemble = other.disassemble →
        inst.opcode = other.opcode ∧ inst.operands = other.operands := by
  refine ⟨rereads_disassemble written, fun other written' same => ?_⟩
  obtain ⟨opcode, words⟩ := words_of_disassemble_eq written written' same
  refine ⟨opcode, ?_⟩
  obtain ⟨_, spelled⟩ := written.spells
  obtain ⟨_, spelled'⟩ := written'.spells
  rw [← opcode] at words spelled'
  exact Operands.eq_of_words_eq spelled spelled' words

/-- A load from a literal data address is printed with the byte address, which is refused. -/
theorem disassemble_reads_back_of_dataAddress :
    let load : Instruction :=
      { opcode := .lw, operands := .immediate 0 8 (.literal 0x4004000) .wordAddress
        line := some 1 }
    load.Written ∧ load.disassemble = "lw r8, 0x10010000" ∧
      load.Rereads (.ofText 1 load.disassemble.toList) := by
  intro load
  have written : load.Written :=
    ⟨"r8, 0x4004000".toList, ⟨.immediateWrite, load.operands⟩, by decide +kernel, rfl⟩
  exact ⟨written, by decide +kernel, (disassemble_reads_back written).1 1⟩

end Instruction

end TinyMips
