import TinyMips.Proofs.Address.Region
import TinyMips.Proofs.Assembly.Checked
import TinyMips.Proofs.Assembly.Pieces
import TinyMips.Proofs.Numeral.Decimal
import TinyMips.Proofs.Text.Spelling

/-!
# The grammar of operands

What may be written for the operands of an opcode, as rules over the pieces of a text, with the
operands that each rule stands for:

* **pieces** — `Operand.CutInto` cuts a text at its commas;
* **single operands** — `Operand.Literal16`, `Operand.AddressLiteral`, `Operand.Names`,
  `Operand.Destination` and `Operand.AddressText`;
* **whole texts** — `Operand.Spells` has one rule for each operand format.

The check accepts a text exactly if the rules derive it, and for the operands that they derive
(`Operand.value?_ofPieces_iff`, `Operand.accepts_iff`).
-/

namespace TinyMips.Operand

/-! ## Pieces -/

/-- Whether tokens are the pieces of a text: there are none in a blank text; otherwise they are what
stands between its commas, each trimmed. -/
inductive CutInto : List Char → List (List Char) → Prop where
  | blank {text : List Char} (blank : ∀ c ∈ text, Text.isBlank c = true) : CutInto text []
  | commas {text : List Char} {parts : List (List Char)} (joined : text = [','].intercalate parts)
    (plain : ∀ part ∈ parts, ',' ∉ part) (filled : ∃ c ∈ text, Text.isBlank c = false) :
    CutInto text (parts.map Text.trim)

theorem comma_not_mem_of_mem_splitOn {text part : List Char} (mem : part ∈ text.splitOn ',') :
    ',' ∉ part := by
  induction text generalizing part with
  | nil =>
    rw [List.splitOn_nil, List.mem_singleton] at mem
    rw [mem]
    exact List.not_mem_nil
  | cons c rest ih =>
    rw [List.splitOn_cons_eq_if_modifyHead] at mem
    split at mem
    · rcases List.mem_cons.mp mem with rfl | later
      · exact List.not_mem_nil
      · exact ih later
    · next other =>
      obtain ⟨first, more, eq⟩ := List.exists_cons_of_ne_nil (List.splitOn_ne_nil ',' rest)
      rw [eq, List.modifyHead_cons] at mem
      rcases List.mem_cons.mp mem with rfl | later
      · have plain : ',' ∉ first := ih (eq ▸ List.mem_cons_self)
        have ne : ',' ≠ c := fun same => other (beq_iff_eq.mpr same.symm)
        exact List.not_mem_cons_of_ne_of_not_mem ne plain
      · exact ih (eq ▸ List.mem_cons_of_mem _ later)

/-- The pieces of a text are those that it is cut into. -/
theorem cutInto_iff {text : List Char} {tokens : List (List Char)} :
    CutInto text tokens ↔ pieces text = tokens := by
  constructor
  · intro cut
    cases cut with
    | blank blank =>
      unfold pieces
      rw [Text.trim_of_blank blank]
      rfl
    | @commas parts joined plain filled =>
      obtain ⟨c, mem, filled⟩ := filled
      have nonempty : parts ≠ [] := by
        rintro rfl
        rw [joined] at mem
        nomatch mem
      rw [pieces_of_mem mem filled, joined, List.splitOn_intercalate ',' plain nonempty]
  · rintro rfl
    by_cases blank : ∀ c ∈ text, Text.isBlank c = true
    · unfold pieces
      rw [Text.trim_of_blank blank]
      exact .blank blank
    · obtain ⟨c, mem, filled⟩ : ∃ c ∈ text, Text.isBlank c = false := by
        simpa using blank
      rw [pieces_of_mem mem filled]
      exact .commas (List.intercalate_splitOn ',').symm
        (fun _ => comma_not_mem_of_mem_splitOn) ⟨c, mem, filled⟩

theorem trim_of_mem_pieces {text token : List Char} (mem : token ∈ pieces text) :
    Text.trim token = token := by
  unfold pieces at mem
  split at mem
  · nomatch mem
  · obtain ⟨part, -, rfl⟩ := List.mem_map.mp mem
    exact Text.trim_trim part

/-! ## Single operands -/

/-- A signed 16-bit literal. -/
def Literal16 (token : List Char) (value : Word) : Prop :=
  Numeral.literal? token = some value ∧ -32768 ≤ value.toInt ∧ value.toInt ≤ 32767

/-- A literal word immediate, not above the given one, of a supported address of a region. -/
def AddressLiteral (region : Region) (high : Int) (token : List Char) (value : Word) : Prop :=
  Numeral.literal? token = some value ∧ 0 ≤ value.toInt ∧ value.toInt ≤ high ∧
    region.Supports (4 * value.toInt)

/-- Whether a token starts as numbers do, with a digit or a sign. -/
def StartsNumeric (token : List Char) : Prop :=
  ∃ c rest, token = c :: rest ∧ (c.isDigit = true ∨ c = '-' ∨ c = '+')

/-- Whether a token is a well-formed label but for its letter case, and which one. -/
def Names (token : List Char) (name : String) : Prop :=
  Label.isValid name.toList = true ∧ Text.lower token = name.toList

/-- A destination: a literal of the given kind where the token starts as numbers do, or a label.
Labels start otherwise (`not_startsNumeric_of_names`). -/
inductive Destination (literal : List Char → Word → Prop) (token : List Char) :
    Immediate → Prop where
  | literal {value : Word} (numeric : StartsNumeric token) (reads : literal token value) :
    Destination literal token (.literal value)
  | label {name : String} (named : Names token name) : Destination literal token (.label name)

/-- The offset of `offset(base)`, zero where it is left out. -/
def Offset (text : List Char) (value : Word) : Prop :=
  (text = [] ∧ value = 0) ∨ Literal16 text value

theorem bounds_of_offset {text : List Char} {value : Word} (offset : Offset text value) :
    -32768 ≤ value.toInt ∧ value.toInt ≤ 32767 := by
  rcases offset with ⟨-, rfl⟩ | reads
  · decide
  · exact reads.2

/-- The base of `offset(base)`, `r0` where it is left out. -/
def Base (text : List Char) (base : Reg) : Prop :=
  (text = [] ∧ base = .zero) ∨ Reg.ofToken? text = some base

/-- A memory operand: `offset(base)`, cut at its first opening parenthesis, or a data address
without any. -/
inductive AddressText (token : List Char) : Reg → Immediate → ImmediateMode → Prop where
  | based {before between : List Char} {value : Word} {base : Reg}
    (written : token = before ++ '(' :: (between ++ [')'])) (first : '(' ∉ before)
    (offset : Offset (Text.trim before) value) (named : Base (Text.trim between) base) :
    AddressText token base (.literal value) .plain
  | bare {imm : Immediate} (bare : '(' ∉ token)
    (destination : Destination (AddressLiteral .data (2 ^ 61 - 1)) token imm) :
    AddressText token .zero imm .wordAddress

/-! ## Whole texts -/

/-- What the pieces of an operand text stand for. -/
inductive Spells (op : Opcode) : List (List Char) → Operands → Prop where
  | none (format : op.format = .none) : Spells op [] .none
  | register {target first second : List Char} {rd rs rt : Reg} (format : op.format = .register)
    (written : Reg.ofToken? target = some rd) (read : Reg.ofToken? first = some rs)
    (read' : Reg.ofToken? second = some rt) :
    Spells op [target, first, second] (.register rs rt rd)
  | arithmetic {target source literal : List Char} {rt rs : Reg} {value : Word}
    (format : op.format = .immediateArith) (written : Reg.ofToken? target = some rt)
    (read : Reg.ofToken? source = some rs) (reads : Literal16 literal value) :
    Spells op [target, source, literal] (.immediate rs rt (.literal value) .plain)
  | memory {register address : List Char} {rt rs : Reg} {imm : Immediate} {mode : ImmediateMode}
    (format : op.format = .memory) (named : Reg.ofToken? register = some rt)
    (addresses : AddressText address rs imm mode) :
    Spells op [register, address] (.immediate rs rt imm mode)
  | branch {first second destination : List Char} {rs rt : Reg} {imm : Immediate}
    (format : op.format = .branch) (read : Reg.ofToken? first = some rs)
    (read' : Reg.ofToken? second = some rt) (leads : Destination Literal16 destination imm) :
    Spells op [first, second, destination] (.immediate rs rt imm .plain)
  | jump {destination : List Char} {imm : Immediate} (format : op.format = .jump)
    (leads : Destination (AddressLiteral .text (2 ^ 26 - 1)) destination imm) :
    Spells op [destination] (.jump imm)

/-! ## The checks of single operands -/

section Tokens

variable {token : List Char}

@[simp] theorem value?_readRegister : (readRegister token).value? = Reg.ofToken? token :=
  Checked.value?_ofOption _ _

@[simp] theorem value?_writeRegister : (writeRegister token).value? = Reg.ofToken? token := by
  unfold writeRegister
  dsimp only
  split <;> exact value?_readRegister

theorem value?_signed16_iff {value : Word} :
    (signed16 token).value? = some value ↔ Literal16 token value := by
  unfold signed16 Literal16
  cases Numeral.literal? token with
  | none => simp
  | some written =>
    rw [Option.some.injEq, ← Word.fits16_iff]
    dsimp only
    cases fits : written.fits16 with
    | false =>
      rw [if_neg Bool.false_ne_true, Checked.value?_reject]
      refine ⟨nofun, fun ⟨same, other⟩ => ?_⟩
      rw [← same, fits] at other
      contradiction
    | true =>
      rw [if_pos rfl, Checked.value?_accept, Option.some.injEq]
      refine ⟨fun same => ⟨same, same ▸ fits⟩, And.left⟩

theorem value?_wordAddress_iff {region : Region} {high : Nat} (bound : high < 2 ^ 61)
    {value : Word} :
    (wordAddress region high token).value? = some value ↔
      AddressLiteral region high token value := by
  unfold wordAddress AddressLiteral
  cases Numeral.literal? token with
  | none => simp
  | some written =>
    rw [Option.some.injEq]
    dsimp only
    by_cases range : 0 ≤ written.toInt ∧ written.toInt ≤ high
    · have bytes : written.toBytes.toInt = 4 * written.toInt :=
        Word.toInt_toBytes (by omega) (by omega)
      have address : (written.toBytes.toUInt64.toNat : Int) = 4 * written.toInt := by
        rw [Word.toNat_toUInt64 (by omega), bytes]
      rw [if_pos range]
      cases checked : region.check written.toBytes.toUInt64 with
      | ok index =>
        have supported := ((Region.check_eq_ok_iff _ _ _).mp checked).1
        rw [address] at supported
        rw [Checked.value?_accept, Option.some.injEq]
        refine ⟨?_, And.left⟩
        rintro rfl
        exact ⟨rfl, range.1, range.2, supported⟩
      | error error =>
        rw [Checked.value?_reject]
        refine ⟨nofun, ?_⟩
        rintro ⟨rfl, -, -, supported⟩
        rw [← address] at supported
        rw [Region.check_of_supports supported] at checked
        contradiction
    · rw [if_neg range, Checked.value?_reject]
      refine ⟨nofun, fun ⟨same, low, le, _⟩ => ?_⟩
      exact absurd ⟨same ▸ low, same ▸ le⟩ range

theorem value?_label_iff {name : String} :
    (label token).value? = some name ↔ Names token name := by
  unfold label Names
  dsimp only
  split
  · next valid =>
    rw [Checked.value?_accept, Option.some.injEq]
    constructor
    · rintro rfl
      rw [String.toList_ofList]
      exact ⟨valid, rfl⟩
    · rintro ⟨-, same⟩
      rw [same, String.ofList_toList]
  · next invalid =>
    rw [Checked.value?_reject]
    refine ⟨nofun, fun ⟨valid, same⟩ => ?_⟩
    rw [same] at invalid
    contradiction

/-- A label does not start as numbers do. -/
theorem not_startsNumeric_of_names {name : String} (named : Names token name) :
    ¬StartsNumeric token := by
  rintro ⟨c, rest, rfl, first⟩
  obtain ⟨valid, same⟩ := named
  have code : c.toNat ≤ 57 := by
    rcases first with digit | rfl | rfl
    · exact (Numeral.isDigit_iff.mp digit).2
    · decide
    · decide
  rw [← same] at valid
  have start : Label.isStart c.toLower = true := (Bool.and_eq_true_iff.mp valid).1
  -- neither a digit nor a sign is a capital letter
  rcases Text.toLower_cases c with plain | ⟨capital, -⟩
  · rw [plain] at start
    rcases Bool.or_eq_true_iff.mp start with letter | underscore
    · have low : 97 ≤ c.toNat := (Bool.and_eq_true_iff.mp letter).1 |> of_decide_eq_true
      omega
    · obtain rfl := of_decide_eq_true underscore
      contradiction
  · omega

theorem looksNumeric_iff (trimmed : Text.trim token = token) :
    Numeral.looksNumeric token = true ↔ StartsNumeric token := by
  unfold Numeral.looksNumeric StartsNumeric
  rw [trimmed]
  cases token with
  | nil => simp
  | cons c rest => simp [or_assoc]

/-- A destination is checked for a literal or a label, as its first character tells. -/
theorem value?_literalOrLabel_iff {literal : List Char → Checked Word}
    {Literal : List Char → Word → Prop} (trimmed : Text.trim token = token)
    (exact : ∀ value, (literal token).value? = some value ↔ Literal token value)
    {imm : Immediate} :
    (literalOrLabel literal token).value? = some imm ↔ Destination Literal token imm := by
  unfold literalOrLabel
  cases numeric : Numeral.looksNumeric token with
  | true =>
    rw [if_pos rfl, Checked.map_eq_map, Checked.value?_map, Option.map_eq_some_iff]
    have starts := (looksNumeric_iff trimmed).mp numeric
    constructor
    · rintro ⟨value, accepted, rfl⟩
      exact .literal starts ((exact value).mp accepted)
    · rintro (⟨-, reads⟩ | named)
      · exact ⟨_, (exact _).mpr reads, rfl⟩
      · exact absurd starts (not_startsNumeric_of_names named)
  | false =>
    rw [if_neg Bool.false_ne_true, Checked.map_eq_map, Checked.value?_map, Option.map_eq_some_iff]
    constructor
    · rintro ⟨name, accepted, rfl⟩
      exact .label (value?_label_iff.mp accepted)
    · rintro (⟨starts, -⟩ | named)
      · rw [(looksNumeric_iff trimmed).mpr starts] at numeric
        contradiction
      · exact ⟨_, value?_label_iff.mpr named, rfl⟩

/-! ## Memory operands -/

theorem value?_offset_iff {text : List Char} {value : Word} :
    (if text.isEmpty then Checked.accept 0 else signed16 text).value? = some value ↔
      Offset text value := by
  unfold Offset
  cases text with
  | nil =>
    have unread : ¬Literal16 [] value := nofun
    simp [unread, eq_comm]
  | cons c rest => simp [value?_signed16_iff]

theorem value?_base_iff {text : List Char} {base : Reg} :
    (if text.isEmpty then Checked.accept Reg.zero else readRegister text).value? = some base ↔
      Base text base := by
  unfold Base
  cases text with
  | nil =>
    have unnamed : Reg.ofToken? [] = none := by decide
    simp [unnamed, eq_comm]
  | cons c rest => simp

/-- `offset(base)` is checked for both parts, which stand on either side of the first opening
parenthesis. -/
theorem value?_baseOffset_iff {before after : List Char} {rs : Reg} {imm : Immediate}
    {mode : ImmediateMode} :
    (baseOffset token before after).value? = some (rs, imm, mode) ↔
      ∃ between value, after = between ++ [')'] ∧ Offset (Text.trim before) value ∧
        Base (Text.trim between) rs ∧ imm = .literal value ∧ mode = .plain := by
  unfold baseOffset
  by_cases closed : after.getLast? = some ')'
  · obtain ⟨between, rfl⟩ := List.getLast?_eq_some_iff.mp closed
    rw [if_pos closed, List.dropLast_concat]
    dsimp only
    simp only [Checked.map_eq_map, Checked.seq_eq_ap, Checked.value?_map, Checked.value?_ap,
      Option.bind_eq_some_iff, Option.map_eq_some_iff]
    constructor
    · rintro ⟨_, ⟨value, offset, rfl⟩, base, named, made⟩
      obtain ⟨rfl, rfl, rfl⟩ : base = rs ∧ .literal value = imm ∧ .plain = mode := by
        simpa using made
      exact ⟨between, value, rfl, value?_offset_iff.mp offset, value?_base_iff.mp named, rfl, rfl⟩
    · rintro ⟨other, value, same, offset, named, rfl, rfl⟩
      obtain ⟨rfl, -⟩ := List.append_inj' same rfl
      exact ⟨_, ⟨value, value?_offset_iff.mpr offset, rfl⟩, rs, value?_base_iff.mpr named, rfl⟩
  · rw [if_neg closed, Checked.value?_reject]
    refine ⟨nofun, ?_⟩
    rintro ⟨between, value, rfl, -⟩
    exact absurd List.getLast?_concat closed

/-- A memory operand is cut at its first opening parenthesis. -/
theorem memoryOperand_append_cons {before : List Char} (first : '(' ∉ before) (after : List Char) :
    memoryOperand (before ++ '(' :: after) = baseOffset (before ++ '(' :: after) before after := by
  unfold memoryOperand
  rw [Text.cut?_append_cons (Text.decide_eq_false_of_not_mem first) (decide_eq_true rfl)]

/-- A memory operand without any is a data address. -/
theorem memoryOperand_of_bare (bare : '(' ∉ token) :
    memoryOperand token =
      (fun imm => (.zero, imm, .wordAddress)) <$>
        literalOrLabel (wordAddress .data 0x1FFFFFFFFFFFFFFF) token := by
  unfold memoryOperand
  rw [Text.cut?_of_plain (Text.decide_eq_false_of_not_mem bare)]

/-- The literal of a data address is a word immediate that is not negative. -/
theorem value?_dataAddress_iff (value : Word) :
    (wordAddress .data 0x1FFFFFFFFFFFFFFF token).value? = some value ↔
      AddressLiteral .data (2 ^ 61 - 1) token value :=
  value?_wordAddress_iff (by decide)

/-- A memory operand without a parenthesis is checked for a data address on `r0`. -/
theorem value?_memoryOperand_of_bare (trimmed : Text.trim token = token) (bare : '(' ∉ token)
    {rs : Reg} {imm : Immediate} {mode : ImmediateMode} :
    (memoryOperand token).value? = some (rs, imm, mode) ↔
      rs = .zero ∧ mode = .wordAddress ∧
        Destination (AddressLiteral .data (2 ^ 61 - 1)) token imm := by
  rw [memoryOperand_of_bare bare, Checked.map_eq_map, Checked.value?_map, Option.map_eq_some_iff]
  constructor
  · rintro ⟨destination, accepted, made⟩
    obtain ⟨rfl, rfl, rfl⟩ : .zero = rs ∧ destination = imm ∧ .wordAddress = mode := by
      simpa using made
    exact ⟨rfl, rfl, (value?_literalOrLabel_iff trimmed value?_dataAddress_iff).mp accepted⟩
  · rintro ⟨rfl, rfl, destination⟩
    exact ⟨imm, (value?_literalOrLabel_iff trimmed value?_dataAddress_iff).mpr destination, rfl⟩

theorem value?_memoryOperand_iff (trimmed : Text.trim token = token) {rs : Reg} {imm : Immediate}
    {mode : ImmediateMode} :
    (memoryOperand token).value? = some (rs, imm, mode) ↔ AddressText token rs imm mode := by
  by_cases opened : '(' ∈ token
  · obtain ⟨before, after, rfl, first⟩ := List.eq_append_cons_of_mem opened
    rw [memoryOperand_append_cons first, value?_baseOffset_iff]
    constructor
    · rintro ⟨between, value, rfl, offset, named, rfl, rfl⟩
      exact .based rfl first offset named
    · intro text
      cases text with
      | bare free => exact absurd opened free
      | @based other between value base same single offset named =>
        -- both cuts are at the first parenthesis
        have plain := Text.decide_eq_false_of_not_mem first
        have plain' := Text.decide_eq_false_of_not_mem single
        have cut := Text.cut?_append_cons plain (decide_eq_true rfl) after
        have again := Text.cut?_append_cons plain' (decide_eq_true rfl) (between ++ [')'])
        rw [← same, cut] at again
        obtain ⟨rfl, rfl⟩ := Prod.mk.inj (Option.some.inj again)
        exact ⟨between, value, rfl, offset, named, rfl, rfl⟩
  · rw [value?_memoryOperand_of_bare trimmed opened]
    constructor
    · rintro ⟨rfl, rfl, destination⟩
      exact .bare opened destination
    · intro text
      cases text with
      | bare _ destination => exact ⟨rfl, rfl, destination⟩
      | based written =>
        rw [written] at opened
        exact absurd (List.mem_append_right _ List.mem_cons_self) opened

end Tokens

/-! ## The check of whole texts -/

/-- A load writes its register and a store reads it; both name it alike. -/
theorem value?_memoryRegister (op : Opcode) (token : List Char) :
    (if op.formatClass = .immediateWrite then writeRegister token else readRegister token).value? =
      Reg.ofToken? token := by
  split
  · exact value?_writeRegister
  · exact value?_readRegister

/-- The literal of a jump is a word immediate of 26 bits. -/
theorem value?_target_iff {token : List Char} (value : Word) :
    (wordAddress .text 0x3FFFFFF token).value? = some value ↔
      AddressLiteral .text (2 ^ 26 - 1) token value :=
  value?_wordAddress_iff (by decide)

/-- The pieces of a text are accepted for what the grammar says that they stand for. -/
theorem value?_ofPieces_iff {op : Opcode} {tokens : List (List Char)}
    (trimmed : ∀ token ∈ tokens, Text.trim token = token) {operands : Operands} :
    (ofPieces op tokens).value? = some operands ↔ Spells op tokens operands := by
  constructor
  · intro accepted
    unfold ofPieces at accepted
    split at accepted
    -- a wrong number of operands is refused in every format
    all_goals first | contradiction | skip
    · next format =>
      obtain rfl := Option.some.inj accepted
      exact .none format
    all_goals
      simp only [Checked.map_eq_map, Checked.seq_eq_ap, Checked.value?_map, Checked.value?_ap,
        value?_readRegister, value?_writeRegister, value?_memoryRegister, Option.bind_eq_some_iff,
        Option.map_eq_some_iff] at accepted
    · next format =>
      obtain ⟨_, ⟨_, ⟨rd, written, rfl⟩, rs, read, rfl⟩, rt, read', rfl⟩ := accepted
      exact .register format written read read'
    · next format =>
      obtain ⟨_, ⟨_, ⟨rt, written, rfl⟩, rs, read, rfl⟩, value, reads, rfl⟩ := accepted
      exact .arithmetic format written read (value?_signed16_iff.mp reads)
    · next register address format =>
      obtain ⟨_, ⟨rt, named, rfl⟩, ⟨rs, imm, mode⟩, addresses, rfl⟩ := accepted
      have trim := trimmed address (by simp)
      exact .memory format named ((value?_memoryOperand_iff trim).mp addresses)
    · next first second destination format =>
      obtain ⟨_, ⟨_, ⟨rs, read, rfl⟩, rt, read', rfl⟩, imm, leads, rfl⟩ := accepted
      have trim := trimmed destination (by simp)
      exact .branch format read read'
        ((value?_literalOrLabel_iff trim fun _ => value?_signed16_iff).mp leads)
    · next destination format =>
      obtain ⟨imm, leads, rfl⟩ := accepted
      have trim := trimmed destination (by simp)
      exact .jump format ((value?_literalOrLabel_iff trim value?_target_iff).mp leads)
  · intro spelled
    unfold ofPieces
    cases spelled with
    | none format =>
      rw [format]
      rfl
    | register format written read read' =>
      simp [format, written, read, read']
    | arithmetic format written read reads =>
      simp [format, written, read, value?_signed16_iff.mpr reads]
    | @memory register address rt rs imm mode format named addresses =>
      have trim := trimmed address (by simp)
      have accepted := (value?_memoryOperand_iff trim).mpr addresses
      simp [format, value?_memoryRegister, named, accepted]
    | @branch first second destination rs rt imm format read read' leads =>
      have trim := trimmed destination (by simp)
      have accepted := (value?_literalOrLabel_iff trim fun _ => value?_signed16_iff).mpr leads
      simp [format, read, read', accepted]
    | @jump destination imm format leads =>
      have trim := trimmed destination (by simp)
      have accepted := (value?_literalOrLabel_iff trim value?_target_iff).mpr leads
      simp [format, accepted]

/-- A text stands for one thing at most. -/
theorem Spells.unique {op : Opcode} {tokens : List (List Char)} {operands other : Operands}
    (first : Spells op tokens operands) (second : Spells op tokens other)
    (trimmed : ∀ token ∈ tokens, Text.trim token = token) : operands = other := by
  have accepted := (value?_ofPieces_iff trimmed).mpr first
  rw [(value?_ofPieces_iff trimmed).mpr second] at accepted
  exact (Option.some.inj accepted).symm

theorem value?_check_iff {op : Opcode} {text : List Char} {bundle : OperandBundle} :
    (check op text).value? = some bundle ↔
      bundle.formatClass = op.formatClass ∧ Spells op (pieces text) bundle.operands := by
  have trimmed : ∀ token ∈ pieces text, Text.trim token = token := fun _ => trim_of_mem_pieces
  unfold check
  rw [Checked.value?_withSummary, Checked.map_eq_map, Checked.value?_map, Option.map_eq_some_iff]
  constructor
  · rintro ⟨operands, accepted, rfl⟩
    exact ⟨rfl, (value?_ofPieces_iff trimmed).mp accepted⟩
  · obtain ⟨formatClass, operands⟩ := bundle
    rintro ⟨rfl, spelled⟩
    exact ⟨operands, (value?_ofPieces_iff trimmed).mpr spelled, rfl⟩

/-- The operand grammar, exactly: the check accepts an operand text for a bundle if and only if the
bundle has the class of the opcode and the operands that the grammar reads out of the pieces of the
text. -/
theorem accepts_iff (op : Opcode) (text : List Char) (bundle : OperandBundle) :
    (check op text).value? = some bundle ↔
      bundle.formatClass = op.formatClass ∧
        ∃ tokens, CutInto text tokens ∧ Spells op tokens bundle.operands := by
  rw [value?_check_iff]
  refine and_congr_right fun _ => ⟨fun spelled => ⟨_, cutInto_iff.mpr rfl, spelled⟩, ?_⟩
  rintro ⟨tokens, cut, spelled⟩
  rwa [cutInto_iff.mp cut]

-- where a label may stand, a register's name is a label
example :
    (check .beq "$T0, s8 ,R7".toList).value? =
      some ⟨.immediateRead, .immediate 8 30 (.label "r7") .plain⟩ := by
  decide +kernel

end TinyMips.Operand
