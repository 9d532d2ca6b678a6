import TinyMips.Proofs.Assembly.Faults
import TinyMips.Proofs.Assembly.Warnings

/-!
# The report of an operand text

Operand diagnostics are complete. What a piece reports does not depend on the others, which is said
by exchanging them: it is what the same piece reports in the same place of any valid text
(`Operand.faults_withPiece`), and the parts of `offset(base)` may be exchanged likewise
(`Operand.faults_parts`). There it is silent if the grammar admits it, and otherwise has one error
(`Operand.Verdict`). So `Operand.Account` names the origin of every error and warning, and the log
gets just these, for the line of the text (`Operand.report_complete`).
-/

namespace TinyMips

/-- Where only one place of a list is not silent, what it tells is all that is said. -/
theorem flatMap_zipIdx_set {α β : Type} {tells : α × Nat → List β} {items : List α} {start : Nat}
    (silent : (items.zipIdx start).flatMap tells = []) {i : Nat} (lt : i < items.length)
    (item : α) :
    ((items.set i item).zipIdx start).flatMap tells = tells (item, start + i) := by
  induction items generalizing start i with
  | nil => nomatch lt
  | cons first rest ih =>
    rw [List.zipIdx_cons, List.flatMap_cons, List.append_eq_nil_iff] at silent
    cases i with
    | zero =>
      rw [List.set_cons_zero, List.zipIdx_cons, List.flatMap_cons, silent.2, List.append_nil]
      rfl
    | succ i =>
      rw [List.set_cons_succ, List.zipIdx_cons, List.flatMap_cons, silent.1, List.nil_append,
        ih silent.2 (Nat.lt_of_succ_lt_succ lt)]
      congr 2
      omega

namespace Operand

/-! ## Texts with one piece exchanged -/

/-- The text of the same pieces but for one. -/
def withPiece (text : List Char) (i : Nat) (token : List Char) : List Char :=
  [','].intercalate ((pieces text).set i token)

/-- Whether a token may be a piece: it is trimmed and has no comma. -/
structure IsPiece (token : List Char) : Prop where
  trimmed : Text.trim token = token
  plain : ',' ∉ token

theorem isPiece_of_mem_pieces {text token : List Char} (mem : token ∈ pieces text) :
    IsPiece token := by
  refine ⟨trim_of_mem_pieces mem, fun comma => ?_⟩
  unfold pieces at mem
  split at mem
  · nomatch mem
  · obtain ⟨part, within, rfl⟩ := List.mem_map.mp mem
    exact comma_not_mem_of_mem_splitOn within (Text.mem_of_mem_trim comma)

theorem exists_filled {text : List Char} (nonempty : Text.trim text ≠ []) :
    ∃ c ∈ text, Text.isBlank c = false := by
  by_contra none
  refine nonempty (Text.trim_of_blank fun c mem => ?_)
  by_contra filled
  exact none ⟨c, mem, Bool.not_eq_true _ |>.mp filled⟩

/-- A blank text has no piece, not an empty one. -/
theorem pieces_ne_singleton_nil (text : List Char) : pieces text ≠ [[]] := by
  intro single
  unfold pieces at single
  split at single
  · nomatch single
  · next filled =>
    obtain ⟨part, split, empty⟩ := List.map_eq_singleton_iff.mp single
    have joined : [','].intercalate (text.splitOn ',') = text := List.intercalate_splitOn ','
    rw [split, List.intercalate_singleton] at joined
    rw [joined] at empty
    exact filled (List.isEmpty_iff.mpr empty)

/-- Joined tokens are the pieces of what they are joined to. -/
theorem pieces_intercalate {tokens : List (List Char)} (pieced : ∀ token ∈ tokens, IsPiece token)
    (ne : tokens ≠ [[]]) : pieces ([','].intercalate tokens) = tokens := by
  have trimmed : tokens.map Text.trim = tokens := by
    rw [List.map_congr_left fun token mem => (pieced token mem).trimmed, List.map_id']
  have plain : ∀ token ∈ tokens, ',' ∉ token := fun token mem => (pieced token mem).plain
  have cut (filled : ∃ c ∈ [','].intercalate tokens, Text.isBlank c = false) :
      pieces ([','].intercalate tokens) = tokens := by
    have commas := cutInto_iff.mp (.commas rfl plain filled)
    rwa [trimmed] at commas
  match tokens with
  | [] => rfl
  | [token] =>
    refine cut ?_
    rw [List.intercalate_singleton]
    refine exists_filled ?_
    rw [(pieced token List.mem_cons_self).trimmed]
    rintro rfl
    exact ne rfl
  | first :: second :: rest =>
    refine cut ⟨',', ?_, rfl⟩
    rw [List.intercalate_cons_cons]
    simp

theorem pieces_withPiece {text token : List Char} {i : Nat} (piece : IsPiece token)
    (ne : (pieces text).set i token ≠ [[]]) :
    pieces (withPiece text i token) = (pieces text).set i token := by
  refine pieces_intercalate (fun other mem => ?_) ne
  rcases List.mem_or_eq_of_mem_set mem with within | rfl
  · exact isPiece_of_mem_pieces within
  · exact piece

/-! ## One piece among valid ones -/

section Exchanged

variable {op : Opcode} {valid text token : List Char} {i : Nat}

/-- Nothing is wrong with the pieces of an accepted text. -/
theorem silent_of_accepts (accepts : Accepts op valid) :
    (pieces valid).zipIdx.flatMap (fun (token, i) => (checkPiece op i token).errors) = [] := by
  rw [← errors_ofPieces (length_of_accepts accepts), ← faults_eq, faults,
    accepts_iff_errors.mp accepts]
  rfl

theorem checkPiece_of_accepts (accepts : Accepts op valid)
    (place : (pieces valid)[i]? = some token) : (checkPiece op i token).errors = [] :=
  List.flatMap_eq_nil_iff.mp (silent_of_accepts accepts) (token, i)
    (List.mem_zipIdx_iff_getElem?.mpr place)

/-- A piece reports what it would report among any valid others. -/
theorem faults_withPiece (accepts : Accepts op valid) (piece : IsPiece token)
    (lt : i < (pieces valid).length) (ne : (pieces valid).set i token ≠ [[]]) :
    faults op (withPiece valid i token) = (checkPiece op i token).errors := by
  have count : ((pieces valid).set i token).length = op.format.arity := by
    rw [List.length_set, length_of_accepts accepts]
  rw [faults_eq, pieces_withPiece piece ne, errors_ofPieces count,
    flatMap_zipIdx_set (silent_of_accepts accepts) lt, Nat.zero_add]

/-- A piece of a text may stand in the same place of any text of as many pieces. -/
theorem set_ne_singleton_nil (same : (pieces valid).length = (pieces text).length)
    (place : (pieces text)[i]? = some token) : (pieces valid).set i token ≠ [[]] := by
  intro single
  have length : (pieces text).length = 1 := by
    rw [← same, ← List.length_set (i := i) (a := token), single]
    rfl
  obtain ⟨first, alone⟩ := List.length_eq_one_iff.mp length
  obtain ⟨other, alone'⟩ := List.length_eq_one_iff.mp (same.trans length)
  obtain rfl : i = 0 := by
    have lt := (List.getElem?_eq_some_iff.mp place).1
    omega
  rw [alone] at place
  rw [alone'] at single
  obtain rfl := Option.some.inj place
  refine pieces_ne_singleton_nil text ?_
  rw [alone]
  exact single

theorem faults_withPiece_of_place (accepts : Accepts op valid)
    (count : (pieces text).length = op.format.arity) (place : (pieces text)[i]? = some token) :
    faults op (withPiece valid i token) = (checkPiece op i token).errors := by
  have same : (pieces valid).length = (pieces text).length :=
    (length_of_accepts accepts).trans count.symm
  refine faults_withPiece accepts (isPiece_of_mem_pieces (List.mem_of_getElem? place)) ?_
    (set_ne_singleton_nil same place)
  rw [same]
  exact (List.getElem?_eq_some_iff.mp place).1

end Exchanged

theorem trimEnd_concat (between : List Char) :
    Text.trimEnd (between ++ [')']) = between ++ [')'] := by
  unfold Text.trimEnd
  rw [List.reverse_concat, List.dropWhile_cons_of_neg (by decide), ← List.reverse_concat,
    List.reverse_reverse]

/-- The parts of pieces `offset(base)` may be exchanged. -/
theorem IsPiece.exchange {before between before' between' : List Char}
    (first : IsPiece (based before between)) (second : IsPiece (based before' between')) :
    IsPiece (based before between') := by
  have paren : Text.isBlank '(' = false := by decide
  have start := first.trimmed
  unfold based at start
  rw [Text.trim_append_cons paren, trimEnd_concat, List.append_cancel_right_eq] at start
  constructor
  · unfold based
    rw [Text.trim_append_cons paren, trimEnd_concat, start]
  · have front := first.plain
    have back := second.plain
    unfold based at front back ⊢
    simp only [List.mem_append, List.mem_cons, not_or] at front back ⊢
    exact ⟨front.1, back.2⟩

section Parts

variable {op : Opcode} {valid text before between before' between' : List Char}

/-- Whether the second piece of a text is `offset(base)`, and of which parts. -/
def Addresses (text before between : List Char) : Prop :=
  (pieces text)[1]? = some (based before between) ∧ '(' ∉ before

theorem checkPiece_based (format : op.format = .memory) (first : '(' ∉ before) :
    (checkPiece op 1 (based before between)).errors =
      (checkOffset before).errors ++ (checkBase between).errors := by
  unfold checkPiece kind
  rw [format]
  exact (Checked.errors_map _ _).trans (errors_memoryOperand first between)

/-- Either part of `offset(base)` reports what it would report beside a valid other one. -/
theorem faults_parts (format : op.format = .memory) (accepts : Accepts op valid)
    (parts : Addresses text before between) (parts' : Addresses valid before' between') :
    faults op (withPiece valid 1 (based before between)) =
        (checkOffset before).errors ++ (checkBase between).errors ∧
      faults op (withPiece valid 1 (based before between')) = (checkOffset before).errors ∧
      faults op (withPiece valid 1 (based before' between)) = (checkBase between).errors := by
  obtain ⟨place, first⟩ := parts
  obtain ⟨place', first'⟩ := parts'
  have silent := checkPiece_of_accepts accepts place'
  rw [checkPiece_based format first', List.append_eq_nil_iff] at silent
  have length : (pieces valid).length = 2 := by rw [length_of_accepts accepts, format]; rfl
  have exchanged {token : List Char} (piece : IsPiece token) :
      faults op (withPiece valid 1 token) = (checkPiece op 1 token).errors := by
    refine faults_withPiece accepts piece (by omega) fun single => ?_
    have one := congrArg List.length single
    rw [List.length_set, length] at one
    contradiction
  have piece := isPiece_of_mem_pieces (List.mem_of_getElem? place)
  have piece' := isPiece_of_mem_pieces (List.mem_of_getElem? place')
  refine ⟨?_, ?_, ?_⟩
  · rw [exchanged piece, checkPiece_based format first]
  · rw [exchanged (piece.exchange piece'), checkPiece_based format first, silent.2,
      List.append_nil]
  · rw [exchanged (piece'.exchange piece), checkPiece_based format first', silent.1,
      List.nil_append]

end Parts

/-! ## Verdicts -/

/-- Whether a text that one token decides is accepted just if the token meets a condition, and
otherwise has one thing wrong with it, an error that quotes the token. -/
structure Verdict (op : Opcode) (text token : List Char) (meets : Prop) : Prop where
  accepted : Accepts op text ↔ meets
  silent : meets → faults op text = []
  told : ¬meets →
    ∃ fault, faults op text = [fault] ∧ fault.token? = some (String.ofList token)

theorem verdict_of_judges {α : Type} {op : Opcode} {text token : List Char} {meets : Prop}
    {checked : Checked α} (judges : checked.Judges token)
    (exact : (∃ value, checked.value? = some value) ↔ meets)
    (decided : faults op text = checked.errors) : Verdict op text token meets := by
  have silent : faults op text = [] ↔ meets := by
    rw [decided, judges.explained.errors_eq_nil_iff, exact]
  refine ⟨accepts_iff_faults.trans silent, silent.mpr, fun refused => ?_⟩
  rw [decided]
  refine judges.told fun none => refused (silent.mp ?_)
  rw [decided, none]

/-! ## The report of a text -/

/-- A text that is accepted for an opcode. -/
def sample (op : Opcode) : List Char :=
  match op.format with
  | .none => []
  | .register => ['1', ',', '1', ',', '1']
  | .immediateArith | .branch => ['1', ',', '1', ',', '0']
  | .memory => ['1', ',', '0', '(', '1', ')']
  | .jump => ['a']

theorem accepts_sample (op : Opcode) : Accepts op (sample op) := by
  cases op <;> decide +kernel

theorem addresses_sample {op : Opcode} (format : op.format = .memory) :
    Addresses (sample op) ['0'] ['1'] := by
  unfold sample
  rw [format]
  exact ⟨by decide +kernel, by decide⟩

/-- How the errors and warnings that an operand text reports come about. -/
structure Account (op : Opcode) (text : List Char) (errors warnings : List Message) : Prop where
  /-- A text is accepted if and only if it reports no error. -/
  accepted : Accepts op text ↔ errors = []
  /-- A wrong number of pieces is the only error in front of the summary. -/
  count : (pieces text).length ≠ op.format.arity →
    errors = [.operandCount op.format.arity (pieces text).length, summary op text]
  /-- With the right number, the pieces of a refused text report in order, each what it reports
  among valid others. -/
  piecewise : (pieces text).length = op.format.arity → ¬Accepts op text →
    ∀ valid, Accepts op valid →
      errors =
        ((pieces text).zipIdx.flatMap fun (token, i) => faults op (withPiece valid i token)) ++
          [summary op text]
  /-- Among valid others a piece reports nothing if and only if it is accepted there, which is if
  and only if the grammar admits it in its place. -/
  admitted : (pieces text).length = op.format.arity → ∀ valid, Accepts op valid →
    ∀ token i, (pieces text)[i]? = some token →
      (faults op (withPiece valid i token) = [] ↔ Accepts op (withPiece valid i token)) ∧
        (Accepts op (withPiece valid i token) ↔ Admits op i token)
  /-- A piece that is refused there reports one error, but for `offset(base)`. -/
  single : (pieces text).length = op.format.arity → ∀ valid, Accepts op valid →
    ∀ token i, (pieces text)[i]? = some token →
      ¬(op.format = .memory ∧ i = 1 ∧ ∃ before between, Addresses text before between) →
      Verdict op (withPiece valid i token) token (Admits op i token)
  /-- There, the offset reports what it reports before a valid base, and then the base what it
  reports after a valid offset: one error for each that is refused. -/
  parts : op.format = .memory → ∀ valid, Accepts op valid →
    ∀ before between before' between', Addresses text before between →
      Addresses valid before' between' →
      faults op (withPiece valid 1 (based before between)) =
          faults op (withPiece valid 1 (based before between')) ++
            faults op (withPiece valid 1 (based before' between)) ∧
        Verdict op (withPiece valid 1 (based before between')) (Text.trim before)
          (∃ value, Offset (Text.trim before) value) ∧
        Verdict op (withPiece valid 1 (based before' between)) (Text.trim between)
          (∃ base, Base (Text.trim between) base)
  /-- There is a valid text, for loads and stores with `offset(base)`. -/
  valid : ∃ valid, Accepts op valid ∧
    (op.format = .memory → ∃ before between, Addresses valid before between)
  /-- The first piece is warned about if it names `r0` where a register is written. -/
  hardwired : (pieces text).length = op.format.arity → op.WritesFirst →
    ∀ token, (pieces text).head? = some token → Reg.ofToken? token = some .zero →
      warnings = [.registerHardwired (String.ofList token)]
  /-- There is no other warning. -/
  unwarned : ¬((pieces text).length = op.format.arity ∧ op.WritesFirst ∧
      ∃ token, (pieces text).head? = some token ∧ Reg.ofToken? token = some .zero) →
    warnings = []

section Report

variable {op : Opcode} {text : List Char}

theorem errors_of_count (ne : (pieces text).length ≠ op.format.arity) :
    (check op text).errors =
      [.operandCount op.format.arity (pieces text).length, summary op text] := by
  have refused : (check op text).value? = none := by
    rw [value?_check_eq_none, ofPieces_of_ne ne]
    rfl
  rw [errors_check refused, ofPieces_of_ne ne]
  rfl

theorem errors_of_pieces (count : (pieces text).length = op.format.arity)
    (refused : ¬Accepts op text) {valid : List Char} (accepts : Accepts op valid) :
    (check op text).errors =
      ((pieces text).zipIdx.flatMap fun (token, i) => faults op (withPiece valid i token)) ++
        [summary op text] := by
  unfold Accepts at refused
  rw [Option.not_isSome_iff_eq_none] at refused
  rw [errors_check refused, errors_ofPieces count]
  congr 1
  refine List.flatMap_congr fun (token, i) mem => ?_
  exact (faults_withPiece_of_place accepts count (List.mem_zipIdx_iff_getElem?.mp mem)).symm

/-- The check accounts for all that it reports. -/
theorem account_check (op : Opcode) (text : List Char) :
    Account op text (check op text).errors (check op text).warnings where
  accepted := accepts_iff_errors
  count := errors_of_count
  piecewise count refused _ accepts := errors_of_pieces count refused accepts
  admitted count valid accepts token i place := by
    have trimmed := trim_of_mem_pieces (List.mem_of_getElem? place)
    refine ⟨accepts_iff_faults.symm, ?_⟩
    rw [accepts_iff_faults, faults_withPiece_of_place accepts count place,
      explained_checkPiece.errors_eq_nil_iff, value?_checkPiece_iff trimmed]
  single count valid accepts token i place other := by
    have trimmed := trim_of_mem_pieces (List.mem_of_getElem? place)
    refine verdict_of_judges (judges_checkPiece fun format second before between same => ?_)
      (value?_checkPiece_iff trimmed) (faults_withPiece_of_place accepts count place)
    by_contra first
    subst second same
    exact other ⟨format, rfl, before, between, place, first⟩
  parts format valid accepts before between before' between' own other := by
    obtain ⟨both, offset, base⟩ := faults_parts format accepts own other
    refine ⟨?_, ?_, ?_⟩
    · rw [both, offset, base]
    · exact verdict_of_judges (judges_checkOffset before)
        (exists_congr fun _ => value?_offset_iff) offset
    · exact verdict_of_judges (judges_checkBase between)
        (exists_congr fun _ => value?_base_iff) base
  valid := ⟨sample op, accepts_sample op, fun format => ⟨_, _, addresses_sample format⟩⟩
  hardwired count writes token first zero := by
    obtain ⟨rest, tokens⟩ := List.head?_eq_some_iff.mp first
    rw [warnings_check, warnings_ofPieces count, tokens, firstWarnings, if_pos ⟨writes, zero⟩]
  unwarned other := by
    rw [warnings_check]
    by_cases count : (pieces text).length = op.format.arity
    · rw [warnings_ofPieces count]
      cases tokens : pieces text with
      | nil => rfl
      | cons token rest =>
        refine if_neg ?_
        rintro ⟨writes, zero⟩
        refine other ⟨count, writes, token, ?_, zero⟩
        rw [tokens]
        rfl
    · rw [ofPieces_of_ne count]
      rfl

end Report

end Operand

/-- A log with more errors and warnings of a line. -/
def Log.extend (log : Log) (line : Nat) (errors warnings : List Message) : Log where
  errors := log.errors ++ (errors.map fun message => { line := some line, message }).toArray
  warnings := log.warnings ++ (warnings.map fun message => { line := some line, message }).toArray

/-- A check reports its errors and its warnings, and nothing else. -/
theorem Layout.report_eq {α : Type} (layout : Layout) (line : Nat) (checked : Checked α) :
    layout.report line checked =
      { layout with log := layout.log.extend line checked.errors checked.warnings } := by
  have log : (layout.report line checked).log =
      layout.log.extend line checked.errors checked.warnings := by
    have errors := layout.errors_report line checked
    have warnings := layout.warnings_report line checked
    refine (Log.mk.injEq _ _ _ _).mpr ⟨errors, Array.toList_inj.mp (warnings.trans ?_)⟩
    rw [Array.toList_append]
  rw [← log]
  rfl

/-- Operand diagnostics are complete: the check of an operand text adds entries for its line to the
log and leaves those that were there, and every error and warning that it adds is accounted for by
the number of the pieces or by one of them. -/
theorem Operand.report_complete (op : Opcode) (text : List Char) (line : Nat) (layout : Layout) :
    ∃ errors warnings,
      layout.report line (check op text) =
          { layout with log := layout.log.extend line errors warnings } ∧
        Account op text errors warnings :=
  ⟨_, _, layout.report_eq line (check op text), account_check op text⟩

-- both parts of a memory operand are reported, and the warning does not hide them
example :
    (Operand.check .lw "r0, 70000(rx)".toList).errors =
        [.immediateOutOfRange "70000" (-32768) 32767, .registerNotRecognised "rx",
          .operandsNotValid "r0, 70000(rx)" .lw] ∧
      (Operand.check .lw "r0, 70000(rx)".toList).warnings = [.registerHardwired "r0"] := by
  decide +kernel

end TinyMips
