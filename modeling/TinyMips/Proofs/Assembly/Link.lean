import TinyMips.Assembly.Link
import TinyMips.Proofs.Isa.Operands

/-!
# Linked instructions

Linking without an error leaves no label and keeps the bounds of the operands:

* **references** — a label that is linked stands for a supported address of the region that its
  opcode refers to, and its immediate encodes that address (`Instruction.labelImmediate_eq_ok`,
  `Region.toBytes_ofBytes`);
* **operands** — accepted operands are linked to operands that would have been accepted as
  literals (`Instruction.accepted_link`).
-/

namespace TinyMips

/-! ## Supported addresses as words -/

namespace Region

variable {region : Region} {target : Address}

/-- A supported address keeps its value as a word. -/
theorem toInt_toInt64 (h : region.Supports target.toNat) :
    target.toInt64.toInt = target.toNat := by
  obtain ⟨-, high, -⟩ := h
  apply Address.toInt_toInt64
  cases region <;> simp only [supportedEnd] at high <;> omega

/-- A supported address comes back from its word immediate. -/
theorem toBytes_ofBytes (h : region.Supports target.toNat) :
    (Word.ofBytes target.toInt64).toBytes = target.toInt64 := by
  apply Word.toBytes_ofBytes
  rw [toInt_toInt64 h]
  obtain ⟨low, -, aligned⟩ := h
  cases region <;> simp only [base, elementSize] at low aligned <;> omega

/-- The word immediate of a supported address is within the region and stands for a supported
address. -/
theorem ofBytes_bounds (h : region.Supports target.toNat) :
    0 ≤ (Word.ofBytes target.toInt64).toInt ∧
      4 * (Word.ofBytes target.toInt64).toInt < region.supportedEnd ∧
      region.Supports (Word.ofBytes target.toInt64).toBytes.toInt := by
  have quarter := Word.toInt_ofBytes target.toInt64
  have value := toInt_toInt64 h
  have high := h.2.1
  refine ⟨by omega, by omega, ?_⟩
  rw [toBytes_ofBytes h, value]
  exact h

end Region

namespace Instruction

variable {inst : Instruction} {labels : LabelTable}

/-! ## References -/

/-- A label is linked to the address that the table has for it, if its region supports it. -/
theorem labelImmediate_eq_ok {name : String} {value : Word}
    (h : inst.labelImmediate labels name = .ok value) :
    ∃ target, labels.get? name = some target ∧
      (labelRegion inst.opcode).Supports target.toNat ∧
      if inst.opcode.format = .branch then
        value = branchOffset inst.address target ∧ value.fits16 = true
      else value = Word.ofBytes target.toInt64 := by
  unfold labelImmediate at h
  split at h
  · contradiction
  · next target defined =>
    split at h
    · contradiction
    · next index checked =>
      have supported := ((Region.check_eq_ok_iff _ _ _).mp checked).1
      refine ⟨target, defined, supported, ?_⟩
      split at h
      · next branches =>
        rw [if_pos branches]
        dsimp only at h
        split at h
        · next fits =>
          obtain rfl := Except.ok.inj h
          exact ⟨rfl, fits⟩
        · contradiction
      · next goesOn =>
        rw [if_neg goesOn]
        exact (Except.ok.inj h).symm

/-- An instruction without a label is linked as it is. -/
theorem link_of_unlabelled (h : inst.label? = none) : inst.link labels = inst := by
  unfold link link?
  rw [h]
  rfl

/-- Where linking reports nothing, a label is replaced by its immediate. -/
theorem link_of_label {name : String} (h : inst.label? = some name)
    (clean : inst.linkError? labels = none) :
    ∃ value, inst.labelImmediate labels name = .ok value ∧
      inst.link labels = { inst with operands := inst.operands.withImmediate (.literal value) } := by
  have asked : inst.link? labels = some (inst.labelImmediate labels name) := by
    unfold link?
    rw [h]
    rfl
  unfold linkError? at clean
  unfold link
  rw [asked] at clean ⊢
  cases linked : inst.labelImmediate labels name with
  | error message =>
    rw [linked] at clean
    contradiction
  | ok value => exact ⟨value, rfl, rfl⟩

@[simp] theorem opcode_link : (inst.link labels).opcode = inst.opcode := by
  unfold link
  split <;> rfl

@[simp] theorem line_link : (inst.link labels).line = inst.line := by
  unfold link
  split <;> rfl

@[simp] theorem address_link : (inst.link labels).address = inst.address := by
  unfold link
  split <;> rfl

/-! ## Operands -/

/-- Accepted operands are linked to accepted operands without a label. -/
theorem accepted_link (accepted : inst.operands.Accepted inst.opcode)
    (clean : inst.linkError? labels = none) :
    (inst.link labels).operands.Accepted inst.opcode ∧
      (inst.link labels).operands.label? = none := by
  cases unlabelled : inst.label? with
  | none =>
    rw [link_of_unlabelled unlabelled]
    exact ⟨accepted, unlabelled⟩
  | some name =>
    obtain ⟨value, linked, eq⟩ := link_of_label unlabelled clean
    obtain ⟨target, -, supported, encoded⟩ := labelImmediate_eq_ok linked
    rw [eq]
    obtain ⟨op, operands, line, address, assembled⟩ := inst
    replace unlabelled : operands.label? = some name := unlabelled
    dsimp only at accepted supported encoded ⊢
    -- only the three forms with a label are left
    cases accepted with
    | none | register | arithmetic | offset | dataAddress | distance | target => contradiction
    | dataLabel rt other format =>
      have region : labelRegion op = .data := if_pos format
      rw [region] at supported
      rw [if_neg (by rw [format]; decide)] at encoded
      subst encoded
      obtain ⟨low, high, within⟩ := Region.ofBytes_bounds supported
      simp only [Region.supportedEnd] at high
      exact ⟨.dataAddress rt _ format low (by omega) within, rfl⟩
    | branchLabel rs rt other format =>
      rw [if_pos format] at encoded
      exact ⟨.distance rs rt value format encoded.2, rfl⟩
    | jumpLabel other format =>
      have region : labelRegion op = .text := if_neg (by rw [format]; decide)
      rw [region] at supported
      rw [if_neg (by rw [format]; decide)] at encoded
      subst encoded
      obtain ⟨low, high, within⟩ := Region.ofBytes_bounds supported
      simp only [Region.supportedEnd] at high
      exact ⟨.target _ format low (by omega) within, rfl⟩

end Instruction

end TinyMips
