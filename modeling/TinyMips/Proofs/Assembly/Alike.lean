import TinyMips.Proofs.Assembly.Layout

/-!
# Lines that differ in operands

Two lines are alike when they differ at most in the operands of an instruction that both are
accepted for. A layout treats them alike: everything but its instructions stays the same
(`Layout.place_withText`).
-/

namespace TinyMips

/-- Whether two requests differ at most in the operands of an accepted instruction. -/
inductive Request.Alike : Request → Request → Prop where
  | same (request : Request) : Alike request request
  | instruction (op : Opcode) (operands operands' : Operands) (warnings : List Message) :
    Alike (.item .text { result := .ok (.instruction op operands), warnings })
      (.item .text { result := .ok (.instruction op operands'), warnings })

/-- Whether two lines differ at most in their operands and comments, and ask for the same but for
the operands of an instruction. -/
structure SourceLine.Alike (line line' : SourceLine) : Prop where
  number : line'.number = line.number
  label : line'.label = line.label
  keyword : line'.keyword = line.keyword
  request : Request.Alike (.ofLine line) (.ofLine line')

theorem SourceLine.Alike.refl (line : SourceLine) : line.Alike line where
  number := rfl
  label := rfl
  keyword := rfl
  request := .same _

namespace Layout

/-- The layout with other instructions. -/
def withText (layout : Layout) (text : TextStore) : Layout :=
  { layout with text }

section WithText

variable {layout : Layout} {text : TextStore}

theorem stage_withText (line : SourceLine) :
    (layout.withText text).stage line = (layout.stage line).withText text := by
  unfold stage
  cases line.label with
  | none => rfl
  | some name =>
    have taken : (layout.withText text).isTaken name = layout.isTaken name := rfl
    dsimp only
    unfold stageLabel
    rw [taken]
    split
    · rfl
    · split <;> rfl

theorem settle_withText (address : Option Address) :
    (layout.withText text).settle address = (layout.settle address).withText text := by
  cases address <;> rfl

theorem free?_withText (size : text.size = layout.text.size) (region : Region) :
    (layout.withText text).free? region = layout.free? region := by
  cases region with
  | data => rfl
  | text =>
    show text.free? = layout.text.free?
    rw [TextStore.free?_eq, TextStore.free?_eq, size]

/-- Whether an instruction fits does not depend on its operands. -/
theorem put_withText_instruction (size : text.size = layout.text.size) (keyword : String)
    (line : Nat) (op : Opcode) (operands operands' : Operands) :
    ∃ text', (layout.withText text).put keyword line (.instruction op operands') =
      (layout.put keyword line (.instruction op operands)).withText text' := by
  have full : (layout.withText text).text.isFull = layout.text.isFull := TextStore.isFull_eq size
  unfold put
  dsimp only
  rw [full]
  split
  · exact ⟨text, rfl⟩
  · exact ⟨_, rfl⟩

theorem put_withText (size : text.size = layout.text.size) (keyword : String) (line : Nat)
    (item : Item) :
    ∃ text', (layout.withText text).put keyword line item =
      (layout.put keyword line item).withText text' := by
  cases item with
  | instruction op operands => exact put_withText_instruction size keyword line op operands operands
  | words values =>
    refine ⟨text, ?_⟩
    unfold put withText
    dsimp only
    by_cases full : Region.data.capacity - layout.data.placed < values.length
    · rw [if_pos full, if_pos full]
    · rw [if_neg full, if_neg full]

theorem fulfil_withText (size : text.size = layout.text.size) {request request' : Request}
    (alike : request.Alike request') (keyword : String) (line : Nat) :
    ∃ text', (layout.withText text).fulfil keyword line request' =
      (layout.fulfil keyword line request).withText text' := by
  cases alike with
  | same =>
    cases request with
    | nothing errors => exact ⟨text, rfl⟩
    | item region checked =>
      have reported : (layout.withText text).report line checked =
          (layout.report line checked).withText text := rfl
      have size' : text.size = (layout.report line checked).text.size := size
      have free := free?_withText size' region
      unfold fulfil
      dsimp only
      rw [reported, free]
      cases checked.value? with
      | none => exact ⟨text, settle_withText _⟩
      | some item =>
        obtain ⟨text', put⟩ := put_withText size' keyword line item
        dsimp only
        rw [put]
        exact ⟨text', settle_withText _⟩
  | instruction op operands operands' warnings =>
    -- both checks report the same, so the layouts differ from the item on
    let reported := layout.report line (.mk (.ok (Item.instruction op operands)) warnings)
    have size' : text.size = reported.text.size := size
    obtain ⟨text', put⟩ := put_withText_instruction size' keyword line op operands operands'
    refine ⟨text', ?_⟩
    show ((reported.withText text).put keyword line (.instruction op operands')).settle
        ((reported.withText text).free? .text) =
      ((reported.put keyword line (.instruction op operands)).settle
        (reported.free? .text)).withText text'
    rw [put, free?_withText size', settle_withText]

/-- Alike lines do the same to layouts that differ in their instructions, as long as these are
equally many. -/
theorem place_withText (size : text.size = layout.text.size) {line line' : SourceLine}
    (alike : line.Alike line') :
    (layout.withText text).place line' =
      (layout.place line).withText (text.extend line'.instruction?) := by
  have staged : (layout.withText text).stage line' = (layout.stage line).withText text := by
    rw [stage_withText]
    unfold stage
    rw [alike.label, alike.number]
  have size' : text.size = (layout.stage line).text.size := by
    rw [(layout.stores_stage line).1, size]
  obtain ⟨text', eq⟩ := fulfil_withText size' alike.request (line.keyword.getD "") line.number
  have placed : (layout.withText text).place line' = (layout.place line).withText text' := by
    rw [place_eq, place_eq, staged, alike.keyword, alike.number, eq]
  have stored := text_place (layout.withText text) line'
  rw [placed] at stored ⊢
  rw [show text' = text.extend line'.instruction? from stored]

end WithText

end Layout

end TinyMips
