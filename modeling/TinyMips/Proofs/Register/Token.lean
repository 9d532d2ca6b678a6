import TinyMips.Register.Name
import TinyMips.Proofs.Numeral.Literal

/-!
# Register tokens

Which tokens name a register and which one, as rules over their characters:

* **spellings** — `Reg.Spells` has the four ways to spell an index, none of which goes beyond the
  registers (`Reg.Spells.lt`), and `Reg.Names` allows one `$` in front of them;
* **reading** — the readers of the spellings are tried one after the other, but a text that one of
  them reads is spelled in no other way (`Reg.Spells.read`, `Reg.spells_of_ofSpelling?`).

So a token is looked up exactly if the rules derive its index (`Reg.tokens_exact`).
-/

namespace TinyMips.Reg

open Numeral (IsRun)

/-! ## Spellings -/

/-- Whether a text in lower case spells an index. -/
inductive Spells : List Char → Nat → Prop where
  /-- Decimal digits, of any length. -/
  | index {digits : List Char} {i : Nat} (run : IsRun 10 digits i) (small : i < 32) :
    Spells digits i
  /-- The letter `r` and decimal digits. -/
  | numbered {digits : List Char} {i : Nat} (run : IsRun 10 digits i) (small : i < 32) :
    Spells ('r' :: digits) i
  /-- The conventional alias. -/
  | conventional {word : String} {i : Nat} (listed : aliases[i]? = some word) :
    Spells word.toList i
  /-- The second alias of `r30`. -/
  | saved : Spells ['s', '8'] 30

/-- Whether a text in lower case names an index: it spells it, or does so behind one `$`. -/
inductive Names : List Char → Nat → Prop where
  | bare {text : List Char} {i : Nat} (spelled : Spells text i) : Names text i
  | marked {text : List Char} {i : Nat} (spelled : Spells text i) : Names ('$' :: text) i

/-- Every spelling is one of a register. -/
theorem Spells.lt {text : List Char} {i : Nat} (spelled : Spells text i) : i < 32 := by
  cases spelled with
  | index run small => exact small
  | numbered run small => exact small
  | conventional listed =>
    obtain ⟨lt, -⟩ := Vector.getElem?_eq_some_iff.mp listed
    exact lt
  | saved => omega

theorem Names.lt {text : List Char} {i : Nat} (names : Names text i) : i < 32 := by
  cases names with
  | bare spelled => exact spelled.lt
  | marked spelled => exact spelled.lt

/-- No spelling starts with a `$` of its own. -/
theorem not_spells_marked {text : List Char} {i : Nat} : ¬Spells ('$' :: text) i := by
  have plain : ∀ r : Reg, (name r).toList.head? ≠ some '$' := by decide
  intro spelled
  generalize marked : '$' :: text = word at spelled
  cases spelled with
  | index run small =>
    subst marked
    exact absurd (Numeral.isDigit_of_isRun run '$' List.mem_cons_self) (by decide)
  | numbered run small => simp at marked
  | conventional listed =>
    obtain ⟨lt, rfl⟩ := Vector.getElem?_eq_some_iff.mp listed
    exact plain ⟨_, lt⟩ (congrArg List.head? marked.symm)
  | saved => simp at marked

/-! ## Reading a spelling -/

/-- The register of a text in lower case and without a `$`. -/
def ofSpelling? (text : List Char) : Option Reg :=
  (ofIndex? text).or ((ofNumbered? text).or (ofAlias? text))

theorem ofIndex?_eq_some_iff {digits : List Char} {r : Reg} :
    ofIndex? digits = some r ↔ IsRun 10 digits r := by
  unfold ofIndex?
  simp only [Option.bind_eq_some_iff, Numeral.value?_eq_some_iff (show 10 ≤ 16 by decide)]
  constructor
  · rintro ⟨n, run, here⟩
    split at here
    · obtain rfl := Option.some.inj here
      exact run
    · contradiction
  · intro run
    exact ⟨r, run, dif_pos r.isLt⟩

/-- An index may be added up in a total that overflows: what is lost is no register either way. -/
theorem map_ofIndex?_eq {bound : Nat} (h : 32 ≤ bound) (digits : List Char) :
    (ofIndex? digits).map Fin.val =
      (Numeral.valueBelow? bound 10 digits).filter (· < 32) := by
  rw [Numeral.valueBelow?_eq (by decide) (by omega)]
  unfold ofIndex?
  cases Numeral.value? 10 digits with
  | none => rfl
  | some n => grind

theorem ofNumbered?_eq_some_iff {text : List Char} {r : Reg} :
    ofNumbered? text = some r ↔ ∃ digits, text = 'r' :: digits ∧ IsRun 10 digits r := by
  unfold ofNumbered?
  split
  · simp [ofIndex?_eq_some_iff]
  · next other => simpa using fun digits here => absurd here (other digits)

theorem spells_of_ofAlias? {text : List Char} {r : Reg} (found : ofAlias? text = some r) :
    Spells text r := by
  unfold ofAlias? at found
  split at found
  · next second =>
    obtain rfl := Option.some.inj found
    rw [second]
    exact .saved
  · have here := List.find?_some found
    rw [decide_eq_true_eq] at here
    rw [← here]
    exact .conventional (Vector.getElem?_eq_getElem r.isLt)

/-- What is read is spelled. -/
theorem spells_of_ofSpelling? {text : List Char} {r : Reg} (found : ofSpelling? text = some r) :
    Spells text r := by
  unfold ofSpelling? at found
  rcases Option.or_eq_some_iff.mp found with index | ⟨-, found⟩
  · exact .index (ofIndex?_eq_some_iff.mp index) r.isLt
  · rcases Option.or_eq_some_iff.mp found with numbered | ⟨-, named⟩
    · obtain ⟨digits, rfl, run⟩ := ofNumbered?_eq_some_iff.mp numbered
      exact .numbered run r.isLt
    · exact spells_of_ofAlias? named

/-- What is spelled is read, whichever reader comes first. -/
theorem Spells.read {text : List Char} {i : Nat} (spelled : Spells text i) :
    ∃ r : Reg, r.val = i ∧ ofSpelling? text = some r := by
  have named : ∀ r : Reg, ofSpelling? (name r).toList = some r := by decide +kernel
  cases spelled with
  | index run small =>
    have index : ofIndex? text = some ⟨i, small⟩ := ofIndex?_eq_some_iff.mpr run
    refine ⟨⟨i, small⟩, rfl, ?_⟩
    unfold ofSpelling?
    rw [index, Option.some_or]
  | @numbered digits _ run small =>
    have numbered : ofNumbered? ('r' :: digits) = some ⟨i, small⟩ :=
      ofNumbered?_eq_some_iff.mpr ⟨digits, rfl, run⟩
    -- the letter is no digit, so the first reader passes
    have passed : ofIndex? ('r' :: digits) = none := by
      refine Option.eq_none_iff_forall_ne_some.mpr fun r index => ?_
      have digit := Numeral.isDigit_of_isRun (ofIndex?_eq_some_iff.mp index)
      exact absurd (digit 'r' List.mem_cons_self) (by decide)
    refine ⟨⟨i, small⟩, rfl, ?_⟩
    unfold ofSpelling?
    rw [passed, numbered, Option.none_or, Option.some_or]
  | conventional listed =>
    obtain ⟨lt, rfl⟩ := Vector.getElem?_eq_some_iff.mp listed
    exact ⟨⟨i, lt⟩, rfl, named ⟨i, lt⟩⟩
  | saved => exact ⟨30, rfl, by decide⟩

/-- A text is read as the register whose index it spells. -/
theorem map_ofSpelling?_eq_some_iff {text : List Char} {i : Nat} :
    (ofSpelling? text).map Fin.val = some i ↔ Spells text i := by
  rw [Option.map_eq_some_iff]
  constructor
  · rintro ⟨r, found, rfl⟩
    exact spells_of_ofSpelling? found
  · intro spelled
    obtain ⟨r, here, found⟩ := spelled.read
    exact ⟨r, found, here⟩

/-! ## Tokens -/

/-- A token is looked up as the register whose index it names, in any letter case and between
blanks. -/
theorem map_ofToken?_eq_some_iff {token : List Char} {i : Nat} :
    (ofToken? token).map Fin.val = some i ↔ Names (Text.lower (Text.trim token)) i := by
  have read (text : List Char) :
      (ofIndex? text).or ((ofNumbered? text).or (ofAlias? text)) = ofSpelling? text := rfl
  unfold ofToken?
  generalize Text.lower (Text.trim token) = text
  dsimp only
  rw [read, map_ofSpelling?_eq_some_iff]
  split
  · constructor
    · exact .marked
    · intro names
      cases names with
      | bare spelled => exact absurd spelled not_spells_marked
      | marked spelled => exact spelled
  · next plain =>
    constructor
    · exact .bare
    · intro names
      cases names with
      | bare spelled => exact spelled
      | marked spelled => exact absurd rfl (plain _)

/-- Register tokens, exactly: a token is looked up if and only if it names an index in one of the
four spellings, with one `$` in front at most, and then as the register of that index. Adding up the
digits of an index in a total of 64 bits that overflows decides the same, and every index that is
found is below 32. -/
theorem tokens_exact :
    (∀ (token : List Char) (i : Nat),
      (ofToken? token).map Fin.val = some i ↔ Names (Text.lower (Text.trim token)) i) ∧
    (∀ digits : List Char, (ofIndex? digits).map Fin.val =
      (Numeral.valueBelow? (2 ^ 64) 10 digits).filter (· < 32)) ∧
    ∀ (token : List Char) (i : Nat), (ofToken? token).map Fin.val = some i → i < 32 := by
  refine ⟨fun token i => map_ofToken?_eq_some_iff, map_ofIndex?_eq (by decide), ?_⟩
  intro token i found
  exact (map_ofToken?_eq_some_iff.mp found).lt

/-- Zeros in front of an index do not count, however many they are, and a number that 64 bits would
wrap to an index is none. -/
theorem tokens_exact_of_zeros :
    ((ofToken? ('\u00a0' :: '$' :: 'R' :: List.replicate 60 '0' ++ ['3', '1', '\t'])).map Fin.val =
        some 31 ∧ 31 < 32) ∧
      Names ('$' :: 'r' :: List.replicate 60 '0' ++ ['3', '1']) 31 ∧
      (Numeral.valueBelow? (2 ^ 64) 10 "18446744073709551647".toList).filter (· < 32) = none := by
  obtain ⟨exactly, total, below⟩ := tokens_exact
  have found : (ofToken? ('\u00a0' :: '$' :: 'R' :: List.replicate 60 '0' ++ ['3', '1', '\t'])).map
      Fin.val = some 31 := by decide +kernel
  refine ⟨⟨found, below _ _ found⟩, (exactly _ _).mp found, ?_⟩
  rw [← total]
  decide +kernel

end TinyMips.Reg
