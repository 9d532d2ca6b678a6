import TinyMips.Proofs.Json.Reader

/-!
# The grammar derives what is read

The reader accepts no text outside the grammar, so together with its completeness a text is read as
a value if and only if it is a document of that value (`Json.ofDocument?_eq_some_iff`).
-/

namespace TinyMips.Json

/-! ## Tokens -/

/-- The blanks that are skipped. -/
theorem exists_skipSpace (text : List Char) :
    ∃ blanks, IsSpaces blanks ∧ text = blanks ++ skipSpace text :=
  ⟨text.takeWhile isSpace, fun _ => List.mem_takeWhile_imp,
    List.takeWhile_append_dropWhile.symm⟩

theorem of_readString?_eq_some {text body rest : List Char}
    (h : readString? text = some (body, rest)) : IsStringBody body ∧ text = body ++ '"' :: rest := by
  fun_induction readString? text generalizing body with
  | case1 rest' =>
    obtain ⟨rfl, rfl⟩ := Prod.mk.inj (Option.some.inj h)
    exact ⟨.nil, rfl⟩
  | case2 a b c d text known ih =>
    obtain ⟨⟨body, more⟩, read, same⟩ := Option.map_eq_some_iff.mp h
    obtain ⟨rfl, rfl⟩ := Prod.mk.inj same
    obtain ⟨spelled, rfl⟩ := ih read
    obtain ⟨n, unit⟩ := isSome_unit?_iff.mp known
    exact ⟨.unicode unit spelled, rfl⟩
  | case4 c text _ known ih =>
    obtain ⟨⟨body, more⟩, read, same⟩ := Option.map_eq_some_iff.mp h
    obtain ⟨rfl, rfl⟩ := Prod.mk.inj same
    obtain ⟨spelled, rfl⟩ := ih read
    exact ⟨.escape (isSome_simpleEscape?_iff.mp known) spelled, rfl⟩
  | case7 c text noQuote _ _ allowed ih =>
    obtain ⟨⟨body, more⟩, read, same⟩ := Option.map_eq_some_iff.mp h
    obtain ⟨rfl, rfl⟩ := Prod.mk.inj same
    obtain ⟨spelled, rfl⟩ := ih read
    obtain ⟨noEscape, visible⟩ := not_or.mp allowed
    exact ⟨.plain (Nat.not_lt.mp visible) noQuote noEscape spelled, rfl⟩
  | case3 => contradiction
  | case5 => contradiction
  | case6 => contradiction
  | case8 => contradiction

theorem of_readDigits?_eq_some {text digits rest : List Char}
    (h : readDigits? text = some (digits, rest)) : IsDigits digits ∧ text = digits ++ rest := by
  unfold readDigits? readDigits at h
  dsimp only at h
  split at h
  · contradiction
  · next some =>
    obtain ⟨rfl, rfl⟩ := Prod.mk.inj (Option.some.inj h)
    exact ⟨⟨by simpa using some, fun _ => List.mem_takeWhile_imp⟩,
      List.takeWhile_append_dropWhile.symm⟩

theorem of_readWhole?_eq_some {text whole rest : List Char}
    (h : readWhole? text = some (whole, rest)) : IsWhole whole ∧ text = whole ++ rest := by
  unfold readWhole? at h
  split at h
  · obtain ⟨rfl, rfl⟩ := Prod.mk.inj (Option.some.inj h)
    exact ⟨.inl rfl, rfl⟩
  · next nonzero =>
    obtain ⟨digits, rfl⟩ := of_readDigits?_eq_some h
    refine ⟨.inr ⟨digits, ?_⟩, rfl⟩
    obtain ⟨c, more, rfl⟩ := List.exists_cons_of_ne_nil digits.1
    intro zero
    obtain rfl : c = '0' := Option.some.inj zero
    exact nonzero _ rfl

theorem of_readFraction?_eq_some {text fraction rest : List Char}
    (h : readFraction? text = some (fraction, rest)) :
    IsFraction fraction ∧ text = fraction ++ rest := by
  unfold readFraction? at h
  split at h
  · obtain ⟨⟨digits, more⟩, read, same⟩ := Option.map_eq_some_iff.mp h
    obtain ⟨rfl, rfl⟩ := Prod.mk.inj same
    obtain ⟨run, rfl⟩ := of_readDigits?_eq_some read
    exact ⟨.inr ⟨digits, run, rfl⟩, rfl⟩
  · obtain ⟨rfl, rfl⟩ := Prod.mk.inj (Option.some.inj h)
    exact ⟨.inl rfl, rfl⟩

theorem of_readSign_eq {text sign rest : List Char} (h : readSign text = (sign, rest)) :
    (sign = [] ∨ sign = ['+'] ∨ sign = ['-']) ∧ text = sign ++ rest := by
  unfold readSign at h
  split at h <;> obtain ⟨rfl, rfl⟩ := Prod.mk.inj h <;> simp

theorem of_readExponent?_eq_some {text exponent rest : List Char}
    (h : readExponent? text = some (exponent, rest)) :
    IsExponent exponent ∧ text = exponent ++ rest := by
  unfold readExponent? at h
  split at h
  · next c text =>
    split at h
    · next marked =>
      cases first : readSign text with
      | mk sign tail =>
        rw [first] at h
        obtain ⟨signed, rfl⟩ := of_readSign_eq first
        obtain ⟨⟨digits, more⟩, read, same⟩ := Option.map_eq_some_iff.mp h
        obtain ⟨rfl, rfl⟩ := Prod.mk.inj same
        obtain ⟨run, rfl⟩ := of_readDigits?_eq_some read
        exact ⟨.inr ⟨c, sign, digits, marked, signed, run, rfl⟩, by simp⟩
    · obtain ⟨rfl, rfl⟩ := Prod.mk.inj (Option.some.inj h)
      exact ⟨.inl rfl, rfl⟩
  · obtain ⟨rfl, rfl⟩ := Prod.mk.inj (Option.some.inj h)
    exact ⟨.inl rfl, rfl⟩

theorem of_readMagnitude?_eq_some {text magnitude rest : List Char}
    (h : readMagnitude? text = some (magnitude, rest)) :
    IsMagnitude magnitude ∧ text = magnitude ++ rest := by
  unfold readMagnitude? at h
  obtain ⟨⟨whole, text₁⟩, first, h⟩ := Option.bind_eq_some_iff.mp h
  obtain ⟨⟨fraction, text₂⟩, second, h⟩ := Option.bind_eq_some_iff.mp h
  obtain ⟨⟨exponent, text₃⟩, third, h⟩ := Option.bind_eq_some_iff.mp h
  obtain ⟨rfl, rfl⟩ := Prod.mk.inj (Option.some.inj h)
  obtain ⟨start, rfl⟩ := of_readWhole?_eq_some first
  obtain ⟨middle, rfl⟩ := of_readFraction?_eq_some second
  obtain ⟨finish, rfl⟩ := of_readExponent?_eq_some third
  exact ⟨.mk start middle finish, by simp⟩

theorem of_readNumber?_eq_some {text literal rest : List Char}
    (h : readNumber? text = some (literal, rest)) : IsNumber literal ∧ text = literal ++ rest := by
  unfold readNumber? at h
  split at h
  · obtain ⟨⟨magnitude, more⟩, read, same⟩ := Option.map_eq_some_iff.mp h
    obtain ⟨rfl, rfl⟩ := Prod.mk.inj same
    obtain ⟨magnitude, rfl⟩ := of_readMagnitude?_eq_some read
    exact ⟨.minus magnitude, rfl⟩
  · obtain ⟨magnitude, rfl⟩ := of_readMagnitude?_eq_some h
    exact ⟨.plain magnitude, rfl⟩

/-! ## Values -/

/-- What is read with some fuel is of the grammar. -/
structure Sound (fuel : Nat) : Prop where
  value {text rest : List Char} {value : Json} (h : readValue? fuel text = some (value, rest)) :
    ∃ before spelled, IsSpaces before ∧ Spells value spelled ∧ text = before ++ spelled ++ rest
  elements {text rest : List Char} {elements : List Json}
    (h : readElements? fuel text = some (elements, rest)) :
    ∃ spelled, SpellsElements elements spelled ∧ text = spelled ++ ']' :: rest
  members {text rest : List Char} {members : List (String × Json)}
    (h : readMembers? fuel text = some (members, rest)) :
    ∃ spelled, SpellsMembers members spelled ∧ text = spelled ++ '\x7d' :: rest

theorem Sound.zero : Sound 0 where
  value h := nomatch h
  elements h := nomatch h
  members h := nomatch h

theorem Sound.readValue? {fuel : Nat} (sound : Sound fuel) {text rest : List Char} {value : Json}
    (h : readValue? (fuel + 1) text = some (value, rest)) :
    ∃ before spelled, IsSpaces before ∧ Spells value spelled ∧ text = before ++ spelled ++ rest := by
  obtain ⟨before, blank, whole⟩ := exists_skipSpace text
  suffices ∃ spelled, Spells value spelled ∧ skipSpace text = spelled ++ rest by
    obtain ⟨spelled, spells, same⟩ := this
    exact ⟨before, spelled, blank, spells, by rw [List.append_assoc, ← same, ← whole]⟩
  unfold Json.readValue? at h
  split at h
  · next same =>
    obtain ⟨rfl, rfl⟩ := Prod.mk.inj (Option.some.inj h)
    exact ⟨_, .null, same⟩
  · next same =>
    obtain ⟨rfl, rfl⟩ := Prod.mk.inj (Option.some.inj h)
    exact ⟨_, .truth, same⟩
  · next same =>
    obtain ⟨rfl, rfl⟩ := Prod.mk.inj (Option.some.inj h)
    exact ⟨_, .falsehood, same⟩
  · next text same =>
    obtain ⟨⟨literal, more⟩, read, inner⟩ := Option.map_eq_some_iff.mp h
    obtain ⟨rfl, rfl⟩ := Prod.mk.inj inner
    obtain ⟨body, rfl⟩ := of_readString?_eq_some read
    exact ⟨_, .string body, by simp [same]⟩
  · next text same =>
    obtain ⟨blanks, blank, inside⟩ := exists_skipSpace text
    split at h
    · next closed =>
      obtain ⟨rfl, rfl⟩ := Prod.mk.inj (Option.some.inj h)
      rw [closed] at inside
      exact ⟨_, .emptyArray blank, by simp [same, inside]⟩
    · obtain ⟨⟨elements, more⟩, read, inner⟩ := Option.map_eq_some_iff.mp h
      obtain ⟨rfl, rfl⟩ := Prod.mk.inj inner
      rw [readElements?_skipSpace] at read
      obtain ⟨spelled, spells, rfl⟩ := sound.elements read
      exact ⟨_, .array spells, by simp [same]⟩
  · next text same =>
    obtain ⟨blanks, blank, inside⟩ := exists_skipSpace text
    split at h
    · next closed =>
      obtain ⟨rfl, rfl⟩ := Prod.mk.inj (Option.some.inj h)
      rw [closed] at inside
      exact ⟨_, .emptyObject blank, by simp [same, inside]⟩
    · obtain ⟨⟨members, more⟩, read, inner⟩ := Option.map_eq_some_iff.mp h
      obtain ⟨rfl, rfl⟩ := Prod.mk.inj inner
      rw [readMembers?_skipSpace] at read
      obtain ⟨spelled, spells, rfl⟩ := sound.members read
      exact ⟨_, .object spells, by simp [same]⟩
  · obtain ⟨⟨literal, more⟩, read, inner⟩ := Option.map_eq_some_iff.mp h
    obtain ⟨rfl, rfl⟩ := Prod.mk.inj inner
    obtain ⟨number, same⟩ := of_readNumber?_eq_some read
    exact ⟨_, .number number, same⟩

theorem Sound.readElements? {fuel : Nat} (sound : Sound fuel) {text rest : List Char}
    {elements : List Json} (h : readElements? (fuel + 1) text = some (elements, rest)) :
    ∃ spelled, SpellsElements elements spelled ∧ text = spelled ++ ']' :: rest := by
  unfold Json.readElements? at h
  split at h
  · contradiction
  · next element tail first =>
    obtain ⟨before, spelled, blank, spells, rfl⟩ := sound.value first
    obtain ⟨after, blank', whole⟩ := exists_skipSpace tail
    split at h
    · next closed =>
      obtain ⟨rfl, rfl⟩ := Prod.mk.inj (Option.some.inj h)
      rw [closed] at whole
      exact ⟨_, .last blank spells blank', by simp [whole]⟩
    · next more comma =>
      obtain ⟨⟨others, end'⟩, read, inner⟩ := Option.map_eq_some_iff.mp h
      obtain ⟨rfl, rfl⟩ := Prod.mk.inj inner
      obtain ⟨later, spells', rfl⟩ := sound.elements read
      rw [comma] at whole
      exact ⟨_, .cons blank spells blank' spells', by simp [whole]⟩
    · contradiction

theorem Sound.readMembers? {fuel : Nat} (sound : Sound fuel) {text rest : List Char}
    {members : List (String × Json)} (h : readMembers? (fuel + 1) text = some (members, rest)) :
    ∃ spelled, SpellsMembers members spelled ∧ text = spelled ++ '\x7d' :: rest := by
  obtain ⟨before, blankBefore, whole⟩ := exists_skipSpace text
  unfold Json.readMembers? at h
  split at h
  · next quoted quote =>
    split at h
    · contradiction
    · next key named name =>
      obtain ⟨body, rfl⟩ := of_readString?_eq_some name
      obtain ⟨behind, blankBehind, middle⟩ := exists_skipSpace named
      split at h
      · next valued colon =>
        split at h
        · contradiction
        · next value tail reads =>
          obtain ⟨ahead, spelled, blankAhead, spells, rfl⟩ := sound.value reads
          obtain ⟨after, blankAfter, last⟩ := exists_skipSpace tail
          have member := SpellsMember.mk blankBefore body blankBehind blankAhead spells blankAfter
          rw [colon] at middle
          rw [quote] at whole
          split at h
          · next closed =>
            obtain ⟨rfl, rfl⟩ := Prod.mk.inj (Option.some.inj h)
            rw [closed] at last
            exact ⟨_, .last member, by simp [whole, middle, last]⟩
          · next more comma =>
            obtain ⟨⟨others, end'⟩, read, inner⟩ := Option.map_eq_some_iff.mp h
            obtain ⟨rfl, rfl⟩ := Prod.mk.inj inner
            obtain ⟨later, spells', rfl⟩ := sound.members read
            rw [comma] at last
            exact ⟨_, .cons member spells', by simp [whole, middle, last]⟩
          · contradiction
      · contradiction
  · contradiction

/-- However much fuel there is. -/
theorem sound (fuel : Nat) : Sound fuel := by
  induction fuel with
  | zero => exact .zero
  | succ fuel ih => exact ⟨ih.readValue?, ih.readElements?, ih.readMembers?⟩

/-! ## Documents -/

theorem document_of_ofDocument? {value : Json} {text : String}
    (h : ofDocument? text.toList = some value) : Document value text := by
  unfold ofDocument? at h
  split at h
  · next value' rest read =>
    obtain ⟨before, spelled, blank, spells, whole⟩ := (sound _).value read
    obtain ⟨after, blank', tail⟩ := exists_skipSpace rest
    split at h
    · next ended =>
      obtain rfl := Option.some.inj h
      rw [List.isEmpty_iff.mp ended, List.append_nil] at tail
      exact ⟨before, spelled, rest, blank, spells, tail ▸ blank', whole⟩
    · contradiction
  · contradiction

/-- **The reader decides the grammar.** -/
theorem ofDocument?_eq_some_iff {value : Json} {text : String} :
    ofDocument? text.toList = some value ↔ Document value text :=
  ⟨document_of_ofDocument?, ofDocument?_of_document⟩

end TinyMips.Json
