import TinyMips.Diagnostic.Message

/-!
# Checks that report everything

Checking a piece of source gives its value or every reason why it was refused, and the warnings
that arise either way. Pieces are combined as an applicative functor: a refused piece does not
hide what its neighbours report, and reports keep the order of the pieces.
-/

namespace TinyMips

/-- The outcome of checking a piece of source. -/
structure Checked (α : Type) where
  result : Except (List Message) α
  warnings : List Message := []

namespace Checked

variable {α β : Type}

/-- An accepted value. -/
def accept (value : α) : Checked α :=
  { result := .ok value }

/-- A refusal for one reason. -/
def reject (reason : Message) : Checked α :=
  { result := .error [reason] }

/-- The reasons of a refusal; an accepted value has none. -/
def errors (checked : Checked α) : List Message :=
  match checked.result with
  | .ok _ => []
  | .error reasons => reasons

/-- The accepted value. -/
def value? (checked : Checked α) : Option α :=
  checked.result.toOption

/-- The outcome with a function applied to the value. -/
def map (f : α → β) (checked : Checked α) : Checked β :=
  { result := checked.result.map f, warnings := checked.warnings }

/-- Both outcomes together: the function applied to the value, or the reasons of the first and then
those of the second. -/
def ap (f : Checked (α → β)) (checked : Checked α) : Checked β :=
  { result := match f.result, checked.result with
      | .ok g, .ok a => .ok (g a)
      | .ok _, .error reasons => .error reasons
      | .error reasons, .ok _ => .error reasons
      | .error first, .error second => .error (first ++ second)
    warnings := f.warnings ++ checked.warnings }

instance : Applicative Checked where
  pure := accept
  map := map
  seq f checked := ap f (checked ())

@[simp] theorem map_eq_map (f : α → β) (checked : Checked α) : f <$> checked = checked.map f := rfl

@[simp] theorem seq_eq_ap (f : Checked (α → β)) (checked : Checked α) :
    f <*> checked = ap f checked := rfl

@[simp] theorem errors_map (f : α → β) (checked : Checked α) :
    (checked.map f).errors = checked.errors := by
  cases h : checked.result <;> simp [errors, map, Except.map, h]

/-- Refusals of both parts are all reported, those of the first part first. -/
@[simp] theorem errors_ap (f : Checked (α → β)) (checked : Checked α) :
    (ap f checked).errors = f.errors ++ checked.errors := by
  cases hf : f.result <;> cases hc : checked.result <;> simp [errors, ap, hf, hc]

@[simp] theorem warnings_map (f : α → β) (checked : Checked α) :
    (checked.map f).warnings = checked.warnings := rfl

@[simp] theorem warnings_ap (f : Checked (α → β)) (checked : Checked α) :
    (ap f checked).warnings = f.warnings ++ checked.warnings := rfl

/-- The value of a search, or a refusal when it found nothing. -/
def ofOption (found : Option α) (reason : Message) : Checked α :=
  match found with
  | some value => accept value
  | none => reject reason

/-- The outcomes of a list of checks, in order. -/
def all : List (Checked α) → Checked (List α)
  | [] => accept []
  | first :: rest => ap (map List.cons first) (all rest)

/-- The outcome with one more reason, after the others, if it is a refusal. -/
def withSummary (checked : Checked α) (summary : Message) : Checked α :=
  match checked.result with
  | .ok _ => checked
  | .error reasons => { checked with result := .error (reasons ++ [summary]) }

end Checked

end TinyMips
