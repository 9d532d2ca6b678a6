import TinyMips.Assembly.Checked

/-!
# Values and reasons of composed checks

What a composed check accepts is put together from what its parts accept, one equation for each way
to compose, and whatever it refuses it gives a reason for:

* **values** — `Checked.value?_map`, `Checked.value?_ap`, `Checked.value?_withSummary`;
* **reasons** — `Checked.Explained` holds of the single checks and is kept by every composition
  (`Checked.Explained.map`, `Checked.Explained.ap`, `Checked.Explained.all`);
* **warnings** — those of the parts, in order, beside `Checked.warnings_map` and
  `Checked.warnings_ap`.
-/

namespace TinyMips.Checked

variable {α β : Type}

/-! ## Values -/

@[simp] theorem value?_accept (value : α) : (accept value).value? = some value := rfl

@[simp] theorem value?_reject (reason : Message) : (reject reason : Checked α).value? = none := rfl

@[simp] theorem value?_map (f : α → β) (checked : Checked α) :
    (checked.map f).value? = checked.value?.map f := by
  unfold map value?
  cases checked.result <;> rfl

@[simp] theorem value?_ap (f : Checked (α → β)) (checked : Checked α) :
    (ap f checked).value? = f.value?.bind fun g => checked.value?.map g := by
  unfold ap value?
  cases f.result <;> cases checked.result <;> rfl

@[simp] theorem value?_ofOption (found : Option α) (reason : Message) :
    (ofOption found reason).value? = found := by
  cases found <;> rfl

@[simp] theorem value?_withSummary (checked : Checked α) (summary : Message) :
    (checked.withSummary summary).value? = checked.value? := by
  unfold withSummary value?
  cases h : checked.result with
  | ok value => simp [h]
  | error reasons => rfl

/-- An accepted check is its value and its warnings. -/
theorem eq_of_value? {checked : Checked α} {value : α} (h : checked.value? = some value) :
    checked = { result := .ok value, warnings := checked.warnings } := by
  obtain ⟨result, warnings⟩ := checked
  cases result with
  | error reasons => contradiction
  | ok other =>
    obtain rfl := Option.some.inj h
    rfl

theorem errors_of_value? {checked : Checked α} {value : α}
    (accepted : checked.value? = some value) : checked.errors = [] := by
  rw [eq_of_value? accepted]
  rfl

/-- A list of checks is accepted with one value for each. -/
theorem length_of_all {checks : List (Checked α)} {values : List α}
    (h : (all checks).value? = some values) : values.length = checks.length := by
  induction checks generalizing values with
  | nil =>
    obtain rfl := Option.some.inj h
    rfl
  | cons first rest ih =>
    simp only [all, value?_ap, value?_map, Option.bind_eq_some_iff, Option.map_eq_some_iff] at h
    obtain ⟨_, ⟨value, -, rfl⟩, others, accepted, rfl⟩ := h
    rw [List.length_cons, ih accepted, List.length_cons]

/-- A list of checks is accepted with the values of all of them. -/
theorem eq_filterMap_of_all {checks : List (Checked α)} {values : List α}
    (h : (all checks).value? = some values) : values = checks.filterMap value? := by
  induction checks generalizing values with
  | nil => exact (Option.some.inj h).symm
  | cons first rest ih =>
    simp only [all, value?_ap, value?_map, Option.bind_eq_some_iff, Option.map_eq_some_iff] at h
    obtain ⟨_, ⟨value, own, rfl⟩, others, accepted, rfl⟩ := h
    rw [List.filterMap_cons, own, ← ih accepted]

/-! ## Reasons -/

/-- Whether a check accepts unless it gives a reason. -/
def Explained (checked : Checked α) : Prop :=
  checked.errors = [] → ∃ value, checked.value? = some value

theorem Explained.errors_eq_nil_iff {checked : Checked α} (h : checked.Explained) :
    checked.errors = [] ↔ ∃ value, checked.value? = some value :=
  ⟨h, fun ⟨_, accepted⟩ => errors_of_value? accepted⟩

theorem explained_accept (value : α) : (accept value).Explained :=
  fun _ => ⟨value, rfl⟩

theorem explained_reject (reason : Message) : (reject reason : Checked α).Explained :=
  nofun

theorem explained_ofOption (found : Option α) (reason : Message) :
    (ofOption found reason).Explained := by
  cases found with
  | none => exact explained_reject reason
  | some value => exact explained_accept value

theorem Explained.map {checked : Checked α} (h : checked.Explained) (f : α → β) :
    (checked.map f).Explained := by
  intro silent
  rw [errors_map] at silent
  obtain ⟨value, accepted⟩ := h silent
  exact ⟨f value, by rw [value?_map, accepted]; rfl⟩

theorem Explained.ap {f : Checked (α → β)} {checked : Checked α} (hf : f.Explained)
    (h : checked.Explained) : (ap f checked).Explained := by
  intro silent
  rw [errors_ap, List.append_eq_nil_iff] at silent
  obtain ⟨g, function⟩ := hf silent.1
  obtain ⟨value, accepted⟩ := h silent.2
  exact ⟨g value, by rw [value?_ap, function, accepted]; rfl⟩

theorem Explained.all {checks : List (Checked α)} (h : ∀ checked ∈ checks, checked.Explained) :
    (all checks).Explained := by
  induction checks with
  | nil => exact explained_accept []
  | cons first rest ih =>
    have later := ih fun checked mem => h checked (List.mem_cons_of_mem _ mem)
    exact ((h first List.mem_cons_self).map _).ap later

/-- A summary is a reason, whatever the check gave before. -/
theorem explained_withSummary (checked : Checked α) (summary : Message) :
    (checked.withSummary summary).Explained := by
  unfold withSummary
  cases h : checked.result with
  | ok value =>
    intro _
    exact ⟨value, by simp only [value?, h]; rfl⟩
  | error reasons =>
    intro silent
    exact absurd silent (List.append_ne_nil_of_right_ne_nil _ (List.cons_ne_nil _ _))

/-! ## Warnings -/

@[simp] theorem warnings_accept (value : α) : (accept value).warnings = [] := rfl

@[simp] theorem warnings_reject (reason : Message) :
    (reject reason : Checked α).warnings = [] := rfl

@[simp] theorem warnings_ofOption (found : Option α) (reason : Message) :
    (ofOption found reason).warnings = [] := by
  cases found <;> rfl

@[simp] theorem warnings_withSummary (checked : Checked α) (summary : Message) :
    (checked.withSummary summary).warnings = checked.warnings := by
  unfold withSummary
  split <;> rfl

theorem warnings_all_eq_nil {checks : List (Checked α)}
    (h : ∀ checked ∈ checks, checked.warnings = []) : (all checks).warnings = [] := by
  induction checks with
  | nil => rfl
  | cons first rest ih =>
    have later := ih fun checked mem => h checked (List.mem_cons_of_mem _ mem)
    simp [all, later, h first List.mem_cons_self]

end TinyMips.Checked
