/-!
# Bindings

Names bound to values, in the order in which they were first bound. Binding a name again replaces
its value and keeps its place.
-/

namespace Reckoner

/-- Names and their values. -/
abbrev Bindings (α : Type) := List (String × α)

namespace Bindings

variable {α β : Type}

/-- The value of a name. -/
def get? (name : String) : Bindings α → Option α
  | [] => none
  | (n, v) :: rest => if n = name then some v else get? name rest

/-- Binds a name. -/
def set (name : String) (value : α) : Bindings α → Bindings α
  | [] => [(name, value)]
  | (n, v) :: rest => if n = name then (n, value) :: rest else (n, v) :: set name value rest

/-- Binds the listed names one after the other. -/
def ofPairs (pairs : List (String × α)) : Bindings α :=
  pairs.foldl (fun bound (name, value) => bound.set name value) []

/-- Applies a function to every value. -/
def mapValues (f : α → β) (bound : Bindings α) : Bindings β :=
  bound.map fun (name, value) => (name, f value)

/-- A name has the value that it was bound to last. -/
@[simp]
theorem get?_set_self (name : String) (value : α) (bound : Bindings α) :
    (bound.set name value).get? name = some value := by
  induction bound with
  | nil => simp [set, get?]
  | cons pair rest ih =>
    obtain ⟨n, v⟩ := pair
    by_cases h : n = name
    · simp [set, get?, h]
    · simp [set, get?, h, ih]

/-- Binding a name leaves the other names alone. -/
theorem get?_set_of_ne {name other : String} (different : other ≠ name) (value : α)
    (bound : Bindings α) : (bound.set name value).get? other = bound.get? other := by
  induction bound with
  | nil => simp [set, get?, different.symm]
  | cons pair rest ih =>
    obtain ⟨n, v⟩ := pair
    by_cases h : n = name
    · subst h
      simp [set, get?, different.symm]
    · simp [set, get?, h, ih]

/-- A name has a value that is listed with it. -/
theorem mem_of_get? {name : String} {value : α} {bound : Bindings α}
    (h : bound.get? name = some value) : (name, value) ∈ bound := by
  induction bound with
  | nil => cases h
  | cons pair rest ih =>
    obtain ⟨n, v⟩ := pair
    rw [get?] at h
    split at h
    · next same =>
      cases h
      rw [same]
      exact List.mem_cons_self
    · exact List.mem_cons_of_mem _ (ih h)

/-- Binding a name commutes with applying a function to every value. -/
theorem mapValues_set (f : α → β) (name : String) (value : α) (bound : Bindings α) :
    (bound.set name value).mapValues f = (bound.mapValues f).set name (f value) := by
  induction bound with
  | nil => rfl
  | cons pair rest ih =>
    obtain ⟨n, v⟩ := pair
    rw [set]
    unfold mapValues at ih ⊢
    rw [List.map_cons, set]
    split
    · rfl
    · rw [List.map_cons, ih]

end Bindings

end Reckoner
