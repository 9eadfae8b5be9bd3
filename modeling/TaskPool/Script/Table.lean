/-!
# Tables

A table gives values to names. Putting a name that is in the table replaces its value in place, so
no name occurs twice.
-/

namespace TaskPool

/-- Values by name, in the order in which the names were first put. -/
abbrev Table (α : Type) := List (String × α)

namespace Table

variable {α : Type}

def find? (name : String) : Table α → Option α
  | [] => none
  | (key, value) :: rest => if key = name then some value else find? name rest

def put (name : String) (value : α) : Table α → Table α
  | [] => [(name, value)]
  | (key, old) :: rest =>
    if key = name then (key, value) :: rest else (key, old) :: put name value rest

def remove (name : String) (table : Table α) : Table α := table.filter (·.1 ≠ name)

/-- The least name whose value is wanted. Names are compared by code points. -/
def leastName? (wanted : α → Bool) (table : Table α) : Option String :=
  table.foldl (fun least (name, value) =>
    if wanted value then
      match least with
      | some other => if name < other then some name else least
      | none => some name
    else least) none

theorem find?_put_self (name : String) (value : α) (table : Table α) :
    find? name (put name value table) = some value := by
  induction table with
  | nil => simp [put, find?]
  | cons entry rest ih =>
    obtain ⟨key, old⟩ := entry
    by_cases same : key = name <;> simp [put, find?, same, ih]

theorem find?_put_of_ne {name other : String} (value : α) (table : Table α)
    (different : other ≠ name) : find? other (put name value table) = find? other table := by
  induction table with
  | nil => simp [put, find?, different.symm]
  | cons entry rest ih =>
    obtain ⟨key, old⟩ := entry
    by_cases same : key = name
    · subst same
      simp [put, find?, different.symm]
    · by_cases found : key = other
      · subst found
        simp [put, find?, different]
      · simp [put, find?, same, found, ih]

theorem find?_remove_self (name : String) (table : Table α) :
    find? name (remove name table) = none := by
  induction table with
  | nil => rfl
  | cons entry rest ih =>
    obtain ⟨key, old⟩ := entry
    by_cases same : key = name
    · simpa [remove, List.filter_cons, same] using ih
    · simpa [remove, List.filter_cons, find?, same] using ih

theorem find?_remove_of_ne {name other : String} (table : Table α) (different : other ≠ name) :
    find? other (remove name table) = find? other table := by
  induction table with
  | nil => rfl
  | cons entry rest ih =>
    obtain ⟨key, old⟩ := entry
    by_cases same : key = name
    · subst same
      simpa [remove, List.filter_cons, find?, different.symm] using ih
    · by_cases found : key = other
      · subst found
        simp [remove, find?, same]
      · simpa [remove, List.filter_cons, find?, same, found] using ih

theorem mem_of_find? {name : String} {value : α} {table : Table α}
    (found : find? name table = some value) : (name, value) ∈ table := by
  induction table with
  | nil => simp [find?] at found
  | cons entry rest ih =>
    obtain ⟨key, old⟩ := entry
    by_cases same : key = name
    · subst same
      simp only [find?, if_true, Option.some.injEq] at found
      simp [found]
    · simp only [find?, same, if_false] at found
      exact List.mem_cons_of_mem _ (ih found)

/-- A new name is put last. -/
theorem put_unknown {name : String} (value : α) {table : Table α}
    (unknown : find? name table = none) : put name value table = table ++ [(name, value)] := by
  induction table with
  | nil => rfl
  | cons entry rest ih =>
    obtain ⟨key, old⟩ := entry
    by_cases same : key = name
    · simp [find?, same] at unknown
    · simp only [find?, same, if_false] at unknown
      simp [put, same, ih unknown]

end Table

end TaskPool
