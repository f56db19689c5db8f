/-!
# Keyed lists

Finite maps as lists of keys with values. `lookup` from the core library reads any of
them; the functions here write, either keeping keys in ascending order or in the order of
their first entry.
-/

namespace DependencyFiles.Keyed

variable {α : Type}

/-- Enter a value into a list in ascending order of keys, in place of an earlier value of its key. -/
def insert (key : String) (value : α) : List (String × α) → List (String × α)
  | [] => [(key, value)]
  | (k, v) :: rest =>
    if key < k then (key, value) :: (k, v) :: rest
    else if key = k then (key, value) :: rest
    else (k, v) :: insert key value rest

/-- The entries in ascending order of keys; of several values of one key the last one stays. -/
def sorted (entries : List (String × α)) : List (String × α) :=
  entries.foldl (fun done entry => insert entry.1 entry.2 done) []

/-- The key just entered has the value entered with it. -/
theorem lookup_insert_self (key : String) (value : α) (entries : List (String × α)) :
    (insert key value entries).lookup key = some value := by
  induction entries with
  | nil => simp [insert]
  | cons entry rest ih =>
    obtain ⟨k, v⟩ := entry
    simp only [insert]
    split
    · simp
    · split
      · simp
      · rename_i hne
        rw [List.lookup_cons, beq_false_of_ne hne]
        exact ih

end DependencyFiles.Keyed
