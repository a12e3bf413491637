/-!
# Entries under names

A list of names with values, kept in the order of the names with each name at
most once. Inserting under a name that is present replaces its value.
-/
namespace FeedClient.Entries

/-- Puts a value under a name. -/
def insert {α : Type} (name : String) (a : α) : List (String × α) → List (String × α)
  | [] => [(name, a)]
  | (n, b) :: rest =>
    if name = n then (name, a) :: rest
    else if name < n then (name, a) :: (n, b) :: rest
    else (n, b) :: insert name a rest

/-- The value under a name. -/
def find? {α : Type} (name : String) : List (String × α) → Option α
  | [] => none
  | (n, a) :: rest => if n = name then some a else find? name rest

/-- All pairs put in one after another, so that the last value of a name stays. -/
def ofPairs {α : Type} (pairs : List (String × α)) : List (String × α) :=
  pairs.foldl (fun entries p => insert p.1 p.2 entries) []

theorem find?_insert {α : Type} (name other : String) (a : α) (entries : List (String × α)) :
    find? other (insert name a entries) = if name = other then some a else find? other entries := by
  induction entries with
  | nil => simp [insert, find?]
  | cons e rest ih =>
    obtain ⟨n, b⟩ := e
    simp only [insert]
    split
    · rename_i h
      subst h
      simp only [find?]
      split <;> rfl
    · split
      · simp only [find?]
      · simp only [find?, ih]
        grind

end FeedClient.Entries
