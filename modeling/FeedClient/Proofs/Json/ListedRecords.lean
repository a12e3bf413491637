import FeedClient.Json.Reader

/-!
# Records that are read from arrays

An array holds the fields of a record in their order. It has at most one item for each
of them, and an optional field needs its item: only `null` leaves it open.
-/
namespace FeedClient.Json

theorem source?_array_iff {names : List String} {room : Nat} {items : List Tree} {s : Source} :
    source? names (room + 1) (.array items) = some s ↔
      items.length ≤ names.length ∧ s = ⟨names, .listed items, room⟩ := by
  rw [source?]
  by_cases hlength : items.length ≤ names.length
  · simp [hlength, eq_comm]
  · simp [hlength]

/-- What an item gives to an optional field: nothing if it is `null`, else what is read from it. -/
inductive Gives {α : Type} (read : Reader α) (room : Nat) : Tree → Option α → Prop where
  | nothing : Gives read room .null none
  | value {t : Tree} {a : α} (ht : t ≠ .null) (h : read room t = some a) : Gives read room t (some a)

/-- The item in the place of a field decides what the field holds, and it cannot be missing. -/
theorem optional_listed_iff {α : Type} {names : List String} {items : List Tree} {room : Nat}
    {name : String} {read : Reader α} {o : Option α} :
    Source.optional ⟨names, .listed items, room⟩ name read = some o ↔
      ∃ t, items[names.idxOf name]? = some t ∧ Gives read room t o := by
  have hfind : Source.find? ⟨names, .listed items, room⟩ name = items[names.idxOf name]? := rfl
  rw [Source.optional, hfind]
  cases items[names.idxOf name]? with
  | none => simp
  | some t =>
      constructor
      · intro h
        refine ⟨t, rfl, ?_⟩
        cases t with
        | null =>
            obtain rfl := Option.some.inj h
            exact .nothing
        | _ =>
            obtain ⟨a, ha, rfl⟩ := Option.map_eq_some_iff.mp h
            exact .value (by simp) ha
      · rintro ⟨u, hu, hgives⟩
        obtain rfl := Option.some.inj hu
        cases hgives with
        | nothing => rfl
        | value ht ha =>
            cases t with
            | null => exact absurd rfl ht
            | _ => exact Option.map_eq_some_iff.mpr ⟨_, ha, rfl⟩

theorem optional_item_iff {α : Type} {names : List String} {items : List Tree} {room : Nat}
    {name : String} {read : Reader α} {o : Option α} {t : Tree}
    (ht : items[names.idxOf name]? = some t) :
    Source.optional ⟨names, .listed items, room⟩ name read = some o ↔ Gives read room t o := by
  rw [optional_listed_iff, ht]
  simp

end FeedClient.Json
