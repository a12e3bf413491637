import FeedClient.Proofs.Json.ListedRecords
import FeedClient.Proofs.Json.WrittenRecords

/-!
# Records as they are spelled

A record is spelled by an object, in which its fields are found by their names and no
field occurs twice, or by an array, in which they stand in order. Anything else in the
object is passed over. This says what a tree spells without a reader, and that
readers give what is spelled.
-/
namespace FeedClient.Json

/-- What trees spell, where so many nested arrays and objects may be entered. -/
abbrev Spelling (α : Type) := Nat → Tree → α → Prop

/-- A reader gives what is spelled. -/
def Reads {α : Type} (read : Reader α) (spells : Spelling α) : Prop :=
  ∀ room t a, read room t = some a ↔ spells room t a

namespace Spelling

def text : Spelling String
  | _, .text ps, s => pieceText? ps = some s
  | _, _, _ => False

def bool : Spelling Bool
  | _, .bool b, c => b = c
  | _, _, _ => False

def int64 : Spelling Int64
  | _, .number l, n => l.integer? = some n.toInt
  | _, _, _ => False

def uint64 : Spelling UInt64
  | _, .number l, n => l.integer? = some (n.toNat : Int)
  | _, _, _ => False

def instant : Spelling Calendar.Instant := fun room t i =>
  ∃ s, text room t s ∧ Calendar.Timestamp.read? s = some i

/-- A value of any kind. -/
def json : Spelling Json := fun room t j => ofTree? t room = some j

def listOf {α : Type} (spells : Spelling α) : Spelling (List α)
  | room + 1, .array ts, as => List.Forall₂ (spells room) ts as
  | _, _, _ => False

end Spelling

theorem reads_text : Reads Reader.text Spelling.text := fun room t a => by
  cases t <;> simp [Reader.text, Spelling.text]

theorem reads_bool : Reads Reader.bool Spelling.bool := fun room t a => by
  cases t <;> simp [Reader.bool, Spelling.bool]

theorem integer_number_iff {least greatest n : Int} {room : Nat} {l : Literal} :
    Reader.integer least greatest room (.number l) = some n ↔
      l.integer? = some n ∧ least ≤ n ∧ n ≤ greatest := by
  simp [Reader.integer, Option.filter_eq_some_iff]

theorem reads_int64 : Reads Reader.int64 Spelling.int64 := fun room t a => by
  cases t with
  | number l =>
      have hlow : -(Nat.pow 2 63 : Int) ≤ a.toInt := a.le_toInt
      have hhigh : a.toInt < (Nat.pow 2 63 : Int) := a.toInt_lt
      rw [Reader.int64, Option.map_eq_some_iff, Spelling.int64]
      constructor
      · rintro ⟨n, hn, rfl⟩
        obtain ⟨hl, hleast, hgreatest⟩ := integer_number_iff.mp hn
        rwa [Int64.toInt_ofInt_of_le hleast (Int.le_sub_one_iff.mp hgreatest)]
      · intro hl
        exact ⟨a.toInt, integer_number_iff.mpr ⟨hl, hlow, Int.le_sub_one_iff.mpr hhigh⟩,
          Int64.ofInt_toInt a⟩
  | _ => simp [Reader.int64, Reader.integer, Spelling.int64]

theorem reads_uint64 : Reads Reader.uint64 Spelling.uint64 := fun room t a => by
  cases t with
  | number l =>
      have hhigh : a.toNat < Nat.pow 2 64 := a.toNat_lt
      rw [Reader.uint64, Option.map_eq_some_iff, Spelling.uint64]
      constructor
      · rintro ⟨n, hn, rfl⟩
        obtain ⟨hl, hleast, hgreatest⟩ := integer_number_iff.mp hn
        have hword : n.toNat < UInt64.size := by
          have hsize : UInt64.size = Nat.pow 2 64 := rfl
          omega
        rw [hl, UInt64.toNat_ofNat_of_lt' hword, Int.toNat_of_nonneg hleast]
      · intro hl
        exact ⟨a.toNat, integer_number_iff.mpr ⟨hl, by omega, by omega⟩, by simp⟩
  | _ => simp [Reader.uint64, Reader.integer, Spelling.uint64]

theorem reads_instant : Reads Reader.instant Spelling.instant := fun room t a => by
  simp only [Reader.instant, Spelling.instant, Option.bind_eq_some_iff, reads_text _ _ _]

theorem reads_json : Reads Reader.json Spelling.json := fun _ _ _ => .rfl

theorem Reads.listOf {α : Type} {read : Reader α} {spells : Spelling α} (h : Reads read spells) :
    Reads (Reader.listOf read) (Spelling.listOf spells) := fun room t as => by
  cases room with
  | zero => simp [Reader.listOf, Spelling.listOf]
  | succ room =>
      cases t with
      | array ts => simp only [Reader.listOf, Spelling.listOf, mapM_eq_some_iff, h _ _ _]
      | _ => simp [Reader.listOf, Spelling.listOf]

/-- Where the fields of a record are written. -/
structure Layout where
  /-- Whether they are found by their names. -/
  named : Bool
  /-- What is written for a field. -/
  held : String → Option Tree

/-- A member as written has a name, and its value is as written. -/
def IsNamed (m : List Piece × Tree) (e : String × Tree) : Prop :=
  pieceText? m.1 = some e.1 ∧ m.2 = e.2

/-- A record of some fields is laid out by an object in which none of them occurs twice, or by an array
that has no more items than there are fields. -/
inductive Lays (names : List String) : Tree → Layout → Prop where
  | object {ms : List (List Piece × Tree)} {members : List (String × Tree)}
      (h : List.Forall₂ IsNamed ms members)
      (once : ∀ n ∈ names, (members.filter fun m => m.1 == n).length ≤ 1) :
      Lays names (.object ms) ⟨true, fun n => members.lookup n⟩
  | array {items : List Tree} (h : items.length ≤ names.length) :
      Lays names (.array items) ⟨false, fun n => items[names.idxOf n]?⟩

namespace Layout

variable {α : Type} (l : Layout) (name : String) (spells : Tree → α → Prop)

/-- A field that has to be there. -/
def Required (a : α) : Prop := ∃ t, l.held name = some t ∧ spells t a

/-- A field that `null` leaves open, and in an object its absence too. -/
inductive Optional : Option α → Prop where
  | absent (hl : l.named = true) (h : l.held name = none) : Optional none
  | null (h : l.held name = some .null) : Optional none
  | value {t : Tree} {a : α} (h : l.held name = some t) (ht : t ≠ .null) (ha : spells t a) :
      Optional (some a)

/-- A field that has a value of its own where it is absent. -/
inductive Defaulted (usual : α) : α → Prop where
  | absent (h : l.held name = none) : Defaulted usual usual
  | value {t : Tree} {a : α} (h : l.held name = some t) (ha : spells t a) : Defaulted usual a

end Layout

/-- A record whose fields are as they are laid out. -/
def Spelling.record {α : Type} (names : List String) (fields : Layout → Nat → α → Prop) : Spelling α
  | 0, _, _ => False
  | room + 1, t, a => ∃ l, Lays names t l ∧ fields l room a

/-- The layout that a source gives. -/
def Source.layout (s : Source) : Layout :=
  ⟨match s.form with | .named _ => true | .listed _ => false, s.find?⟩

section Sources

variable {α : Type} {s : Source} {name : String} {read : Reader α} {spells : Spelling α}

theorem required_iff (h : Reads read spells) {a : α} :
    s.required name read = some a ↔ s.layout.Required name (spells s.room) a := by
  rw [Source.required, Option.bind_eq_some_iff]
  exact exists_congr fun t => and_congr_right fun _ => h s.room t a

theorem optional_iff (h : Reads read spells) {o : Option α} :
    s.optional name read = some o ↔ s.layout.Optional name (spells s.room) o := by
  have hheld : s.layout.held name = s.find? name := rfl
  unfold Source.optional
  constructor
  · intro hread
    split at hread
    · rename_i members hfind hform
      obtain rfl := Option.some.inj hread
      exact .absent (by rw [Source.layout, hform]) hfind
    · cases hread
    · rename_i hfind
      obtain rfl := Option.some.inj hread
      exact .null hfind
    · rename_i t ht hfind
      obtain ⟨a, ha, rfl⟩ := Option.map_eq_some_iff.mp hread
      exact .value hfind ht ((h _ _ _).mp ha)
  · intro hfield
    cases hfield with
    | absent hl hfind =>
        rw [← hheld, hfind]
        cases hform : s.form with
        | named members => rfl
        | listed items => rw [Source.layout, hform] at hl; cases hl
    | null hfind => rw [← hheld, hfind]
    | @value t a hfind ht ha =>
        have hmap : (read s.room t).map some = some (some a) :=
          Option.map_eq_some_iff.mpr ⟨a, (h _ _ _).mpr ha, rfl⟩
        rw [← hheld, hfind]
        cases t with
        | null => exact absurd rfl ht
        | _ => exact hmap

theorem defaulted_iff (h : Reads read spells) {usual a : α} :
    s.defaulted name usual read = some a ↔ s.layout.Defaulted name (spells s.room) usual a := by
  have hheld : s.layout.held name = s.find? name := rfl
  rw [Source.defaulted]
  constructor
  · intro hread
    split at hread
    · rename_i hfind
      obtain rfl := Option.some.inj hread
      exact .absent hfind
    · rename_i t hfind
      exact .value hfind ((h _ _ _).mp hread)
  · intro hfield
    cases hfield with
    | absent hfind => rw [← hheld, hfind]
    | value hfind ha => rw [← hheld, hfind]; exact (h _ _ _).mpr ha

theorem find?_eq_lookup (name : String) (members : List (String × α)) :
    Entries.find? name members = members.lookup name := by
  induction members with
  | nil => rfl
  | cons m ms ih =>
      rw [Entries.find?, List.lookup_cons, ih]
      by_cases hm : m.1 = name
      · rw [if_pos hm, hm, beq_self_eq_true]
      · rw [if_neg hm, beq_false_of_ne (Ne.symm hm)]

theorem layout_named (names : List String) (members : List (String × Tree)) (room : Nat) :
    Source.layout ⟨names, .named members, room⟩ = ⟨true, fun n => members.lookup n⟩ :=
  congrArg (Layout.mk true) (funext fun n => find?_eq_lookup n members)

theorem mapM_named_iff {ms : List (List Piece × Tree)} {members : List (String × Tree)} :
    ms.mapM (fun m => (pieceText? m.1).map (·, m.2)) = some members ↔ List.Forall₂ IsNamed ms members := by
  have hmember : ∀ (m : List Piece × Tree) (e : String × Tree),
      (pieceText? m.1).map (·, m.2) = some e ↔ IsNamed m e := by
    rintro ⟨ps, t⟩ ⟨name, u⟩
    simp [IsNamed]
  simp only [mapM_eq_some_iff, hmember]

theorem lays_iff {names : List String} {room : Nat} {t : Tree} {l : Layout} :
    Lays names t l ↔ ∃ s, source? names (room + 1) t = some s ∧ s.room = room ∧ s.layout = l := by
  constructor
  · intro h
    cases h with
    | @object ms members h once =>
        refine ⟨⟨names, .named members, room⟩, ?_, rfl, layout_named names members room⟩
        simp only [source?, Option.bind_eq_bind, mapM_named_iff.mpr h, Option.bind_some]
        exact if_pos (List.all_eq_true.mpr fun n hn => decide_eq_true (once n hn))
    | array h => exact ⟨_, source?_array_iff.mpr ⟨h, rfl⟩, rfl, rfl⟩
  · rintro ⟨s, hs, -, rfl⟩
    cases t with
    | object ms =>
        obtain ⟨members, hmembers, h⟩ := Option.bind_eq_some_iff.mp hs
        split at h
        · rename_i hnames
          obtain rfl := Option.some.inj h
          rw [layout_named]
          exact .object (mapM_named_iff.mp hmembers)
            fun n hn => of_decide_eq_true (List.all_eq_true.mp hnames n hn)
        · cases h
    | array items =>
        obtain ⟨hlength, rfl⟩ := source?_array_iff.mp hs
        exact .array hlength
    | _ => cases hs

/-- A record is read if its fields are. -/
theorem reads_record {names : List String} {read : Source → Option α} {fields : Layout → Nat → α → Prop}
    (h : ∀ {s a}, read s = some a ↔ fields s.layout s.room a) :
    Reads (record names read) (Spelling.record names fields) := fun room t a => by
  cases room with
  | zero => cases t <;> simp [record, source?, Spelling.record]
  | succ room =>
      rw [record, Option.bind_eq_some_iff, Spelling.record]
      constructor
      · rintro ⟨s, hs, hread⟩
        obtain rfl : room = s.room := Nat.succ.inj (room_of_source? hs)
        exact ⟨s.layout, lays_iff.mpr ⟨s, hs, rfl, rfl⟩, h.mp hread⟩
      · rintro ⟨l, hlays, hfields⟩
        obtain ⟨s, hs, rfl, rfl⟩ : ∃ s, source? names (room + 1) t = some s ∧ s.room = room ∧
            s.layout = l := lays_iff.mp hlays
        exact ⟨s, hs, h.mpr hfields⟩

end Sources

end FeedClient.Json
