import FeedClient.Proofs.Calendar.WrittenInstants
import FeedClient.Proofs.Json.StoredValues

/-!
# Records that are written

A record is written as an object whose members have distinct names. Read back, each
field is found under its name; what an optional field holds is read back unless it
is written as `null`. A reader restores what it reads if it reads every value that
it gave once more from what is written for the value.
-/
namespace FeedClient.Json

theorem length_filter_name_le_one {β : Type} {entries : List (String × β)}
    (h : (entries.map Prod.fst).Nodup) (name : String) :
    (entries.filter fun m => m.1 == name).length ≤ 1 := by
  calc (entries.filter fun m => m.1 == name).length
      = (entries.map Prod.fst).count name := by
        rw [List.count, List.countP_map, ← List.countP_eq_length_filter]
        rfl
    _ ≤ 1 := List.nodup_iff_count_le_one.mp h name

section Fields

variable {α : Type} {names : List String} {ms : List (String × Json)} {room : Nat}
  {read : Reader α} {write : α → Json} {a : α} {j : Json}

/-- The source of a record that is written with the given members. -/
def written (names : List String) (ms : List (String × Json)) (room : Nat) : Source :=
  ⟨names, .named ((Entries.ofPairs ms).map fun m => (m.1, tree m.2)), room⟩

theorem source?_ofMembers (names : List String) (ms : List (String × Json)) (room : Nat) :
    source? names (room + 1) (tree (ofMembers ms)) = some (written names ms room) := by
  have hmembers : ((Entries.ofPairs ms).map fun m => (textPieces m.1, tree m.2)).mapM
      (fun m : List Piece × Tree => (pieceText? m.1).map (·, m.2)) =
      some ((Entries.ofPairs ms).map fun m => (m.1, tree m.2)) := by
    rw [mapM_eq_some_iff, List.forall₂_map_left_iff, List.forall₂_map_right_iff, List.forall₂_same]
    exact fun m _ => by rw [pieceText?_textPieces, Option.map_some]
  have hnames : (names.all fun n =>
      (((Entries.ofPairs ms).map fun m => (m.1, tree m.2)).filter fun m => m.1 == n).length ≤ 1) =
      true := by
    have hnodup : (((Entries.ofPairs ms).map fun m => (m.1, tree m.2)).map Prod.fst).Nodup := by
      rw [List.map_map]
      exact (Entries.ordered_ofPairs ms).nodup_names
    exact List.all_eq_true.mpr fun n _ => decide_eq_true (length_filter_name_le_one hnodup n)
  simp only [ofMembers, tree, memberTrees_eq_map, source?, Option.bind_eq_bind, hmembers,
    Option.bind_some, hnames, if_true, written]

theorem find?_map_tree (name : String) (ms : List (String × Json)) :
    Entries.find? name (ms.map fun m => (m.1, tree m.2)) = (Entries.find? name ms).map tree := by
  induction ms with
  | nil => rfl
  | cons m ms ih =>
      rw [List.map_cons, Entries.find?, Entries.find?, ih]
      split <;> rfl

theorem find?_written (hms : (ms.map Prod.fst).Nodup) (name : String) :
    (written names ms room).find? name = (Entries.find? name ms).map tree := by
  rw [← Entries.find?_ofPairs hms]
  exact find?_map_tree name _

theorem required_written (hms : (ms.map Prod.fst).Nodup) (name : String)
    (hj : Entries.find? name ms = some j) (hread : read room (tree j) = some a) :
    (written names ms room).required name read = some a := by
  rw [Source.required, find?_written hms, hj]
  exact hread

theorem defaulted_written (hms : (ms.map Prod.fst).Nodup) (name : String)
    (hj : Entries.find? name ms = some j) (hread : read room (tree j) = some a) (b : α) :
    (written names ms room).defaulted name b read = some a := by
  rw [Source.defaulted, find?_written hms, hj]
  exact hread

/-- A field that is left out or written as `null` if it is open. -/
theorem optional_written {o : Option α} (hms : (ms.map Prod.fst).Nodup) (name : String)
    (hj : Entries.find? name ms = some (ofOption write o) ∨ Entries.find? name ms = o.map write)
    (hread : ∀ a ∈ o, read room (tree (write a)) = some a ∧ tree (write a) ≠ .null) :
    (written names ms room).optional name read = some o := by
  have hform : (written names ms room).form =
      .named ((Entries.ofPairs ms).map fun m => (m.1, tree m.2)) := rfl
  unfold Source.optional
  rw [find?_written hms, hform]
  cases o with
  | none => rcases hj with hj | hj <;> rw [hj] <;> rfl
  | some a =>
      have hfind : Entries.find? name ms = some (write a) := by rcases hj with hj | hj <;> exact hj
      obtain ⟨hread, hnull⟩ := hread a rfl
      rw [hfind, Option.map_some]
      split
      · rename_i heq _
        cases heq
      · rename_i heq _
        cases heq
      · rename_i heq
        exact absurd (Option.some.inj heq) hnull
      · rename_i heq
        obtain rfl := Option.some.inj heq
        exact congrArg (Option.map some) hread

end Fields

section Scalars

theorem integer_tree {least greatest n : Int} (hword : IsWord n) (hn : least ≤ n ∧ n ≤ greatest)
    (room : Nat) : Reader.integer least greatest room (tree (.integer n)) = some n := by
  rw [tree, Reader.integer, integer?_integerLiteral hword, Option.filter_some, if_pos]
  simp [hn.1, hn.2]

theorem int64_tree (n : Int64) (room : Nat) : Reader.int64 room (tree (ofInt64 n)) = some n := by
  have hlow := n.le_toInt
  have hhigh := n.toInt_lt
  have h63 : Nat.pow 2 63 = 9223372036854775808 := rfl
  have h64 : Nat.pow 2 64 = 18446744073709551616 := rfl
  have hword : IsWord n.toInt := ⟨by omega, by omega⟩
  rw [Reader.int64, ofInt64, integer_tree hword ⟨hword.1, by omega⟩, Option.map_some, Int64.ofInt_toInt]

theorem uint64_tree (n : UInt64) (room : Nat) :
    Reader.uint64 room (tree (.integer n.toNat)) = some n := by
  have hhigh := n.toNat_lt
  have h64 : Nat.pow 2 64 = 18446744073709551616 := rfl
  have hword : IsWord n.toNat := ⟨by omega, by omega⟩
  rw [Reader.uint64, integer_tree hword ⟨by omega, by omega⟩, Option.map_some, Int.toNat_natCast,
    UInt64.ofNat_toNat]

/-- Only `null` is read as `null`. -/
theorem eq_null_of_ofTree? {t : Tree} {room : Nat} (h : ofTree? t room = some .null) : t = .null := by
  cases t with
  | null => rfl
  | bool b => cases h
  | number l =>
      rw [ofTree?, Literal.json?] at h
      split at h
      · cases h
      · obtain ⟨x, -, hx⟩ := Option.map_eq_some_iff.mp h
        cases hx
  | text ps =>
      obtain ⟨s, -, hs⟩ := Option.map_eq_some_iff.mp h
      cases hs
  | array ts =>
      cases room with
      | zero => cases h
      | succ room =>
          obtain ⟨js, -, hjs⟩ := Option.map_eq_some_iff.mp h
          cases hjs
  | object ms =>
      cases room with
      | zero => cases h
      | succ room =>
          obtain ⟨ps, -, hps⟩ := Option.map_eq_some_iff.mp h
          cases hps

theorem listOf_tree {α : Type} {read : Reader α} {write : α → Json} {as : List α} {room : Nat}
    (h : ∀ a ∈ as, read room (tree (write a)) = some a) :
    Reader.listOf read (room + 1) (tree (.array (as.map write))) = some as := by
  rw [tree, itemTrees_eq_map, Reader.listOf, mapM_eq_some_iff, List.forall₂_map_left_iff,
    List.forall₂_map_left_iff, List.forall₂_same]
  exact h

end Scalars

/-- A value is read back from what is written for it wherever there is room for that. -/
def Returns {α : Type} (read : Reader α) (write : α → Json) (a : α) : Prop :=
  ∀ ⦃room⦄, nesting (write a) ≤ room → read room (tree (write a)) = some a

section Returning

variable {α : Type} {names : List String} {ms : List (String × Json)} {room : Nat} {name : String}
  {read : Reader α} {write : α → Json} {a : α}

theorem returns_text (s : String) : Returns Reader.text .text s := fun _ _ => pieceText?_textPieces s

theorem returns_uint64 (n : UInt64) : Returns Reader.uint64 (fun n => .integer n.toNat) n :=
  fun room _ => uint64_tree n room

theorem returns_json {j : Json} (hj : WellFormed j) (hfloats : FloatsReadBack j) :
    Returns Reader.json id j := fun room hroom => by
  rw [Reader.json, id, ofTree?_tree hj hfloats]
  exact if_pos hroom

theorem returns_listOf {as : List α} (h : ∀ a ∈ as, Returns read write a) :
    Returns (Reader.listOf read) (fun as => .array (as.map write)) as := by
  intro room hroom
  rw [nesting] at hroom
  cases room with
  | zero => cases hroom
  | succ room =>
      have hitems := itemNesting_le_iff.mp (Nat.le_of_succ_le_succ hroom)
      exact listOf_tree fun a ha => h a ha (hitems (write a) (List.mem_map_of_mem ha))

/-- The names are distinct, and there is room for the values. -/
structure Roomy (ms : List (String × Json)) (room : Nat) : Prop where
  names : (ms.map Prod.fst).Nodup
  nesting_le : nesting (ofMembers ms) ≤ room + 1

theorem Roomy.nesting_le_of_find? (hms : Roomy ms room) {j : Json}
    (hj : Entries.find? name ms = some j) : nesting j ≤ room := by
  have hmembers := memberNesting_le_iff.mp (Nat.le_of_succ_le_succ hms.nesting_le)
  exact hmembers _ (Entries.mem_ofPairs_of_find? hms.names hj)

theorem nesting_ofMembers_le (h : ∀ m ∈ ms, nesting m.2 ≤ room) : nesting (ofMembers ms) ≤ room + 1 :=
  Nat.succ_le_succ (memberNesting_le_iff.mpr fun m hm => h m (Entries.mem_of_mem_ofPairs hm))

theorem floatsReadBack_ofMembers (h : ∀ m ∈ ms, FloatsReadBack m.2) : FloatsReadBack (ofMembers ms) :=
  floatsReadBack_object fun m hm => h m (Entries.mem_of_mem_ofPairs hm)

theorem Returns.required (h : Returns read write a) (hms : Roomy ms room) (name : String)
    (hj : Entries.find? name ms = some (write a)) :
    (written names ms room).required name read = some a :=
  required_written hms.names name hj (h (hms.nesting_le_of_find? hj))

theorem optional_of_returns {o : Option α} (h : ∀ a ∈ o, Returns read write a ∧ tree (write a) ≠ .null)
    (hms : Roomy ms room) (name : String)
    (hj : Entries.find? name ms = some (ofOption write o) ∨ Entries.find? name ms = o.map write) :
    (written names ms room).optional name read = some o := by
  refine optional_written hms.names name hj fun a ha => ?_
  obtain ⟨hread, hnull⟩ := h a ha
  obtain rfl : o = some a := ha
  exact ⟨hread (hms.nesting_le_of_find? (by rcases hj with hj | hj <;> exact hj)), hnull⟩

theorem record_ofMembers {read : Source → Option α} (hnames : names.Nodup)
    (hms : (ms.map Prod.fst).Sublist names) (hroom : nesting (ofMembers ms) ≤ room)
    (h : ∀ {room}, Roomy ms room → read (written names ms room) = some a) :
    record names read room (tree (ofMembers ms)) = some a := by
  cases room with
  | zero => cases hroom
  | succ room =>
      rw [record, source?_ofMembers, Option.bind_some]
      exact h ⟨hnames.sublist hms, hroom⟩

theorem returns_record {read : Source → Option α} (hnames : names.Nodup)
    (hms : (ms.map Prod.fst).Sublist names) (hwrite : write a = ofMembers ms)
    (h : ∀ {room}, Roomy ms room → read (written names ms room) = some a) :
    Returns (record names read) write a := by
  intro room hroom
  rw [hwrite] at hroom ⊢
  exact record_ofMembers hnames hms hroom h

end Returning

/-- Whatever is read is read again from what is written for it, and what was not read from `null` is
not written as `null`. Floating-point numbers have to be read back for that. -/
structure Restores {α : Type} (read : Reader α) (write : α → Json) (least : Nat) : Prop where
  reads : ∀ {room t a}, least ≤ room → read room t = some a → FloatsReadBack (write a) →
    read room (tree (write a)) = some a
  ne_null : ∀ {room t a}, read room t = some a → t ≠ .null → FloatsReadBack (write a) →
    tree (write a) ≠ .null

section Restoring

variable {α : Type} {names : List String} {ms : List (String × Json)} {name : String}
  {read : Reader α} {write : α → Json} {least : Nat} {a : α} {s : Source}

theorem restores_text : Restores Reader.text .text 0 where
  reads _ _ _ := pieceText?_textPieces _
  ne_null _ _ _ := nofun

theorem restores_bool : Restores Reader.bool .bool 0 where
  reads _ _ _ := rfl
  ne_null _ _ _ := nofun

theorem restores_int64 : Restores Reader.int64 ofInt64 0 where
  reads _ _ _ := int64_tree _ _
  ne_null _ _ _ := nofun

theorem restores_json : Restores Reader.json id 0 where
  reads _ h hfloats := ofTree?_restored h hfloats
  ne_null {room t j} h ht hfloats hnull := by
    have hread : ofTree? (tree j) room = some j := ofTree?_restored h hfloats
    rw [show tree j = .null from hnull, ofTree?] at hread
    obtain rfl := Option.some.inj hread
    exact ht (eq_null_of_ofTree? h)

/-- A reader that everything returns from restores what it reads. -/
theorem restores_of_returns (h : ∀ a, Returns read write a) (hnesting : ∀ a, nesting (write a) ≤ least)
    (hnull : ∀ a, tree (write a) ≠ .null) : Restores read write least where
  reads {_ _ a} hroom _ _ := h a (Nat.le_trans (hnesting a) hroom)
  ne_null _ _ _ := hnull _

theorem Restores.listOf (h : Restores read write least) :
    Restores (Reader.listOf read) (fun as => .array (as.map write)) (least + 1) where
  reads {room t as} hroom has hfloats := by
    cases room with
    | zero => cases hroom
    | succ room =>
        unfold Reader.listOf at has
        split at has
        · rename_i room ts heq
          cases heq
          rw [mapM_eq_some_iff] at has
          refine listOf_tree fun a ha => ?_
          obtain ⟨t, -, ht⟩ := exists_of_forall₂_right has ha
          exact h.reads (Nat.le_of_succ_le_succ hroom) ht (hfloats.of_item (List.mem_map_of_mem ha))
        · cases has
  ne_null _ _ _ := nofun

/-- The names are distinct, and the numbers in the values are read back. -/
structure Writable (ms : List (String × Json)) : Prop where
  names : (ms.map Prod.fst).Nodup
  floats : FloatsReadBack (ofMembers ms)

theorem Writable.floats_of_find? (hms : Writable ms) {j : Json} (hj : Entries.find? name ms = some j) :
    FloatsReadBack j := hms.floats.of_member (Entries.mem_ofPairs_of_find? hms.names hj)

namespace Restores

variable (h : Restores read write least) (hms : Writable ms)

include h hms

theorem required (hj : Entries.find? name ms = some (write a)) (hroom : least ≤ s.room)
    (hs : s.required name read = some a) : (written names ms s.room).required name read = some a := by
  obtain ⟨t, -, ht⟩ := Option.bind_eq_some_iff.mp hs
  exact required_written hms.names name hj (h.reads hroom ht (hms.floats_of_find? hj))

theorem defaulted {b : α} (hb : read s.room (tree (write b)) = some b)
    (hj : Entries.find? name ms = some (write a)) (hroom : least ≤ s.room)
    (hs : s.defaulted name b read = some a) :
    (written names ms s.room).defaulted name b read = some a := by
  refine defaulted_written hms.names name hj ?_ b
  unfold Source.defaulted at hs
  split at hs
  · obtain rfl := Option.some.inj hs
    exact hb
  · exact h.reads hroom hs (hms.floats_of_find? hj)

theorem defaulted_nil {as : List α} (hj : Entries.find? name ms = some (.array (as.map write)))
    (hroom : least + 1 ≤ s.room) (hs : s.defaulted name [] (Reader.listOf read) = some as) :
    (written names ms s.room).defaulted name [] (Reader.listOf read) = some as := by
  refine h.listOf.defaulted hms ?_ hj hroom hs
  rw [show s.room = s.room - 1 + 1 by omega]
  exact listOf_tree fun a ha => absurd ha List.not_mem_nil

theorem optional {o : Option α}
    (hj : Entries.find? name ms = some (ofOption write o) ∨ Entries.find? name ms = o.map write)
    (hroom : least ≤ s.room) (hs : s.optional name read = some o) :
    (written names ms s.room).optional name read = some o := by
  refine optional_written hms.names name hj fun a ha => ?_
  obtain rfl : o = some a := ha
  have hwrite : FloatsReadBack (write a) := hms.floats_of_find? (by rcases hj with hj | hj <;> exact hj)
  unfold Source.optional at hs
  split at hs
  · cases hs
  · cases hs
  · cases hs
  · rename_i t hnull _
    obtain ⟨b, hb, heq⟩ := Option.map_eq_some_iff.mp hs
    obtain rfl := Option.some.inj heq
    exact ⟨h.reads hroom hb hwrite, h.ne_null hb hnull hwrite⟩

end Restores

theorem room_of_source? {room : Nat} {t : Tree} (h : source? names room t = some s) :
    room = s.room + 1 := by
  unfold source? at h
  split at h
  · obtain ⟨members, -, h⟩ := Option.bind_eq_some_iff.mp h
    split at h
    · rw [← Option.some.inj h]
    · cases h
  · split at h
    · rw [← Option.some.inj h]
    · cases h
  · cases h

theorem restores_record {read : Source → Option α} {ms : α → List (String × Json)}
    (hnames : names.Nodup) (hms : ∀ a, ((ms a).map Prod.fst).Sublist names)
    (h : ∀ {s a}, least ≤ s.room → Writable (ms a) → read s = some a →
      read (written names (ms a) s.room) = some a) :
    Restores (record names read) (fun a => ofMembers (ms a)) (least + 1) where
  reads {room t a} hroom ha hfloats := by
    obtain ⟨s, hs, hread⟩ := Option.bind_eq_some_iff.mp ha
    obtain rfl : room = s.room + 1 := room_of_source? hs
    have hnodup : ((ms a).map Prod.fst).Nodup := hnames.sublist (hms a)
    rw [record, source?_ofMembers, Option.bind_some]
    exact h (Nat.le_of_succ_le_succ hroom) ⟨hnodup, hfloats⟩ hread
  ne_null _ _ _ := nofun

end Restoring

end FeedClient.Json
