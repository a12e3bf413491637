import FeedClient.Proofs.Json.WrittenTrees
import FeedClient.Proofs.Text.EntryOrder
import FeedClient.Proofs.Traversal

/-!
# Values that are stored

A value is well-formed if its whole numbers have 64 bits and the members of its
objects are in order. Every value that is read is well-formed and nests no deeper
than there was room for, and a well-formed value is read from its own tree exactly
if there is room for its nesting.
-/
namespace FeedClient.Json

section Numbers

variable {n : Int}

theorem le_value (acc : Nat) (cs : List Char) : acc ≤ Numeral.value acc cs := by
  induction cs generalizing acc with
  | nil => exact Nat.le_refl _
  | cons c cs ih =>
      have hnext := ih (acc * 10 + (c.toNat - 48))
      simp only [Numeral.value, List.foldl_cons] at hnext ⊢
      omega

theorem accumulate_of_value_le {acc : Nat} {cs : List Char} (h : Numeral.value acc cs ≤ wordLimit) :
    accumulate acc cs = (Numeral.value acc cs, []) := by
  induction cs generalizing acc with
  | nil => rfl
  | cons c cs ih =>
      have hnext : acc * 10 + (c.toNat - 48) ≤ wordLimit := Nat.le_trans (le_value _ cs) h
      rw [accumulate, if_pos hnext]
      exact ih h

theorem accumulate_le {acc : Nat} (h : acc ≤ wordLimit) (cs : List Char) :
    (accumulate acc cs).1 ≤ wordLimit := by
  induction cs generalizing acc with
  | nil => exact h
  | cons c cs ih =>
      rw [accumulate]
      split
      · rename_i hnext
        exact ih hnext
      · exact h

/-- The number is one of 64 bits, signed or unsigned. -/
def IsWord (n : Int) : Prop := -(Nat.pow 2 63) ≤ n ∧ n < Nat.pow 2 64

theorem integer?_integerLiteral (h : IsWord n) : (integerLiteral n).integer? = some n := by
  obtain ⟨hlow, hhigh⟩ := h
  have h63 : Nat.pow 2 63 = 9223372036854775808 := rfl
  have h64 : Nat.pow 2 64 = 18446744073709551616 := rfl
  have hlimit : wordLimit = 18446744073709551615 := rfl
  have hdigits : Numeral.value 0 (integerLiteral n).whole = n.natAbs := Numeral.value_toDigits _
  have hread : accumulate 0 (integerLiteral n).whole = (n.natAbs, []) := by
    rw [accumulate_of_value_le (by omega), hdigits]
  have hfraction : (integerLiteral n).fraction = none := rfl
  have hexponent : (integerLiteral n).exponent = none := rfl
  have hnegative : (integerLiteral n).negative = decide (n < 0) := rfl
  simp only [Literal.integer?, hread, hfraction, hexponent, hnegative]
  by_cases hneg : n < 0
  · simp only [hneg, decide_true, Bool.not_true, Bool.false_eq_true, if_false]
    rw [if_pos (by omega)]
    simp only [Option.some.injEq]
    omega
  · simp only [hneg, decide_false, Bool.not_false, if_true, Option.some.injEq]
    omega

theorem isWord_of_integer? {l : Literal} (h : l.integer? = some n) : IsWord n := by
  have h63 : Nat.pow 2 63 = 9223372036854775808 := rfl
  have h64 : Nat.pow 2 64 = 18446744073709551616 := rfl
  have hlimit : wordLimit = 18446744073709551615 := rfl
  have hle := accumulate_le (Nat.zero_le wordLimit) l.whole
  unfold Literal.integer? at h
  split at h
  · rename_i m _ _ hm
    have hm : m ≤ wordLimit := by rwa [hm] at hle
    split at h
    · obtain rfl := Option.some.inj h
      exact ⟨by omega, by omega⟩
    · split at h
      · obtain rfl := Option.some.inj h
        exact ⟨by omega, by omega⟩
      · cases h
  · cases h

theorem json?_integerLiteral (h : IsWord n) : (integerLiteral n).json? = some (.integer n) := by
  rw [Literal.json?, integer?_integerLiteral h]

end Numbers

/-- A whole number is a word, and members are in order. -/
def Fits : Json → Prop
  | .integer n => IsWord n
  | .object members => Entries.Ordered members
  | _ => True

instance : DecidablePred Fits
  | .integer n => inferInstanceAs (Decidable (_ ≤ n ∧ n < _))
  | .object members => inferInstanceAs (Decidable (members.Pairwise fun p q => p.1 < q.1))
  | .null | .bool _ | .float _ | .text _ | .array _ => .isTrue trivial

/-- All values inside of a value fit. -/
def WellFormed (j : Json) : Prop := ∀ v ∈ values j, Fits v

instance (j : Json) : Decidable (WellFormed j) := inferInstanceAs (Decidable (∀ v ∈ values j, Fits v))

theorem wellFormed_array {items : List Json} :
    WellFormed (.array items) ↔ ∀ j ∈ items, WellFormed j := by
  constructor
  · exact fun h j hj v hv => h v (mem_values_array.mpr (.inr ⟨j, hj, hv⟩))
  · intro h v hv
    obtain rfl | ⟨j, hj, hv⟩ := mem_values_array.mp hv
    · trivial
    · exact h j hj v hv

theorem wellFormed_object {members : List (String × Json)} :
    WellFormed (.object members) ↔
      Entries.Ordered members ∧ ∀ m ∈ members, WellFormed m.2 := by
  constructor
  · exact fun h => ⟨h _ (mem_values_self _),
      fun m hm v hv => h v (mem_values_object.mpr (.inr ⟨m, hm, hv⟩))⟩
  · rintro ⟨hordered, hmembers⟩ v hv
    obtain rfl | ⟨m, hm, hv⟩ := mem_values_object.mp hv
    · exact hordered
    · exact hmembers m hm v hv

mutual

/-- How many arrays and objects stand around the innermost place inside of a value. -/
def nesting : Json → Nat
  | .array items => itemNesting items + 1
  | .object members => memberNesting members + 1
  | _ => 0

def itemNesting : List Json → Nat
  | [] => 0
  | j :: js => max (nesting j) (itemNesting js)

def memberNesting : List (String × Json) → Nat
  | [] => 0
  | (_, j) :: ms => max (nesting j) (memberNesting ms)

end

theorem itemNesting_le_iff {items : List Json} {room : Nat} :
    itemNesting items ≤ room ↔ ∀ j ∈ items, nesting j ≤ room := by
  induction items with
  | nil => simp [itemNesting]
  | cons j js ih => rw [itemNesting, Nat.max_le, ih, List.forall_mem_cons]

theorem memberNesting_le_iff {members : List (String × Json)} {room : Nat} :
    memberNesting members ≤ room ↔ ∀ m ∈ members, nesting m.2 ≤ room := by
  induction members with
  | nil => simp [memberNesting]
  | cons m ms ih => rw [memberNesting, Nat.max_le, ih, List.forall_mem_cons]

section Reading

theorem ofItems?_eq_mapM (ts : List Tree) (room : Nat) :
    ofItems? ts room = ts.mapM fun t => ofTree? t room := by
  induction ts with
  | nil => rfl
  | cons t ts ih =>
      rw [ofItems?, ih, List.mapM_cons]
      cases ofTree? t room with
      | none => rfl
      | some j => cases ts.mapM fun t => ofTree? t room <;> rfl

/-- The name and the value of a member. -/
def pair? (room : Nat) (m : List Piece × Tree) : Option (String × Json) :=
  (pieceText? m.1).bind fun name => (ofTree? m.2 room).map fun j => (name, j)

theorem ofPairs?_eq_mapM (ms : List (List Piece × Tree)) (room : Nat) :
    ofPairs? ms room = ms.mapM (pair? room) := by
  induction ms with
  | nil => rfl
  | cons m ms ih =>
      obtain ⟨ps, t⟩ := m
      rw [ofPairs?, ih, List.mapM_cons, pair?]
      cases pieceText? ps with
      | none => rfl
      | some name =>
          cases ofTree? t room with
          | none => rfl
          | some j => cases ms.mapM (pair? room) <;> rfl

/-- A well-formed value is read from its tree if there is room for its nesting. -/
theorem ofTree?_tree {j : Json} (hj : WellFormed j) (hfloats : FloatsReadBack j) (room : Nat) :
    ofTree? (tree j) room = if nesting j ≤ room then some j else none := by
  induction j using induct generalizing room with
  | null => rfl
  | bool b => rfl
  | integer n =>
      have hn : IsWord n := hj _ (mem_values_self _)
      exact json?_integerLiteral hn
  | float x =>
      obtain ⟨l, hl, hx⟩ := hfloats x (mem_values_self _)
      rw [tree, hl]
      exact hx
  | text s =>
      rw [tree, ofTree?, pieceText?_textPieces]
      rfl
  | array items ih =>
      have hread : ∀ i ∈ items, ∀ room,
          ofTree? (tree i) room = if nesting i ≤ room then some i else none :=
        fun i hi => ih i hi (wellFormed_array.mp hj i hi) (hfloats.of_item hi)
      cases room with
      | zero => rfl
      | succ room =>
          rw [tree, ofTree?, ofItems?_eq_mapM, itemTrees_eq_map]
          simp only [nesting, Nat.add_le_add_iff_right, itemNesting_le_iff]
          split
          · rename_i hroom
            have hitems : (items.map tree).mapM (fun t => ofTree? t room) = some items := by
              rw [mapM_eq_some_iff, List.forall₂_map_left_iff, List.forall₂_same]
              exact fun i hi => by rw [hread i hi, if_pos (hroom i hi)]
            rw [hitems, Option.map_some]
          · rename_i hroom
            obtain ⟨i, hi, hdeep⟩ : ∃ i ∈ items, ¬nesting i ≤ room := by simpa using hroom
            have hitems : (items.map tree).mapM (fun t => ofTree? t room) = none :=
              mapM_eq_none_iff.mpr
                ⟨tree i, List.mem_map_of_mem hi, by rw [hread i hi, if_neg hdeep]⟩
            rw [hitems, Option.map_none]
  | object members ih =>
      obtain ⟨hordered, hmembers⟩ := wellFormed_object.mp hj
      have hread : ∀ m ∈ members, ∀ room,
          pair? room (textPieces m.1, tree m.2) = if nesting m.2 ≤ room then some m else none := by
        intro m hm room
        rw [pair?, pieceText?_textPieces, Option.bind_some,
          ih m hm (hmembers m hm) (hfloats.of_member hm)]
        split <;> rfl
      cases room with
      | zero => rfl
      | succ room =>
          rw [tree, ofTree?, ofPairs?_eq_mapM, memberTrees_eq_map]
          simp only [nesting, Nat.add_le_add_iff_right, memberNesting_le_iff]
          split
          · rename_i hroom
            have hpairs : (members.map fun m => (textPieces m.1, tree m.2)).mapM (pair? room) =
                some members := by
              rw [mapM_eq_some_iff, List.forall₂_map_left_iff, List.forall₂_same]
              exact fun m hm => by rw [hread m hm, if_pos (hroom m hm)]
            rw [hpairs, Option.map_some, ofMembers, hordered.ofPairs_eq]
          · rename_i hroom
            obtain ⟨m, hm, hdeep⟩ : ∃ m ∈ members, ¬nesting m.2 ≤ room := by simpa using hroom
            have hpairs : (members.map fun m => (textPieces m.1, tree m.2)).mapM (pair? room) =
                none :=
              mapM_eq_none_iff.mpr
                ⟨_, List.mem_map_of_mem hm, by rw [hread m hm, if_neg hdeep]⟩
            rw [hpairs, Option.map_none]

theorem Tree.induct {P : Tree → Prop} (null : P .null) (bool : ∀ b, P (.bool b))
    (number : ∀ l, P (.number l)) (text : ∀ ps, P (.text ps))
    (array : ∀ items, (∀ t ∈ items, P t) → P (.array items))
    (object : ∀ members, (∀ m ∈ members, P m.2) → P (.object members)) (t : Tree) : P t :=
  @Tree.rec P (fun items => ∀ t ∈ items, P t) (fun members => ∀ m ∈ members, P m.2) (fun m => P m.2)
    null bool number text array object
    (fun _ h => absurd h List.not_mem_nil)
    (fun _ _ ht hts => List.forall_mem_cons.mpr ⟨ht, hts⟩)
    (fun _ h => absurd h List.not_mem_nil)
    (fun _ _ hm hms => List.forall_mem_cons.mpr ⟨hm, hms⟩)
    (fun _ _ ht => ht) t

theorem wellFormed_of_json? {l : Literal} {j : Json} (h : l.json? = some j) :
    WellFormed j ∧ nesting j = 0 := by
  unfold Literal.json? at h
  split at h
  · rename_i n hn
    obtain rfl := Option.some.inj h
    refine ⟨fun v hv => ?_, rfl⟩
    obtain rfl := List.mem_singleton.mp hv
    exact isWord_of_integer? hn
  · obtain ⟨x, -, rfl⟩ := Option.map_eq_some_iff.mp h
    refine ⟨fun v hv => ?_, rfl⟩
    obtain rfl := List.mem_singleton.mp hv
    trivial

/-- Whatever is read is well-formed, and there was room for its nesting. -/
theorem wellFormed_of_ofTree? {t : Tree} {room : Nat} {j : Json} (h : ofTree? t room = some j) :
    WellFormed j ∧ nesting j ≤ room := by
  induction t using Tree.induct generalizing room j with
  | null =>
      rw [ofTree?] at h
      obtain rfl := Option.some.inj h
      exact ⟨fun v hv => by rw [List.mem_singleton.mp hv]; trivial, Nat.zero_le _⟩
  | bool b =>
      rw [ofTree?] at h
      obtain rfl := Option.some.inj h
      exact ⟨fun v hv => by rw [List.mem_singleton.mp hv]; trivial, Nat.zero_le _⟩
  | number l =>
      rw [ofTree?] at h
      obtain ⟨hj, hzero⟩ := wellFormed_of_json? h
      exact ⟨hj, by omega⟩
  | text ps =>
      rw [ofTree?] at h
      obtain ⟨s, -, rfl⟩ := Option.map_eq_some_iff.mp h
      exact ⟨fun v hv => by rw [List.mem_singleton.mp hv]; trivial, Nat.zero_le _⟩
  | array ts ih =>
      cases room with
      | zero => cases h
      | succ room =>
          rw [ofTree?, ofItems?_eq_mapM] at h
          obtain ⟨items, hitems, rfl⟩ := Option.map_eq_some_iff.mp h
          rw [mapM_eq_some_iff] at hitems
          have hread : ∀ j ∈ items, WellFormed j ∧ nesting j ≤ room := fun j hj => by
            obtain ⟨t, ht, hread⟩ := exists_of_forall₂_right hitems hj
            exact ih t ht hread
          refine ⟨wellFormed_array.mpr fun j hj => (hread j hj).1, ?_⟩
          rw [nesting, Nat.add_le_add_iff_right, itemNesting_le_iff]
          exact fun j hj => (hread j hj).2
  | object ms ih =>
      cases room with
      | zero => cases h
      | succ room =>
          rw [ofTree?, ofPairs?_eq_mapM] at h
          obtain ⟨pairs, hpairs, rfl⟩ := Option.map_eq_some_iff.mp h
          rw [mapM_eq_some_iff] at hpairs
          have hread : ∀ m ∈ pairs, WellFormed m.2 ∧ nesting m.2 ≤ room := fun m hm => by
            obtain ⟨p, hp, hread⟩ := exists_of_forall₂_right hpairs hm
            obtain ⟨name, -, hread⟩ := Option.bind_eq_some_iff.mp hread
            obtain ⟨j, hj, rfl⟩ := Option.map_eq_some_iff.mp hread
            exact ih p hp hj
          have hmembers : ∀ m ∈ Entries.ofPairs pairs, WellFormed m.2 ∧ nesting m.2 ≤ room :=
            fun m hm => hread m (Entries.mem_of_mem_ofPairs hm)
          refine ⟨wellFormed_object.mpr ⟨Entries.ordered_ofPairs pairs, fun m hm => (hmembers m hm).1⟩,
            ?_⟩
          rw [ofMembers, nesting, Nat.add_le_add_iff_right, memberNesting_le_iff]
          exact fun m hm => (hmembers m hm).2

/-- A value that was read is read again from its own tree. -/
theorem ofTree?_restored {t : Tree} {room : Nat} {j : Json} (h : ofTree? t room = some j)
    (hfloats : FloatsReadBack j) : ofTree? (tree j) room = some j := by
  obtain ⟨hj, hroom⟩ := wellFormed_of_ofTree? h
  rw [ofTree?_tree hj hfloats, if_pos hroom]

end Reading

end FeedClient.Json
