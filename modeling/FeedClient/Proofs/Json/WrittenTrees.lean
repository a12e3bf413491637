import FeedClient.Proofs.Json.WrittenScalars

/-!
# The tree of a printed value

What is printed for a value is read as the tree of that value, and as nothing
else.
-/
namespace FeedClient.Json

/-- What is printed for a number is a literal that denotes it. -/
def ReadsBack (x : Binary64) : Prop :=
  ∃ l, literal? (chars (.float x)) = some (l, []) ∧ l.json? = some (.float x)

def isFloat (x : Binary64) : Json → Bool
  | .float y => y = x
  | _ => false

theorem isFloat_iff {x : Binary64} {j : Json} : isFloat x j = true ↔ j = .float x := by
  cases j <;> simp [isFloat]

instance (x : Binary64) : Decidable (ReadsBack x) :=
  decidable_of_iff
    (((literal? (chars (.float x))).any fun p => p.2.isEmpty && p.1.json?.any (isFloat x)) = true) <| by
      simp only [ReadsBack, Option.any_eq_true, Bool.and_eq_true, List.isEmpty_iff, isFloat_iff]
      constructor
      · rintro ⟨⟨l, rest⟩, hl, rfl, j, hj, rfl⟩
        exact ⟨l, hl, hj⟩
      · rintro ⟨l, hl, hj⟩
        exact ⟨(l, []), hl, rfl, _, hj, rfl⟩

mutual

/-- The tree that the printed form of a value is read as. -/
def tree : Json → Tree
  | .null => .null
  | .bool b => .bool b
  | .integer n => .number (integerLiteral n)
  | .float x =>
    match literal? (chars (.float x)) with
    | some (l, _) => .number l
    | none => .null
  | .text s => .text (textPieces s)
  | .array items => .array (itemTrees items)
  | .object members => .object (memberTrees members)

def itemTrees : List Json → List Tree
  | [] => []
  | j :: js => tree j :: itemTrees js

def memberTrees : List (String × Json) → List (List Piece × Tree)
  | [] => []
  | (name, j) :: ms => (textPieces name, tree j) :: memberTrees ms

end

theorem itemTrees_eq_map (items : List Json) : itemTrees items = items.map tree := by
  induction items with
  | nil => rfl
  | cons j js ih => rw [itemTrees, ih, List.map_cons]

theorem memberTrees_eq_map (members : List (String × Json)) :
    memberTrees members = members.map fun m => (textPieces m.1, tree m.2) := by
  induction members with
  | nil => rfl
  | cons m ms ih => rw [memberTrees, ih, List.map_cons]

mutual

/-- A value with all values inside of it. -/
def values : Json → List Json
  | .array items => .array items :: itemValues items
  | .object members => .object members :: memberValues members
  | j => [j]

def itemValues : List Json → List Json
  | [] => []
  | j :: js => values j ++ itemValues js

def memberValues : List (String × Json) → List Json
  | [] => []
  | (_, j) :: ms => values j ++ memberValues ms

end

/-- All floating-point numbers inside of a value are read back. -/
def FloatsReadBack (j : Json) : Prop := ∀ x, .float x ∈ values j → ReadsBack x

/-- The number of a value that is one. -/
def float? : Json → Option Binary64
  | .float x => some x
  | _ => none

theorem floatsReadBack_iff {j : Json} :
    FloatsReadBack j ↔ ∀ x ∈ (values j).filterMap float?, ReadsBack x := by
  have hfloat : ∀ v x, float? v = some x ↔ v = .float x := fun v x => by cases v <;> simp [float?]
  simp only [FloatsReadBack, List.mem_filterMap, hfloat, exists_eq_right]

instance (j : Json) : Decidable (FloatsReadBack j) := decidable_of_iff' _ floatsReadBack_iff

theorem mem_values_self (j : Json) : j ∈ values j := by cases j <;> simp [values]

theorem itemValues_eq_flatMap (items : List Json) : itemValues items = items.flatMap values := by
  induction items with
  | nil => rfl
  | cons j js ih => rw [itemValues, ih, List.flatMap_cons]

theorem memberValues_eq_flatMap (members : List (String × Json)) :
    memberValues members = members.flatMap fun m => values m.2 := by
  induction members with
  | nil => rfl
  | cons m ms ih => rw [memberValues, ih, List.flatMap_cons]

theorem mem_values_array {items : List Json} {v : Json} :
    v ∈ values (.array items) ↔ v = .array items ∨ ∃ j ∈ items, v ∈ values j := by
  rw [values, itemValues_eq_flatMap, List.mem_cons, List.mem_flatMap]

theorem mem_values_object {members : List (String × Json)} {v : Json} :
    v ∈ values (.object members) ↔ v = .object members ∨ ∃ m ∈ members, v ∈ values m.2 := by
  rw [values, memberValues_eq_flatMap, List.mem_cons, List.mem_flatMap]

theorem FloatsReadBack.of_item {items : List Json} (h : FloatsReadBack (.array items)) {j : Json}
    (hj : j ∈ items) : FloatsReadBack j := fun x hx => h x (mem_values_array.mpr (.inr ⟨j, hj, hx⟩))

theorem FloatsReadBack.of_member {members : List (String × Json)} (h : FloatsReadBack (.object members))
    {m : String × Json} (hm : m ∈ members) : FloatsReadBack m.2 :=
  fun x hx => h x (mem_values_object.mpr (.inr ⟨m, hm, hx⟩))

theorem floatsReadBack_text (s : String) : FloatsReadBack (.text s) := fun _ hx => by
  cases List.mem_singleton.mp hx

theorem floatsReadBack_integer (n : Int) : FloatsReadBack (.integer n) := fun _ hx => by
  cases List.mem_singleton.mp hx

theorem floatsReadBack_array {items : List Json} (h : ∀ j ∈ items, FloatsReadBack j) :
    FloatsReadBack (.array items) := fun x hx => by
  obtain hx | ⟨j, hj, hx⟩ := mem_values_array.mp hx
  · cases hx
  · exact h j hj x hx

theorem floatsReadBack_object {members : List (String × Json)}
    (h : ∀ m ∈ members, FloatsReadBack m.2) : FloatsReadBack (.object members) := fun x hx => by
  obtain hx | ⟨m, hm, hx⟩ := mem_values_object.mp hx
  · cases hx
  · exact h m hm x hx

/-- A property of values that passes from the values inside of an array or object to itself holds of
every value. -/
theorem induct {P : Json → Prop} (null : P .null) (bool : ∀ b, P (.bool b))
    (integer : ∀ n, P (.integer n)) (float : ∀ x, P (.float x)) (text : ∀ s, P (.text s))
    (array : ∀ items, (∀ j ∈ items, P j) → P (.array items))
    (object : ∀ members, (∀ m ∈ members, P m.2) → P (.object members)) (j : Json) : P j :=
  @Json.rec P (fun items => ∀ j ∈ items, P j) (fun members => ∀ m ∈ members, P m.2) (fun m => P m.2)
    null bool integer float text array object
    (fun _ h => absurd h List.not_mem_nil)
    (fun _ _ hj hjs => List.forall_mem_cons.mpr ⟨hj, hjs⟩)
    (fun _ h => absurd h List.not_mem_nil)
    (fun _ _ hm hms => List.forall_mem_cons.mpr ⟨hm, hms⟩)
    (fun _ _ hj => hj) j

section Reading

/-- The printed form is read as the tree, with fuel for its characters. -/
def IsRead (j : Json) : Prop :=
  ∀ ⦃fuel rest⦄, 2 * (chars j).length ≤ fuel → Delimits rest →
    tree? fuel (chars j ++ rest) = some (tree j, rest)

theorem tree?_of_literal? {cs rest : List Char} {l : Literal} (h : literal? cs = some (l, rest))
    (fuel : Nat) : tree? (fuel + 1) cs = some (.number l, rest) := by
  obtain ⟨c, cs, rfl, hc⟩ := head_of_literal? h
  rw [tree?, skipSpace_cons (opensValue_of_number hc)]
  split
  case h_7 => rw [h, Option.map_some]
  all_goals
    rename_i heq
    rw [(List.cons.inj heq).1] at hc
    exact absurd hc (by decide)

theorem opens_chars {j : Json} (h : FloatsReadBack j) :
    ∃ c cs, chars j = c :: cs ∧ opensValue c = true := by
  cases j with
  | bool b => cases b <;> exact ⟨_, _, rfl, rfl⟩
  | integer n =>
      obtain ⟨c, cs, hcs, hc⟩ := head_of_literal? (literal?_ofInt n)
      exact ⟨c, cs, hcs, opensValue_of_number hc⟩
  | float x =>
      obtain ⟨l, hl, -⟩ := h x (mem_values_self _)
      obtain ⟨c, cs, hcs, hc⟩ := head_of_literal? hl
      exact ⟨c, cs, hcs, opensValue_of_number hc⟩
  | _ => exact ⟨_, _, rfl, rfl⟩

theorem itemChars_cons_cons (j k : Json) (js : List Json) :
    itemChars (j :: k :: js) = chars j ++ ',' :: itemChars (k :: js) := by
  rw [itemChars]
  exact List.cons_ne_nil k js

theorem memberChars_cons_cons (name : String) (j : Json) (m : String × Json)
    (ms : List (String × Json)) :
    memberChars ((name, j) :: m :: ms) = quote name ++ ':' :: chars j ++ ',' :: memberChars (m :: ms) := by
  rw [memberChars]
  exact List.cons_ne_nil m ms

theorem items?_itemChars {items : List Json} (hne : items ≠ []) (hitems : ∀ j ∈ items, IsRead j)
    {fuel : Nat} (hfuel : 2 * (itemChars items).length + 1 ≤ fuel) (rest : List Char) :
    items? fuel (itemChars items ++ ']' :: rest) = some (itemTrees items, rest) := by
  induction items generalizing fuel with
  | nil => exact absurd rfl hne
  | cons j js ih =>
      have hj := hitems j (List.mem_cons_self ..)
      cases fuel with
      | zero => omega
      | succ fuel =>
          cases js with
          | nil =>
              rw [itemChars] at hfuel ⊢
              rw [items?, hj (by omega) (.bracket rest)]
              rfl
          | cons k ks =>
              rw [itemChars_cons_cons, List.length_append, List.length_cons] at hfuel
              have hks : items? fuel (itemChars (k :: ks) ++ ']' :: rest) =
                  some (itemTrees (k :: ks), rest) :=
                ih (List.cons_ne_nil _ _) (fun i hi => hitems i (List.mem_cons_of_mem _ hi)) (by omega)
              rw [itemChars_cons_cons, List.append_assoc, List.cons_append, items?,
                hj (by omega) (.comma _)]
              exact Option.map_eq_some_iff.mpr ⟨_, hks, rfl⟩

theorem quote_append (s : String) (cs : List Char) :
    quote s ++ cs = '"' :: (s.toList.flatMap escape ++ '"' :: cs) := by
  simp [quote]

section Members

variable {name : String} {j : Json} {fuel : Nat}

theorem members?_last (hj : IsRead j) (hfuel : 2 * (chars j).length ≤ fuel) (rest : List Char) :
    members? (fuel + 1) (quote name ++ ':' :: (chars j ++ '\x7d' :: rest)) =
      some ([(textPieces name, tree j)], rest) := by
  rw [quote_append, members?, skipSpace_cons rfl]
  simp only [pieces?_flatMap_escape]
  have hcolon : skipSpace (':' :: (chars j ++ '\x7d' :: rest)) = ':' :: (chars j ++ '\x7d' :: rest) := rfl
  simp only [hcolon, hj hfuel (.brace rest)]
  rfl

theorem members?_next (hj : IsRead j) (hfuel : 2 * (chars j).length ≤ fuel) {cs rest : List Char}
    {ms : List (List Piece × Tree)} (hms : members? fuel cs = some (ms, rest)) :
    members? (fuel + 1) (quote name ++ ':' :: (chars j ++ ',' :: cs)) =
      some ((textPieces name, tree j) :: ms, rest) := by
  rw [quote_append, members?, skipSpace_cons rfl]
  simp only [pieces?_flatMap_escape]
  have hcolon : skipSpace (':' :: (chars j ++ ',' :: cs)) = ':' :: (chars j ++ ',' :: cs) := rfl
  simp only [hcolon, hj hfuel (.comma cs)]
  exact Option.map_eq_some_iff.mpr ⟨_, hms, rfl⟩

end Members

theorem members?_memberChars {members : List (String × Json)} (hne : members ≠ [])
    (hmembers : ∀ m ∈ members, IsRead m.2) {fuel : Nat}
    (hfuel : 2 * (memberChars members).length + 1 ≤ fuel) (rest : List Char) :
    members? fuel (memberChars members ++ '\x7d' :: rest) = some (memberTrees members, rest) := by
  induction members generalizing fuel with
  | nil => exact absurd rfl hne
  | cons m ms ih =>
      obtain ⟨name, j⟩ := m
      have hj : IsRead j := hmembers (name, j) (List.mem_cons_self ..)
      cases fuel with
      | zero => omega
      | succ fuel =>
          cases ms with
          | nil =>
              rw [memberChars, List.length_append, List.length_cons] at hfuel
              rw [memberChars, List.append_assoc, List.cons_append]
              exact members?_last hj (by omega) rest
          | cons n ns =>
              rw [memberChars_cons_cons] at hfuel ⊢
              simp only [List.length_append, List.length_cons] at hfuel
              simp only [List.append_assoc, List.cons_append]
              exact members?_next hj (by omega) <|
                ih (List.cons_ne_nil _ _) (fun i hi => hmembers i (List.mem_cons_of_mem _ hi)) (by omega)

theorem isRead_of_step {j : Json} (hne : chars j ≠ [])
    (h : ∀ fuel rest, 2 * (chars j).length ≤ fuel + 1 → Delimits rest →
      tree? (fuel + 1) (chars j ++ rest) = some (tree j, rest)) : IsRead j := by
  intro fuel rest hfuel hrest
  cases fuel with
  | zero =>
      have hlength := List.length_pos_iff.mpr hne
      omega
  | succ fuel => exact h fuel rest hfuel hrest

theorem isRead_of_literal? {j : Json} {l : Literal} (h : literal? (chars j) = some (l, []))
    (htree : tree j = .number l) : IsRead j := by
  obtain ⟨c, cs, hcs, -⟩ := head_of_literal? h
  refine isRead_of_step (hcs ▸ List.cons_ne_nil c cs) fun fuel rest _ hrest => ?_
  rw [htree]
  exact tree?_of_literal? (literal?_append h hrest) fuel

theorem opens_itemChars {j : Json} (hj : FloatsReadBack j) (js : List Json) :
    ∃ c cs, itemChars (j :: js) = c :: cs ∧ opensValue c = true := by
  obtain ⟨c, cs, hcs, hc⟩ := opens_chars hj
  cases js with
  | nil => exact ⟨c, cs, by rw [itemChars, hcs], hc⟩
  | cons k ks => exact ⟨c, _, by rw [itemChars_cons_cons, hcs, List.cons_append], hc⟩

theorem isRead_array {items : List Json} (hfloats : ∀ j ∈ items, FloatsReadBack j)
    (hitems : ∀ j ∈ items, IsRead j) : IsRead (.array items) := by
  refine isRead_of_step (List.cons_ne_nil _ _) fun fuel rest hfuel _ => ?_
  cases items with
  | nil => rfl
  | cons j js =>
      simp only [chars, List.length_append, List.length_cons] at hfuel
      have hread : items? fuel (itemChars (j :: js) ++ ']' :: rest) =
          some (itemTrees (j :: js), rest) :=
        items?_itemChars (List.cons_ne_nil j js) hitems (by omega) rest
      have hchars : chars (.array (j :: js)) ++ rest = '[' :: (itemChars (j :: js) ++ ']' :: rest) := by
        simp [chars]
      obtain ⟨c, cs, hcs, hc⟩ := opens_itemChars (hfloats j (List.mem_cons_self ..)) js
      have hskip : skipSpace (itemChars (j :: js) ++ ']' :: rest) = c :: (cs ++ ']' :: rest) := by
        rw [hcs, List.cons_append, skipSpace_cons hc]
      rw [hchars, tree?, skipSpace_cons rfl]
      simp only [hskip]
      split
      · rename_i hempty
        rw [(List.cons.inj hempty).1] at hc
        cases hc
      · rw [hread]
        rfl

theorem isRead_object {members : List (String × Json)} (hmembers : ∀ m ∈ members, IsRead m.2) :
    IsRead (.object members) := by
  refine isRead_of_step (List.cons_ne_nil _ _) fun fuel rest hfuel _ => ?_
  cases members with
  | nil => rfl
  | cons m ms =>
      obtain ⟨name, j⟩ := m
      simp only [chars, List.length_append, List.length_cons] at hfuel
      have hread : members? fuel (memberChars ((name, j) :: ms) ++ '\x7d' :: rest) =
          some (memberTrees ((name, j) :: ms), rest) :=
        members?_memberChars (List.cons_ne_nil _ ms) hmembers (by omega) rest
      have hchars : chars (.object ((name, j) :: ms)) ++ rest =
          '\x7b' :: (memberChars ((name, j) :: ms) ++ '\x7d' :: rest) := by
        simp [chars]
      have hopen : ∃ cs, memberChars ((name, j) :: ms) = '"' :: cs := by
        cases ms with
        | nil => exact ⟨_, rfl⟩
        | cons n ns => exact ⟨_, by rw [memberChars_cons_cons, quote]; rfl⟩
      obtain ⟨cs, hcs⟩ := hopen
      have hskip : skipSpace (memberChars ((name, j) :: ms) ++ '\x7d' :: rest) =
          '"' :: (cs ++ '\x7d' :: rest) := by
        rw [hcs, List.cons_append, skipSpace_cons rfl]
      rw [hchars, tree?, skipSpace_cons rfl]
      simp only [hskip, hread, Option.map_some]
      rfl

/-- What is printed for a value is read as its tree. -/
theorem isRead {j : Json} (hj : FloatsReadBack j) : IsRead j := by
  induction j using induct with
  | null => exact isRead_of_step (List.cons_ne_nil _ _) fun _ _ _ _ => rfl
  | bool b =>
      cases b with
      | true => exact isRead_of_step (List.cons_ne_nil _ _) fun _ _ _ _ => rfl
      | false => exact isRead_of_step (List.cons_ne_nil _ _) fun _ _ _ _ => rfl
  | integer n => exact isRead_of_literal? (literal?_ofInt n) rfl
  | float x =>
      obtain ⟨l, hl, -⟩ := hj x (mem_values_self _)
      exact isRead_of_literal? hl (by rw [tree, hl])
  | text s =>
      refine isRead_of_step (List.cons_ne_nil _ _) fun fuel rest _ _ => ?_
      rw [chars, quote_append, tree?, skipSpace_cons rfl]
      simp only [pieces?_flatMap_escape, Option.map_some]
      rfl
  | array items ih =>
      have hitems : ∀ i ∈ items, FloatsReadBack i := fun i hi => hj.of_item hi
      exact isRead_array hitems fun i hi => ih i hi (hitems i hi)
  | object members ih => exact isRead_object fun m hm => ih m hm (hj.of_member hm)

/-- The printed form of a value is one value and nothing else. -/
theorem ofChars?_chars {j : Json} (hj : FloatsReadBack j) : Tree.ofChars? (chars j) = some (tree j) := by
  have hread : tree? (2 * (chars j).length + 2) (chars j ++ []) = some (tree j, []) :=
    isRead hj (by omega) .done
  rw [List.append_nil] at hread
  rw [Tree.ofChars?, hread]
  rfl

theorem readText?_print {α : Type} {j : Json} (hj : FloatsReadBack j) (read : Reader α) :
    readText? read (print j) = read nestingRoom (tree j) := by
  rw [readText?, print, String.toList_ofList, ofChars?_chars hj, Option.bind_some]

end Reading

end FeedClient.Json
