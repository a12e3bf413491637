import FeedClient.Proofs.Query.Settling
import Mathlib.Data.List.Induction

/-!
# Members of captured JSON values

The members of a value that was made from JSON are those of the JSON value. A path
from a captured variable denotes what stands at that path inside of the JSON value,
and nothing if there is nothing. In that case the error names the first member that
is missing, and what is before it on the path.
-/
namespace FeedClient

/-- Member after member of a value. -/
def Json.at? (j : Json) (names : List String) : Option Json :=
  names.foldlM (fun inner name => inner.member? name) j

theorem Json.at?_concat (j : Json) (names : List String) (name : String) :
    j.at? (names ++ [name]) = (j.at? names).bind fun inner => inner.member? name := by
  rw [at?, List.foldlM_append, at?]
  cases names.foldlM (fun inner name => inner.member? name) j with
  | none => rfl
  | some inner => exact bind_pure (inner.member? name)

namespace Json

variable {j k : Json} {name member : String} {names before : List String}

theorem at?_cons (j : Json) (name : String) (names : List String) :
    j.at? (name :: names) = (j.member? name).bind fun inner => inner.at? names := by
  rw [at?, List.foldlM_cons]
  rfl

theorem member?_eq_some_iff :
    j.member? name = some k ↔ ∃ members, j = .object members ∧ Entries.find? name members = some k := by
  cases j <;> simp [member?]

/-- A path leads from a JSON value, through objects only, to what stands at its end. -/
inductive LeadsTo : Json → List String → Json → Prop where
  | here (j : Json) : LeadsTo j [] j
  | member {members : List (String × Json)} {name : String} {inner k : Json} {names : List String}
      (hmember : Entries.find? name members = some inner) (hrest : LeadsTo inner names k) :
      LeadsTo (.object members) (name :: names) k

theorem leadsTo_nil_iff : j.LeadsTo [] k ↔ j = k := by
  constructor
  · intro h
    cases h
    rfl
  · rintro rfl
    exact .here j

theorem leadsTo_cons_iff :
    j.LeadsTo (name :: names) k ↔ ∃ inner, j.member? name = some inner ∧ inner.LeadsTo names k := by
  constructor
  · intro h
    cases h with
    | member hmember hrest => exact ⟨_, hmember, hrest⟩
  · rintro ⟨inner, hmember, hrest⟩
    obtain ⟨members, rfl, hmember⟩ := member?_eq_some_iff.mp hmember
    exact .member hmember hrest

theorem leadsTo_iff : j.LeadsTo names k ↔ j.at? names = some k := by
  induction names generalizing j with
  | nil => rw [leadsTo_nil_iff, at?, List.foldlM_nil, Option.pure_def, Option.some.injEq]
  | cons name names ih => simp only [leadsTo_cons_iff, at?_cons, Option.bind_eq_some_iff, ih]

/-- Along a path, the members before this one lead somewhere, and with it they lead nowhere. -/
def StopsAt (j : Json) (names before : List String) (member : String) : Prop :=
  (∃ after, names = before ++ member :: after) ∧ (∃ inner, j.LeadsTo before inner) ∧
    ¬∃ inner, j.LeadsTo (before ++ [member]) inner

theorem not_stopsAt_nil : ¬j.StopsAt [] before member := by
  rintro ⟨⟨after, h⟩, -⟩
  simp at h

/-- A path whose first member is missing stops there. -/
theorem stopsAt_cons_of_none (h : j.member? name = none) :
    j.StopsAt (name :: names) before member ↔ before = [] ∧ member = name := by
  have hnowhere : ∀ path k, ¬j.LeadsTo (name :: path) k := by
    intro path k hleads
    obtain ⟨inner, hinner, -⟩ := leadsTo_cons_iff.mp hleads
    simp [h] at hinner
  constructor
  · rintro ⟨⟨after, hnames⟩, ⟨inner, hinner⟩, -⟩
    cases before with
    | nil => exact ⟨rfl, (List.cons.inj hnames).1.symm⟩
    | cons first rest =>
        obtain rfl : name = first := (List.cons.inj hnames).1
        exact absurd hinner (hnowhere rest inner)
  · rintro ⟨rfl, rfl⟩
    exact ⟨⟨names, rfl⟩, ⟨j, .here j⟩, fun ⟨inner, hinner⟩ => hnowhere [] inner hinner⟩

/-- A path whose first member is there stops behind it. -/
theorem stopsAt_cons_of_some (h : j.member? name = some k) :
    j.StopsAt (name :: names) before member ↔
      ∃ rest, before = name :: rest ∧ k.StopsAt names rest member := by
  have hleads : ∀ path l, j.LeadsTo (name :: path) l ↔ k.LeadsTo path l := by
    intro path l
    rw [leadsTo_cons_iff, h]
    simp
  constructor
  · rintro ⟨⟨after, hnames⟩, hbefore, hmember⟩
    cases before with
    | nil =>
        obtain rfl : name = member := (List.cons.inj hnames).1
        exact absurd ⟨k, (hleads [] k).mpr (.here k)⟩ hmember
    | cons first rest =>
        obtain ⟨rfl, hrest⟩ := List.cons.inj hnames
        simp only [List.cons_append, hleads] at hbefore hmember
        exact ⟨rest, rfl, ⟨after, hrest⟩, hbefore, hmember⟩
  · rintro ⟨rest, rfl, ⟨after, rfl⟩, hbefore, hmember⟩
    refine ⟨⟨after, rfl⟩, ?_, ?_⟩
    · simpa only [hleads] using hbefore
    · simpa only [List.cons_append, hleads] using hmember

end Json

namespace Value

/-- Member after member of a value. -/
def at? (v : Value) (names : List String) : Option Value :=
  names.foldlM (fun inner name => inner.member? name) v

theorem find?_ofMembers (name : String) (members : List (String × Json)) :
    Entries.find? name (ofMembers members) = (Entries.find? name members).map ofJson := by
  induction members with
  | nil => rfl
  | cons m ms ih =>
      rw [ofMembers, Entries.find?, Entries.find?, ih]
      split <;> rfl

theorem member?_ofJson (name : String) (j : Json) :
    (ofJson j).member? name = (j.member? name).map ofJson := by
  cases j with
  | object members => exact find?_ofMembers name members
  | integer n =>
      rw [ofJson, ofInteger]
      split <;> rfl
  | _ => rfl

/-- What stands at a path of a value from JSON is made from what stands there in the JSON value. -/
theorem at?_ofJson (j : Json) (names : List String) :
    (ofJson j).at? names = (j.at? names).map ofJson := by
  induction names generalizing j with
  | nil => rfl
  | cons name names ih =>
      rw [at?, List.foldlM_cons, member?_ofJson, Json.at?_cons]
      cases j.member? name with
      | none => rfl
      | some inner => exact ih inner

end Value

namespace Operand

variable {captures : Captures} {name : String} {j : Json} {v : Value}

theorem path_concat (names : List String) (member : String) :
    path name (names ++ [member]) = .member (path name names) member := by
  rw [path, List.foldl_append]
  rfl

/-- What a path from a captured JSON value denotes. The induction is on the end of the path, where a
member is taken of the rest. -/
theorem denotes_path_iff (h : captures.find? name = some (.ofJson j)) {names : List String} :
    (path name names).Denotes captures v ↔ ∃ inner, j.at? names = some inner ∧ .ofJson inner = v := by
  induction names using List.reverseRecOn generalizing v with
  | nil =>
      have hroot : j.at? [] = some j := rfl
      rw [path, List.foldl_nil, denotes_variable_iff, h, hroot]
      simp
  | append_singleton names member ih =>
      rw [path_concat, denotes_member_iff, Json.at?_concat]
      constructor
      · rintro ⟨w, hw, hmember⟩
        obtain ⟨inner, hinner, rfl⟩ := ih.mp hw
        rw [Value.member?_ofJson] at hmember
        obtain ⟨k, hk, rfl⟩ := Option.map_eq_some_iff.mp hmember
        exact ⟨k, by rw [hinner, Option.bind_some, hk], rfl⟩
      · rintro ⟨k, hk, rfl⟩
        obtain ⟨inner, hinner, hmember⟩ := Option.bind_eq_some_iff.mp hk
        refine ⟨.ofJson inner, ih.mpr ⟨inner, hinner, rfl⟩, ?_⟩
        rw [Value.member?_ofJson, hmember, Option.map_some]

section Folding

variable {e : Operand} {names : List String} {err : QueryError}

theorem display_members (e : Operand) (names : List String) :
    (names.foldl .member e).display = ".".intercalate (e.display :: names) := by
  induction names generalizing e with
  | nil => rfl
  | cons name names ih => exact ih (e.member name)

theorem isOpen_members (e : Operand) (names : List String) :
    (names.foldl .member e).isOpen = e.isOpen := by
  induction names generalizing e with
  | nil => rfl
  | cons name names ih => exact ih (e.member name)

/-- An error stays, whatever members are taken. -/
theorem value_members_of_error (h : e.value captures = .error err) (names : List String) :
    (names.foldl .member e).value captures = .error err := by
  induction names generalizing e with
  | nil => exact h
  | cons name names ih =>
      refine ih (e := e.member name) ?_
      rw [value, h]

/-- The members of an operand with a JSON value fail where the path stops. The induction follows the
path, and the operand takes up the members that are passed. -/
theorem value_members_eq_error_iff (h : e.value captures = .ok (.ofJson j)) :
    (names.foldl .member e).value captures = .error err ↔
      ∃ before member, j.StopsAt names before member ∧
        err = .memberNotFound (before.foldl .member e).display member := by
  induction names generalizing e j with
  | nil => simp [h, Json.not_stopsAt_nil]
  | cons name names ih =>
      rw [List.foldl_cons]
      cases hmember : j.member? name with
      | none =>
          have hmissing : (e.member name).value captures = .error (.memberNotFound e.display name) := by
            simp [value, h, Value.member?_ofJson, hmember]
          rw [value_members_of_error hmissing]
          simp only [Json.stopsAt_cons_of_none hmember]
          constructor
          · intro herr
            exact ⟨[], name, ⟨rfl, rfl⟩, (Except.error.inj herr).symm⟩
          · rintro ⟨before, member, ⟨rfl, rfl⟩, rfl⟩
            rfl
      | some inner =>
          have hinner : (e.member name).value captures = .ok (.ofJson inner) := by
            simp [value, h, Value.member?_ofJson, hmember]
          rw [ih hinner]
          simp only [Json.stopsAt_cons_of_some hmember]
          constructor
          · rintro ⟨rest, member, hstops, rfl⟩
            exact ⟨name :: rest, member, ⟨rest, rfl, hstops⟩, rfl⟩
          · rintro ⟨before, member, ⟨rest, rfl, hstops⟩, rfl⟩
            exact ⟨rest, member, hstops, rfl⟩

/-- Without its variable a path fails, whatever its members. From a captured JSON value it folds to the
literal of what it leads to, through objects only, or fails at the first member that leads nowhere,
with the display of what is before that. Making a value from JSON and taking members commute. -/
theorem fold_path (captures : Captures) (name : String) (names : List String) :
    (captures.find? name = none →
      (path name names).fold captures = .error (.unboundVariable name)) ∧
    (∀ j, captures.find? name = some (.ofJson j) →
      (∀ e, (path name names).fold captures = .ok e ↔
        ∃ inner, j.LeadsTo names inner ∧ e = .literal (.ofJson inner)) ∧
      ∀ err, (path name names).fold captures = .error err ↔
        ∃ before member, j.StopsAt names before member ∧
          err = .memberNotFound (path name before).display member) ∧
    (path name names).display = ".".intercalate (name :: names) ∧
    ∀ (j : Json) v, (Value.ofJson j).at? names = some v ↔
      ∃ inner, j.LeadsTo names inner ∧ v = .ofJson inner := by
  have hclosed : (path name names).isOpen = false := isOpen_members (.variable name) names
  refine ⟨fun hunbound => ?_, fun j hbound => ⟨fun e => ?_, fun err => ?_⟩,
    display_members (.variable name) names, fun j v => ?_⟩
  · have hvalue : (Operand.variable name).value captures = .error (.unboundVariable name) := by
      rw [value, hunbound]
    rw [fold_eq_error_iff, ← value_eq_error_iff hclosed]
    exact value_members_of_error hvalue names
  · rw [fold_eq_ok_iff, SettlesTo, hclosed]
    simp only [Bool.false_eq_true, false_and, false_or, denotes_path_iff hbound, ← Json.leadsTo_iff]
    constructor
    · rintro ⟨v, ⟨inner, hinner, rfl⟩, rfl⟩
      exact ⟨inner, hinner, rfl⟩
    · rintro ⟨inner, hinner, rfl⟩
      exact ⟨_, ⟨inner, hinner, rfl⟩, rfl⟩
  · have hvalue : (Operand.variable name).value captures = .ok (.ofJson j) := by rw [value, hbound]
    rw [fold_eq_error_iff, ← value_eq_error_iff hclosed]
    exact value_members_eq_error_iff hvalue
  · rw [Value.at?_ofJson, Option.map_eq_some_iff]
    simp only [Json.leadsTo_iff, eq_comm]

/-- Paths from a page of results: through objects to a list, further into the list, and from a variable
that is not bound. -/
theorem fold_path_of_page :
    let page : Json := .object [("cursor", .null), ("result", .object [("items", .array [.text "a"])])]
    let captures := Captures.empty.bind "page" (.ofJson page)
    (path "page" ["result", "items"]).fold captures = .ok (.literal (.text "\"a\"")) ∧
    (path "page" ["result", "items", "first"]).fold captures =
      .error (.memberNotFound "page.result.items" "first") ∧
    (path "next" ["result"]).fold captures = .error (.unboundVariable "next") := by
  intro page captures
  have hpage : captures.find? "page" = some (.ofJson page) := rfl
  have hitems : page.LeadsTo ["result", "items"] (.array [.text "a"]) :=
    .member rfl (.member rfl (.here _))
  have hstops : page.StopsAt ["result", "items", "first"] ["result", "items"] "first" := by
    refine ⟨⟨[], rfl⟩, ⟨_, hitems⟩, ?_⟩
    simp [Json.leadsTo_iff, page, Json.at?, Json.member?, Entries.find?]
  obtain ⟨-, hbound, -, -⟩ := fold_path captures "page" ["result", "items"]
  obtain ⟨-, hbroken, -, -⟩ := fold_path captures "page" ["result", "items", "first"]
  obtain ⟨hunbound, -⟩ := fold_path captures "next" ["result"]
  exact ⟨((hbound page hpage).1 _).mpr ⟨_, hitems, rfl⟩,
    ((hbroken page hpage).2 _).mpr ⟨_, _, hstops, rfl⟩, hunbound rfl⟩

end Folding

end Operand

end FeedClient
