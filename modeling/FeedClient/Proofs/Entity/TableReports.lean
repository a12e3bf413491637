import FeedClient.Proofs.Entity.FieldTables
import Mathlib.Data.List.Forall2
import Mathlib.Tactic.ByContra

/-!
# What a field table reports and appends

Any table reports the first field whose text its validator rejects, and only if
there is none the first required field that is not supplied. A request gets one
parameter for each supplied field with a query name, in the order of the table,
and what the table does not name plays no part.
-/
namespace FeedClient

/-- An element of a list has a property that none before it has. -/
def IsFirst {α : Type} (P : α → Prop) (l : List α) (a : α) : Prop :=
  ∃ before after, l = before ++ a :: after ∧ P a ∧ ∀ b ∈ before, ¬P b

namespace FieldSpec

/-- The parameters have a text for the field, and it is not blank. -/
def Has (f : FieldSpec) (params : Parameters) (text : String) : Prop :=
  params.find? f.name = some text ∧ Text.isBlank text = false

/-- The parameters have a text for the field that its validator does not accept. -/
def Rejects (f : FieldSpec) (params : Parameters) (text : String) : Prop :=
  f.Has params text ∧ ∃ v, f.validator = some v ∧ v.accepts text = false

/-- The field is required, and the parameters have no text for it. -/
def Lacks (f : FieldSpec) (params : Parameters) : Prop :=
  f.isRequired = true ∧ ∀ text, ¬f.Has params text

/-- The field gives a request a parameter: it has a query name, and there is a text for it. -/
def isAsked (f : FieldSpec) (params : Parameters) : Bool :=
  f.queryName.isSome && (params.supplied? f.name).isSome

/-- A parameter stands for a field: under its query name, with its text trimmed. -/
def StandsFor (params : Parameters) (f : FieldSpec) (p : String × String) : Prop :=
  f.queryName = some p.1 ∧ ∃ text, f.Has params text ∧ p.2 = Text.trim text

variable {f : FieldSpec} {params : Parameters} {text : String} {p : String × String}

theorem has_iff : f.Has params text ↔ params.supplied? f.name = some text :=
  Parameters.supplied?_eq_some_iff.symm

theorem rejects_iff : f.Rejects params text ↔ f.refused? params = some text := by
  rw [Rejects, has_iff]
  unfold refused?
  split
  · rename_i v t hv ht
    simp only [hv, ht, Option.some.injEq]
    split
    · rename_i haccepts
      simp only [reduceCtorEq, iff_false]
      rintro ⟨rfl, _, rfl, hrejects⟩
      exact absurd haccepts (by simp [hrejects])
    · rename_i hrejects
      constructor
      · exact fun h => congrArg some h.1
      · intro h
        exact ⟨Option.some.inj h, v, rfl, by rw [← Option.some.inj h]; simpa using hrejects⟩
  · rename_i hnone
    simp only [reduceCtorEq, iff_false]
    rintro ⟨htext, v, hv, -⟩
    exact hnone v text hv htext

theorem not_rejects_iff : (∀ text, ¬f.Rejects params text) ↔ f.refused? params = none := by
  simp only [rejects_iff, Option.eq_none_iff_forall_ne_some, ne_eq]

theorem lacks_iff : f.Lacks params ↔ f.isMissing params = true := by
  rw [Lacks, isMissing, Bool.and_eq_true, Option.isNone_iff_eq_none,
    Option.eq_none_iff_forall_ne_some]
  simp only [has_iff, ne_eq]

theorem standsFor_iff : StandsFor params f p ↔ f.queryPair? params = some p := by
  rw [queryPair?_eq_some_iff, StandsFor]
  simp only [has_iff]

theorem isAsked_eq_isSome : f.isAsked params = (f.queryPair? params).isSome := by
  unfold isAsked queryPair?
  cases f.queryName <;> cases params.supplied? f.name <;> rfl

/-- What a validator accepts it accepts without the white space around it. -/
theorem accepts_trim (v : Validator) (text : String) : v.accepts (Text.trim text) = v.accepts text := by
  cases v <;> simp only [Validator.accepts, Text.trim_trim]

end FieldSpec

namespace Descriptor

variable {d : Descriptor} {params : Parameters} {fs : List FieldSpec} {e : RequestError}

theorem firstRefused?_eq_findSome? : firstRefused? params fs =
    fs.findSome? fun f => (f.refused? params).map fun text => .outOfRange f.name text := by
  induction fs with
  | nil => rfl
  | cons f fs ih =>
      rw [firstRefused?, List.findSome?_cons, ih]
      cases f.refused? params <;> rfl

theorem firstMissing?_eq_findSome? : firstMissing? params fs =
    fs.findSome? fun f => if f.isMissing params then some (.missingParameter f.name) else none := by
  induction fs with
  | nil => rfl
  | cons f fs ih =>
      rw [firstMissing?, List.findSome?_cons, ih]
      cases f.isMissing params <;> rfl

theorem firstRefused?_eq_some_iff : firstRefused? params fs = some e ↔
    ∃ f text, IsFirst (fun g => ∃ t, g.Rejects params t) fs f ∧ f.Rejects params text ∧
      e = .outOfRange f.name text := by
  rw [firstRefused?_eq_findSome?, List.findSome?_eq_some_iff]
  constructor
  · rintro ⟨before, f, after, hfs, hf, hbefore⟩
    obtain ⟨text, htext, rfl⟩ := Option.map_eq_some_iff.mp hf
    have hrejects := FieldSpec.rejects_iff.mpr htext
    refine ⟨f, text, ⟨before, after, hfs, ⟨text, hrejects⟩, fun g hg => ?_⟩, hrejects, rfl⟩
    exact not_exists.mpr (FieldSpec.not_rejects_iff.mpr (Option.map_eq_none_iff.mp (hbefore g hg)))
  · rintro ⟨f, text, ⟨before, after, hfs, -, hbefore⟩, hrejects, rfl⟩
    refine ⟨before, f, after, hfs, ?_, fun g hg => ?_⟩
    · rw [FieldSpec.rejects_iff.mp hrejects, Option.map_some]
    · rw [FieldSpec.not_rejects_iff.mp (not_exists.mp (hbefore g hg)), Option.map_none]

theorem firstMissing?_eq_some_iff : firstMissing? params fs = some e ↔
    ∃ f, IsFirst (·.Lacks params) fs f ∧ e = .missingParameter f.name := by
  rw [firstMissing?_eq_findSome?, List.findSome?_eq_some_iff]
  constructor
  · rintro ⟨before, f, after, hfs, hf, hbefore⟩
    obtain ⟨hmissing, he⟩ := Option.ite_none_right_eq_some.mp hf
    refine ⟨f, ⟨before, after, hfs, FieldSpec.lacks_iff.mpr hmissing, fun g hg => ?_⟩,
      (Option.some.inj he).symm⟩
    simpa [FieldSpec.lacks_iff] using hbefore g hg
  · rintro ⟨f, ⟨before, after, hfs, hlacks, hbefore⟩, rfl⟩
    refine ⟨before, f, after, hfs, by rw [if_pos (FieldSpec.lacks_iff.mp hlacks)], fun g hg => ?_⟩
    rw [if_neg (mt FieldSpec.lacks_iff.mpr (hbefore g hg))]

theorem validate_eq_error_iff : d.validate params = .error e ↔
    (∃ f text, IsFirst (fun g => ∃ t, g.Rejects params t) d.fields f ∧ f.Rejects params text ∧
      e = .outOfRange f.name text) ∨
    (∀ f ∈ d.fields, ∀ text, ¬f.Rejects params text) ∧
      ∃ f, IsFirst (·.Lacks params) d.fields f ∧ e = .missingParameter f.name := by
  simp only [FieldSpec.not_rejects_iff, ← firstRefused?_eq_none_iff]
  rw [← firstRefused?_eq_some_iff, ← firstMissing?_eq_some_iff, validate, fault?]
  cases firstRefused? params d.fields with
  | some refusal => simp
  | none => cases firstMissing? params d.fields <;> simp

theorem validate_eq_ok_iff_forall : d.validate params = .ok () ↔
    ∀ f ∈ d.fields, (∀ text, ¬f.Rejects params text) ∧ ¬f.Lacks params := by
  simp only [validate_eq_ok_iff, FieldSpec.not_rejects_iff, FieldSpec.lacks_iff,
    Bool.not_eq_true, forall_and]

/-- The pairs of the fields are one for each asked field, in the same order. -/
theorem forall₂_standsFor (params : Parameters) (fs : List FieldSpec) :
    List.Forall₂ (FieldSpec.StandsFor params) (fs.filter (·.isAsked params))
      (fs.filterMap (·.queryPair? params)) := by
  induction fs with
  | nil => exact .nil
  | cons f fs ih =>
      have hasked : f.isAsked params = (f.queryPair? params).isSome := FieldSpec.isAsked_eq_isSome
      cases hp : f.queryPair? params with
      | none =>
          have hnot : ¬f.isAsked params = true := by simp [hasked, hp]
          rw [List.filter_cons, if_neg hnot]
          simpa only [List.filterMap_cons, hp] using ih
      | some p =>
          have hask : f.isAsked params = true := by simp [hasked, hp]
          rw [List.filter_cons, if_pos hask]
          simp only [List.filterMap_cons, hp]
          exact .cons (FieldSpec.standsFor_iff.mpr hp) ih

theorem mem_queryPairs_of_required {f : FieldSpec} {name : String}
    (hv : d.validate params = .ok ()) (hf : f ∈ d.fields) (hrequired : f.isRequired = true)
    (hname : f.queryName = some name) :
    ∃ text, f.Has params text ∧
      (name, Text.trim text) ∈ d.fields.filterMap (·.queryPair? params) := by
  obtain ⟨-, hlacks⟩ := validate_eq_ok_iff_forall.mp hv f hf
  obtain ⟨text, htext⟩ : ∃ text, f.Has params text := by
    by_contra hnone
    exact hlacks ⟨hrequired, not_exists.mp hnone⟩
  have hpair : FieldSpec.StandsFor params f (name, Text.trim text) := ⟨hname, text, htext, rfl⟩
  exact ⟨text, htext, List.mem_filterMap.mpr ⟨f, hf, FieldSpec.standsFor_iff.mp hpair⟩⟩

/-- A parameter that stands for a field is one that the field's validator accepts. -/
theorem accepts_of_standsFor {f : FieldSpec} {p : String × String} {v : Validator}
    (hv : d.validate params = .ok ()) (hf : f ∈ d.fields) (hp : FieldSpec.StandsFor params f p)
    (hvalidator : f.validator = some v) : v.accepts p.2 = true := by
  obtain ⟨-, text, htext, hvalue⟩ := hp
  rw [hvalue, FieldSpec.accepts_trim]
  by_contra hrejects
  exact (validate_eq_ok_iff_forall.mp hv f hf).1 text
    ⟨htext, v, hvalidator, by simpa using hrejects⟩

theorem firstRefused?_congr {other : Parameters}
    (h : ∀ f ∈ fs, f.refused? other = f.refused? params) :
    firstRefused? other fs = firstRefused? params fs := by
  rw [firstRefused?_eq_findSome?, firstRefused?_eq_findSome?, ← List.head?_filterMap,
    ← List.head?_filterMap]
  exact congrArg List.head? (List.filterMap_congr fun f hf => by rw [h f hf])

theorem firstMissing?_congr {other : Parameters}
    (h : ∀ f ∈ fs, f.isMissing other = f.isMissing params) :
    firstMissing? other fs = firstMissing? params fs := by
  rw [firstMissing?_eq_findSome?, firstMissing?_eq_findSome?, ← List.head?_filterMap,
    ← List.head?_filterMap]
  exact congrArg List.head? (List.filterMap_congr fun f hf => by rw [h f hf])

section Unnamed

variable {other : Parameters} (hsame : ∀ name ∈ d.fieldNames, other.find? name = params.find? name)
include hsame

theorem supplied?_congr {f : FieldSpec} (hf : f ∈ d.fields) :
    other.supplied? f.name = params.supplied? f.name := by
  rw [Parameters.supplied?, Parameters.supplied?, hsame f.name (List.mem_map_of_mem hf)]

theorem validate_congr : d.validate other = d.validate params := by
  have hrefused : ∀ f ∈ d.fields, f.refused? other = f.refused? params := by
    intro f hf
    rw [FieldSpec.refused?, FieldSpec.refused?, supplied?_congr hsame hf]
  have hmissing : ∀ f ∈ d.fields, f.isMissing other = f.isMissing params := by
    intro f hf
    rw [FieldSpec.isMissing, FieldSpec.isMissing, supplied?_congr hsame hf]
  rw [validate, validate, fault?, fault?, firstRefused?_congr hrefused, firstMissing?_congr hmissing]

theorem appendQuery_congr (r : Request) : d.appendQuery other r = d.appendQuery params r := by
  have hpairs : d.fields.filterMap (·.queryPair? other) = d.fields.filterMap (·.queryPair? params) := by
    apply List.filterMap_congr
    intro f hf
    rw [FieldSpec.queryPair?, FieldSpec.queryPair?, supplied?_congr hsame hf]
  rw [appendQuery, appendQuery, hpairs]

end Unnamed

/-- What any table reports: the first rejected text as it was given, whatever is missing, else the
first missing field. If there is nothing to report and the query names differ, a new request gets one
parameter for each field that is asked for, in order and trimmed, each still accepted and the required
ones among them. Parameters that the table does not name count for neither. -/
theorem reports_and_appends (d : Descriptor) (params : Parameters) :
    (∀ e, d.validate params = .error e ↔
      (∃ f text, IsFirst (fun g => ∃ t, g.Rejects params t) d.fields f ∧ f.Rejects params text ∧
        e = .outOfRange f.name text) ∨
      (∀ f ∈ d.fields, ∀ text, ¬f.Rejects params text) ∧
        ∃ f, IsFirst (·.Lacks params) d.fields f ∧ e = .missingParameter f.name) ∧
    (d.validate params = .ok () ↔
      ∀ f ∈ d.fields, (∀ text, ¬f.Rejects params text) ∧ ¬f.Lacks params) ∧
    (d.validate params = .ok () → (d.fields.filterMap (·.queryName)).Nodup →
      ∀ r : Request, r.parameters = [] → ∃ pairs,
        d.appendQuery params r = { r with parameters := pairs } ∧
        List.Forall₂ (FieldSpec.StandsFor params) (d.fields.filter (·.isAsked params)) pairs ∧
        (∀ p ∈ pairs, Text.isBlank p.2 = false) ∧
        (∀ f ∈ d.fields, f.isRequired = true → ∀ name, f.queryName = some name →
          ∃ text, f.Has params text ∧ (name, Text.trim text) ∈ pairs) ∧
        ∀ f ∈ d.fields, ∀ p ∈ pairs, FieldSpec.StandsFor params f p →
          ∀ v, f.validator = some v → v.accepts p.2 = true) ∧
    ∀ other : Parameters, (∀ name ∈ d.fieldNames, other.find? name = params.find? name) →
      d.validate other = d.validate params ∧
        ∀ r, d.appendQuery other r = d.appendQuery params r := by
  refine ⟨fun e => validate_eq_error_iff, validate_eq_ok_iff_forall, ?_, ?_⟩
  · intro hv hnames r hempty
    refine ⟨_, appendQuery_of_nodup d params r hempty hnames, forall₂_standsFor params d.fields,
      ?_, ?_, ?_⟩
    · intro p hp
      obtain ⟨f, -, hf⟩ := List.mem_filterMap.mp hp
      exact FieldSpec.isBlank_of_queryPair? hf
    · intro f hf hrequired name hname
      exact mem_queryPairs_of_required hv hf hrequired hname
    · intro f hf p _ hp v hvalidator
      exact accepts_of_standsFor hv hf hp hvalidator
  · intro other hsame
    exact ⟨validate_congr hsame, fun r => appendQuery_congr hsame r⟩

/-- A table with a kind, a required name and a size, for padded parameters and one too many. -/
theorem reports_and_appends_padded :
    let d : Descriptor := ⟨"Item", [⟨"Kind", none, false, some (.oneOf ["Alpha", "Beta"])⟩,
      ⟨"Name", some "name", true, none⟩, ⟨"Size", some "size", false, some (.range 1 10)⟩], "%Y"⟩
    let params := Parameters.ofPairs [("Size", " 5 "), ("Name", "n"), ("Kind", "1"), ("Color", "11")]
    let fewer := Parameters.ofPairs [("Size", " 5 "), ("Name", "n"), ("Kind", "1")]
    d.validate params = .ok () ∧ (d.fields.filterMap (·.queryName)).Nodup ∧
      (d.appendQuery params (Request.get "u")).parameters = [("name", "n"), ("size", "5")] ∧
      (∃ text, Parameters.find? params "Name" = some text ∧
        ("name", Text.trim text) ∈ [("name", "n"), ("size", "5")]) ∧
      d.validate fewer = .ok () := by
  intro d params fewer
  have hv : d.validate params = .ok () := rfl
  have hnames : (d.fields.filterMap (·.queryName)).Nodup := by decide
  obtain ⟨-, -, happend, hunnamed⟩ := reports_and_appends d params
  obtain ⟨pairs, hpairs, -, -, hrequired, -⟩ := happend hv hnames (Request.get "u") rfl
  obtain rfl : [("name", "n"), ("size", "5")] = pairs := congrArg Request.parameters hpairs
  obtain ⟨text, ⟨htext, -⟩, hmem⟩ := hrequired ⟨"Name", some "name", true, none⟩ (by decide) rfl _ rfl
  exact ⟨hv, hnames, rfl, ⟨text, htext, hmem⟩, (hunnamed fewer (by decide)).1.trans hv⟩

end Descriptor

end FeedClient
