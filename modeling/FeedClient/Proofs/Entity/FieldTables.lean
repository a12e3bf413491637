import FeedClient.Entity.Descriptor
import FeedClient.Proofs.Text.Trimming

/-!
# Checking and appending by a field table

A table has nothing against some parameters exactly if no field refuses its text
and none is missing. The fields of a table with distinct query names give a new
request their pairs in the order of the table.
-/
namespace FeedClient

namespace Request

theorem setParameter_of_notMem {name value : String} {ps : List (String × String)}
    (h : name ∉ ps.map Prod.fst) : setParameter name value ps = ps ++ [(name, value)] := by
  induction ps with
  | nil => rfl
  | cons p ps ih =>
      obtain ⟨n, v⟩ := p
      simp only [List.map_cons, List.mem_cons, not_or] at h
      rw [setParameter, if_neg (Ne.symm h.1), ih h.2, List.cons_append]

/-- Pushing under new names appends; nothing but the parameters changes. -/
theorem foldl_push_of_nodup (pairs : List (String × String)) (r : Request)
    (h : ((r.parameters ++ pairs).map Prod.fst).Nodup) :
    pairs.foldl (fun r p => r.push p.1 p.2) r = { r with parameters := r.parameters ++ pairs } := by
  induction pairs generalizing r with
  | nil => simp
  | cons p pairs ih =>
      have hmem : p.1 ∉ r.parameters.map Prod.fst := by
        intro hp
        rw [List.map_append, List.nodup_append] at h
        exact h.2.2 p.1 hp p.1 (by simp) rfl
      have hpush : r.push p.1 p.2 = { r with parameters := r.parameters ++ [p] } := by
        rw [push, setParameter_of_notMem hmem]
      rw [List.foldl_cons, hpush, ih _ (by simpa using h)]
      simp

end Request

namespace Parameters

theorem supplied?_eq_some_iff {params : Parameters} {name text : String} :
    params.supplied? name = some text ↔ params.find? name = some text ∧ Text.isBlank text = false := by
  rw [supplied?, Option.bind_eq_some_iff]
  constructor
  · rintro ⟨s, hs, ht⟩
    obtain ⟨rfl, hb⟩ := Text.nonblank?_eq_some_iff.mp ht
    exact ⟨hs, hb⟩
  · rintro ⟨hs, hb⟩
    exact ⟨text, hs, Text.nonblank?_eq_some_iff.mpr ⟨rfl, hb⟩⟩

end Parameters

namespace FieldSpec

/-- The pair of a field has its query name and its trimmed text, which is not blank. -/
theorem queryPair?_eq_some_iff {f : FieldSpec} {params : Parameters} {p : String × String} :
    f.queryPair? params = some p ↔
      f.queryName = some p.1 ∧ ∃ text, params.supplied? f.name = some text ∧ p.2 = Text.trim text := by
  unfold queryPair?
  split
  · rename_i name text hname htext
    simp only [hname, htext, Option.some.injEq]
    constructor
    · rintro rfl; exact ⟨rfl, text, rfl, rfl⟩
    · rintro ⟨rfl, _, rfl, hp⟩; rw [← hp]
  · rename_i hnone
    simp only [reduceCtorEq, false_iff]
    rintro ⟨hname, text, htext, -⟩
    exact hnone _ _ hname htext

theorem isBlank_of_queryPair? {f : FieldSpec} {params : Parameters} {p : String × String}
    (h : f.queryPair? params = some p) : Text.isBlank p.2 = false := by
  obtain ⟨-, text, htext, hp⟩ := queryPair?_eq_some_iff.mp h
  rw [hp, Text.isBlank_trim]
  exact (Parameters.supplied?_eq_some_iff.mp htext).2

theorem refused?_eq_none_iff {f : FieldSpec} {params : Parameters} :
    f.refused? params = none ↔ ∀ v text, f.validator = some v →
      params.supplied? f.name = some text → v.accepts text = true := by
  unfold refused?
  split
  · rename_i v text hv htext
    simp [hv, htext]
  · rename_i hnone
    simp only [true_iff]
    intro v text hv htext
    exact absurd htext (hnone v text hv)

theorem isMissing_eq_false_iff {f : FieldSpec} {params : Parameters} :
    f.isMissing params = false ↔
      (f.isRequired = true → ∃ text, params.supplied? f.name = some text) := by
  unfold isMissing
  cases f.isRequired <;> cases params.supplied? f.name <;> simp

end FieldSpec

namespace Descriptor

theorem firstRefused?_eq_none_iff {params : Parameters} {fs : List FieldSpec} :
    firstRefused? params fs = none ↔ ∀ f ∈ fs, f.refused? params = none := by
  induction fs with
  | nil => simp [firstRefused?]
  | cons f fs ih =>
      rw [firstRefused?, List.forall_mem_cons]
      cases hf : f.refused? params with
      | some text => simp
      | none => simp [ih]

theorem firstMissing?_eq_none_iff {params : Parameters} {fs : List FieldSpec} :
    firstMissing? params fs = none ↔ ∀ f ∈ fs, f.isMissing params = false := by
  induction fs with
  | nil => simp [firstMissing?]
  | cons f fs ih =>
      rw [firstMissing?, List.forall_mem_cons]
      cases hf : f.isMissing params with
      | true => simp
      | false => simp [ih]

theorem validate_eq_ok_iff {d : Descriptor} {params : Parameters} :
    d.validate params = .ok () ↔
      (∀ f ∈ d.fields, f.refused? params = none) ∧ ∀ f ∈ d.fields, f.isMissing params = false := by
  rw [← firstRefused?_eq_none_iff, ← firstMissing?_eq_none_iff, validate, fault?]
  cases firstRefused? params d.fields with
  | some e => simp
  | none =>
      cases firstMissing? params d.fields with
      | some e => simp
      | none => simp

theorem firstRefused?_eq_some {params : Parameters} {fs : List FieldSpec} {err : RequestError}
    (h : firstRefused? params fs = some err) :
    ∃ f ∈ fs, ∃ text, f.refused? params = some text ∧ err = .outOfRange f.name text := by
  induction fs with
  | nil => cases h
  | cons f fs ih =>
      rw [firstRefused?] at h
      cases hf : f.refused? params with
      | some text =>
          simp only [hf, Option.some.injEq] at h
          exact ⟨f, List.mem_cons_self .., text, hf, h.symm⟩
      | none =>
          simp only [hf] at h
          obtain ⟨g, hg, herr⟩ := ih h
          exact ⟨g, List.mem_cons_of_mem _ hg, herr⟩

theorem firstMissing?_eq_some {params : Parameters} {fs : List FieldSpec} {err : RequestError}
    (h : firstMissing? params fs = some err) :
    ∃ f ∈ fs, f.isMissing params = true ∧ err = .missingParameter f.name := by
  induction fs with
  | nil => cases h
  | cons f fs ih =>
      rw [firstMissing?] at h
      cases hf : f.isMissing params with
      | true =>
          simp only [hf, if_true, Option.some.injEq] at h
          exact ⟨f, List.mem_cons_self .., hf, h.symm⟩
      | false =>
          simp only [hf, Bool.false_eq_true, if_false] at h
          obtain ⟨g, hg, herr⟩ := ih h
          exact ⟨g, List.mem_cons_of_mem _ hg, herr⟩

/-- What a table has against parameters is a text that it refuses or a field that is missing. -/
theorem validate_eq_error {d : Descriptor} {params : Parameters} {err : RequestError}
    (h : d.validate params = .error err) :
    (∃ f ∈ d.fields, ∃ text, f.refused? params = some text ∧ err = .outOfRange f.name text) ∨
      ∃ f ∈ d.fields, f.isMissing params = true ∧ err = .missingParameter f.name := by
  rw [validate, fault?] at h
  cases hrefused : firstRefused? params d.fields with
  | some e =>
      left
      obtain rfl : e = err := by simpa [hrefused] using h
      exact firstRefused?_eq_some hrefused
  | none =>
      right
      cases hmissing : firstMissing? params d.fields with
      | none => simp [hrefused, hmissing] at h
      | some e =>
          obtain rfl : e = err := by simpa [hrefused, hmissing] using h
          exact firstMissing?_eq_some hmissing

/-- The names of the pairs stand among the query names, in the same order. -/
theorem queryPairs_names_sublist (params : Parameters) (fs : List FieldSpec) :
    ((fs.filterMap (·.queryPair? params)).map Prod.fst).Sublist (fs.filterMap (·.queryName)) := by
  induction fs with
  | nil => simp
  | cons f fs ih =>
      cases hp : f.queryPair? params with
      | none =>
          simp only [List.filterMap_cons, hp]
          cases f.queryName with
          | none => exact ih
          | some name => exact ih.cons name
      | some p =>
          have hn := (FieldSpec.queryPair?_eq_some_iff.mp hp).1
          simp only [List.filterMap_cons, hp, hn, List.map_cons]
          exact ih.cons_cons p.1

/-- On a request without parameters, a table with distinct query names puts the pairs of its fields. -/
theorem appendQuery_of_nodup (d : Descriptor) (params : Parameters) (r : Request)
    (hempty : r.parameters = []) (hnames : (d.fields.filterMap (·.queryName)).Nodup) :
    d.appendQuery params r = { r with parameters := d.fields.filterMap (·.queryPair? params) } := by
  have hnodup := (queryPairs_names_sublist params d.fields).nodup hnames
  rw [appendQuery, Request.foldl_push_of_nodup _ _ (by rw [hempty, List.nil_append]; exact hnodup)]
  rw [hempty, List.nil_append]

end Descriptor

end FeedClient
