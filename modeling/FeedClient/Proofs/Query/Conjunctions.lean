import FeedClient.Query.Extraction
import FeedClient.Proofs.Query.Settling
import FeedClient.Proofs.Text.EntryOrder

/-!
# Conjunctions of equalities

A conjunction of equalities, each between a field and an operand with a value,
gives every collected field the text of its operand. How the conjunction is
nested and which side of an equality the field stands on makes no difference;
the order counts only between two equalities for one field.
-/
namespace FeedClient

namespace Predicate

/-- The predicate joins equalities of fields with operands by conjunction, in this order. -/
inductive States : Predicate → List (String × Operand) → Prop where
  | field (name : String) (e : Operand) : States (.compare (.field name) .eq e) [(name, e)]
  | reversed (name : String) (e : Operand) : States (.compare e .eq (.field name)) [(name, e)]
  | and {l r : Predicate} {ls rs : List (String × Operand)} (hl : States l ls) (hr : States r rs) :
      States (.and l r) (ls ++ rs)

theorem States.foldl_and {ps : List Predicate} {shares : List (List (String × Operand))}
    (h : List.Forall₂ States ps shares) {p : Predicate} {es : List (String × Operand)}
    (hp : p.States es) : (ps.foldl .and p).States (es ++ shares.flatten) := by
  induction h generalizing p es with
  | nil => simpa using hp
  | cons hq _ ih =>
      rw [List.foldl_cons, List.flatten_cons, ← List.append_assoc]
      exact ih (.and hp hq)

end Predicate

namespace Value

theorem exists_parameterText {pattern : String}
    (h : (Calendar.Pattern.itemsWithin pattern.toList.length pattern.toList).isSome = true)
    (v : Value) : ∃ text, v.parameterText pattern = .ok text := by
  cases v with
  | instant t =>
      obtain ⟨items, hitems⟩ := Option.isSome_iff_exists.mp h
      simp [parameterText, Calendar.Instant.format?, hitems]
  | _ => exact ⟨_, rfl⟩

/-- Every value has a text in a request. -/
theorem exists_parameterText_isoPattern (v : Value) : ∃ text, v.parameterText isoPattern = .ok text :=
  exists_parameterText (by decide +kernel) v

end Value

namespace Parameters

/-- All pairs put in one after another. -/
def insertAll (params : Parameters) (pairs : List (String × String)) : Parameters :=
  pairs.foldl (fun params p => params.insert p.1 p.2) params

theorem insertAll_append (params : Parameters) (ps qs : List (String × String)) :
    params.insertAll (ps ++ qs) = (params.insertAll ps).insertAll qs := List.foldl_append

theorem insertAll_entries (params : Parameters) (pairs : List (String × String)) :
    (params.insertAll pairs).entries =
      pairs.foldl (fun entries p => Entries.insert p.1 p.2 entries) params.entries := by
  induction pairs generalizing params with
  | nil => rfl
  | cons p pairs ih => exact ih (params.insert p.1 p.2)

theorem insertAll_empty (pairs : List (String × String)) : empty.insertAll pairs = ofPairs pairs :=
  congrArg Parameters.mk (insertAll_entries empty pairs)

theorem ofPairs_eq_of_perm {ps qs : List (String × String)} (h : ps.Perm qs)
    (hnames : (ps.map Prod.fst).Nodup) : ofPairs ps = ofPairs qs :=
  congrArg Parameters.mk (Entries.ofPairs_eq_of_perm h hnames)

end Parameters

namespace Extractor

/-- The equalities for fields that are collected. -/
def relevant (x : Extractor) (es : List (String × Operand)) : List (String × Operand) :=
  es.filter fun e => x.recognized.contains e.1

/-- The text that an operand gives to a field, if it has a value. -/
def text? (x : Extractor) (captures : Captures) (e : Operand) : Option String :=
  match e.value captures with
  | .error _ => none
  | .ok v => (v.parameterText x.pattern).toOption

/-- The texts that equalities give to the collected fields. -/
def texts (x : Extractor) (captures : Captures) (es : List (String × Operand)) :
    List (String × String) :=
  (x.relevant es).filterMap fun e => (x.text? captures e.2).map (e.1, ·)

theorem texts_append (x : Extractor) (captures : Captures) (ds es : List (String × Operand)) :
    x.texts captures (ds ++ es) = x.texts captures ds ++ x.texts captures es := by
  simp only [texts, relevant, List.filter_append, List.filterMap_append]

theorem texts_perm {x : Extractor} {ds es : List (String × Operand)}
    (h : (x.relevant ds).Perm (x.relevant es)) (captures : Captures) :
    (x.texts captures ds).Perm (x.texts captures es) := h.filterMap _

theorem texts_names_sublist (x : Extractor) (captures : Captures) (es : List (String × Operand)) :
    ((x.texts captures es).map Prod.fst).Sublist ((x.relevant es).map Prod.fst) := by
  unfold texts
  induction x.relevant es with
  | nil => simp
  | cons e es ih =>
      rw [List.filterMap_cons]
      cases x.text? captures e.2 with
      | none => exact ih.cons e.1
      | some text => exact ih.cons_cons e.1

section Collecting

variable {x : Extractor} {captures : Captures}

/-- A folded equality adds the text of its operand, whichever side the field stands on. -/
theorem collect_of_fieldLiteral? {l r e : Operand} {name : String} {v : Value} {text : String}
    (h : fieldLiteral? l r = some (name, v)) (hv : e.value captures = .ok v)
    (htext : v.parameterText x.pattern = .ok text) (params : Parameters) :
    x.collect (.compare l .eq r) params = .ok (params.insertAll (x.texts captures [(name, e)])) := by
  have he : x.text? captures e = some text := by rw [text?, hv]; simp [htext, Except.toOption]
  by_cases hname : name ∈ x.recognized
  · simp [collect, h, htext, hname, texts, relevant, he, Parameters.insertAll]
  · simp [collect, h, hname, texts, relevant, Parameters.insertAll]

/-- A conjunction of equalities whose operands have values folds, and collecting from it puts in their
texts. -/
theorem collect_of_states (hpattern : ∀ v : Value, ∃ text, v.parameterText x.pattern = .ok text)
    {p : Predicate} {es : List (String × Operand)} (h : p.States es)
    (hvalue : ∀ e ∈ es, ∃ v, e.2.value captures = .ok v) :
    ∃ q, p.fold captures = .ok q ∧
      ∀ params, x.collect q params = .ok (params.insertAll (x.texts captures es)) := by
  induction h with
  | field name e =>
      obtain ⟨v, hv⟩ := hvalue _ (List.mem_singleton_self _)
      obtain ⟨text, htext⟩ := hpattern v
      have he : e.fold captures = .ok (.literal v) := Operand.fold_of_value hv
      refine ⟨.compare (.field name) .eq (.literal v), ?_, fun params => ?_⟩
      · exact pairing_eq_ok_iff.mpr ⟨.field name, .literal v, rfl, he, rfl⟩
      · exact collect_of_fieldLiteral? rfl hv htext params
  | reversed name e =>
      obtain ⟨v, hv⟩ := hvalue _ (List.mem_singleton_self _)
      obtain ⟨text, htext⟩ := hpattern v
      have he : e.fold captures = .ok (.literal v) := Operand.fold_of_value hv
      refine ⟨.compare (.literal v) .eq (.field name), ?_, fun params => ?_⟩
      · exact pairing_eq_ok_iff.mpr ⟨.literal v, .field name, he, rfl, rfl⟩
      · exact collect_of_fieldLiteral? rfl hv htext params
  | and _ _ ihl ihr =>
      obtain ⟨l, hl, hcl⟩ := ihl fun e he => hvalue e (List.mem_append_left _ he)
      obtain ⟨r, hr, hcr⟩ := ihr fun e he => hvalue e (List.mem_append_right _ he)
      refine ⟨.and l r, pairing_eq_ok_iff.mpr ⟨l, r, hl, hr, rfl⟩, fun params => ?_⟩
      simp only [collect, hcl, hcr, texts_append, Parameters.insertAll_append]

end Collecting

end Extractor

end FeedClient
