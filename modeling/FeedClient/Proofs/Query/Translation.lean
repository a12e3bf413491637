import FeedClient.Proofs.Query.Conjunctions

/-!
# What translates

A filter translates if all parts that its conjunctions join are equalities between
a field and a literal. Its parameters are the texts of the literals, the last one of
each collected field. The first part that is something else decides the error, and
how the conjunctions are grouped makes no difference to either.
-/
namespace FeedClient

namespace Predicate

/-- An equality between a field and a literal, whichever side they stand on. -/
inductive Equates : Predicate → String × Value → Prop where
  | field (name : String) (v : Value) : Equates (.compare (.field name) .eq (.literal v)) (name, v)
  | reversed (name : String) (v : Value) : Equates (.compare (.literal v) .eq (.field name)) (name, v)

/-- A part of a filter that does not translate, and what is said in front of its display. The operator
of a comparison counts before its operands. -/
inductive Refused : Predicate → String → Prop where
  | or (l r : Predicate) : Refused (.or l r) "disjunction is not supported: "
  | not (p : Predicate) : Refused (.not p) "negation is not supported: "
  | operator {l r : Operand} {op : Comparison} (h : op ≠ .eq) :
      Refused (.compare l op r) ("operator '" ++ op.symbol ++ "' is not supported: ")
  | operands {l r : Operand} (h : ∀ e, ¬Equates (.compare l .eq r) e) :
      Refused (.compare l .eq r) "expected a field compared with a literal: "

theorem fieldLiteral?_eq_some_iff {l r : Operand} {e : String × Value} :
    Extractor.fieldLiteral? l r = some e ↔ Equates (.compare l .eq r) e := by
  constructor
  · intro h
    unfold Extractor.fieldLiteral? at h
    split at h
    · cases h; exact .field _ _
    · cases h; exact .reversed _ _
    · cases h
  · rintro (_ | _) <;> rfl

/-- A part translates or is refused, and no part is a conjunction. -/
theorem equates_or_refused {p c : Predicate} (hc : c ∈ p.conjuncts) :
    (∃ e, c.Equates e) ∨ ∃ lead, c.Refused lead := by
  induction p with
  | and l r ihl ihr =>
      rcases List.mem_append.mp hc with hc | hc
      · exact ihl hc
      · exact ihr hc
  | or l r => rw [List.mem_singleton.mp hc]; exact .inr ⟨_, .or l r⟩
  | not p => rw [List.mem_singleton.mp hc]; exact .inr ⟨_, .not p⟩
  | compare l op r =>
      rw [List.mem_singleton.mp hc]
      by_cases hop : op = .eq
      · subst hop
        by_cases h : ∃ e, Equates (.compare l .eq r) e
        · exact .inl h
        · exact .inr ⟨_, .operands (not_exists.mp h)⟩
      · exact .inr ⟨_, .operator hop⟩

/-- Predicates that differ in how conjunctions are grouped. -/
inductive Regroups : Predicate → Predicate → Prop where
  | rotate (p q r : Predicate) : Regroups (.and (.and p q) r) (.and p (.and q r))
  | refl (p : Predicate) : Regroups p p
  | symm {p q : Predicate} (h : Regroups p q) : Regroups q p
  | trans {p q r : Predicate} (hp : Regroups p q) (hq : Regroups q r) : Regroups p r
  | and {l r l' r' : Predicate} (hl : Regroups l l') (hr : Regroups r r') :
      Regroups (.and l r) (.and l' r')
  | or {l r l' r' : Predicate} (hl : Regroups l l') (hr : Regroups r r') :
      Regroups (.or l r) (.or l' r')
  | not {p p' : Predicate} (h : Regroups p p') : Regroups (.not p) (.not p')

/-- Grouping does not show, as conjunctions are displayed without parentheses. -/
theorem Regroups.display_eq {p q : Predicate} (h : p.Regroups q) : p.display = q.display := by
  induction h with
  | rotate p q r => simp only [display, String.append_assoc]
  | refl => rfl
  | symm _ ih => exact ih.symm
  | trans _ _ ihp ihq => exact ihp.trans ihq
  | and _ _ ihl ihr => simp only [display, ihl, ihr]
  | or _ _ ihl ihr => simp only [display, ihl, ihr]
  | not _ ih => simp only [display, ih]

/-- Parts that all translate state one equality each. -/
theorem exists_equates_iff {cs : List Predicate} :
    (∃ es, List.Forall₂ Equates cs es) ↔ ∀ c ∈ cs, ∃ e, c.Equates e := by
  induction cs with
  | nil => exact ⟨fun _ => List.forall_mem_nil _, fun _ => ⟨[], .nil⟩⟩
  | cons c cs ih =>
      rw [List.forall_mem_cons, ← ih]
      constructor
      · rintro ⟨_, _ | ⟨he, hes⟩⟩
        exact ⟨⟨_, he⟩, ⟨_, hes⟩⟩
      · rintro ⟨⟨e, he⟩, ⟨es, hes⟩⟩
        exact ⟨e :: es, .cons he hes⟩

/-- The first part that is refused, behind others that translate, decides the error. -/
def FirstRefused (cs : List Predicate) (err : QueryError) : Prop :=
  ∃ before c after lead, cs = before ++ c :: after ∧ (∀ b ∈ before, ∃ e, b.Equates e) ∧
    c.Refused lead ∧ err = .unsupportedPredicate (lead ++ c.display)

/-- Either all parts translate or one of them is the first to be refused. -/
theorem equates_or_firstRefused {cs : List Predicate}
    (h : ∀ c ∈ cs, (∃ e, c.Equates e) ∨ ∃ lead, c.Refused lead) :
    (∀ c ∈ cs, ∃ e, c.Equates e) ∨ ∃ err, FirstRefused cs err := by
  induction cs with
  | nil => exact .inl (List.forall_mem_nil _)
  | cons c cs ih =>
      obtain ⟨hc, hcs⟩ := List.forall_mem_cons.mp h
      rcases hc with hc | ⟨lead, hlead⟩
      · rcases ih hcs with hall | ⟨err, before, d, after, lead, rfl, hbefore, hd⟩
        · exact .inl (List.forall_mem_cons.mpr ⟨hc, hall⟩)
        · exact .inr ⟨err, c :: before, d, after, lead, rfl, List.forall_mem_cons.mpr ⟨hc, hbefore⟩, hd⟩
      · exact .inr ⟨_, [], c, cs, lead, rfl, List.forall_mem_nil _, hlead, rfl⟩

end Predicate

namespace Parameters

/-- The names come in order, each of them once. -/
def Ordered (params : Parameters) : Prop := Entries.Ordered params.entries

theorem Ordered.insertAll {params : Parameters} (h : params.Ordered) (pairs : List (String × String)) :
    (params.insertAll pairs).Ordered := by
  induction pairs generalizing params with
  | nil => exact h
  | cons p pairs ih => exact ih (Entries.Ordered.insert h p.1 p.2)

theorem ordered_ofPairs (pairs : List (String × String)) : (ofPairs pairs).Ordered := by
  have hempty : empty.Ordered := List.Pairwise.nil
  have hall := hempty.insertAll pairs
  rwa [insertAll_empty] at hall

end Parameters

namespace Extractor

open Predicate (Equates Refused FirstRefused Regroups)

variable {x : Extractor}

theorem collect_and (l r : Predicate) (params : Parameters) :
    x.collect (.and l r) params = (x.collect l params).bind (x.collect r) := by
  rw [collect]
  cases x.collect l params <;> rfl

/-- Neither what is collected nor an error depends on how conjunctions are grouped. -/
theorem collect_eq_of_regroups {p q : Predicate} (h : p.Regroups q) (params : Parameters) :
    x.collect p params = x.collect q params := by
  induction h generalizing params with
  | rotate p q r =>
      rw [collect_and, collect_and, collect_and]
      cases x.collect p params with
      | error err => rfl
      | ok collected => exact (collect_and q r collected).symm
  | refl => rfl
  | symm _ ih => exact (ih params).symm
  | trans _ _ ihp ihq => exact (ihp params).trans (ihq params)
  | and _ _ ihl ihr => simp only [collect_and, ihl, funext ihr]
  | or hl hr =>
      rw [collect, collect]
      unfold disjunctionReason
      rw [(Regroups.or hl hr).display_eq]
  | not h =>
      rw [collect, collect]
      unfold negationReason
      rw [(Regroups.not h).display_eq]

/-- Collecting goes over the parts of a filter from left to right. -/
theorem collect_eq_foldlM (p : Predicate) (params : Parameters) :
    x.collect p params = p.conjuncts.foldlM (fun params c => x.collect c params) params := by
  induction p generalizing params with
  | and l r ihl ihr =>
      rw [collect_and, Predicate.conjuncts, List.foldlM_append, ← ihl]
      exact congrArg _ (funext ihr)
  | or l r => simp [Predicate.conjuncts]
  | not p => simp [Predicate.conjuncts]
  | compare l op r => simp [Predicate.conjuncts]

theorem collect_of_refused {c : Predicate} {lead : String} (h : c.Refused lead) (params : Parameters) :
    x.collect c params = .error (.unsupportedPredicate (lead ++ c.display)) := by
  cases h with
  | or l r => unfold collect disjunctionReason; rfl
  | not p => unfold collect negationReason; rfl
  | operator h => rw [collect, if_pos h]; unfold operatorReason; rfl
  | @operands l r h =>
      have hnone : fieldLiteral? l r = none :=
        Option.eq_none_iff_forall_ne_some.mpr fun e he => h e (Predicate.fieldLiteral?_eq_some_iff.mp he)
      simp only [collect, ne_eq, not_true_eq_false, if_false, hnone]
      unfold operandsReason
      rfl

/-- Equalities with literals as equalities with operands. -/
def withLiterals (es : List (String × Value)) : List (String × Operand) :=
  es.map fun e => (e.1, .literal e.2)

/-- The pattern of the extractor can write every literal that a filter compares a field with. -/
def Writes (x : Extractor) (cs : List Predicate) : Prop :=
  ∀ c ∈ cs, ∀ e, c.Equates e → ∃ text, e.2.parameterText x.pattern = .ok text

theorem Writes.exists_text {cs : List Predicate} {es : List (String × Value)} (hx : x.Writes cs)
    (h : List.Forall₂ Equates cs es) : ∀ e ∈ es, ∃ text, e.2.parameterText x.pattern = .ok text := by
  induction h with
  | nil => exact List.forall_mem_nil _
  | @cons c e cs es hc _ ih =>
      refine List.forall_mem_cons.mpr ⟨hx c (List.mem_cons_self ..) e hc, ih fun d hd => ?_⟩
      exact hx d (List.mem_cons_of_mem _ hd)

theorem foldlM_of_equates {cs : List Predicate} {es : List (String × Value)}
    (h : List.Forall₂ Equates cs es) (hx : x.Writes cs) (params : Parameters) :
    cs.foldlM (fun params c => x.collect c params) params =
      .ok (params.insertAll (x.texts .empty (withLiterals es))) := by
  induction h generalizing params with
  | nil => rfl
  | @cons c e cs es hc _ ih =>
      obtain ⟨text, htext⟩ := hx c (List.mem_cons_self ..) e hc
      have hrest : x.Writes cs := fun d hd => hx d (List.mem_cons_of_mem _ hd)
      have hcollect : x.collect c params =
          .ok (params.insertAll (x.texts .empty [(e.1, .literal e.2)])) := by
        cases hc with
        | field name v => exact collect_of_fieldLiteral? rfl rfl htext params
        | reversed name v => exact collect_of_fieldLiteral? rfl rfl htext params
      have happend : x.texts .empty (withLiterals (e :: es)) =
          x.texts .empty [(e.1, .literal e.2)] ++ x.texts .empty (withLiterals es) :=
        x.texts_append .empty [(e.1, .literal e.2)] (withLiterals es)
      rw [List.foldlM_cons, hcollect, happend, Parameters.insertAll_append]
      exact ih hrest _

theorem foldlM_of_firstRefused {cs : List Predicate} {err : QueryError} (h : FirstRefused cs err)
    (hx : x.Writes cs) (params : Parameters) :
    cs.foldlM (fun params c => x.collect c params) params = .error err := by
  obtain ⟨before, c, after, lead, rfl, hbefore, hc, rfl⟩ := h
  obtain ⟨es, hes⟩ := Predicate.exists_equates_iff.mpr hbefore
  have hxb : x.Writes before := fun d hd => hx d (List.mem_append_left _ hd)
  rw [List.foldlM_append, foldlM_of_equates hes hxb]
  have hstop := collect_of_refused (x := x) hc (params.insertAll (x.texts .empty (withLiterals es)))
  simp only [bind, Except.bind, List.foldlM_cons, hstop]

/-- The last of some equalities for a name. -/
def lastLiteral? (es : List (String × Value)) (name : String) : Option Value :=
  ((es.filter fun e => e.1 = name).getLast?).map Prod.snd

theorem isSome_lastLiteral?_iff {es : List (String × Value)} {name : String} :
    (lastLiteral? es name).isSome = true ↔ name ∈ es.map Prod.fst := by
  simp [lastLiteral?]

/-- A collected field has the text of its last literal, and no other field has one. -/
theorem find?_ofPairs_texts {es : List (String × Value)}
    (hes : ∀ e ∈ es, ∃ text, e.2.parameterText x.pattern = .ok text) (name : String) :
    (Parameters.ofPairs (x.texts .empty (withLiterals es))).find? name =
      if name ∈ x.recognized then
        (lastLiteral? es name).bind fun v => (v.parameterText x.pattern).toOption
      else none := by
  let given? (e : String × Value) : Option String :=
    if e.1 ∈ x.recognized then (e.2.parameterText x.pattern).toOption else none
  have htexts : x.texts .empty (withLiterals es) = es.filterMap fun e => (given? e).map (e.1, ·) := by
    simp only [texts, relevant, withLiterals, List.filter_map, List.filterMap_map, List.filterMap_filter]
    refine List.filterMap_congr fun e _ => ?_
    by_cases he : e.1 ∈ x.recognized <;> simp [given?, he, text?, Operand.value]
  have hfind : (Parameters.ofPairs (x.texts .empty (withLiterals es))).find? name =
      ((es.filter fun e => e.1 = name).filterMap given?).getLast? := by
    rw [htexts]
    exact Entries.find?_ofPairs_filterMap Prod.fst given? es name
  have hunder : ∀ e ∈ es.filter fun e => e.1 = name, e ∈ es ∧ e.1 = name := fun e he => by
    simpa using he
  rw [hfind, lastLiteral?]
  split
  · rename_i hname
    have hgiven : ∀ e ∈ es.filter fun e => e.1 = name,
        given? e = (e.2.parameterText x.pattern).toOption := fun e he =>
      if_pos (by rw [(hunder e he).2]; exact hname)
    rw [List.filterMap_congr hgiven]
    rcases List.eq_nil_or_concat (es.filter fun e => e.1 = name) with hnil | ⟨before, e, hlast⟩
    · rw [hnil]
      rfl
    · have he : e ∈ es := (hunder e (by rw [hlast]; simp)).1
      obtain ⟨text, htext⟩ := hes e he
      simp [hlast, htext, Except.toOption]
  · rename_i hname
    have hnone : (es.filter fun e => e.1 = name).filterMap given? = [] :=
      List.filterMap_eq_nil_iff.mpr fun e he => if_neg (by rw [(hunder e he).2]; exact hname)
    rw [hnone]
    rfl

/-- The parameters of some equalities, one by one. -/
theorem mem_ofPairs_texts {es : List (String × Value)}
    (hes : ∀ e ∈ es, ∃ text, e.2.parameterText x.pattern = .ok text) {name text : String} :
    (name, text) ∈ (Parameters.ofPairs (x.texts .empty (withLiterals es))).entries ↔
      name ∈ x.recognized ∧
        ∃ v, lastLiteral? es name = some v ∧ v.parameterText x.pattern = .ok text := by
  have hfind := find?_ofPairs_texts hes name
  rw [(Parameters.ordered_ofPairs _).mem_iff, ← Parameters.find?, hfind]
  by_cases hname : name ∈ x.recognized
  · have htext : ∀ v : Value, (v.parameterText x.pattern).toOption = some text ↔
        v.parameterText x.pattern = .ok text := fun v => by
      cases v.parameterText x.pattern <;> simp [Except.toOption]
    simp [hname, Option.bind_eq_some_iff, htext]
  · simp [hname]

/-- The names of the parameters are those of collected fields for which there is an equality. -/
theorem name_mem_ofPairs_texts {es : List (String × Value)}
    (hes : ∀ e ∈ es, ∃ text, e.2.parameterText x.pattern = .ok text) {name : String} :
    name ∈ (Parameters.ofPairs (x.texts .empty (withLiterals es))).entries.map Prod.fst ↔
      name ∈ x.recognized ∧ name ∈ es.map Prod.fst := by
  rw [← isSome_lastLiteral?_iff, Option.isSome_iff_exists]
  constructor
  · intro h
    obtain ⟨⟨n, text⟩, hmem, rfl⟩ := List.mem_map.mp h
    obtain ⟨hname, v, hv, -⟩ := (mem_ofPairs_texts hes).mp hmem
    exact ⟨hname, v, hv⟩
  · rintro ⟨hname, v, hv⟩
    obtain ⟨e, he, hev⟩ := Option.map_eq_some_iff.mp hv
    obtain ⟨text, htext⟩ := hes e (List.mem_filter.mp (List.mem_of_getLast? he)).1
    exact List.mem_map_of_mem ((mem_ofPairs_texts hes).mpr ⟨hname, v, hv, hev ▸ htext⟩)

/-- Extraction is exact. It succeeds on conjunctions of equalities between fields and literals and on
nothing else, with the text of the last literal of every collected field. Grouping conjunctions
differently changes nothing. Otherwise the first part that does not translate decides the error, of
whatever fields it speaks. -/
theorem extract_exact (x : Extractor) (p : Predicate) (hx : x.Writes p.conjuncts) :
    ((∃ params, x.extract p = .ok params) ↔ ∀ c ∈ p.conjuncts, ∃ e, c.Equates e) ∧
    (∀ es params, List.Forall₂ Equates p.conjuncts es → x.extract p = .ok params →
      params.Ordered ∧
      (∀ name, name ∈ params.entries.map Prod.fst ↔ name ∈ x.recognized ∧ name ∈ es.map Prod.fst) ∧
      ∀ name text, (name, text) ∈ params.entries ↔ name ∈ x.recognized ∧
        ∃ v, lastLiteral? es name = some v ∧ v.parameterText x.pattern = .ok text) ∧
    (∀ q, p.Regroups q → x.extract q = x.extract p) ∧
    ∀ err, x.extract p = .error err ↔ FirstRefused p.conjuncts err := by
  have hextract : x.extract p = p.conjuncts.foldlM (fun params c => x.collect c params) .empty :=
    collect_eq_foldlM p .empty
  have hok : ∀ es, List.Forall₂ Equates p.conjuncts es →
      x.extract p = .ok (Parameters.ofPairs (x.texts .empty (withLiterals es))) := fun es hes => by
    rw [hextract, foldlM_of_equates hes hx, Parameters.insertAll_empty]
  have herror : ∀ err, FirstRefused p.conjuncts err → x.extract p = .error err := fun err h => by
    rw [hextract, foldlM_of_firstRefused h hx]
  have hcases := Predicate.equates_or_firstRefused fun c hc => Predicate.equates_or_refused (p := p) hc
  refine ⟨⟨?_, ?_⟩, ?_, fun q hq => (collect_eq_of_regroups hq .empty).symm, fun err => ⟨?_, herror err⟩⟩
  · rintro ⟨params, hparams⟩
    rcases hcases with hall | ⟨err, hfirst⟩
    · exact hall
    · rw [herror err hfirst] at hparams; cases hparams
  · intro hall
    obtain ⟨es, hes⟩ := Predicate.exists_equates_iff.mpr hall
    exact ⟨_, hok es hes⟩
  · intro es params hes hparams
    obtain rfl : Parameters.ofPairs (x.texts .empty (withLiterals es)) = params :=
      Except.ok.inj ((hok es hes).symm.trans hparams)
    exact ⟨Parameters.ordered_ofPairs _, fun name => name_mem_ofPairs_texts (hx.exists_text hes),
      fun name text => mem_ofPairs_texts (hx.exists_text hes)⟩
  · intro herr
    rcases hcases with hall | ⟨first, hfirst⟩
    · obtain ⟨es, hes⟩ := Predicate.exists_equates_iff.mpr hall
      rw [hok es hes] at herr; cases herr
    · rw [herror first hfirst] at herr
      cases herr
      exact hfirst

/-- The second equality for a field replaces the first, and one for a field that is not collected does
not show. Behind these an inequality is refused before the negation that follows it. -/
theorem extract_exact_replaced :
    let x : Extractor := ⟨["Limit", "Since"], "%Y-%m-%d"⟩
    let first : Predicate := .field "Limit" .eq (.int 10)
    let english : Predicate := .compare (.literal (.text "en")) .eq (.field "Language")
    let second : Predicate := .compare (.literal (.int 25)) .eq (.field "Limit")
    let later : Predicate := .field "Language" .gt (.text "en")
    let p : Predicate := .and first (.and english second)
    let q : Predicate := .and (.and p later) (.not english)
    (∃ params, x.extract p = .ok params ∧ ("Limit", "25") ∈ params.entries ∧
      "Language" ∉ params.entries.map Prod.fst) ∧
    x.extract (.and (.and first english) second) = x.extract p ∧
    x.extract q =
      .error (.unsupportedPredicate "operator '>' is not supported: it.Language > \"en\"") := by
  intro x first english second later p q
  have hwrites : ∀ cs, x.Writes cs := fun _ _ _ e _ => Value.exists_parameterText (by decide +kernel) e.2
  let es : List (String × Value) := [("Limit", .int 10), ("Language", .text "en"), ("Limit", .int 25)]
  have hes : List.Forall₂ Equates p.conjuncts es :=
    .cons (.field ..) (.cons (.reversed ..) (.cons (.reversed ..) .nil))
  obtain ⟨haccept, hparams, hgroup, -⟩ := extract_exact x p (hwrites _)
  obtain ⟨-, -, -, hrefuse⟩ := extract_exact x q (hwrites _)
  obtain ⟨params, hp⟩ := haccept.mpr (Predicate.exists_equates_iff.mp ⟨es, hes⟩)
  obtain ⟨-, hnames, htexts⟩ := hparams es params hes hp
  refine ⟨⟨params, hp, ?_, ?_⟩, hgroup _ (.symm (.rotate ..)), ?_⟩
  · exact (htexts _ _).mpr ⟨by decide, .int 25, rfl, rfl⟩
  · exact fun h => absurd ((hnames _).mp h).1 (by decide)
  · refine (hrefuse _).mpr ⟨p.conjuncts, later, [.not english], _, rfl, ?_, .operator (by decide), rfl⟩
    exact Predicate.exists_equates_iff.mp ⟨es, hes⟩

end Extractor

end FeedClient
