import FeedClient.Proofs.Client.Remembering
import FeedClient.Proofs.Client.Stages
import FeedClient.Proofs.Entity.TableReports
import FeedClient.Proofs.Query.Translation
import FeedClient.Proofs.Text.WrittenNumbers
import FeedClient.Proofs.Traversal

/-!
# Page sizes

A page size of 64 bits is written as its numeral, checked against its range, and read
again as a number of 32 bits. The three agree: a query for a page size outside of the
range is refused with the numeral, and any other asks for the numeral and is answered
with the number. Of several page sizes the last one counts.
-/
namespace FeedClient

theorem Validator.accepts_ofInt {least greatest n : Int64} :
    (Validator.range least greatest).accepts (Numeral.ofInt n.toInt) = true ↔
      least ≤ n ∧ n ≤ greatest := by
  have hread : Numeral.signed? (Nat.pow 2 63) (Numeral.ofInt n.toInt).toList = some n.toInt :=
    Numeral.signed?_ofInt n.le_toInt n.toInt_lt
  simp only [accepts, Numeral.trim_ofInt, hread, Bool.and_eq_true, decide_eq_true_eq,
    Int64.le_iff_toInt_le]

namespace FeedInputs

theorem readLimit?_ofInt {n : Int} (hlow : 0 ≤ n) (hhigh : n < Nat.pow 2 32) :
    readLimit? (Numeral.ofInt n) = some (UInt32.ofNat n.toNat) := by
  have hread : Numeral.unsigned? (Nat.pow 2 32 - 1) (Numeral.ofInt n).toList = some n.toNat :=
    Numeral.unsigned?_ofInt hlow (by omega)
  rw [readLimit?, Numeral.trim_ofInt, Numeral.uint32?, hread, Option.map_some]

/-- The parameter for the page size, where there is one, is its text. -/
theorem mem_queryPairs_limit {i : FeedInputs} {size : UInt32} (h : i.limit = some size)
    {limitText text : String} : ("limit", text) ∈ i.queryPairs limitText ↔ text = limitText := by
  simp [queryPairs, h]

end FeedInputs

namespace EntityKind

variable {params : Parameters} {kindText algorithm : String} {n : Int64}

/-- With a kind and an algorithm that are in order, the page size decides. -/
theorem validate_feed_of_limit (hkind : params.supplied? FeedInputs.kindField = some kindText)
    (hnamed : (Validator.oneOf FeedKind.names).accepts kindText = true)
    (halgorithm : params.supplied? FeedInputs.algorithmField = some algorithm) {text : String}
    (hlimit : params.supplied? FeedInputs.limitField = some text) :
    feed.descriptor.validate params =
      if (Validator.range 1 100).accepts text then .ok ()
      else .error (.outOfRange FeedInputs.limitField text) := by
  split
  · rename_i haccepts
    refine validate_feed_iff.mpr ⟨⟨_, hkind, hnamed⟩, ⟨_, halgorithm⟩, fun t ht => ?_⟩
    obtain rfl := Option.some.inj (hlimit.symm.trans ht)
    exact haccepts
  · rename_i hrefused
    let field : FieldSpec := ⟨FeedInputs.limitField, some "limit", false, some (.range 1 100)⟩
    have hrejects : field.Rejects params text :=
      ⟨FieldSpec.has_iff.mpr hlimit, .range 1 100, rfl, by simpa using hrefused⟩
    have hfirst : IsFirst (fun f => ∃ t, f.Rejects params t) feed.descriptor.fields field := by
      -- In front of the page size stand the kind, which is in order, and the algorithm, which has no
      -- validator.
      refine ⟨[_, _], [_], rfl, ⟨text, hrejects⟩, fun f hf => ?_⟩
      rintro ⟨t, ht, v, hv, hbad⟩
      rw [FieldSpec.has_iff] at ht
      rcases List.mem_cons.mp hf with rfl | hf
      · obtain rfl := Option.some.inj hv
        obtain rfl := Option.some.inj (hkind.symm.trans ht)
        rw [hnamed] at hbad
        cases hbad
      · rw [List.mem_singleton.mp hf] at hv
        cases hv
    exact Descriptor.validate_eq_error_iff.mpr (.inl ⟨field, text, hfirst, hrejects, rfl⟩)

/-- A page size in the range is requested with its numeral, and is one of the inputs. -/
theorem feed_request_of_limit (baseUrl : String) (hv : feed.descriptor.validate params = .ok ())
    (hlimit : params.supplied? FeedInputs.limitField = some (Numeral.ofInt n.toInt))
    (hlow : 1 ≤ n) (hhigh : n ≤ 100) :
    ∃ r i size, feed.request baseUrl params = .ok r ∧ FeedInputs.ofParameters params = .ok i ∧
      (∀ text, ("limit", text) ∈ r.parameters ↔ text = Numeral.ofInt n.toInt) ∧
      i.limit = some size ∧ (size.toNat : Int) = n.toInt := by
  have hone : 1 ≤ n.toInt := Int64.le_iff_toInt_le.mp hlow
  have hhundred : n.toInt ≤ 100 := Int64.le_iff_toInt_le.mp hhigh
  have h32 : Nat.pow 2 32 = 4294967296 := rfl
  obtain ⟨i, hi, -⟩ := exists_inputs_of_validate hv
  have hsize : i.limit = some (UInt32.ofNat n.toInt.toNat) := by
    obtain ⟨-, -, hread, -⟩ := FeedInputs.ofParameters_eq_ok_iff.mp hi
    rw [hlimit, Option.map_some, FeedInputs.readLimit?_ofInt (by omega) (by omega)] at hread
    cases hl : i.limit with
    | none => rw [hl] at hread; cases hread
    | some size => rw [hl] at hread; exact Option.some.inj hread.symm
  have htext : FeedInputs.limitText params = Numeral.ofInt n.toInt := by
    rw [FeedInputs.limitText, hlimit, Option.getD_some, Numeral.trim_ofInt]
  refine ⟨_, i, _, feed_request_of_validate baseUrl hv hi, hi, fun text => ?_, hsize, ?_⟩
  · rw [← htext]
    exact FeedInputs.mem_queryPairs_limit hsize
  · have hword : (UInt32.ofNat n.toInt.toNat).toNat = n.toInt.toNat :=
      UInt32.toNat_ofNat_of_lt' (by show _ < 4294967296; omega)
    omega

end EntityKind

/-- The filters set fields of the entity to values, in this order. -/
def Predicate.Sets (captures : Captures) (filters : List Predicate) (vs : List (String × Value)) : Prop :=
  ∃ shares, List.Forall₂ States filters shares ∧
    List.Forall₂ (fun e v => e.1 = v.1 ∧ e.2.Denotes captures v.2) shares.flatten vs

namespace Extractor

variable {x : Extractor} {captures : Captures} {es : List (String × Operand)} {vs : List (String × Value)}

/-- Operands give the texts of the values that they denote. -/
theorem texts_of_denotes (h : List.Forall₂ (fun e v => e.1 = v.1 ∧ e.2.Denotes captures v.2) es vs) :
    x.texts captures es = x.texts .empty (withLiterals vs) := by
  induction h with
  | nil => rfl
  | @cons e p es vs hev _ ih =>
      obtain ⟨name, e⟩ := e
      obtain ⟨_, v⟩ := p
      obtain ⟨rfl, hdenotes⟩ := hev
      have htext : x.text? captures e = x.text? .empty (.literal v) := by
        rw [text?, Operand.value_eq_ok_iff.mpr hdenotes]
        rfl
      have hone : x.texts captures [(name, e)] = x.texts .empty [(name, .literal v)] := by
        by_cases hname : name ∈ x.recognized <;> simp [texts, relevant, hname, htext, List.filterMap_cons]
      have hcons : withLiterals ((name, v) :: vs) = [(name, .literal v)] ++ withLiterals vs := rfl
      rw [← List.singleton_append, texts_append, hone, ih, hcons, texts_append]

end Extractor

namespace EntityKind

variable {captures : Captures} {filters : List Predicate} {vs : List (String × Value)}

/-- The parameters of filters that set fields to values. -/
def textsOf (vs : List (String × Value)) : Parameters :=
  Parameters.ofPairs (feed.extractor.texts .empty (Extractor.withLiterals vs))

theorem feed_parameters_of_sets (h : Predicate.Sets captures filters vs) :
    feed.parameters (Predicate.all? filters) captures = .ok (textsOf vs) := by
  obtain ⟨shares, hshares, hvalues⟩ := h
  have hvalue : ∀ e ∈ shares.flatten, ∃ v, e.2.value captures = .ok v := by
    intro e he
    obtain ⟨v, -, -, hv⟩ := exists_of_forall₂_right hvalues.flip he
    exact ⟨v.2, Operand.value_eq_ok_iff.mpr hv⟩
  rw [feed_parameters_of_shares hshares hvalue, Extractor.texts_of_denotes hvalues, textsOf]

/-- A field is supplied with the text of its last value, unless that is blank. -/
theorem supplied?_textsOf {name text : String} {v : Value} (hname : name ∈ feed.descriptor.fieldNames)
    (hlast : Extractor.lastLiteral? vs name = some v)
    (htext : v.parameterText feed.descriptor.pattern = .ok text) (hblank : Text.isBlank text = false) :
    (textsOf vs).supplied? name = some text := by
  have hfind : (textsOf vs).find? name = _ :=
    Extractor.find?_ofPairs_texts (fun e _ => e.2.exists_parameterText_isoPattern) name
  rw [Parameters.supplied?_eq_some_iff, hfind]
  refine ⟨?_, hblank⟩
  have hpattern : feed.extractor.pattern = feed.descriptor.pattern := rfl
  have hrecognized : name ∈ feed.extractor.recognized := hname
  rw [if_pos hrecognized, hlast, Option.bind_some, hpattern, htext]
  rfl

end EntityKind

/-- The filters ask for the timeline under an algorithm, with a page size. Of several values for one of
these fields the last one is meant. -/
def Predicate.AskFor (captures : Captures) (filters : List Predicate) (algorithm : String)
    (size : Int64) : Prop :=
  ∃ vs, Sets captures filters vs ∧
    Extractor.lastLiteral? vs FeedInputs.kindField = some FeedKind.timeline.toValue ∧
    Extractor.lastLiteral? vs FeedInputs.algorithmField = some (.text algorithm) ∧
    Extractor.lastLiteral? vs FeedInputs.limitField = some (.int size)

/-- What is asked for gives parameters that the table accepts or refuses for the page size alone. -/
theorem Predicate.AskFor.exists_parameters {captures : Captures} {filters : List Predicate}
    {algorithm : String} {n : Int64} (h : AskFor captures filters algorithm n)
    (ha : Text.isBlank algorithm = false) :
    ∃ params, EntityKind.feed.parameters (all? filters) captures = .ok params ∧
      params.supplied? FeedInputs.limitField = some (Numeral.ofInt n.toInt) ∧
      EntityKind.feed.descriptor.validate params =
        if 1 ≤ n ∧ n ≤ 100 then .ok ()
        else .error (.outOfRange FeedInputs.limitField (Numeral.ofInt n.toInt)) := by
  obtain ⟨vs, hsets, hkind, halgorithm, hlimit⟩ := h
  have hkindText := EntityKind.supplied?_textsOf (by decide) hkind rfl rfl
  have halgorithmText := EntityKind.supplied?_textsOf (by decide) halgorithm rfl ha
  have hlimitText := EntityKind.supplied?_textsOf (by decide) hlimit rfl (Numeral.isBlank_ofInt _)
  refine ⟨_, EntityKind.feed_parameters_of_sets hsets, hlimitText, ?_⟩
  rw [EntityKind.validate_feed_of_limit hkindText rfl halgorithmText hlimitText]
  simp only [Validator.accepts_ofInt]

namespace Client

section Answers

variable {c : Client} {q : FeedQuery} {params : Parameters} {r : Request} {i : FeedInputs} {shape : Shape}
  {course : Course} (hp : EntityKind.feed.parameters q.filter q.captures = .ok params)
  (hi : FeedInputs.ofParameters params = .ok i)
include hp hi

/-- A query is answered with its inputs. -/
theorem inputs_of_perform (hr : EntityKind.feed.request c.config.baseUrl params = .ok r)
    {answer : Answer} (h : (c.perform (.feeds q shape) course).1.result = .ok answer) :
    ∃ page, answer = .feeds [⟨i, page⟩] := by
  obtain ⟨read, hread, hperform⟩ := perform_of_prepares (.feeds shape hp hr) course
  rw [hperform] at h
  cases hresult : (c.channel.fetch r.draft course).result with
  | error err => rw [hresult] at h; cases h
  | ok text =>
      have hanswer : read text = .ok answer := by rw [hresult] at h; exact h
      have hmaps := hread text
      rw [hanswer] at hmaps
      cases hmaps with
      | @page _ _ _ _ page _ hq hj _ =>
          obtain rfl := Except.ok.inj (hp.symm.trans hq)
          obtain rfl := Except.ok.inj (hi.symm.trans hj)
          exact ⟨page, rfl⟩

/-- A query is answered whenever a page is read. -/
theorem perform_of_reads {text : String} {page : FeedPage} (h : c.Reads (.feeds q shape) course text)
    (hpage : FeedPage.ofText? text = some page) :
    (c.perform (.feeds q shape) course).1.result = .ok (.feeds [⟨i, page⟩]) := by
  obtain ⟨d, head, hd, ha, hf, ht⟩ := h
  obtain ⟨read, hread, hperform⟩ := perform_of_prepares hd course
  have hresult := Channel.fetch_result_eq_ok_iff.mpr ⟨head, ha, hf, ht⟩
  have hanswer := (hread text).unique (.page shape hp hi hpage)
  rw [hperform, hresult]
  exact hanswer

end Answers

/-- The page size is checked over all numbers of 64 bits. A query for one outside of the range fails
before anything is signed, with the numeral that was asked for. Any other asks for the numeral, and
every answer to it repeats the number. -/
theorem page_size_checked (c : Client) {captures : Captures} {filters : List Predicate}
    {algorithm : String} {n : Int64} (h : Predicate.AskFor captures filters algorithm n)
    (ha : Text.isBlank algorithm = false) :
    let q := FeedQuery.ofFilters filters captures
    let refusal : ClientError := .request (.outOfRange "Limit" (Numeral.ofInt n.toInt))
    (c.request q = .error refusal ↔ n < 1 ∨ 100 < n) ∧
    (n < 1 ∨ 100 < n → ∀ shape course, c.perform (.feeds q shape) course = (.refused refusal, c)) ∧
    (1 ≤ n → n ≤ 100 → ∃ r inputs size, c.request q = .ok r ∧
      (∀ text, ("limit", text) ∈ r.parameters ↔ text = Numeral.ofInt n.toInt) ∧
      inputs.limit = some size ∧ (size.toNat : Int) = n.toInt ∧
      ∀ shape course,
        (∀ answer, (c.perform (.feeds q shape) course).1.result = .ok answer →
          ∃ page, answer = .feeds [⟨inputs, page⟩]) ∧
        ∀ text page, c.Reads (.feeds q shape) course text → FeedPage.ofText? text = some page →
          (c.perform (.feeds q shape) course).1.result = .ok (.feeds [⟨inputs, page⟩])) := by
  intro q refusal
  obtain ⟨params, hparams, hlimit, hvalidate⟩ := h.exists_parameters ha
  have hp : EntityKind.feed.parameters q.filter q.captures = .ok params := by
    have hq : q = ⟨Predicate.all? filters, captures⟩ := FeedQuery.ofFilters_eq filters captures
    rw [hq]
    exact hparams
  have hrequest := c.request_of_parameters hp
  by_cases hrange : 1 ≤ n ∧ n ≤ 100
  · have houtside : ¬(n < 1 ∨ 100 < n) := by
      rintro (hlow | hhigh)
      · exact Int64.not_lt.mpr hrange.1 hlow
      · exact Int64.not_lt.mpr hrange.2 hhigh
    rw [if_pos hrange] at hvalidate
    obtain ⟨r, i, size, hr, hi, htext, hsize, hn⟩ :=
      EntityKind.feed_request_of_limit c.config.baseUrl hvalidate hlimit hrange.1 hrange.2
    have hok : c.request q = .ok r := by rw [hrequest, hr]; rfl
    refine ⟨?_, fun hout => absurd hout houtside, fun _ _ => ⟨r, i, size, hok, htext, hsize, hn, ?_⟩⟩
    · rw [hok]
      simp only [reduceCtorEq, houtside]
    · intro shape course
      exact ⟨fun answer hanswer => inputs_of_perform hp hi hr hanswer,
        fun text page hreads hpage => perform_of_reads hp hi hreads hpage⟩
  · have houtside : n < 1 ∨ 100 < n := by
      by_cases hlow : n < 1
      · exact .inl hlow
      · exact .inr (Int64.not_le.mp fun hhigh => hrange ⟨Int64.not_lt.mp hlow, hhigh⟩)
    rw [if_neg hrange] at hvalidate
    have hr := EntityKind.feed_request_of_fault c.config.baseUrl hvalidate
    have herror : c.request q = .error refusal := by rw [hrequest, hr]; rfl
    refine ⟨⟨fun _ => houtside, fun _ => herror⟩, fun _ shape course => ?_, fun hlow hhigh => ?_⟩
    · exact perform_of_refuses (.unbuilt shape hp hr) course
    · exact absurd ⟨hlow, hhigh⟩ hrange

/-- A page size of 25, with the field behind the literal, and behind it another one: the least number
of 64 bits, bound to a variable. -/
theorem page_size_checked_replaced :
    let c : Client := ⟨.default, ⟨⟨"reader", 1000, 1000, none, false⟩, .constant "token" none false, none⟩,
      none⟩
    let captures := Captures.empty.bind "size" (.int (-9223372036854775808))
    let feed : Predicate := .and (.compare (.field "Type") .eq (.literal FeedKind.timeline.toValue))
      (.compare (.field "Algorithm") .eq (.literal (.text "abc")))
    let filters : List Predicate := [feed, .compare (.literal (.int 25)) .eq (.field "Limit")]
    let others : List Predicate := filters ++ [.compare (.field "Limit") .eq (.variable "size")]
    Text.isBlank "abc" = false ∧ Predicate.AskFor captures filters "abc" 25 ∧
      Predicate.AskFor captures others "abc" (-9223372036854775808) ∧
      (∃ r, c.request (.ofFilters filters captures) = .ok r ∧ ("limit", "25") ∈ r.parameters) ∧
      c.request (.ofFilters others captures) =
        .error (.request (.outOfRange "Limit" "-9223372036854775808")) := by
  intro c captures feed filters others
  have hblank : Text.isBlank "abc" = false := rfl
  have hfeed : feed.States [_, _] := .and (.field ..) (.field ..)
  have hfilters : Predicate.AskFor captures filters "abc" 25 :=
    ⟨[("Type", _), ("Algorithm", _), ("Limit", _)],
      ⟨[[_, _], [_]], .cons hfeed (.cons (.reversed ..) .nil),
        .cons ⟨rfl, .literal _⟩ (.cons ⟨rfl, .literal _⟩ (.cons ⟨rfl, .literal _⟩ .nil))⟩, rfl, rfl, rfl⟩
  have hothers : Predicate.AskFor captures others "abc" (-9223372036854775808) :=
    ⟨[("Type", _), ("Algorithm", _), ("Limit", _), ("Limit", _)],
      ⟨[[_, _], [_], [_]], .cons hfeed (.cons (.reversed ..) (.cons (.field ..) .nil)),
        .cons ⟨rfl, .literal _⟩ (.cons ⟨rfl, .literal _⟩ (.cons ⟨rfl, .literal _⟩
          (.cons ⟨rfl, .captured rfl⟩ .nil)))⟩, rfl, rfl, rfl⟩
  obtain ⟨r, -, -, hr, htext, -⟩ := (page_size_checked c hfilters hblank).2.2 (by decide) (by decide)
  refine ⟨hblank, hfilters, hothers, ⟨r, hr, (htext "25").mpr rfl⟩, ?_⟩
  exact (page_size_checked c hothers hblank).1.mpr (.inl (by decide))

end Client

end FeedClient
