import FeedClient.Client.Client
import FeedClient.Proofs.Entity.FeedRequests
import FeedClient.Proofs.Query.Conjunctions

/-!
# How a filter is put together

The request of a query depends on the equalities that its filters state, and not
on their order, on the nesting of conjunctions, on the number of filters, or on
the side of an equality that a field stands on. Equalities for fields that the
table does not know have no part in it.
-/
namespace FeedClient

namespace FeedQuery

/-- The query that filters are added to one after another. -/
def ofFilters (filters : List Predicate) (captures : Captures) : FeedQuery :=
  (filters.foldl restrict start).withCaptures captures

theorem foldl_restrict (p : Predicate) (captures : Captures) (filters : List Predicate) :
    filters.foldl restrict ⟨some p, captures⟩ = ⟨some (filters.foldl .and p), captures⟩ := by
  induction filters generalizing p with
  | nil => rfl
  | cons q filters ih => exact ih (.and p q)

theorem ofFilters_eq (filters : List Predicate) (captures : Captures) :
    ofFilters filters captures = ⟨Predicate.all? filters, captures⟩ := by
  cases filters with
  | nil => rfl
  | cons p filters =>
      have h : (p :: filters).foldl restrict start = ⟨some (filters.foldl .and p), .empty⟩ :=
        foldl_restrict p .empty filters
      rw [ofFilters, h]
      rfl

end FeedQuery

/-- The filters state the equalities between them, each a share, in whatever order. -/
def Predicate.Spread (filters : List Predicate) (es : List (String × Operand)) : Prop :=
  ∃ shares, List.Forall₂ States filters shares ∧ shares.flatten.Perm es

theorem Predicate.Spread.exists_all? {filters : List Predicate} {es : List (String × Operand)}
    (h : Spread filters es) (hne : es ≠ []) : ∃ p, all? filters = some p := by
  cases filters with
  | nil =>
      obtain ⟨shares, hshares, hperm⟩ := h
      cases hshares
      exact absurd hperm.nil_eq.symm hne
  | cons p filters => exact ⟨_, rfl⟩

namespace EntityKind

/-- What reads the parameters of an entity out of a filter. -/
def extractor (k : EntityKind) : Extractor := ⟨k.descriptor.fieldNames, k.descriptor.pattern⟩

theorem feed_parameters_of_states {captures : Captures} {p : Predicate}
    {es : List (String × Operand)} (h : p.States es)
    (hvalue : ∀ e ∈ es, ∃ v, e.2.value captures = .ok v) :
    feed.parameters (some p) captures =
      .ok (Parameters.ofPairs (feed.extractor.texts captures es)) := by
  obtain ⟨q, hq, hcollect⟩ := Extractor.collect_of_states
    (x := feed.extractor) Value.exists_parameterText_isoPattern h hvalue
  have hextract : feed.extractor.extract q =
      .ok (Parameters.ofPairs (feed.extractor.texts captures es)) := by
    rw [Extractor.extract, hcollect, Parameters.insertAll_empty]
  simp only [parameters, hq]
  exact hextract

/-- Filters give the parameters of what they state, in the order in which they state it. -/
theorem feed_parameters_of_shares {captures : Captures} {filters : List Predicate}
    {shares : List (List (String × Operand))} (h : List.Forall₂ Predicate.States filters shares)
    (hvalue : ∀ e ∈ shares.flatten, ∃ v, e.2.value captures = .ok v) :
    feed.parameters (Predicate.all? filters) captures =
      .ok (Parameters.ofPairs (feed.extractor.texts captures shares.flatten)) := by
  cases h with
  | nil => rfl
  | cons hp hps => exact feed_parameters_of_states (hp.foldl_and hps) hvalue

theorem feed_parameters_of_spread {captures : Captures} {filters : List Predicate}
    {es : List (String × Operand)} (h : Predicate.Spread filters es)
    (hvalue : ∀ e ∈ es, ∃ v, e.2.value captures = .ok v) :
    ∃ order, order.Perm es ∧ feed.parameters (Predicate.all? filters) captures =
      .ok (Parameters.ofPairs (feed.extractor.texts captures order)) := by
  obtain ⟨shares, hshares, hperm⟩ := h
  have hflat : ∀ e ∈ shares.flatten, ∃ v, e.2.value captures = .ok v :=
    fun e he => hvalue e (hperm.mem_iff.mp he)
  exact ⟨shares.flatten, hperm, feed_parameters_of_shares hshares hflat⟩

/-- Filters that state the same equalities for the fields of the table give the same parameters. -/
theorem feed_parameters_eq_of_spread {captures : Captures} {es others : List (String × Operand)}
    {filters otherFilters : List Predicate} (hvalue : ∀ e ∈ es, ∃ v, e.2.value captures = .ok v)
    (hother : ∀ e ∈ others, ∃ v, e.2.value captures = .ok v)
    (hnames : ((feed.extractor.relevant es).map Prod.fst).Nodup)
    (hsame : (feed.extractor.relevant es).Perm (feed.extractor.relevant others))
    (hfilters : Predicate.Spread filters es) (hotherFilters : Predicate.Spread otherFilters others) :
    ∃ params, feed.parameters (Predicate.all? filters) captures = .ok params ∧
      feed.parameters (Predicate.all? otherFilters) captures = .ok params := by
  obtain ⟨xs, hxs, hparams⟩ := feed_parameters_of_spread hfilters hvalue
  obtain ⟨ys, hys, hotherParams⟩ := feed_parameters_of_spread hotherFilters hother
  have hxy : (feed.extractor.relevant xs).Perm (feed.extractor.relevant ys) :=
    (hxs.filter _).trans (hsame.trans (hys.filter _).symm)
  have hdistinct : ((feed.extractor.texts captures xs).map Prod.fst).Nodup :=
    (Extractor.texts_names_sublist ..).nodup (((hxs.filter _).map _).nodup_iff.mpr hnames)
  have htexts := Parameters.ofPairs_eq_of_perm (Extractor.texts_perm hxy captures) hdistinct
  exact ⟨_, hparams, htexts ▸ hotherParams⟩

/-- Parameters translate to a request, or one field of the table is missing or refused. -/
theorem feed_request_outcome (baseUrl : String) (params : Parameters) :
    (∃ r, feed.request baseUrl params = .ok r) ∨
      ∃ name ∈ feed.descriptor.fieldNames,
        feed.request baseUrl params = .error (.missingParameter name) ∨
        ∃ text, feed.request baseUrl params = .error (.outOfRange name text) := by
  cases hv : feed.descriptor.validate params with
  | ok =>
      obtain ⟨i, hi, -⟩ := exists_inputs_of_validate hv
      exact .inl ⟨_, feed_request_of_validate baseUrl hv hi⟩
  | error err =>
      rw [feed_request_of_fault baseUrl hv]
      rcases Descriptor.validate_eq_error hv with ⟨f, hf, text, -, rfl⟩ | ⟨f, hf, -, rfl⟩
      · exact .inr ⟨f.name, List.mem_map_of_mem hf, .inr ⟨text, rfl⟩⟩
      · exact .inr ⟨f.name, List.mem_map_of_mem hf, .inl rfl⟩

end EntityKind

namespace Client

/-- Once a query has parameters, its request is theirs. -/
theorem request_of_parameters (c : Client) {q : FeedQuery} {params : Parameters}
    (h : EntityKind.feed.parameters q.filter q.captures = .ok params) :
    c.request q = asClientError .request (EntityKind.feed.request c.config.baseUrl params) := by
  cases hv : EntityKind.feed.descriptor.validate params with
  | ok =>
      obtain ⟨i, hi, -⟩ := EntityKind.exists_inputs_of_validate hv
      have hr := EntityKind.feed_request_of_validate c.config.baseUrl hv hi
      simp only [request, plan, h, hr, hi, asClientError, bind, Except.bind]
      rfl
  | error err =>
      have hr := EntityKind.feed_request_of_fault c.config.baseUrl hv
      simp only [request, plan, h, hr, asClientError, bind, Except.bind]
      rfl

/-- A query and its filter by itself translate to the same request, or fail alike. -/
theorem request_eq_buildRequest (c : Client) (p : Predicate) (captures : Captures) :
    c.request ⟨some p, captures⟩ = c.buildRequest "Feed" p captures := by
  have htag : EntityKind.ofTag "Feed" = .ok .feed := rfl
  cases h : EntityKind.feed.parameters (some p) captures with
  | error err => simp only [request, plan, buildRequest, htag, h]; rfl
  | ok params =>
      rw [c.request_of_parameters h]
      simp only [buildRequest, htag, h]
      rfl

/-- Filters that state the same equalities for the fields of the table translate to the same request,
or fail alike over one of these fields. -/
theorem request_of_spread (c : Client) (captures : Captures) {es others : List (String × Operand)}
    {filters otherFilters : List Predicate} (hne : es ≠ [])
    (hvalue : ∀ e ∈ es, ∃ v, e.2.value captures = .ok v)
    (hother : ∀ e ∈ others, ∃ v, e.2.value captures = .ok v)
    (hnames : ((EntityKind.feed.extractor.relevant es).map Prod.fst).Nodup)
    (hsame : (EntityKind.feed.extractor.relevant es).Perm (EntityKind.feed.extractor.relevant others))
    (hfilters : Predicate.Spread filters es) (hotherFilters : Predicate.Spread otherFilters others) :
    let q := FeedQuery.ofFilters filters captures
    c.request q = c.request (FeedQuery.ofFilters otherFilters captures) ∧
    (∃ p, q.filter = some p ∧ c.request q = c.buildRequest "Feed" p captures) ∧
    ((∃ r, c.request q = .ok r) ∨ ∃ name ∈ EntityKind.feed.descriptor.fieldNames,
      c.request q = .error (.request (.missingParameter name)) ∨
      ∃ text, c.request q = .error (.request (.outOfRange name text))) := by
  intro q
  obtain ⟨params, hparams, hotherParams⟩ := EntityKind.feed_parameters_eq_of_spread hvalue hother
    hnames hsame hfilters hotherFilters
  obtain ⟨p, hp⟩ := hfilters.exists_all? hne
  have hq : q = ⟨Predicate.all? filters, captures⟩ := FeedQuery.ofFilters_eq filters captures
  have hrequest : c.request q =
      asClientError .request (EntityKind.feed.request c.config.baseUrl params) := by
    rw [hq]
    exact c.request_of_parameters hparams
  refine ⟨?_, ⟨p, ?_, ?_⟩, ?_⟩
  · rw [hrequest, FeedQuery.ofFilters_eq]
    exact (c.request_of_parameters hotherParams).symm
  · rw [hq, hp]
  · rw [hq, hp]
    exact c.request_eq_buildRequest p captures
  · rw [hrequest]
    rcases EntityKind.feed_request_outcome c.config.baseUrl params with
      ⟨r, hr⟩ | ⟨name, hname, hr | ⟨text, hr⟩⟩
    · exact .inl ⟨r, by rw [hr]; rfl⟩
    · exact .inr ⟨name, hname, .inl (by rw [hr]; rfl)⟩
    · exact .inr ⟨name, hname, .inr ⟨text, by rw [hr]; rfl⟩⟩

/-- Two filters, with an equality that the table does not know and one turned round, against a single
filter in another order. -/
theorem request_of_spread_reordered :
    let c : Client := ⟨.default, ⟨⟨"reader", 1000, 1000, none, false⟩, .constant "token" none false, none⟩,
      none⟩
    let captures := (Captures.empty.bind "name" (.text "abc")).bind "page" (.object [("size", .int 25)])
    let kind : Operand := .literal FeedKind.timeline.toValue
    let size := Operand.path "page" ["size"]
    let filters : List Predicate :=
      [.and (.compare (.field "Language") .eq (.literal .null))
        (.and (.compare (.field "Type") .eq kind) (.compare (.field "Algorithm") .eq (.variable "name"))),
       .compare size .eq (.field "Limit")]
    let other : Predicate := .and (.and (.compare (.field "Limit") .eq size)
      (.compare (.variable "name") .eq (.field "Algorithm"))) (.compare (.field "Type") .eq kind)
    let r : Request := ⟨.get, "https://bsky.social/xrpc/app.bsky.feed.getTimeline",
      [("algorithm", "abc"), ("limit", "25")], false⟩
    c.request (.ofFilters [other] captures) = .ok r ∧
      c.request (.ofFilters filters captures) = .ok r ∧
      ∃ p, (FeedQuery.ofFilters filters captures).filter = some p ∧
        c.buildRequest "Feed" p captures = .ok r := by
  intro c captures kind size filters other r
  let es := [("Language", .literal .null), ("Type", kind), ("Algorithm", .variable "name"), ("Limit", size)]
  let others := [("Limit", size), ("Algorithm", .variable "name"), ("Type", kind)]
  have hvalue : ∀ e ∈ es, ∃ v, e.2.value captures = .ok v := by
    simp only [es, List.forall_mem_cons, List.not_mem_nil, false_imp_iff, implies_true, and_true]
    exact ⟨⟨_, rfl⟩, ⟨_, rfl⟩, ⟨_, rfl⟩, ⟨_, rfl⟩⟩
  have hother : ∀ e ∈ others, ∃ v, e.2.value captures = .ok v := by
    simp only [others, List.forall_mem_cons, List.not_mem_nil, false_imp_iff, implies_true, and_true]
    exact ⟨⟨_, rfl⟩, ⟨_, rfl⟩, ⟨_, rfl⟩⟩
  have hnames : ["Type", "Algorithm", "Limit"].Nodup := by decide
  have hsame : [("Type", kind), ("Algorithm", .variable "name"), ("Limit", size)].Perm others :=
    (List.reverse_perm _).symm
  have hfilters : Predicate.Spread filters es :=
    ⟨[[_, _, _], [_]], .cons (.and (.field ..) (.and (.field ..) (.field ..))) (.cons (.reversed ..) .nil),
      .refl _⟩
  have hotherFilters : Predicate.Spread [other] others :=
    ⟨[[_, _, _]], .cons (.and (.and (.field ..) (.reversed ..)) (.field ..)) .nil, .refl _⟩
  have hne : es ≠ [] := List.cons_ne_nil _ _
  obtain ⟨heq, ⟨p, hp, hbuild⟩, -⟩ :=
    request_of_spread c captures hne hvalue hother hnames hsame hfilters hotherFilters
  have hr : c.request (.ofFilters [other] captures) = .ok r := rfl
  exact ⟨hr, heq.trans hr, p, hp, hbuild.symm.trans (heq.trans hr)⟩

end Client

end FeedClient
