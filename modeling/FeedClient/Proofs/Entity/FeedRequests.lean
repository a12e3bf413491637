import FeedClient.Entity.FeedInputs
import FeedClient.Proofs.Entity.FieldTables
import FeedClient.Proofs.Text.Numerals

/-!
# Feed requests and their inputs

The field table of a feed, the typed inputs and the request are read from the
same parameters, each with a reader of its own. The table accepts a kind exactly
if it names one, and a page size only if the typed reader gives the same number,
so that whatever passes the table has inputs and a request, and the request
spells the inputs.
-/
namespace FeedClient

namespace FeedKind

theorem isSome_find?_name (ks : List FeedKind) (s : String) :
    (ks.find? (·.name = s)).isSome = (ks.map name).contains s := by
  rw [Bool.eq_iff_iff, List.find?_isSome, List.contains_iff_mem, List.mem_map]
  simp

/-- A text names a kind exactly if the table accepts it. -/
theorem isSome_ofText? (s : String) : (ofText? s).isSome = (Validator.oneOf names).accepts s := by
  have hname := isSome_find?_name all (Text.trim s)
  unfold ofText? Validator.accepts names
  cases hf : all.find? (·.name = Text.trim s) with
  | some k =>
      rw [hf] at hname
      simp only [← hname, Option.isSome_some, Bool.true_or]
  | none =>
      rw [hf] at hname
      simp only [← hname, Option.isSome_none, Bool.false_or]
      cases Numeral.unsigned? (Nat.pow 2 64 - 1) (Text.trim s).toList with
      | none => rfl
      | some n => rw [Option.bind_some, List.length_map, Bool.eq_iff_iff, decide_eq_true_iff]; simp

end FeedKind

namespace FeedInputs

/-- A text in a range of positive numbers of 32 bits is read as the number that the range checked. -/
theorem readLimit?_of_accepts {least greatest : Int64} {text : String} (hpos : 0 < least.toInt)
    (hmax : greatest.toInt < UInt32.size) (h : (Validator.range least greatest).accepts text = true) :
    ∃ n : UInt32, readLimit? text = some n ∧ least.toInt ≤ n.toNat ∧ n.toNat ≤ greatest.toInt := by
  rw [Validator.accepts] at h
  cases hi : Numeral.signed? (Nat.pow 2 63) (Text.trim text).toList with
  | none => rw [hi] at h; cases h
  | some i =>
      rw [hi] at h
      simp only [Bool.and_eq_true, decide_eq_true_eq] at h
      have hsize : UInt32.size = 4294967296 := rfl
      have hpow : Nat.pow 2 32 = 4294967296 := rfl
      have hu : Numeral.unsigned? (Nat.pow 2 32 - 1) (Text.trim text).toList = some i.toNat :=
        Numeral.unsigned?_of_signed? hi (by omega) (by omega)
      have hn : (UInt32.ofNat i.toNat).toNat = i.toNat := UInt32.toNat_ofNat_of_lt' (by omega)
      refine ⟨UInt32.ofNat i.toNat, ?_, ?_, ?_⟩
      · rw [readLimit?, Numeral.uint32?, hu, Option.map_some]
      · rw [hn]; omega
      · rw [hn]; omega

/-- The inputs are those that each field gives by itself. -/
theorem ofParameters_eq_ok_iff {params : Parameters} {i : FeedInputs} :
    ofParameters params = .ok i ↔
      (∃ text, params.supplied? kindField = some text ∧ FeedKind.ofText? text = some i.kind) ∧
      (∃ text, params.supplied? algorithmField = some text ∧ i.algorithm = Text.trim text) ∧
      (params.supplied? limitField).map readLimit? = i.limit.map some ∧
      i.cursor = (params.supplied? cursorField).map Text.trim := by
  obtain ⟨kind, algorithm, limit, cursor⟩ := i
  unfold ofParameters
  cases params.supplied? kindField with
  | none => simp
  | some kindText =>
      cases hk : FeedKind.ofText? kindText with
      | none => simp [hk]
      | some k =>
          cases params.supplied? algorithmField with
          | none => simp [hk]
          | some a =>
              cases params.supplied? limitField with
              | none => cases limit <;> simp [hk, eq_comm]
              | some limitText =>
                  cases hl : readLimit? limitText with
                  | none => cases limit <;> simp [hk, hl]
                  | some n => cases limit <;> simp [hk, hl, eq_comm]

/-- The text of the page size in a request; it stands there only if a page size is supplied. -/
def limitText (params : Parameters) : String := Text.trim ((params.supplied? limitField).getD "")

/-- The parameters that spell the inputs, the page size under a text of its own. -/
def queryPairs (i : FeedInputs) (limitText : String) : List (String × String) :=
  ("algorithm", i.algorithm) ::
    ((i.limit.map fun _ => ("limit", limitText)).toList ++ (i.cursor.map fun c => ("cursor", c)).toList)

theorem uint32?_limitText {params : Parameters} {i : FeedInputs} {n : UInt32}
    (hi : ofParameters params = .ok i) (hn : i.limit = some n) :
    Numeral.uint32? (limitText params) = some n := by
  obtain ⟨-, -, hlimit, -⟩ := ofParameters_eq_ok_iff.mp hi
  cases hs : params.supplied? limitField with
  | none => simp [hs, hn] at hlimit
  | some text =>
      rw [limitText, hs, Option.getD_some]
      simpa [hs, hn, readLimit?] using hlimit

end FeedInputs

namespace EntityKind

/-- What the table of a feed asks for. -/
theorem validate_feed_iff {params : Parameters} :
    feed.descriptor.validate params = .ok () ↔
      (∃ text, params.supplied? FeedInputs.kindField = some text ∧
        (Validator.oneOf FeedKind.names).accepts text = true) ∧
      (∃ text, params.supplied? FeedInputs.algorithmField = some text) ∧
      ∀ text, params.supplied? FeedInputs.limitField = some text →
        (Validator.range 1 100).accepts text = true := by
  rw [Descriptor.validate_eq_ok_iff]
  simp only [descriptor, feedTable, List.forall_mem_cons, List.not_mem_nil, false_imp_iff,
    implies_true, and_true, FieldSpec.refused?_eq_none_iff, FieldSpec.isMissing_eq_false_iff,
    true_and, Option.some.injEq, reduceCtorEq, true_imp_iff, Bool.false_eq_true]
  constructor
  · rintro ⟨⟨hkind, hlimit⟩, ⟨text, htext⟩, halgorithm⟩
    exact ⟨⟨text, htext, hkind _ text rfl htext⟩, halgorithm, fun t ht => hlimit _ t rfl ht⟩
  · rintro ⟨⟨text, htext, hkind⟩, halgorithm, hlimit⟩
    refine ⟨⟨?_, ?_⟩, ⟨text, htext⟩, halgorithm⟩
    · rintro _ t rfl ht
      obtain rfl : text = t := by simpa [htext] using ht
      exact hkind
    · rintro _ t rfl ht
      exact hlimit t ht

/-- Whatever passes the table of a feed has typed inputs, with a page size of 1 to 100. -/
theorem exists_inputs_of_validate {params : Parameters}
    (h : feed.descriptor.validate params = .ok ()) :
    ∃ i, FeedInputs.ofParameters params = .ok i ∧ ∀ n, i.limit = some n → 1 ≤ n ∧ n ≤ 100 := by
  obtain ⟨⟨kindText, hkindText, hkind⟩, ⟨algorithm, halgorithm⟩, hlimit⟩ := validate_feed_iff.mp h
  rw [← FeedKind.isSome_ofText?, Option.isSome_iff_exists] at hkind
  obtain ⟨kind, hkind⟩ := hkind
  cases hs : params.supplied? FeedInputs.limitField with
  | none =>
      refine ⟨⟨kind, Text.trim algorithm, none, _⟩, FeedInputs.ofParameters_eq_ok_iff.mpr
        ⟨⟨kindText, hkindText, hkind⟩, ⟨algorithm, halgorithm, rfl⟩, ?_, rfl⟩, ?_⟩
      · simp [hs]
      · simp
  | some text =>
      obtain ⟨n, hn, hleast, hgreatest⟩ :=
        FeedInputs.readLimit?_of_accepts (by decide) (by decide) (hlimit text hs)
      refine ⟨⟨kind, Text.trim algorithm, some n, _⟩, FeedInputs.ofParameters_eq_ok_iff.mpr
        ⟨⟨kindText, hkindText, hkind⟩, ⟨algorithm, halgorithm, rfl⟩, ?_, rfl⟩, ?_⟩
      · simp [hs, hn]
      · rintro m hm
        obtain rfl : n = m := by simpa using hm
        have h1 : (1 : Int64).toInt = 1 := by decide
        have h100 : (100 : Int64).toInt = 100 := by decide
        rw [UInt32.le_iff_toNat_le, UInt32.le_iff_toNat_le]
        constructor
        · rw [show (1 : UInt32).toNat = 1 from rfl]; omega
        · rw [show (100 : UInt32).toNat = 100 from rfl]; omega

/-- The fields of a feed give a request what spells its inputs. -/
theorem feed_pairs_of_inputs {params : Parameters} {i : FeedInputs}
    (hi : FeedInputs.ofParameters params = .ok i) :
    feed.descriptor.fields.filterMap (·.queryPair? params) =
      i.queryPairs (FeedInputs.limitText params) := by
  obtain ⟨-, ⟨a, ha, halgorithm⟩, hlimit, hcursor⟩ := FeedInputs.ofParameters_eq_ok_iff.mp hi
  simp only [descriptor, feedTable, FieldSpec.queryPair?, List.filterMap_cons, List.filterMap_nil,
    FeedInputs.queryPairs, FeedInputs.limitText, halgorithm, ha, hcursor]
  cases hs : params.supplied? FeedInputs.limitField <;>
    cases hc : params.supplied? FeedInputs.cursorField <;>
    cases hl : i.limit <;> simp_all

theorem feed_request_of_validate (baseUrl : String) {params : Parameters} {i : FeedInputs}
    (hv : feed.descriptor.validate params = .ok ())
    (hi : FeedInputs.ofParameters params = .ok i) :
    feed.request baseUrl params = .ok ⟨.get, baseUrl ++ "xrpc/" ++ i.kind.operation,
      i.queryPairs (FeedInputs.limitText params), false⟩ := by
  have hpairs := Descriptor.appendQuery_of_nodup feed.descriptor params
    (Request.get (baseUrl ++ "xrpc/" ++ i.kind.operation)) rfl (by decide)
  rw [feed_pairs_of_inputs hi] at hpairs
  simp only [request, hv, hi, bind, Except.bind, pure, Except.pure, hpairs]
  rfl

/-- None of the pairs is blank. -/
theorem queryPairs_nonblank {params : Parameters} {i : FeedInputs}
    (hi : FeedInputs.ofParameters params = .ok i) :
    ∀ p ∈ i.queryPairs (FeedInputs.limitText params), Text.isBlank p.2 = false := by
  intro p hp
  rw [← feed_pairs_of_inputs hi, List.mem_filterMap] at hp
  obtain ⟨f, -, hf⟩ := hp
  exact FieldSpec.isBlank_of_queryPair? hf

theorem feed_request_of_fault (baseUrl : String) {params : Parameters} {e : RequestError}
    (hv : feed.descriptor.validate params = .error e) : feed.request baseUrl params = .error e := by
  simp only [request, hv, bind, Except.bind]

theorem validate_of_request {baseUrl : String} {params : Parameters} {r : Request}
    (h : feed.request baseUrl params = .ok r) : feed.descriptor.validate params = .ok () := by
  cases hv : feed.descriptor.validate params with
  | ok => rfl
  | error e =>
      rw [feed_request_of_fault baseUrl hv] at h
      cases h

/-- Parameters translate exactly if the table has nothing against them. They have typed inputs then,
and the request spells these: the algorithm, a page size of 1 to 100 if there is one, and a cursor if
there is one, in this order and none of them blank. -/
theorem request_agrees_with_inputs (baseUrl : String) (params : Parameters) :
    ((∃ r, feed.request baseUrl params = .ok r) ↔ feed.descriptor.validate params = .ok ()) ∧
    (feed.descriptor.validate params = .ok () →
      ∃ inputs limitText, FeedInputs.ofParameters params = .ok inputs ∧
        feed.request baseUrl params = .ok ⟨.get, baseUrl ++ "xrpc/" ++ inputs.kind.operation,
          inputs.queryPairs limitText, false⟩ ∧
        (∀ n, inputs.limit = some n → Numeral.uint32? limitText = some n ∧
          Numeral.Denotes limitText.toList n.toNat ∧ 1 ≤ n ∧ n ≤ 100) ∧
        (∀ p ∈ inputs.queryPairs limitText, Text.isBlank p.2 = false) ∧
        ∀ r, feed.request baseUrl params = .ok r →
          r.queryString = String.intercalate "&" (r.parameters.map Request.pairText)) := by
  constructor
  · constructor
    · rintro ⟨r, hr⟩
      cases hv : feed.descriptor.validate params with
      | ok => rfl
      | error e => rw [feed_request_of_fault baseUrl hv] at hr; cases hr
    · intro hv
      obtain ⟨i, hi, -⟩ := exists_inputs_of_validate hv
      exact ⟨_, feed_request_of_validate baseUrl hv hi⟩
  · intro hv
    obtain ⟨i, hi, hbounds⟩ := exists_inputs_of_validate hv
    have hblank := queryPairs_nonblank hi
    have hr := feed_request_of_validate baseUrl hv hi
    refine ⟨i, FeedInputs.limitText params, hi, hr, ?_, hblank, ?_⟩
    · intro n hn
      have hlimit := FeedInputs.uint32?_limitText hi hn
      exact ⟨hlimit, Numeral.denotes_of_uint32? hlimit, hbounds n hn⟩
    · intro r he
      obtain rfl : _ = r := Except.ok.inj (hr.symm.trans he)
      rw [Request.queryString, List.filter_eq_self.mpr (fun p hp => by simpa using hblank p hp)]

/-- A kind by its place, padded texts, and a page size with a sign and leading zeros. -/
theorem request_agrees_with_inputs_padded :
    let params := Parameters.ofPairs
      [("Type", " 0\t"), ("Algorithm", " abc "), ("Limit", " +007 "), ("Cursor", "x y")]
    feed.descriptor.validate params = .ok () ∧
    ∃ limitText, Numeral.uint32? limitText = some 7 ∧ Numeral.Denotes limitText.toList 7 ∧
      feed.request "https://bsky.social/" params =
        .ok ⟨.get, "https://bsky.social/xrpc/app.bsky.feed.getTimeline",
          [("algorithm", "abc"), ("limit", limitText), ("cursor", "x y")], false⟩ := by
  intro params
  have hv : feed.descriptor.validate params = .ok () := rfl
  obtain ⟨inputs, limitText, hi, hr, hn, -⟩ :=
    (request_agrees_with_inputs "https://bsky.social/" params).2 hv
  obtain rfl : ⟨.timeline, "abc", some 7, some "x y"⟩ = inputs := Except.ok.inj hi
  obtain ⟨hread, hdenotes, -⟩ := hn 7 rfl
  exact ⟨hv, limitText, hread, hdenotes, hr⟩

end EntityKind

end FeedClient
