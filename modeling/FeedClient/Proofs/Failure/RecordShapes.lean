import FeedClient.Failure.Failure
import FeedClient.Proofs.Json.Openings

/-!
# Shapes of error records

A text that reads as JSON is not taken for XML, so the record of a body depends on
what the body spells. An empty list of errors can leave a record without a detail
and without an entry. A body without a list follows the first convention whose
fields are there, except that a title, a type and an error without a description
make an OAuth failure that says nothing.
-/
namespace FeedClient

namespace ErrorBody

/-- The body has an empty list of errors, and what is read along with a list says nothing. -/
def ListsNothing (b : ErrorBody) : Prop :=
  b.errors = some [] ∧ if b.isTyped then b.detail = none else b.request = none

/-- The conventions for a body without a list of errors. -/
inductive Convention where
  | oauth (error description : String)
  | problem (title errorType detail : String)
  | request (request error : String)
  | unknown
  deriving DecidableEq, Repr

/-- The first convention whose fields are all there. -/
def convention (b : ErrorBody) : Convention :=
  match b.error, b.description, b.title, b.errorType, b.detail, b.request with
  | some error, some description, _, _, _, _ => .oauth error description
  | _, _, some title, some errorType, some detail, _ => .problem title errorType detail
  | some error, _, _, _, _, some request => .request request error
  | _, _, _, _, _, _ => .unknown

/-- There is an error without its description, but with the title and type of a problem. -/
def lacksDescription (b : ErrorBody) : Bool :=
  b.title.isSome && b.errorType.isSome && b.error.isSome && b.description.isNone

/-- Whether the fields are those of a convention: an OAuth failure, a problem, the error of a request or
a list of errors. -/
def isRecognized (b : ErrorBody) : Bool :=
  if b.isTyped then b.errors.isSome || b.error.isSome || b.detail.isSome
  else if b.request.isSome then b.error.isSome else b.errors.isSome

theorem convention_eq_problem {b : ErrorBody} {title errorType detail : String}
    (h : b.convention = .problem title errorType detail) : b.detail = some detail := by
  unfold convention at h
  split at h
  case h_2 hdetail _ => rw [hdetail, (Convention.problem.inj h).2.2]
  all_goals cases h

end ErrorBody

namespace ErrorRecord

/-- The record of a body that follows a convention, or none. -/
def ofConvention (status : Option Int64) (body : String) : ErrorBody.Convention → ErrorRecord
  | .oauth error description =>
    ⟨some error, some description, some "OAuth2", status, [⟨description, some error, some 0, none⟩]⟩
  | .problem title errorType detail =>
    ⟨some title, some detail, some errorType, status, [⟨title, some detail, status, none⟩]⟩
  | .request request error => ⟨none, none, none, none, [⟨error, some request, none, none⟩]⟩
  | .unknown =>
    ⟨some "Unhandled Error - please examine Detail property", some body, some "Unhandled", none, []⟩

/-- There is a detail or an entry, and so a message. -/
def SaysSomething (r : ErrorRecord) : Prop := r.detail ≠ none ∨ r.errors ≠ []

instance (r : ErrorRecord) : Decidable r.SaysSomething :=
  inferInstanceAs (Decidable (r.detail ≠ none ∨ r.errors ≠ []))

/-- A text that reads as JSON is not taken for XML. -/
theorem isXml_of_readText? {α : Type} {read : Json.Reader α} {body : String} {a : α}
    (h : Json.readText? read body = some a) : isXml body = false := by
  obtain ⟨c, rest, hbody, hc⟩ := Json.head_of_readText? h
  have hvisible : ¬Text.isSpace c = true := by simp [Json.not_isSpace_of_opensValue hc]
  have htrim : Text.trimStart body.toList = c :: rest := by
    rw [← Json.trimStart_skipSpace, hbody, Text.trimStart, List.dropWhile_cons_of_neg hvisible]
  have hopens : ('<' == c) = false := beq_false_of_ne (Json.opensValue_ne hc).symm
  rw [isXml, htrim]
  simp [xmlOpenings, List.isPrefixOf, hopens]

theorem ofText_of_readText? {body : String} {b : ErrorBody}
    (h : Json.readText? ErrorBody.readJson body = some b) : ofText body = ofBody b body := by
  rw [ofText, isXml_of_readText? h, if_neg Bool.false_ne_true, h]

/-- The record of a body by what its fields are: a list behind a title, an OAuth failure, a problem, the
error of a request, a list alone, or no convention. -/
inductive FromBody (b : ErrorBody) (body : String) : ErrorRecord → Prop where
  | typedList {entries : List ErrorEntry} (htyped : b.isTyped = true) (hlist : b.errors = some entries) :
      FromBody b body ⟨b.title, b.detail, b.errorType, b.status, entries⟩
  | oauth {error : String} (htyped : b.isTyped = true) (hlist : b.errors = none)
      (herror : b.error = some error) : FromBody b body (ofOAuth b error)
  | problem {detail : String} (htyped : b.isTyped = true) (hlist : b.errors = none)
      (herror : b.error = none) (hdetail : b.detail = some detail) : FromBody b body (ofProblem b detail)
  | request {request message : String} (htyped : b.isTyped = false) (hrequest : b.request = some request)
      (herror : b.error = some message) :
      FromBody b body { empty with errors := [⟨message, some request, none, none⟩] }
  | plainList {entries : List ErrorEntry} (htyped : b.isTyped = false) (hrequest : b.request = none)
      (hlist : b.errors = some entries) : FromBody b body { empty with errors := entries }
  | unknown (h : b.isRecognized = false) : FromBody b body (unhandled body)

theorem fromBody_ofBody (b : ErrorBody) (body : String) : FromBody b body (ofBody b body) := by
  unfold ofBody
  cases htyped : b.isTyped with
  | true =>
      cases hlist : b.errors with
      | some entries => exact .typedList htyped hlist
      | none =>
          cases herror : b.error with
          | some error => exact .oauth htyped hlist herror
          | none =>
              cases hdetail : b.detail with
              | some detail => exact .problem htyped hlist herror hdetail
              | none => exact .unknown (by simp [ErrorBody.isRecognized, htyped, hlist, herror, hdetail])
  | false =>
      cases hrequest : b.request with
      | some request =>
          cases herror : b.error with
          | some message => exact .request htyped hrequest herror
          | none => exact .unknown (by simp [ErrorBody.isRecognized, htyped, hrequest, herror])
      | none =>
          cases hlist : b.errors with
          | some entries => exact .plainList htyped hrequest hlist
          | none => exact .unknown (by simp [ErrorBody.isRecognized, htyped, hrequest, hlist])

section Saying

theorem saysSomething_of_detail {r : ErrorRecord} {detail : String} (h : r.detail = some detail) :
    r.SaysSomething := .inl (by simp [h])

theorem saysSomething_of_entry {r : ErrorRecord} {e : ErrorEntry} {entries : List ErrorEntry}
    (h : r.errors = e :: entries) : r.SaysSomething := .inr (by simp [h])

theorem saysSomething_ofXml (body : String) : (ofXml body).SaysSomething := by
  unfold ofXml
  split <;> exact saysSomething_of_detail rfl

theorem saysSomething_ofBody (b : ErrorBody) (body : String) :
    (ofBody b body).SaysSomething ↔ ¬b.ListsNothing := by
  have hfrom := fromBody_ofBody b body
  generalize ofBody b body = r at hfrom ⊢
  unfold ErrorBody.ListsNothing
  cases hfrom with
  | @typedList entries htyped hlist =>
      rw [htyped, hlist, if_pos rfl, Option.some.injEq, Decidable.not_and_iff_or_not]
      exact or_comm
  | oauth htyped hlist => exact iff_of_true (saysSomething_of_detail rfl) (by simp [hlist])
  | problem htyped hlist => exact iff_of_true (saysSomething_of_detail rfl) (by simp [hlist])
  | request htyped hrequest =>
      exact iff_of_true (saysSomething_of_entry rfl) (by simp [htyped, hrequest])
  | @plainList entries htyped hrequest hlist => simp [SaysSomething, empty, htyped, hrequest, hlist]
  | unknown h =>
      refine iff_of_true (saysSomething_of_detail rfl) ?_
      unfold ErrorBody.isRecognized at h
      rintro ⟨hlist, hnothing⟩
      cases htyped : b.isTyped <;> simp_all

/-- A record says something unless an empty list of errors is all that was read. So does the record
of a failed response, which is that of its body. -/
theorem saysSomething_ofText (body : String) :
    ((ofText body).SaysSomething ↔
      ¬∃ b, Json.readText? ErrorBody.readJson body = some b ∧ b.ListsNothing) ∧
    ∀ status usualReason, (Failure.ofResponse status usualReason body).record = ofText body := by
  constructor
  · cases hread : Json.readText? ErrorBody.readJson body with
    | some b =>
        rw [ofText_of_readText? hread, saysSomething_ofBody]
        simp
    | none =>
        refine iff_of_true ?_ (by simp)
        rw [ofText, hread]
        split
        · exact saysSomething_ofXml body
        · exact saysSomething_of_detail rfl
  · intro status usualReason
    rw [Failure.ofResponse]
    cases FailureKind.ofStatus status <;> rfl

/-- An empty list of errors alone, and one behind the title and type of a problem. -/
theorem says_nothing_of_empty_list :
    ¬(ofText "\x7b\"errors\":[]\x7d").SaysSomething ∧
      ¬(Failure.ofResponse 400 (some "Bad Request")
        "\x7b\"title\":\"T\",\"type\":\"U\",\"errors\":[]\x7d").record.SaysSomething := by
  decide +kernel

end Saying

section Conventions

variable {b : ErrorBody} {body : String}

/-- Without a list of errors the conventions are told apart in their order. The cases are those by
which a body counts as typed. -/
theorem ofBody_eq_ofConvention (hlist : b.errors = none) (hfull : b.lacksDescription = false)
    (body : String) : ofBody b body = ofConvention b.status body b.convention := by
  obtain ⟨title, detail, errorType, status, errors, error, description, request⟩ := b
  obtain rfl : errors = none := hlist
  cases error with
  | none => cases title <;> cases errorType <;> cases detail <;> cases request <;> rfl
  | some error =>
      cases description with
      | some description => cases title <;> cases errorType <;> rfl
      | none =>
          cases title with
          | none => cases request <;> rfl
          | some title =>
              cases errorType with
              | none => cases request <;> rfl
              | some errorType => cases hfull

theorem ofBody_of_lacksDescription (hlist : b.errors = none) (hlacks : b.lacksDescription = true)
    (body : String) :
    ∃ error, b.error = some error ∧
      ofBody b body = ofConvention b.status body (.oauth error "") := by
  simp only [ErrorBody.lacksDescription, Bool.and_eq_true, Option.isSome_iff_exists,
    Option.isNone_iff_eq_none] at hlacks
  obtain ⟨⟨⟨⟨title, htitle⟩, errorType, htype⟩, error, herror⟩, hdescription⟩ := hlacks
  refine ⟨error, herror, ?_⟩
  simp [ofBody, ErrorBody.isTyped, htitle, htype, hlist, herror, ofOAuth, hdescription, ofConvention]

theorem ne_empty_of_readText? (h : Json.readText? ErrorBody.readJson body = some b) : body ≠ "" := by
  rintro rfl
  obtain ⟨c, rest, hbody, -⟩ := Json.head_of_readText? h
  cases hbody

theorem detail_ofConvention_eq_empty_iff (hdetail : b.detail ≠ some "") (hbody : body ≠ "") :
    (ofConvention b.status body b.convention).detail = some "" ↔
      ∃ error, b.convention = .oauth error "" := by
  cases hc : b.convention with
  | oauth error description => simp [ofConvention]
  | problem title errorType detail =>
      have hsame := ErrorBody.convention_eq_problem hc
      rw [hsame] at hdetail
      simpa [ofConvention] using hdetail
  | request request error => simp [ofConvention]
  | unknown => simpa [ofConvention] using hbody

/-- The record of a JSON body without a list of errors is that of the first convention whose fields
are there, unless an error lacks its description among the fields of a problem: then it is that of an
OAuth failure with an empty one. So an empty detail stands in the place of another one exactly if the
description is empty or lacking. -/
theorem ofText_of_conventions (h : Json.readText? ErrorBody.readJson body = some b)
    (hlist : b.errors = none) :
    (b.lacksDescription = false → ofText body = ofConvention b.status body b.convention) ∧
    (b.lacksDescription = true → ∃ error, b.error = some error ∧
      ofText body = ofConvention b.status body (.oauth error "")) ∧
    (b.detail ≠ some "" → ((ofText body).detail = some "" ↔
      b.lacksDescription = true ∨ ∃ error, b.convention = .oauth error "")) := by
  rw [ofText_of_readText? h]
  refine ⟨fun hfull => ofBody_eq_ofConvention hlist hfull body,
    fun hlacks => ofBody_of_lacksDescription hlist hlacks body, fun hdetail => ?_⟩
  cases hlacks : b.lacksDescription with
  | false =>
      rw [ofBody_eq_ofConvention hlist hlacks,
        detail_ofConvention_eq_empty_iff hdetail (ne_empty_of_readText? h)]
      simp
  | true =>
      obtain ⟨error, -, hrecord⟩ := ofBody_of_lacksDescription hlist hlacks body
      rw [hrecord]
      exact iff_of_true rfl (.inl rfl)

/-- A problem with a request beside it. -/
theorem ofText_of_conventions_problem :
    ofText "\x7b\"title\":\"T\",\"type\":\"U\",\"detail\":\"D\",\"request\":\"R\"\x7d" =
      ⟨some "T", some "D", some "U", none, [⟨"T", some "D", none, none⟩]⟩ :=
  (ofText_of_conventions (b := ⟨some "T", some "D", some "U", none, none, none, none, some "R"⟩)
    (by decide +kernel) rfl).1 rfl

/-- A problem with an error beside it is taken for an OAuth failure, and its detail is lost. -/
theorem ofText_loses_detail :
    let body := "\x7b\"title\":\"T\",\"type\":\"U\",\"detail\":\"D\",\"error\":\"E\"\x7d"
    let b : ErrorBody := ⟨some "T", some "D", some "U", none, none, some "E", none, none⟩
    Json.readText? ErrorBody.readJson body = some b ∧ b.convention = .problem "T" "U" "D" ∧
      ofText body = ⟨some "E", some "", some "OAuth2", none, [⟨"", some "E", some 0, none⟩]⟩ := by
  decide +kernel

end Conventions

end ErrorRecord

end FeedClient
