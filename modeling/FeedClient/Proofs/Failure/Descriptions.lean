import FeedClient.Proofs.Failure.RecordShapes

/-!
# Descriptions of failures

A record is described by its detail, by its first message or by its title. The summary
passes over a blank detail, but not over a blank message, and the message of a failure
not even over a blank title. So a blank text can stand in front of one that says
something. Which bodies it happens for is read off their fields.
-/
namespace FeedClient

namespace Text

/-- There is a text, and it says something. -/
def speaks (text : Option String) : Bool := (text.bind nonblank?).isSome

@[simp] theorem speaks_none : speaks none = false := rfl

@[simp] theorem speaks_some (s : String) : speaks (some s) = !isBlank s := by
  cases h : isBlank s <;> simp [speaks, nonblank?, h]

/-- A blank text that is passed over leaves the choice to the rest. -/
theorem speaks_nonblank_or (text rest : Option String) :
    speaks ((text.bind nonblank?).or rest) = (speaks text || speaks rest) := by
  cases text with
  | none => simp
  | some s => cases h : isBlank s <;> simp [nonblank?, h]

/-- A chosen text is blank if none was there or a blank one was taken. -/
theorem isBlank_getD (text : Option String) : isBlank (text.getD "") = !speaks text := by
  cases text with
  | none => rfl
  | some s => rw [Option.getD_some, speaks_some, Bool.not_not]

end Text

open Text

namespace ErrorBody

/-- A blank message or description stands in front of a title that says something, and no detail
does. -/
def hidesTitle (b : ErrorBody) : Bool :=
  b.isTyped && match b.errors, b.error with
    | some (e :: _), _ => !speaks b.detail && isBlank e.message && speaks b.title
    | some [], _ => false
    | none, some error => !speaks b.description && !isBlank error
    | none, none => false

/-- A blank title stands in front of a detail, a message or a description that says something. The
title of an OAuth failure is its error. -/
def showsBlankTitle (b : ErrorBody) : Bool :=
  b.isTyped && match b.errors, b.error with
    | some entries, _ =>
      b.title.any isBlank && (speaks b.detail || speaks (entries.head?.map ErrorEntry.message))
    | none, some error => isBlank error && speaks b.description
    | none, none => b.title.any isBlank && speaks b.detail

theorem hidesTitle_of_unrecognized {b : ErrorBody} (h : b.isRecognized = false) :
    b.hidesTitle = false := by
  unfold isRecognized at h
  unfold hidesTitle
  cases htyped : b.isTyped <;> simp_all

theorem showsBlankTitle_of_unrecognized {b : ErrorBody} (h : b.isRecognized = false) :
    b.showsBlankTitle = false := by
  unfold isRecognized at h
  unfold showsBlankTitle
  cases htyped : b.isTyped <;> simp_all

end ErrorBody

namespace ErrorRecord

def firstMessage (r : ErrorRecord) : Option String := r.errors.head?.map ErrorEntry.message

/-- The record has a text that says something: its detail, its first message or its title. -/
def isDescribed (r : ErrorRecord) : Bool := speaks r.detail || speaks r.firstMessage || speaks r.title

/-- What a failure of neither authorization nor rate shows. -/
def heading (r : ErrorRecord) : String := r.title.getD r.summary

theorem summary_eq (r : ErrorRecord) :
    r.summary = ((r.detail.bind nonblank?).or (r.firstMessage.or r.title)).getD "" := by
  unfold summary firstMessage
  cases r.detail.bind nonblank? with
  | some detail => rfl
  | none =>
      cases r.errors with
      | cons e entries => rfl
      | nil => cases r.title <;> rfl

theorem isBlank_summary (r : ErrorRecord) :
    isBlank r.summary = (!speaks r.detail && !speaks (r.firstMessage.or r.title)) := by
  rw [summary_eq, isBlank_getD, speaks_nonblank_or, Bool.not_or]

/-- The summary is blank in spite of a description if a blank message stands in front of a title. -/
theorem blank_summary_eq (r : ErrorRecord) :
    (r.isDescribed && isBlank r.summary) =
      (!speaks r.detail && r.firstMessage.any isBlank && speaks r.title) := by
  rw [isBlank_summary, isDescribed]
  cases r.firstMessage with
  | none => cases speaks r.detail <;> cases h : speaks r.title <;> simp [h]
  | some message => cases speaks r.detail <;> cases h : isBlank message <;> simp [h]

/-- The heading is blank in spite of a description if a blank title stands in front of it. -/
theorem blank_heading_eq (r : ErrorRecord) :
    (r.isDescribed && isBlank r.heading) =
      (r.title.any isBlank && (speaks r.detail || speaks r.firstMessage)) := by
  unfold heading
  cases htitle : r.title with
  | none =>
      rw [Option.getD_none, blank_summary_eq, htitle]
      simp
  | some title =>
      cases h : isBlank title <;> simp [isDescribed, htitle, h]

section Bodies

theorem blank_summary_unhandled (body : String) :
    ((unhandled body).isDescribed && isBlank (unhandled body).summary) = false := by
  rw [blank_summary_eq]
  simp [unhandled, empty, firstMessage]

theorem blank_heading_unhandled (body : String) :
    ((unhandled body).isDescribed && isBlank (unhandled body).heading) = false := by
  have htitle : isBlank unhandledTitle = false := by decide
  rw [blank_heading_eq]
  simp [unhandled, htitle]

theorem blank_summary_ofXml (body : String) :
    ((ofXml body).isDescribed && isBlank (ofXml body).summary) = false := by
  rw [blank_summary_eq]
  unfold ofXml
  split <;> simp [unparsableXml, empty, firstMessage]

theorem blank_heading_ofXml (body : String) :
    ((ofXml body).isDescribed && isBlank (ofXml body).heading) = false := by
  have htitle : isBlank unparsableXmlTitle = false := by decide
  rw [blank_heading_eq]
  unfold ofXml
  split <;> simp [unparsableXml, empty, htitle]

theorem blank_summary_ofBody (b : ErrorBody) (body : String) :
    ((ofBody b body).isDescribed && isBlank (ofBody b body).summary) = b.hidesTitle := by
  have hfrom := fromBody_ofBody b body
  generalize ofBody b body = r at hfrom ⊢
  cases hfrom with
  | @typedList entries htyped hlist =>
      rw [blank_summary_eq, ErrorBody.hidesTitle, htyped, hlist]
      cases entries <;> simp [firstMessage]
  | oauth htyped hlist herror =>
      rw [blank_summary_eq, ErrorBody.hidesTitle, htyped, hlist, herror]
      cases h : b.description <;> simp [ofOAuth, firstMessage, h, isBlank]
  | problem htyped hlist herror =>
      rw [blank_summary_eq, ErrorBody.hidesTitle, htyped, hlist, herror]
      cases h : b.title <;> simp [ofProblem, firstMessage, h]
  | request htyped => simp [blank_summary_eq, ErrorBody.hidesTitle, htyped, empty]
  | plainList htyped => simp [blank_summary_eq, ErrorBody.hidesTitle, htyped, empty]
  | unknown h => rw [blank_summary_unhandled, ErrorBody.hidesTitle_of_unrecognized h]

theorem blank_heading_ofBody (b : ErrorBody) (body : String) :
    ((ofBody b body).isDescribed && isBlank (ofBody b body).heading) = b.showsBlankTitle := by
  have hfrom := fromBody_ofBody b body
  generalize ofBody b body = r at hfrom ⊢
  cases hfrom with
  | typedList htyped hlist =>
      rw [blank_heading_eq, ErrorBody.showsBlankTitle, htyped, hlist]
      rfl
  | oauth htyped hlist herror =>
      rw [blank_heading_eq, ErrorBody.showsBlankTitle, htyped, hlist, herror]
      cases h : b.description <;> simp [ofOAuth, firstMessage, h, isBlank]
  | problem htyped hlist herror hdetail =>
      rw [blank_heading_eq, ErrorBody.showsBlankTitle, htyped, hlist, herror, hdetail]
      cases htitle : b.title with
      | none => simp [ofProblem, htitle]
      | some title => cases h : isBlank title <;> simp [ofProblem, firstMessage, htitle, h]
  | request htyped => simp [blank_heading_eq, ErrorBody.showsBlankTitle, htyped, empty]
  | plainList htyped => simp [blank_heading_eq, ErrorBody.showsBlankTitle, htyped, empty]
  | unknown h => rw [blank_heading_unhandled, ErrorBody.showsBlankTitle_of_unrecognized h]

/-- What no XML record and no unhandled one has is a property of the fields that are read. -/
theorem ofText_eq_any (holds : ErrorRecord → Bool) {ofFields : ErrorBody → Bool}
    (hxml : ∀ body, holds (ofXml body) = false) (hunhandled : ∀ body, holds (unhandled body) = false)
    (hbody : ∀ b body, holds (ofBody b body) = ofFields b) (body : String) :
    holds (ofText body) = (Json.readText? ErrorBody.readJson body).any ofFields := by
  cases hread : Json.readText? ErrorBody.readJson body with
  | some b =>
      rw [ofText_of_readText? hread]
      exact hbody b body
  | none =>
      rw [ofText, hread]
      split
      · exact hxml body
      · exact hunhandled body

end Bodies

end ErrorRecord

namespace Failure

open ErrorRecord

/-- The message of a failure with a description. -/
def shown : FailureKind → String → String
  | .unauthorized, description => withPointer description
  | .rateLimited, description => withPointer description
  | .other, description => description

theorem shown_inj (kind : FailureKind) {s t : String} : shown kind s = shown kind t ↔ s = t := by
  cases kind <;> simp [shown, withPointer]

/-- The description that a response shows of its record. -/
def chosen (kind : FailureKind) (r : ErrorRecord) : String :=
  if kind = .other then r.heading else r.summary

theorem message_ofResponse (status : Nat) (usualReason : Option String) (body : String) :
    (ofResponse status usualReason body).message =
      shown (FailureKind.ofStatus status) (chosen (FailureKind.ofStatus status) (ofText body)) := by
  unfold ofResponse
  cases FailureKind.ofStatus status <;> rfl

theorem status_ofResponse (status : Nat) (usualReason : Option String) (body : String) :
    (ofResponse status usualReason body).status = status := by
  unfold ofResponse
  cases FailureKind.ofStatus status <;> rfl

theorem record_ofResponse (status : Nat) (usualReason : Option String) (body : String) :
    (ofResponse status usualReason body).record = ofText body := by
  unfold ofResponse
  cases FailureKind.ofStatus status <;> rfl

/-- The record of a body that has a description has a blank summary exactly if a blank message or
description stands in front of its title. The description that the failure shows, which its message
determines, is blank in that case too, or, without a pointer to help, exactly if the title is blank. -/
theorem blank_description_iff (status : Nat) (usualReason : Option String) (body : String) :
    let f := ofResponse status usualReason body
    f.record = ofText body ∧
    ((f.record.isDescribed = true ∧ isBlank f.record.summary = true) ↔
      ∃ b, Json.readText? ErrorBody.readJson body = some b ∧ b.hidesTitle = true) ∧
    ∃ description, (∀ s, f.message = shown f.kind s ↔ s = description) ∧
      ((f.record.isDescribed = true ∧ isBlank description = true) ↔
        ∃ b, Json.readText? ErrorBody.readJson body = some b ∧
          (if f.kind = .other then b.showsBlankTitle else b.hidesTitle) = true) := by
  intro f
  have hrecord : f.record = ofText body := record_ofResponse status usualReason body
  have hkind : f.kind = FailureKind.ofStatus status := by rw [kind, status_ofResponse]
  have hsummary := ofText_eq_any (fun r => r.isDescribed && isBlank r.summary) blank_summary_ofXml
    blank_summary_unhandled blank_summary_ofBody body
  have hheading := ofText_eq_any (fun r => r.isDescribed && isBlank r.heading) blank_heading_ofXml
    blank_heading_unhandled blank_heading_ofBody body
  rw [hrecord]
  refine ⟨rfl, ?_, chosen f.kind (ofText body), fun s => ?_, ?_⟩
  · rw [← Bool.and_eq_true, hsummary, Option.any_eq_true]
  · rw [message_ofResponse, ← hkind, shown_inj, eq_comm]
  · unfold chosen
    by_cases hother : f.kind = .other
    · simp only [if_pos hother, ← Bool.and_eq_true, hheading, Option.any_eq_true]
    · simp only [if_neg hother, ← Bool.and_eq_true, hsummary, Option.any_eq_true]

/-- A blank message in front of a title, and a blank title in front of a detail. -/
theorem shows_blank_description :
    let message := "\x7b\"title\":\"T\",\"type\":\"U\",\"errors\":[\x7b\"message\":\"\"\x7d]\x7d"
    let title := "\x7b\"title\":\"\",\"type\":\"U\",\"detail\":\"D\"\x7d"
    ((ofText message).isDescribed = true ∧ isBlank (ofText message).summary = true ∧
      (ofResponse 401 (some "Unauthorized") message).message = shown .unauthorized "") ∧
    (ofText title).isDescribed = true ∧
      (ofResponse 400 (some "Bad Request") title).message = shown .other "" := by
  decide +kernel

end Failure

end FeedClient
