import FeedClient.Proofs.Failure.RecordShapes
import FeedClient.Proofs.Json.ListedRecords
import FeedClient.Proofs.Json.TextLengths
import FeedClient.Proofs.Json.WrittenTrees

/-!
# Error bodies that are no objects

The conventions for error bodies speak of objects, but the fields of a body are read
from an array too, an item for each field in the order of the fields. No field has a
default, so the array has to have all eight of them. Every other body that is no
object, and no XML document, becomes the detail of an unhandled record.
-/
namespace FeedClient

open Json

/-- Whether a text is a JSON object. -/
def Json.spellsObject (s : String) : Bool :=
  match Tree.ofChars? s.toList with
  | some (.object _) => true
  | _ => false

namespace ErrorBody

/-- The nesting that a field may have. -/
def fieldRoom : Nat := nestingRoom - 1

/-- The items of an array give the fields of a body, each one in its place. -/
inductive Listed : ErrorBody → List Tree → Prop where
  | fields {title detail errorType status errors error description request : Tree} {b : ErrorBody}
      (htitle : Gives Reader.text fieldRoom title b.title)
      (hdetail : Gives Reader.text fieldRoom detail b.detail)
      (htype : Gives Reader.text fieldRoom errorType b.errorType)
      (hstatus : Gives Reader.int64 fieldRoom status b.status)
      (herrors : Gives (Reader.listOf readEntry) fieldRoom errors b.errors)
      (herror : Gives Reader.text fieldRoom error b.error)
      (hdescription : Gives Reader.text fieldRoom description b.description)
      (hrequest : Gives Reader.text fieldRoom request b.request) :
      Listed b [title, detail, errorType, status, errors, error, description, request]

theorem Listed.length_eq {b : ErrorBody} {items : List Tree} (h : b.Listed items) : items.length = 8 := by
  cases h
  rfl

/-- The last field has its item, and there is none behind that. -/
theorem exists_items {items : List Tree} (hlength : items.length ≤ 8) {last : Tree}
    (hlast : items[7]? = some last) :
    ∃ a b c d e f g, items = [a, b, c, d, e, f, g, last] := by
  have hpresent : 7 < items.length := (List.getElem?_eq_some_iff.mp hlast).1
  obtain ⟨a, b, c, d, e, f, g, h, rfl⟩ : ∃ a b c d e f g h, items = [a, b, c, d, e, f, g, h] := by
    rcases items with _ | ⟨a, _ | ⟨b, _ | ⟨c, _ | ⟨d, _ | ⟨e, _ | ⟨f, _ | ⟨g, _ | ⟨h, more⟩⟩⟩⟩⟩⟩⟩⟩
    case cons.cons.cons.cons.cons.cons.cons.cons =>
      obtain rfl : more = [] := by
        refine List.eq_nil_of_length_eq_zero ?_
        simp only [List.length_cons] at hlength
        omega
      exact ⟨a, b, c, d, e, f, g, h, rfl⟩
    all_goals simp at hpresent
  obtain rfl := Option.some.inj hlast
  exact ⟨a, b, c, d, e, f, g, rfl⟩

theorem readJson_array_iff {items : List Tree} {b : ErrorBody} :
    readJson nestingRoom (.array items) = some b ↔ b.Listed items := by
  rw [readJson, record, Option.bind_eq_some_iff]
  constructor
  · rintro ⟨s, hs, hread⟩
    obtain ⟨hlength, rfl⟩ := source?_array_iff.mp hs
    obtain ⟨title, htitle, hread⟩ := Option.bind_eq_some_iff.mp hread
    obtain ⟨detail, hdetail, hread⟩ := Option.bind_eq_some_iff.mp hread
    obtain ⟨errorType, htype, hread⟩ := Option.bind_eq_some_iff.mp hread
    obtain ⟨status, hstatus, hread⟩ := Option.bind_eq_some_iff.mp hread
    obtain ⟨errors, herrors, hread⟩ := Option.bind_eq_some_iff.mp hread
    obtain ⟨error, herror, hread⟩ := Option.bind_eq_some_iff.mp hread
    obtain ⟨description, hdescription, hread⟩ := Option.bind_eq_some_iff.mp hread
    obtain ⟨request, hrequest, hread⟩ := Option.bind_eq_some_iff.mp hread
    obtain rfl := Option.some.inj hread
    obtain ⟨last, hlast, -⟩ := optional_listed_iff.mp hrequest
    obtain ⟨t₁, t₂, t₃, t₄, t₅, t₆, t₇, rfl⟩ := exists_items hlength hlast
    exact .fields ((optional_item_iff rfl).mp htitle) ((optional_item_iff rfl).mp hdetail)
      ((optional_item_iff rfl).mp htype) ((optional_item_iff rfl).mp hstatus)
      ((optional_item_iff rfl).mp herrors) ((optional_item_iff rfl).mp herror)
      ((optional_item_iff rfl).mp hdescription) ((optional_item_iff rfl).mp hrequest)
  · intro h
    cases h with
    | fields htitle hdetail htype hstatus herrors herror hdescription hrequest =>
        refine ⟨_, source?_array_iff.mpr ⟨Nat.le_refl _, rfl⟩, ?_⟩
        refine Option.bind_eq_some_iff.mpr ⟨_, (optional_item_iff rfl).mpr htitle, ?_⟩
        refine Option.bind_eq_some_iff.mpr ⟨_, (optional_item_iff rfl).mpr hdetail, ?_⟩
        refine Option.bind_eq_some_iff.mpr ⟨_, (optional_item_iff rfl).mpr htype, ?_⟩
        refine Option.bind_eq_some_iff.mpr ⟨_, (optional_item_iff rfl).mpr hstatus, ?_⟩
        refine Option.bind_eq_some_iff.mpr ⟨_, (optional_item_iff rfl).mpr herrors, ?_⟩
        refine Option.bind_eq_some_iff.mpr ⟨_, (optional_item_iff rfl).mpr herror, ?_⟩
        refine Option.bind_eq_some_iff.mpr ⟨_, (optional_item_iff rfl).mpr hdescription, ?_⟩
        exact Option.bind_eq_some_iff.mpr ⟨_, (optional_item_iff rfl).mpr hrequest, rfl⟩

end ErrorBody

namespace ErrorRecord

variable {b : ErrorBody} {body : String}

theorem ofBody_of_unrecognized (h : b.isRecognized = false) (body : String) :
    ofBody b body = unhandled body := by
  have hfrom := fromBody_ofBody b body
  generalize ofBody b body = r at hfrom ⊢
  cases hfrom with
  | unknown => rfl
  | _ => simp_all [ErrorBody.isRecognized]

theorem ne_unhandled_of_detail {r : ErrorRecord} (h : r.detail ≠ some body) : r ≠ unhandled body := by
  rintro rfl
  exact h rfl

theorem ne_unhandled_of_errors {r : ErrorRecord} (h : r.errors ≠ []) : r ≠ unhandled body := by
  rintro rfl
  exact h rfl

/-- A recognized body has another record, as a detail that it gives is not the whole body. -/
theorem ofBody_ne_unhandled (h : b.isRecognized = true) (hdetail : b.detail ≠ some body) :
    ofBody b body ≠ unhandled body := by
  have hfrom := fromBody_ofBody b body
  generalize ofBody b body = r at hfrom ⊢
  cases hfrom with
  | typedList => exact ne_unhandled_of_detail hdetail
  | oauth => exact ne_unhandled_of_errors (List.cons_ne_nil _ _)
  | problem => exact ne_unhandled_of_errors (List.cons_ne_nil _ _)
  | request => exact ne_unhandled_of_errors (List.cons_ne_nil _ _)
  | plainList => exact ne_unhandled_of_detail (Option.some_ne_none body).symm
  | unknown hunknown =>
      rw [hunknown] at h
      cases h

theorem detail_ne_of_listed {items : List Tree} (htree : Tree.ofChars? body.toList = some (.array items))
    (h : b.Listed items) : b.detail ≠ some body := by
  intro hdetail
  cases h with
  | @fields title detail =>
      rename_i htext _ _ _ _ _ _
      rw [hdetail] at htext
      cases htext with
      | value _ hread =>
          cases detail with
          | text ps =>
              have hshort := length_lt_of_item htree (by simp) hread
              exact absurd hshort (Nat.lt_irrefl _)
          | _ => cases hread

/-- A body that is neither an XML document nor a JSON object has the unhandled record, unless it is an
array whose eight items give the fields of a convention. The record is then that of these fields. -/
theorem ofText_of_no_object (hxml : isXml body = false) (hobject : spellsObject body = false) :
    (ofText body = ⟨some "Unhandled Error - please examine Detail property", some body,
        some "Unhandled", none, []⟩ ↔
      ¬∃ (items : List Tree) (b : ErrorBody), Tree.ofChars? body.toList = some (.array items) ∧
        b.Listed items ∧ b.isRecognized = true) ∧
    ∀ (items : List Tree) (b : ErrorBody), Tree.ofChars? body.toList = some (.array items) →
      b.Listed items → ofText body = ofBody b body := by
  have hlisted : ∀ (items : List Tree) (b : ErrorBody),
      Tree.ofChars? body.toList = some (.array items) → b.Listed items → ofText body = ofBody b body := by
    intro items b htree h
    refine ofText_of_readText? ?_
    rw [readText?, htree]
    exact ErrorBody.readJson_array_iff.mpr h
  refine ⟨?_, hlisted⟩
  constructor
  · rintro hunhandled ⟨items, b, htree, h, hrecognized⟩
    rw [hlisted items b htree h] at hunhandled
    exact ofBody_ne_unhandled hrecognized (detail_ne_of_listed htree h) hunhandled
  · intro hnone
    cases hread : readText? ErrorBody.readJson body with
    | none =>
        rw [ofText, hxml, if_neg Bool.false_ne_true, hread]
        rfl
    | some b =>
        obtain ⟨t, htree, ht⟩ := Option.bind_eq_some_iff.mp hread
        cases t with
        | array items =>
            have h := ErrorBody.readJson_array_iff.mp ht
            have hunrecognized : b.isRecognized = false := by
              by_contra hrecognized
              exact hnone ⟨items, b, htree, h, by simpa using hrecognized⟩
            rw [hlisted items b htree h, ofBody_of_unrecognized hunrecognized]
            rfl
        | object ms =>
            rw [spellsObject, htree] at hobject
            cases hobject
        | _ => cases ht

/-- The fields of a problem in an array that lacks the last item, and in one that has it. -/
theorem ofText_of_no_object_arrays :
    let short := "[\"T\",\"D\",\"U\",400,null,null,null]"
    let full := "[\"T\",\"D\",\"U\",400,null,null,null,null]"
    let b : ErrorBody := ⟨some "T", some "D", some "U", some 400, none, none, none, none⟩
    (isXml short = false ∧ spellsObject short = false ∧ ofText short = unhandled short) ∧
    isXml full = false ∧ spellsObject full = false ∧ b.isRecognized = true ∧
      ofText full = ofBody b full ∧ ofText full ≠ unhandled full := by
  intro short full b
  let fields : List Json := [.text "T", .text "D", .text "U", .integer 400, .null, .null, .null]
  have hread : ∀ {items : List Json} {body : String}, FloatsReadBack (.array items) →
      body.toList = chars (.array items) → Tree.ofChars? body.toList = some (.array (itemTrees items)) := by
    intro items body h hbody
    rw [hbody, ofChars?_chars h, tree]
  have hshort : Tree.ofChars? short.toList = some (.array (itemTrees fields)) :=
    hread (by decide) (by decide)
  have hfull : Tree.ofChars? full.toList = some (.array (itemTrees (fields ++ [.null]))) :=
    hread (by decide) (by decide)
  have hlisted : b.Listed (itemTrees (fields ++ [.null])) :=
    .fields (.value (by simp [tree]) rfl) (.value (by simp [tree]) rfl) (.value (by simp [tree]) rfl)
      (.value (by simp [tree]) rfl) .nothing .nothing .nothing .nothing
  have hshortXml : isXml short = false := by decide
  have hfullXml : isXml full = false := by decide
  have hshortObject : spellsObject short = false := by rw [spellsObject, hshort]
  have hfullObject : spellsObject full = false := by rw [spellsObject, hfull]
  obtain ⟨hunhandled, -⟩ := ofText_of_no_object hshortXml hshortObject
  obtain ⟨hrecognized, hrecord⟩ := ofText_of_no_object hfullXml hfullObject
  refine ⟨⟨hshortXml, hshortObject, hunhandled.mpr ?_⟩, hfullXml, hfullObject, rfl,
    hrecord _ b hfull hlisted, fun heq => hrecognized.mp heq ⟨_, b, hfull, hlisted, rfl⟩⟩
  rintro ⟨items, b, htree, h, -⟩
  obtain rfl : itemTrees fields = items := by simpa [hshort] using htree
  exact absurd h.length_eq (by decide)

/-- An array of a problem's fields is taken for the problem. -/
theorem reads_problem_of_array :
    let body := "[\"T\",\"D\",\"U\",400,null,null,null,null]"
    isXml body = false ∧ spellsObject body = false ∧
      ofText body = ⟨some "T", some "D", some "U", some 400, [⟨"T", some "D", some 400, none⟩]⟩ := by
  decide +kernel

end ErrorRecord

end FeedClient
