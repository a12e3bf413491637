import FeedClient.Xml.ErrorScan
import Mathlib.Data.List.TakeWhile

/-!
# Attributes as written

An attribute is a name and a value between quotation marks, with white space before
it and around its equals sign. From a tag of attributes each is read back, so that
the code of an error element is the number that its first attribute of that name
spells.
-/
namespace FeedClient

namespace Text

theorem splitFirst_append {separator : Char} {piece : List Char} (h : separator ∉ piece)
    (rest : List Char) : splitFirst separator (piece ++ separator :: rest) = some (piece, rest) := by
  induction piece with
  | nil => simp [splitFirst]
  | cons c piece ih =>
      simp only [List.mem_cons, not_or] at h
      rw [List.cons_append, splitFirst, if_neg (Ne.symm h.1), ih h.2, Option.map_some]

end Text

namespace Xml

/-- Whether a character may be part of a name. -/
def isNameChar (c : Char) : Bool := c ≠ '=' && !isXmlSpace c

/-- An attribute of a tag, with the white space that stands around its parts. -/
structure Attribute where
  gap : List Char
  name : List Char
  left : List Char
  right : List Char
  quote : Char
  value : List Char
  gap_space : ∀ c ∈ gap, isXmlSpace c = true
  left_space : ∀ c ∈ left, isXmlSpace c = true
  right_space : ∀ c ∈ right, isXmlSpace c = true
  name_ne_nil : name ≠ []
  name_chars : ∀ c ∈ name, isNameChar c = true
  quote_mark : quote = '"' ∨ quote = '\''
  quote_notMem : quote ∉ value

namespace Attribute

def written (a : Attribute) : List Char :=
  a.gap ++ a.name ++ a.left ++ '=' :: (a.right ++ a.quote :: (a.value ++ [a.quote]))

theorem dropWhile_space {gap : List Char} (hgap : ∀ c ∈ gap, isXmlSpace c = true) {c : Char}
    (hc : isXmlSpace c = false) (rest : List Char) :
    (gap ++ c :: rest).dropWhile isXmlSpace = c :: rest := by
  have hstop : ¬isXmlSpace c = true := by simp [hc]
  rw [List.dropWhile_append_of_pos hgap, List.dropWhile_cons_of_neg hstop]

/-- What stands behind a name is no part of it. -/
theorem span_name {left : List Char} (hleft : ∀ c ∈ left, isXmlSpace c = true) (rest : List Char) :
    (left ++ '=' :: rest).takeWhile isNameChar = [] ∧
      (left ++ '=' :: rest).dropWhile isNameChar = left ++ '=' :: rest := by
  cases left with
  | nil => exact ⟨rfl, rfl⟩
  | cons c left =>
      have hc : ¬isNameChar c = true := by simp [isNameChar, hleft c (List.mem_cons_self ..)]
      exact ⟨List.takeWhile_cons_of_neg hc, List.dropWhile_cons_of_neg hc⟩

theorem attributesWithin_written (a : Attribute) (fuel : Nat) (rest : List Char) :
    Event.attributesWithin (fuel + 1) (a.written ++ rest) =
      (a.name, a.value) :: Event.attributesWithin fuel rest := by
  obtain ⟨c, name, hname⟩ := List.exists_cons_of_ne_nil a.name_ne_nil
  obtain ⟨hc, hmore⟩ := List.forall_mem_cons.mp (hname ▸ a.name_chars)
  have hspace : isXmlSpace c = false := by
    rw [isNameChar, Bool.and_eq_true] at hc
    simpa using hc.2
  have hopens : isXmlSpace a.quote = false := by rcases a.quote_mark with h | h <;> rw [h] <;> rfl
  let behind := a.left ++ '=' :: (a.right ++ a.quote :: (a.value ++ a.quote :: rest))
  have hbegin : (a.written ++ rest).dropWhile isXmlSpace = c :: (name ++ behind) := by
    rw [← dropWhile_space a.gap_space hspace]
    simp [written, hname, behind]
  obtain ⟨htake, hdrop⟩ : behind.takeWhile isNameChar = [] ∧ behind.dropWhile isNameChar = behind :=
    span_name a.left_space _
  have hkey : (name ++ behind).takeWhile isNameChar = name := by
    rw [List.takeWhile_append_of_pos hmore, htake, List.append_nil]
  have hrest : (name ++ behind).dropWhile isNameChar = behind := by
    rw [List.dropWhile_append_of_pos hmore, hdrop]
  unfold isNameChar at hkey hrest
  rw [Event.attributesWithin]
  simp only [hbegin, hkey, hrest, behind, hname,
    dropWhile_space a.left_space (rfl : isXmlSpace '=' = false),
    dropWhile_space a.right_space hopens, if_pos a.quote_mark, Text.splitFirst_append a.quote_notMem]

theorem attributesWithin_space {tail : List Char} (htail : ∀ c ∈ tail, isXmlSpace c = true)
    (fuel : Nat) : Event.attributesWithin fuel tail = [] := by
  cases fuel with
  | zero => rfl
  | succ fuel =>
      have hnil : tail.dropWhile isXmlSpace = [] := List.dropWhile_eq_nil_iff.mpr htail
      rw [Event.attributesWithin]
      simp only [hnil]

theorem attributesWithin_flatMap_written (attributes : List Attribute) {tail : List Char}
    (htail : ∀ c ∈ tail, isXmlSpace c = true) {fuel : Nat} (h : attributes.length ≤ fuel) :
    Event.attributesWithin fuel (attributes.flatMap written ++ tail) =
      attributes.map fun a => (a.name, a.value) := by
  induction attributes generalizing fuel with
  | nil => exact attributesWithin_space htail fuel
  | cons a attributes ih =>
      cases fuel with
      | zero => simp at h
      | succ fuel =>
          rw [List.flatMap_cons, List.append_assoc, attributesWithin_written, ih (by simpa using h),
            List.map_cons]

theorem length_le_flatMap_written (attributes : List Attribute) :
    attributes.length ≤ (attributes.flatMap written).length := by
  induction attributes with
  | nil => simp
  | cons a attributes ih =>
      have hwritten : 1 ≤ a.written.length := by simp [written]; omega
      rw [List.flatMap_cons, List.length_append, List.length_cons]
      omega

/-- The number that the first attribute called code spells, zero if there is none or if its
references or its digits cannot be read. -/
def code (attributes : List Attribute) : Int64 :=
  (((attributes.find? (·.name = codeName)).bind fun a => unescape? a.value).bind fun cs =>
    Numeral.int64? (Text.trim (String.ofList cs))).getD 0

theorem codeOf_written (attributes : List Attribute) {tail : List Char}
    (htail : ∀ c ∈ tail, isXmlSpace c = true) :
    codeOf (attributes.flatMap written ++ tail) = code attributes := by
  have hfuel : attributes.length ≤ (attributes.flatMap written ++ tail).length := by
    have := length_le_flatMap_written attributes
    rw [List.length_append]
    omega
  have hfind : (attributes.map fun a => (a.name, a.value)).find? (·.1 = codeName) =
      (attributes.find? (·.name = codeName)).map fun a => (a.name, a.value) := List.find?_map ..
  rw [codeOf, Event.attribute?, attributesWithin_flatMap_written attributes htail hfuel, hfind, code]
  cases attributes.find? (·.name = codeName) with
  | none => rfl
  | some a =>
      simp only [Option.map_some, Option.bind_some]
      cases unescape? a.value with
      | none => rw [Option.bind_none, Option.getD_none]
      | some cs => rw [Option.bind_some]

end Attribute

end Xml

end FeedClient
