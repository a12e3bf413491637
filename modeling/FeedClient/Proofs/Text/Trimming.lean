import FeedClient.Text.Blank
import Mathlib.Data.List.DropRight

/-!
# What trimming leaves

Trimming takes white space only, so a trimmed text is blank exactly if the whole
text was. A trimmed text has nothing to trim.
-/
namespace FeedClient.Text

theorem all_isSpace_dropWhile (cs : List Char) :
    (cs.dropWhile isSpace).all isSpace = cs.all isSpace := by
  induction cs with
  | nil => rfl
  | cons c cs ih =>
      by_cases hc : isSpace c = true
      · rw [List.dropWhile_cons_of_pos hc, ih, List.all_cons, hc, Bool.true_and]
      · rw [List.dropWhile_cons_of_neg hc]

@[simp] theorem all_isSpace_trimStart (cs : List Char) :
    (trimStart cs).all isSpace = cs.all isSpace := all_isSpace_dropWhile cs

@[simp] theorem all_isSpace_trimEnd (cs : List Char) :
    (trimEnd cs).all isSpace = cs.all isSpace := by
  rw [trimEnd, List.all_reverse, all_isSpace_dropWhile, List.all_reverse]

@[simp] theorem isBlank_trim (s : String) : isBlank (trim s) = isBlank s := by
  simp [isBlank, trim]

theorem trimStart_cons {c : Char} (h : isSpace c = false) (cs : List Char) :
    trimStart (c :: cs) = c :: cs := by
  have hstop : ¬isSpace c = true := by simp [h]
  exact List.dropWhile_cons_of_neg hstop

theorem trimEnd_append_singleton (cs : List Char) {c : Char} (h : isSpace c = false) :
    trimEnd (cs ++ [c]) = cs ++ [c] := by
  have hstop : ¬isSpace c = true := by simp [h]
  rw [trimEnd, List.reverse_append, List.reverse_singleton, List.singleton_append,
    List.dropWhile_cons_of_neg hstop, List.reverse_cons, List.reverse_reverse]

theorem trimEnd_cons {c : Char} (hc : isSpace c = false) (cs : List Char) :
    trimEnd (c :: cs) = c :: trimEnd cs := by
  have hkeep : [c].dropWhile isSpace = [c] := by simp [hc]
  rw [trimEnd, trimEnd, List.reverse_cons, List.dropWhile_append, hkeep]
  split
  · rename_i hnone
    rw [List.isEmpty_iff.mp hnone]
    rfl
  · simp

/-- The end of a text is trimmed without a new start coming to light. -/
theorem trimStart_trimEnd_trimStart (cs : List Char) :
    trimStart (trimEnd (trimStart cs)) = trimEnd (trimStart cs) := by
  induction cs with
  | nil => rfl
  | cons c cs ih =>
      cases hc : isSpace c with
      | true =>
          have hdrop : trimStart (c :: cs) = trimStart cs := List.dropWhile_cons_of_pos hc
          rwa [hdrop]
      | false =>
          rw [trimStart_cons hc, trimEnd_cons hc, trimStart_cons hc]

@[simp] theorem trim_trim (s : String) : trim (trim s) = trim s := by
  have hend : ∀ cs, trimEnd (trimEnd cs) = trimEnd cs := List.rdropWhile_idempotent isSpace
  rw [trim, trim, String.toList_ofList, trimStart_trimEnd_trimStart, hend]

/-- Trimmed text does not begin with white space. -/
theorem isSpace_of_trim {c : Char} {s : String} {cs : List Char} (h : (trim s).toList = c :: cs) :
    isSpace c = false := by
  rw [trim, String.toList_ofList] at h
  have hstart := trimStart_trimEnd_trimStart s.toList
  rw [h] at hstart
  cases hc : isSpace c with
  | false => rfl
  | true =>
      have hdrop : trimStart (c :: cs) = trimStart cs := List.dropWhile_cons_of_pos hc
      have hshort : (trimStart cs).length ≤ cs.length := (List.dropWhile_sublist _).length_le
      rw [← hdrop, hstart, List.length_cons] at hshort
      omega

theorem trim_of_isBlank {s : String} (h : isBlank s = true) : trim s = "" := by
  cases ht : (trim s).toList with
  | nil => exact String.toList_eq_nil_iff.mp ht
  | cons c cs =>
      rw [← isBlank_trim, isBlank, ht, List.all_cons, isSpace_of_trim ht] at h
      cases h

/-- A text with visible characters at both ends has nothing to trim. -/
theorem trim_of_ends {c d : Char} (hc : isSpace c = false) (hd : isSpace d = false) (cs : List Char) :
    trim (String.ofList (c :: cs ++ [d])) = String.ofList (c :: cs ++ [d]) := by
  rw [trim, String.toList_ofList, List.cons_append, trimStart_cons hc, ← List.cons_append,
    trimEnd_append_singleton _ hd]

theorem trimStart_of_notSpace {cs : List Char} (h : ∀ c ∈ cs, isSpace c = false) : trimStart cs = cs := by
  cases cs with
  | nil => rfl
  | cons c cs => exact trimStart_cons (h c (List.mem_cons_self ..)) cs

/-- A text without white space has nothing to trim. -/
theorem trim_of_notSpace {s : String} (h : ∀ c ∈ s.toList, isSpace c = false) : trim s = s := by
  have hend : trimStart s.toList.reverse = s.toList.reverse :=
    trimStart_of_notSpace fun c hc => h c (List.mem_reverse.mp hc)
  have hreversed : trimEnd s.toList = (trimStart s.toList.reverse).reverse := rfl
  rw [trim, trimStart_of_notSpace h, hreversed, hend, List.reverse_reverse, String.ofList_toList]

theorem nonblank?_eq_some_iff {s t : String} :
    nonblank? s = some t ↔ t = s ∧ isBlank s = false := by
  unfold nonblank?
  split
  · rename_i h; simp [h]
  · rename_i h; simp only [Option.some.injEq, h, and_true]; exact eq_comm

end FeedClient.Text
