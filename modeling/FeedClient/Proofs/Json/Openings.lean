import FeedClient.Json.Reader
import FeedClient.Proofs.Text.WrittenNumbers

/-!
# How a JSON text begins

A text that is read as a value begins, behind spaces, with one of the characters
that open a value. None of them is white space of any kind.
-/
namespace FeedClient.Json

/-- The characters that a value begins with. -/
def opensValue (c : Char) : Bool := "ntf\"[\x7b-".toList.contains c || Numeral.isDigit c

theorem head_of_digits? {cs : List Char} {p : List Char × List Char} (h : digits? cs = some p) :
    ∃ c rest, cs = c :: rest ∧ Numeral.isDigit c = true := by
  cases cs with
  | nil => cases h
  | cons c rest =>
      refine ⟨c, rest, rfl, ?_⟩
      cases hc : Numeral.isDigit c with
      | true => rfl
      | false => simp [digits?, hc] at h

theorem head_of_magnitude? {negative : Bool} {cs : List Char} {p : Literal × List Char}
    (h : magnitude? negative cs = some p) : ∃ c rest, cs = c :: rest ∧ Numeral.isDigit c = true := by
  obtain ⟨⟨whole, after⟩, hwhole, -⟩ := Option.bind_eq_some_iff.mp h
  unfold whole? at hwhole
  split at hwhole
  · cases hwhole
  · exact head_of_digits? hwhole

theorem head_of_literal? {cs : List Char} {p : Literal × List Char} (h : literal? cs = some p) :
    ∃ c rest, cs = c :: rest ∧ (c = '-' ∨ Numeral.isDigit c = true) := by
  unfold literal? at h
  split at h
  · exact ⟨_, _, rfl, .inl rfl⟩
  · obtain ⟨c, rest, rfl, hc⟩ := head_of_magnitude? h
    exact ⟨c, rest, rfl, .inr hc⟩

theorem opensValue_of_number {c : Char} (h : c = '-' ∨ Numeral.isDigit c = true) :
    opensValue c = true := by
  rcases h with rfl | h
  · rfl
  · rw [opensValue, h, Bool.or_true]

theorem head_of_tree? {fuel : Nat} {cs : List Char} {p : Tree × List Char}
    (h : tree? fuel cs = some p) : ∃ c rest, skipSpace cs = c :: rest ∧ opensValue c = true := by
  cases fuel with
  | zero => rw [tree?] at h; cases h
  | succ fuel =>
      rw [tree?] at h
      split at h
      case h_7 =>
        obtain ⟨⟨l, r⟩, hl, -⟩ := Option.map_eq_some_iff.mp h
        obtain ⟨c, rest, hcs, hc⟩ := head_of_literal? hl
        exact ⟨c, rest, hcs, opensValue_of_number hc⟩
      all_goals
        rename_i hcs
        exact ⟨_, _, hcs, rfl⟩

/-- A text that reads as a value begins with one, behind spaces. -/
theorem head_of_readText? {α : Type} {read : Reader α} {s : String} {a : α}
    (h : readText? read s = some a) :
    ∃ c rest, skipSpace s.toList = c :: rest ∧ opensValue c = true := by
  obtain ⟨t, ht, -⟩ := Option.bind_eq_some_iff.mp h
  unfold Tree.ofChars? at ht
  split at ht
  · rename_i hp
    exact head_of_tree? hp
  · cases ht

theorem isSpace_of_isJsonSpace {c : Char} (h : isJsonSpace c = true) : Text.isSpace c = true := by
  simp only [isJsonSpace, Bool.or_eq_true, decide_eq_true_eq] at h
  rcases h with ((rfl | rfl) | rfl) | rfl <;> rfl

theorem trimStart_skipSpace (cs : List Char) : Text.trimStart (skipSpace cs) = Text.trimStart cs := by
  induction cs with
  | nil => rfl
  | cons c cs ih =>
      cases hc : isJsonSpace c with
      | true =>
          rw [skipSpace, List.dropWhile_cons_of_pos hc, ← skipSpace, ih, Text.trimStart,
            Text.trimStart, List.dropWhile_cons_of_pos (isSpace_of_isJsonSpace hc)]
      | false =>
          have hstop : ¬isJsonSpace c = true := by simp [hc]
          rw [skipSpace, List.dropWhile_cons_of_neg hstop]

theorem opensValue_ne {c : Char} (h : opensValue c = true) : c ≠ '<' := by
  rintro rfl
  cases h

theorem not_isSpace_of_opensValue {c : Char} (h : opensValue c = true) : Text.isSpace c = false := by
  rw [opensValue, Bool.or_eq_true] at h
  rcases h with h | h
  · have hspaces : "ntf\"[\x7b-".toList.any Text.isSpace = false := by decide
    simpa using List.any_eq_false.mp hspaces c (List.contains_iff_mem.mp h)
  · exact Numeral.isSpace_of_isDigit h

theorem skipSpace_cons {c : Char} (h : opensValue c = true) (cs : List Char) :
    skipSpace (c :: cs) = c :: cs := by
  have hstop : ¬isJsonSpace c = true := fun hspace =>
    Bool.false_ne_true ((not_isSpace_of_opensValue h).symm.trans (isSpace_of_isJsonSpace hspace))
  rw [skipSpace, List.dropWhile_cons_of_neg hstop]

end FeedClient.Json
