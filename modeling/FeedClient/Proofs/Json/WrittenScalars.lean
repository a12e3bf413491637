import FeedClient.Json.Printer
import FeedClient.Proofs.Json.Openings
import Mathlib.Data.List.TakeWhile

/-!
# Printed numbers and texts

A number is followed by the end of the text or by the mark behind an item or a
member, and reading it stops there. A whole number is printed as its digits, and a
quoted text as pieces that spell it.
-/
namespace FeedClient.Json

/-- What follows a value: the end of the text, or the mark behind an item or a member. -/
inductive Delimits : List Char → Prop where
  | done : Delimits []
  | comma (rest : List Char) : Delimits (',' :: rest)
  | bracket (rest : List Char) : Delimits (']' :: rest)
  | brace (rest : List Char) : Delimits ('\x7d' :: rest)

section Numbers

variable {cs rest r ds : List Char}

theorem Delimits.takeWhile_isDigit (h : Delimits rest) : rest.takeWhile Numeral.isDigit = [] := by
  cases h <;> rfl

theorem Delimits.dropWhile_isDigit (h : Delimits rest) : rest.dropWhile Numeral.isDigit = rest := by
  cases h <;> rfl

theorem digits?_append (h : digits? cs = some (ds, r)) (hrest : Delimits rest) :
    digits? (cs ++ rest) = some (ds, r ++ rest) := by
  have htake : (cs ++ rest).takeWhile Numeral.isDigit = cs.takeWhile Numeral.isDigit := by
    rw [List.takeWhile_append, hrest.takeWhile_isDigit, List.append_nil]
    split
    · rename_i hall
      exact ((List.takeWhile_prefix _).eq_of_length hall).symm
    · rfl
  have hdrop : (cs ++ rest).dropWhile Numeral.isDigit = cs.dropWhile Numeral.isDigit ++ rest := by
    rw [List.dropWhile_append, hrest.dropWhile_isDigit]
    split
    · rename_i hempty
      rw [List.isEmpty_iff.mp hempty, List.nil_append]
    · rfl
  simp only [digits?] at h ⊢
  rw [htake, hdrop]
  split at h
  · cases h
  · rename_i hsome
    obtain ⟨rfl, rfl⟩ := Prod.mk.inj (Option.some.inj h)
    rw [if_neg hsome]

theorem digits?_of_whole? (h : whole? cs = some (ds, r)) : digits? cs = some (ds, r) := by
  unfold whole? at h
  split at h
  · cases h
  · exact h

theorem whole?_append (h : whole? cs = some (ds, r)) (hrest : Delimits rest) :
    whole? (cs ++ rest) = some (ds, r ++ rest) := by
  have hdigits := digits?_of_whole? h
  unfold whole? at h ⊢
  rw [digits?_append hdigits hrest]
  rw [hdigits] at h
  split
  · rename_i heq
    obtain ⟨rfl, rfl⟩ := Prod.mk.inj (Option.some.inj heq)
    cases h
  · rfl

theorem fraction?_append {f : Option (List Char)} (h : fraction? cs = some (f, r))
    (hrest : Delimits rest) : fraction? (cs ++ rest) = some (f, r ++ rest) := by
  unfold fraction? at h
  split at h
  · rename_i cs
    obtain ⟨⟨ds, r⟩, hds, heq⟩ := Option.map_eq_some_iff.mp h
    obtain ⟨rfl, rfl⟩ := Prod.mk.inj heq
    rw [List.cons_append, fraction?, digits?_append hds hrest, Option.map_some]
  · rename_i hpoint
    obtain ⟨rfl, rfl⟩ := Prod.mk.inj (Option.some.inj h)
    unfold fraction?
    split
    · rename_i heq
      cases cs with
      | nil => cases hrest <;> cases heq
      | cons c cs => exact absurd (congrArg (· :: cs) (List.cons.inj heq).1) (hpoint cs)
    · rfl

/-- A sign is no digit, so digits without one are read as they are. -/
theorem exponentDigits?_of_digits? (h : digits? cs = some (ds, r)) :
    exponentDigits? cs = some (some (false, ds), r) := by
  obtain ⟨c, cs, rfl, hc⟩ := head_of_digits? h
  unfold exponentDigits?
  split
  · rename_i heq
    rw [(List.cons.inj heq).1] at hc
    cases hc
  · rename_i heq
    rw [(List.cons.inj heq).1] at hc
    cases hc
  · rw [h, Option.map_some]

theorem exponentDigits?_append {e : Option (Bool × List Char)} (h : exponentDigits? cs = some (e, r))
    (hrest : Delimits rest) : exponentDigits? (cs ++ rest) = some (e, r ++ rest) := by
  unfold exponentDigits? at h
  split at h
  all_goals
    obtain ⟨⟨ds, r⟩, hds, heq⟩ := Option.map_eq_some_iff.mp h
    obtain ⟨rfl, rfl⟩ := Prod.mk.inj heq
    have happend := digits?_append hds hrest
  · rw [List.cons_append, exponentDigits?, happend, Option.map_some]
  · rw [List.cons_append, exponentDigits?, happend, Option.map_some]
  · exact exponentDigits?_of_digits? happend

theorem exponentPart?_append {e : Option (Bool × List Char)} (h : exponentPart? cs = some (e, r))
    (hrest : Delimits rest) : exponentPart? (cs ++ rest) = some (e, r ++ rest) := by
  unfold exponentPart? at h
  split at h
  · rw [List.cons_append, exponentPart?]
    exact exponentDigits?_append h hrest
  · rw [List.cons_append, exponentPart?]
    exact exponentDigits?_append h hrest
  · rename_i hsmall hlarge
    obtain ⟨rfl, rfl⟩ := Prod.mk.inj (Option.some.inj h)
    cases cs with
    | nil => cases hrest <;> rfl
    | cons c cs =>
        unfold exponentPart?
        split
        · rename_i heq
          exact absurd (congrArg (· :: cs) (List.cons.inj heq).1) (hsmall cs)
        · rename_i heq
          exact absurd (congrArg (· :: cs) (List.cons.inj heq).1) (hlarge cs)
        · rfl

theorem magnitude?_append {negative : Bool} {l : Literal} (h : magnitude? negative cs = some (l, []))
    (hrest : Delimits rest) : magnitude? negative (cs ++ rest) = some (l, rest) := by
  simp only [magnitude?, Option.bind_eq_bind, Option.bind_eq_some_iff, Prod.exists] at h
  obtain ⟨whole, _, hwhole, fraction, _, hfraction, exponent, _, hexponent, heq⟩ := h
  obtain ⟨rfl, rfl⟩ := Prod.mk.inj (Option.some.inj heq)
  simp only [magnitude?, Option.bind_eq_bind, whole?_append hwhole hrest, Option.bind_some,
    fraction?_append hfraction hrest, exponentPart?_append hexponent hrest, List.nil_append]
  rfl

/-- A minus sign is no digit, so a number without one is read as it is. -/
theorem literal?_of_magnitude? {p : Literal × List Char} (h : magnitude? false cs = some p) :
    literal? cs = some p := by
  obtain ⟨c, cs, rfl, hc⟩ := head_of_magnitude? h
  unfold literal?
  split
  · rename_i heq
    rw [(List.cons.inj heq).1] at hc
    cases hc
  · exact h

/-- A number that a text consists of is read as the same number in front of a mark. -/
theorem literal?_append {l : Literal} (h : literal? cs = some (l, [])) (hrest : Delimits rest) :
    literal? (cs ++ rest) = some (l, rest) := by
  unfold literal? at h
  split at h
  · rw [List.cons_append, literal?]
    exact magnitude?_append h hrest
  · exact literal?_of_magnitude? (magnitude?_append h hrest)

/-- The literal of a whole number. -/
def integerLiteral (n : Int) : Literal := ⟨decide (n < 0), Nat.toDigits 10 n.natAbs, none, none⟩

theorem magnitude?_toDigits (negative : Bool) (n : Nat) :
    magnitude? negative (Nat.toDigits 10 n) = some (⟨negative, Nat.toDigits 10 n, none, none⟩, []) := by
  obtain ⟨hne, hdigits⟩ := Numeral.areDigits_toDigits n
  have hread : digits? (Nat.toDigits 10 n) = some (Nat.toDigits 10 n, []) := by
    have hall := fun c hc => hdigits c hc
    have hsome : (Nat.toDigits 10 n).isEmpty = false := by simp [hne]
    simp only [digits?, List.takeWhile_eq_self_iff.mpr hall, List.dropWhile_eq_nil_iff.mpr hall, hsome,
      Bool.false_eq_true, if_false]
  have hwhole : whole? (Nat.toDigits 10 n) = some (Nat.toDigits 10 n, []) := by
    unfold whole?
    split
    · rename_i hzero
      obtain ⟨hzero, -⟩ := Prod.mk.inj (Option.some.inj (hread.symm.trans hzero))
      cases Numeral.toDigits_of_head_zero hzero
    · exact hread
  simp [magnitude?, hwhole, fraction?, exponentPart?]

theorem literal?_ofInt (n : Int) : literal? (Numeral.ofInt n).toList = some (integerLiteral n, []) := by
  rw [Numeral.ofInt, integerLiteral]
  split
  · rename_i hneg
    have hchars : ("-" ++ String.ofList (Nat.toDigits 10 n.natAbs)).toList =
        '-' :: Nat.toDigits 10 n.natAbs := by simp
    rw [hchars, literal?, magnitude?_toDigits, decide_eq_true hneg]
  · rename_i hnonneg
    rw [String.toList_ofList, decide_eq_false hnonneg]
    exact literal?_of_magnitude? (magnitude?_toDigits false _)

end Numbers

section Texts

/-- The piece that a printed character is read as: control characters without a letter of their own are
printed as units. -/
def piece (c : Char) : Piece :=
  if c.toNat < 32 ∧ c.toNat ∉ [8, 9, 10, 12, 13] then .unit c.toNat else .char c

def textPieces (s : String) : List Piece := s.toList.map piece

theorem hexUnit?_hexDigit {n : Nat} (h : n < 32) :
    hexUnit? '0' '0' (hexDigit (n / 16)) (hexDigit (n % 16)) = some n := by
  have hall : ∀ m < 32, hexUnit? '0' '0' (hexDigit (m / 16)) (hexDigit (m % 16)) = some m := by decide
  exact hall n h

theorem pieces?_escaped {c d : Char} (h : escaped? c = some d) (cs : List Char) :
    pieces? ('\\' :: c :: cs) = (pieces? cs).map fun (ps, rest) => (.char d :: ps, rest) := by
  have hunit : c ≠ 'u' := by
    rintro rfl
    cases h
  rw [pieces?, h]
  · cases pieces? cs <;> rfl
  · exact fun _ _ _ _ _ heq => absurd heq hunit

theorem pieces?_unit {a b c d : Char} {n : Nat} (h : hexUnit? a b c d = some n) (cs : List Char) :
    pieces? ('\\' :: 'u' :: a :: b :: c :: d :: cs) =
      (pieces? cs).map fun (ps, rest) => (.unit n :: ps, rest) := by
  rw [pieces?, h]
  cases pieces? cs <;> rfl

theorem pieces?_char {c : Char} (hquote : c ≠ '"') (hslash : c ≠ '\\') (hcode : ¬c.toNat < 32)
    (cs : List Char) :
    pieces? (c :: cs) = (pieces? cs).map fun (ps, rest) => (.char c :: ps, rest) := by
  have hplain : (decide (c.toNat < 32) || decide (c = '\\')) = false := by simp [hcode, hslash]
  rw [pieces?, hplain, if_neg Bool.false_ne_true]
  · exact hquote
  · exact fun _ _ _ _ _ heq => absurd heq hslash
  · exact fun _ _ heq => absurd heq hslash

/-- What is printed for a character is read as its piece. -/
theorem pieces?_escape (c : Char) (cs : List Char) :
    pieces? (escape c ++ cs) = (pieces? cs).map fun (ps, rest) => (piece c :: ps, rest) := by
  have hchar : ∀ {d : Char}, c.toNat = d.toNat → c = d := Char.toNat_inj.mp
  unfold escape
  split_ifs with hquote hslash hback hfeed hline hreturn htab hcontrol
  · subst hquote
    exact pieces?_escaped rfl cs
  · subst hslash
    exact pieces?_escaped rfl cs
  · obtain rfl : c = '\x08' := hchar hback
    exact pieces?_escaped rfl cs
  · obtain rfl : c = '\x0c' := hchar hfeed
    exact pieces?_escaped rfl cs
  · subst hline
    exact pieces?_escaped rfl cs
  · subst hreturn
    exact pieces?_escaped rfl cs
  · subst htab
    exact pieces?_escaped rfl cs
  · have hletters : c.toNat ∉ [8, 9, 10, 12, 13] := by
      have hten : c.toNat ≠ 10 := fun h => hline (hchar h)
      have hthirteen : c.toNat ≠ 13 := fun h => hreturn (hchar h)
      have hnine : c.toNat ≠ 9 := fun h => htab (hchar h)
      simp [hback, hfeed, hten, hthirteen, hnine]
    rw [piece, if_pos ⟨hcontrol, hletters⟩]
    exact pieces?_unit (hexUnit?_hexDigit hcontrol) cs
  · rw [piece, if_neg fun h => hcontrol h.1]
    exact pieces?_char hquote hslash hcontrol cs

theorem pieces?_flatMap_escape (cs rest : List Char) :
    pieces? (cs.flatMap escape ++ '"' :: rest) = some (cs.map piece, rest) := by
  induction cs with
  | nil => rfl
  | cons c cs ih => rw [List.flatMap_cons, List.append_assoc, pieces?_escape, ih]; rfl

theorem decodePieces?_unit {n : Nat} (h : n < 0xD800) (ps : List Piece) :
    decodePieces? (.unit n :: ps) = (decodePieces? ps).map (Char.ofNat n :: ·) := by
  rw [decodePieces?.eq_def]
  exact if_pos (.inl h)

theorem decodePieces?_map_piece (cs : List Char) : decodePieces? (cs.map piece) = some cs := by
  induction cs with
  | nil => rfl
  | cons c cs ih =>
      rw [List.map_cons, piece]
      split
      · rename_i hcontrol
        rw [decodePieces?_unit (by omega), ih, Char.ofNat_toNat]
        rfl
      · rw [decodePieces?, ih]
        rfl

/-- A text is spelled by its pieces. -/
theorem pieceText?_textPieces (s : String) : pieceText? (textPieces s) = some s := by
  rw [pieceText?, textPieces, decodePieces?_map_piece, Option.map_some, String.ofList_toList]

end Texts

end FeedClient.Json
