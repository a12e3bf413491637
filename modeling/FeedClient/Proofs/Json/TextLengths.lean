import FeedClient.Proofs.Json.Openings

/-!
# Lengths of what a JSON text spells

A reader leaves no more than it was given, and the marks around a quoted text count.
So a text that is an item of an array is shorter than what spells the array.
-/
namespace FeedClient.Json

/-- What is left behind a value is no longer than the text that began with it. -/
def Leaves {α : Type} (read : List Char → Option (α × List Char)) : Prop :=
  ∀ ⦃cs : List Char⦄ ⦃a : α⦄ ⦃rest : List Char⦄, read cs = some (a, rest) → rest.length ≤ cs.length

theorem length_skipSpace_le (cs : List Char) : (skipSpace cs).length ≤ cs.length :=
  (List.dropWhile_sublist _).length_le

section Numbers

theorem leaves_digits? : Leaves digits? := by
  intro cs ds rest h
  simp only [digits?] at h
  split at h
  · cases h
  · obtain rfl := (Prod.mk.inj (Option.some.inj h)).2
    exact (List.dropWhile_sublist _).length_le

theorem leaves_whole? : Leaves whole? := by
  intro cs ds rest h
  unfold whole? at h
  split at h
  · cases h
  · exact leaves_digits? h

theorem leaves_fraction? : Leaves fraction? := by
  intro cs ds rest h
  unfold fraction? at h
  split at h
  · obtain ⟨⟨ds, rest⟩, hds, heq⟩ := Option.map_eq_some_iff.mp h
    obtain ⟨-, rfl⟩ := Prod.mk.inj heq
    exact Nat.le_succ_of_le (leaves_digits? hds)
  · obtain rfl := (Prod.mk.inj (Option.some.inj h)).2
    exact Nat.le_refl _

theorem leaves_exponentDigits? : Leaves exponentDigits? := by
  intro cs ds rest h
  -- The sign is put to the digits and leaves the rest as it is.
  have hdigits : ∀ {cs : List Char} {f : List Char × List Char → Option (Bool × List Char) × List Char},
      (∀ p, (f p).2 = p.2) → (digits? cs).map f = some (ds, rest) → rest.length ≤ cs.length := by
    intro cs f hrest h
    obtain ⟨p, hp, heq⟩ := Option.map_eq_some_iff.mp h
    have hsame : p.2 = rest := (hrest p).symm.trans (congrArg Prod.snd heq)
    exact hsame ▸ leaves_digits? hp
  unfold exponentDigits? at h
  split at h
  · exact Nat.le_succ_of_le (hdigits (fun _ => rfl) h)
  · exact Nat.le_succ_of_le (hdigits (fun _ => rfl) h)
  · exact hdigits (fun _ => rfl) h

theorem leaves_exponentPart? : Leaves exponentPart? := by
  intro cs e rest h
  unfold exponentPart? at h
  split at h
  · exact Nat.le_succ_of_le (leaves_exponentDigits? h)
  · exact Nat.le_succ_of_le (leaves_exponentDigits? h)
  · obtain rfl := (Prod.mk.inj (Option.some.inj h)).2
    exact Nat.le_refl _

theorem leaves_magnitude? (negative : Bool) : Leaves (magnitude? negative) := by
  intro cs l rest h
  obtain ⟨⟨whole, cs₁⟩, hwhole, h⟩ := Option.bind_eq_some_iff.mp h
  obtain ⟨⟨fraction, cs₂⟩, hfraction, h⟩ := Option.bind_eq_some_iff.mp h
  obtain ⟨⟨exponent, cs₃⟩, hexponent, h⟩ := Option.bind_eq_some_iff.mp h
  obtain rfl := (Prod.mk.inj (Option.some.inj h)).2
  calc cs₃.length
      ≤ cs₂.length := leaves_exponentPart? hexponent
    _ ≤ cs₁.length := leaves_fraction? hfraction
    _ ≤ cs.length := leaves_whole? hwhole

theorem leaves_literal? : Leaves literal? := by
  intro cs l rest h
  unfold literal? at h
  split at h
  · exact Nat.le_succ_of_le (leaves_magnitude? true h)
  · exact leaves_magnitude? false h

end Numbers

section Texts

/-- Each piece of a quoted text takes one character or more, and so does the mark behind it. -/
theorem length_of_pieces? {cs : List Char} {ps : List Piece} {rest : List Char}
    (h : pieces? cs = some (ps, rest)) : ps.length + rest.length < cs.length := by
  fun_induction pieces? cs generalizing ps rest with
  | case1 => cases h
  | case2 cs =>
      obtain ⟨rfl, rfl⟩ := Prod.mk.inj (Option.some.inj h)
      simp
  | case3 a b c d cs n qs r hpieces hunit ih =>
      obtain ⟨rfl, rfl⟩ := Prod.mk.inj (Option.some.inj h)
      have hlength := ih hpieces
      simp only [List.length_cons]
      omega
  | case4 => cases h
  | case5 c cs _ e qs r hpieces hescaped ih =>
      obtain ⟨rfl, rfl⟩ := Prod.mk.inj (Option.some.inj h)
      have hlength := ih hpieces
      simp only [List.length_cons]
      omega
  | case6 => cases h
  | case7 => cases h
  | case8 c cs _ _ _ _ ih =>
      obtain ⟨⟨qs, r⟩, hpieces, heq⟩ := Option.map_eq_some_iff.mp h
      obtain ⟨rfl, rfl⟩ := Prod.mk.inj heq
      have hlength := ih hpieces
      simp only [List.length_cons]
      omega

/-- Pieces spell no more characters than they are. -/
theorem length_of_decodePieces? {ps : List Piece} {cs : List Char} (h : decodePieces? ps = some cs) :
    cs.length ≤ ps.length := by
  fun_induction decodePieces? ps generalizing cs with
  | case1 =>
      obtain rfl := Option.some.inj h
      exact Nat.le_refl _
  | case2 c ps ih =>
      obtain ⟨ds, hds, rfl⟩ := Option.map_eq_some_iff.mp h
      exact Nat.succ_le_succ (ih hds)
  | case3 n ps _ ih =>
      obtain ⟨ds, hds, rfl⟩ := Option.map_eq_some_iff.mp h
      exact Nat.succ_le_succ (ih hds)
  | case5 n _ _ m ps _ ih =>
      obtain ⟨ds, hds, rfl⟩ := Option.map_eq_some_iff.mp h
      exact Nat.succ_le_succ (Nat.le_succ_of_le (ih hds))
  | case4 | case6 | case7 => cases h

end Texts

/-- The number of pieces in a text, and nothing for any other value. -/
def Tree.textLength : Tree → Nat
  | .text ps => ps.length
  | _ => 0

/-- Within an amount of fuel, what is left behind a value and what the value takes for a text are no
longer than what was read. -/
structure ReadsWithin (fuel : Nat) : Prop where
  tree : ∀ {cs t rest}, tree? fuel cs = some (t, rest) → t.textLength + rest.length ≤ cs.length
  items : ∀ {cs ts rest}, items? fuel cs = some (ts, rest) →
    (∀ t ∈ ts, t.textLength ≤ cs.length) ∧ rest.length ≤ cs.length
  members : Leaves (members? fuel)

namespace ReadsWithin

variable {fuel : Nat} {cs rest : List Char}

theorem tree_succ (h : ReadsWithin fuel) {t : Tree} (ht : tree? (fuel + 1) cs = some (t, rest)) :
    t.textLength + rest.length ≤ cs.length := by
  have hskip := length_skipSpace_le cs
  rw [tree?] at ht
  split at ht
  case h_4 inner hcs =>
    obtain ⟨⟨ps, r⟩, hps, heq⟩ := Option.map_eq_some_iff.mp ht
    obtain ⟨rfl, rfl⟩ := Prod.mk.inj heq
    have hpieces := length_of_pieces? hps
    rw [hcs, List.length_cons] at hskip
    simp only [Tree.textLength]
    omega
  case h_5 inner hcs =>
    have hinner := length_skipSpace_le inner
    rw [hcs, List.length_cons] at hskip
    split at ht
    · rename_i hclosed
      obtain ⟨rfl, rfl⟩ := Prod.mk.inj (Option.some.inj ht)
      rw [hclosed, List.length_cons] at hinner
      simp only [Tree.textLength]
      omega
    · obtain ⟨⟨ts, r⟩, hts, heq⟩ := Option.map_eq_some_iff.mp ht
      obtain ⟨rfl, rfl⟩ := Prod.mk.inj heq
      have hrest := (h.items hts).2
      simp only [Tree.textLength]
      omega
  case h_6 inner hcs =>
    have hinner := length_skipSpace_le inner
    rw [hcs, List.length_cons] at hskip
    split at ht
    · rename_i hclosed
      obtain ⟨rfl, rfl⟩ := Prod.mk.inj (Option.some.inj ht)
      rw [hclosed, List.length_cons] at hinner
      simp only [Tree.textLength]
      omega
    · obtain ⟨⟨ms, r⟩, hms, heq⟩ := Option.map_eq_some_iff.mp ht
      obtain ⟨rfl, rfl⟩ := Prod.mk.inj heq
      have hrest := h.members hms
      simp only [Tree.textLength]
      omega
  case h_7 =>
    obtain ⟨⟨l, r⟩, hl, heq⟩ := Option.map_eq_some_iff.mp ht
    obtain ⟨rfl, rfl⟩ := Prod.mk.inj heq
    have hrest := leaves_literal? hl
    simp only [Tree.textLength]
    omega
  all_goals
    rename_i hcs
    obtain ⟨rfl, rfl⟩ := Prod.mk.inj (Option.some.inj ht)
    rw [hcs] at hskip
    simp only [List.length_cons] at hskip
    simp only [Tree.textLength]
    omega

theorem items_succ (h : ReadsWithin fuel) {ts : List Tree}
    (hts : items? (fuel + 1) cs = some (ts, rest)) :
    (∀ t ∈ ts, t.textLength ≤ cs.length) ∧ rest.length ≤ cs.length := by
  rw [items?] at hts
  split at hts
  · cases hts
  · rename_i t after ht
    have hfirst := h.tree ht
    have hskip := length_skipSpace_le after
    split at hts
    · rename_i hclosed
      obtain ⟨rfl, rfl⟩ := Prod.mk.inj (Option.some.inj hts)
      rw [hclosed, List.length_cons] at hskip
      exact ⟨List.forall_mem_singleton.mpr (by omega), by omega⟩
    · rename_i hcomma
      obtain ⟨⟨us, r⟩, hus, heq⟩ := Option.map_eq_some_iff.mp hts
      obtain ⟨rfl, rfl⟩ := Prod.mk.inj heq
      obtain ⟨hlengths, hrest⟩ := h.items hus
      rw [hcomma, List.length_cons] at hskip
      refine ⟨List.forall_mem_cons.mpr ⟨by omega, fun u hu => ?_⟩, by omega⟩
      have hu := hlengths u hu
      omega
    · cases hts

theorem members_succ (h : ReadsWithin fuel) : Leaves (members? (fuel + 1)) := by
  intro cs ms rest hms
  have hstart := length_skipSpace_le cs
  rw [members?] at hms
  split at hms
  · rename_i quoted hcs
    rw [hcs, List.length_cons] at hstart
    split at hms
    · cases hms
    · rename_i name after hname
      have hpieces := length_of_pieces? hname
      have hcolon := length_skipSpace_le after
      split at hms
      · rename_i valued hafter
        rw [hafter, List.length_cons] at hcolon
        split at hms
        · cases hms
        · rename_i t behind ht
          have hvalue := h.tree ht
          have hskip := length_skipSpace_le behind
          split at hms
          · rename_i hclosed
            obtain ⟨-, rfl⟩ := Prod.mk.inj (Option.some.inj hms)
            rw [hclosed, List.length_cons] at hskip
            omega
          · rename_i hcomma
            obtain ⟨⟨more, r⟩, hmore, heq⟩ := Option.map_eq_some_iff.mp hms
            obtain ⟨-, rfl⟩ := Prod.mk.inj heq
            have hrest := h.members hmore
            rw [hcomma, List.length_cons] at hskip
            omega
          · cases hms
      · cases hms
  · cases hms

end ReadsWithin

/-- The three readers call each other with less fuel, which the induction is on. -/
theorem readsWithin (fuel : Nat) : ReadsWithin fuel := by
  induction fuel with
  | zero =>
      refine ⟨fun h => ?_, fun h => ?_, fun cs ms rest h => ?_⟩
      · rw [tree?] at h; cases h
      · rw [items?] at h; cases h
      · rw [members?] at h; cases h
  | succ fuel ih => exact ⟨ih.tree_succ, ih.items_succ, ih.members_succ⟩

/-- An array opens with a bracket, and its items stand behind that. -/
theorem items_of_tree? {fuel : Nat} {cs rest : List Char} {ts : List Tree}
    (h : tree? (fuel + 1) cs = some (.array ts, rest)) :
    ts = [] ∨ ∃ inner, skipSpace cs = '[' :: inner ∧ items? fuel inner = some (ts, rest) := by
  rw [tree?] at h
  split at h
  case h_5 inner hcs =>
    split at h
    · cases h
      exact .inl rfl
    · obtain ⟨⟨us, r⟩, hus, heq⟩ := Option.map_eq_some_iff.mp h
      cases heq
      exact .inr ⟨inner, hcs, hus⟩
  case h_6 =>
    split at h
    · cases h
    · obtain ⟨_, -, heq⟩ := Option.map_eq_some_iff.mp h
      cases heq
  case h_4 | h_7 =>
    obtain ⟨_, -, heq⟩ := Option.map_eq_some_iff.mp h
    cases heq
  all_goals cases h

/-- A text that is an item of an array is shorter than what spells the array. -/
theorem length_lt_of_item {cs : List Char} {ts : List Tree} (h : Tree.ofChars? cs = some (.array ts))
    {ps : List Piece} (hps : .text ps ∈ ts) {s : String} (hs : pieceText? ps = some s) :
    s.toList.length < cs.length := by
  have htext : s.toList.length ≤ ps.length := by
    obtain ⟨ds, hds, rfl⟩ := Option.map_eq_some_iff.mp hs
    rw [String.toList_ofList]
    exact length_of_decodePieces? hds
  unfold Tree.ofChars? at h
  split at h
  · rename_i t rest ht
    split at h
    · obtain rfl := Option.some.inj h
      rcases items_of_tree? ht with rfl | ⟨inner, hcs, hitems⟩
      · cases hps
      · have hskip := length_skipSpace_le cs
        have hitem : ps.length ≤ inner.length := ((readsWithin _).items hitems).1 _ hps
        rw [hcs, List.length_cons] at hskip
        omega
    · cases h
  · cases h

end FeedClient.Json
