import FeedClient.Proofs.Query.Translation
import FeedClient.Proofs.Text.WrittenNumbers

/-!
# What a display tells

The display of a filter over comparisons of fields with integers tells the filter
apart from every other one, except those that group conjunctions differently. The
display has no parentheses around conjunctions, so a filter is compared with the parts
that the conjunctions of the other one join, one after another.
-/
namespace FeedClient

namespace Predicate

section Grouping

/-- Conjunctions of regrouped parts are regrouped. -/
theorem Regroups.foldl_and {cs ds : List Predicate} (h : List.Forall₂ Regroups cs ds) {p q : Predicate}
    (hp : p.Regroups q) : (cs.foldl .and p).Regroups (ds.foldl .and q) := by
  induction h generalizing p q with
  | nil => exact hp
  | cons hcd _ ih => exact ih (.and hp hcd)

/-- A conjunction on the right is taken apart. -/
theorem regroups_foldl_and (p d : Predicate) (ds : List Predicate) :
    (Predicate.and p (ds.foldl .and d)).Regroups ((d :: ds).foldl .and p) := by
  induction ds generalizing d with
  | nil => exact .refl _
  | cons e ds ih =>
      have hturned : (Predicate.and p (.and d e)).Regroups (.and (.and p d) e) := .symm (.rotate p d e)
      exact .trans (ih (.and d e)) (.foldl_and (List.forall₂_same.mpr fun c _ => .refl c) hturned)

/-- A filter is regrouped to the conjunction of its parts from left to right. -/
theorem exists_conjuncts (p : Predicate) :
    ∃ c cs, p.conjuncts = c :: cs ∧ p.Regroups (cs.foldl .and c) := by
  induction p with
  | and l r ihl ihr =>
      obtain ⟨c, cs, hl, hcs⟩ := ihl
      obtain ⟨d, ds, hr, hds⟩ := ihr
      refine ⟨c, cs ++ d :: ds, by rw [conjuncts, hl, hr, List.cons_append], ?_⟩
      rw [List.foldl_append]
      exact .trans (.and hcs hds) (regroups_foldl_and _ d ds)
  | or l r => exact ⟨_, [], rfl, .refl _⟩
  | not p => exact ⟨_, [], rfl, .refl _⟩
  | compare l op r => exact ⟨_, [], rfl, .refl _⟩

/-- Filters of regrouped parts are regrouped. -/
theorem Regroups.of_conjuncts {p q : Predicate} (h : List.Forall₂ Regroups p.conjuncts q.conjuncts) :
    p.Regroups q := by
  obtain ⟨c, cs, hp, hcs⟩ := p.exists_conjuncts
  obtain ⟨d, ds, hq, hds⟩ := q.exists_conjuncts
  rw [hp, hq] at h
  cases h with
  | cons hcd hrest => exact .trans hcs (.trans (.foldl_and hrest hcd) (.symm hds))

end Grouping

end Predicate

namespace Text

/-- The rest of a text, which does not go on with a character of some kind. -/
def Ends (kind : Char → Bool) (rest : List Char) : Prop := ∀ c ∈ rest.head?, kind c = false

theorem ends_nil (kind : Char → Bool) : Ends kind [] := nofun

theorem ends_cons {kind : Char → Bool} {c : Char} (h : kind c = false) (rest : List Char) :
    Ends kind (c :: rest) := fun d hd => by
  rw [← Option.some.inj hd]
  exact h

/-- Characters of a kind are cut off in one way only. -/
theorem append_inj_of_ends {kind : Char → Bool} {xs ys r s : List Char} (hx : ∀ c ∈ xs, kind c = true)
    (hy : ∀ c ∈ ys, kind c = true) (hr : Ends kind r) (hs : Ends kind s) (h : xs ++ r = ys ++ s) :
    xs = ys ∧ r = s := by
  have hstop : ∀ rest, Ends kind rest → rest.takeWhile kind = [] := fun rest hrest => by
    cases rest with
    | nil => rfl
    | cons c rest => exact List.takeWhile_cons_of_neg (by simp [hrest c rfl])
  have htake := congrArg (List.takeWhile kind) h
  rw [List.takeWhile_append_of_pos hx, List.takeWhile_append_of_pos hy, hstop r hr, hstop s hs,
    List.append_nil, List.append_nil] at htake
  subst htake
  exact ⟨rfl, List.append_cancel_left h⟩

end Text

namespace Operand

/-- A field under a name of ASCII letters and digits, or a whole number. -/
inductive IsWord : Operand → Prop where
  | field {name : String} (hne : name.toList ≠ []) (h : ∀ c ∈ name.toList, c.isAlphanum = true) :
      IsWord (.field name)
  | integer (n : Int64) : IsWord (.literal (.int n))

/-- The characters that words are made of stand in no other place in a display. -/
def isWordChar (c : Char) : Bool := c.isAlphanum || c = '.' || c = '-'

variable {a b : Operand}

theorem display_integer (n : Int64) : (literal (.int n)).display = Numeral.ofInt n.toInt := rfl

theorem IsWord.isWordChar (ha : a.IsWord) : ∀ c ∈ a.display.toList, Operand.isWordChar c = true := by
  intro c hc
  cases ha with
  | @field name _ h =>
      rw [display, String.toList_append] at hc
      rcases List.mem_append.mp hc with hc | hc
      · exact List.all_eq_true.mp (by decide) c hc
      · simp [Operand.isWordChar, h c hc]
  | integer n =>
      rw [display_integer] at hc
      rcases Numeral.isDigit_of_mem_ofInt hc with rfl | hdigit
      · rfl
      · rw [Numeral.isDigit_eq] at hdigit
        simp [Operand.isWordChar, Char.isAlphanum, hdigit]

theorem IsWord.exists_cons (ha : a.IsWord) :
    ∃ c cs, a.display.toList = c :: cs ∧ Operand.isWordChar c = true := by
  have hne : a.display.toList ≠ [] := by
    cases ha with
    | field => simp [display]
    | integer n => exact Numeral.ofInt_ne_nil _
  obtain ⟨c, cs, hcs⟩ := List.exists_cons_of_ne_nil hne
  exact ⟨c, cs, hcs, ha.isWordChar c (by rw [hcs]; exact List.mem_cons_self ..)⟩

/-- The display of a field begins with a letter. -/
theorem display_field_ne (name : String) (n : Int64) :
    (field name).display ≠ (literal (.int n)).display := by
  intro h
  have hletter : 'i' ∈ (field name).display.toList := by simp [display]
  rw [h, display_integer] at hletter
  rcases Numeral.isDigit_of_mem_ofInt hletter with hsign | hdigit
  · exact absurd hsign (by decide)
  · exact absurd hdigit (by decide)

theorem IsWord.display_inj (ha : a.IsWord) (hb : b.IsWord) (h : a.display = b.display) : a = b := by
  cases ha with
  | @field name =>
      cases hb with
      | @field other =>
          rw [display, display, String.append_right_inj] at h
          rw [h]
      | integer m => exact absurd h (display_field_ne name m)
  | integer n =>
      cases hb with
      | @field other => exact absurd h.symm (display_field_ne other n)
      | integer m => rw [Int64.toInt_inj.mp (Numeral.ofInt_inj h)]

end Operand

namespace Comparison

theorem symbol_inj {op other : Comparison} (h : op.symbol = other.symbol) : op = other := by
  revert h
  cases op <;> cases other <;> decide

theorem notSpace_of_mem_symbol (op : Comparison) : ∀ c ∈ op.symbol.toList, (c != ' ') = true := by
  cases op <;> exact List.all_eq_true.mp (by decide)

end Comparison

namespace Predicate

/-- Filters over comparisons of fields and integers. -/
inductive Plain : Predicate → Prop where
  | compare {l r : Operand} (op : Comparison) (hl : l.IsWord) (hr : r.IsWord) : Plain (.compare l op r)
  | and {l r : Predicate} (hl : Plain l) (hr : Plain r) : Plain (.and l r)
  | or {l r : Predicate} (hl : Plain l) (hr : Plain r) : Plain (.or l r)
  | not {p : Predicate} (h : Plain p) : Plain (.not p)

/-- Conjunctions are told apart by their parts, which are no conjunctions. -/
def isPart : Predicate → Bool
  | .and _ _ => false
  | _ => true

theorem Plain.conjuncts {p : Predicate} (h : p.Plain) : ∀ c ∈ p.conjuncts, c.Plain ∧ c.isPart = true := by
  induction h with
  | compare op hl hr => exact List.forall_mem_singleton.mpr ⟨.compare op hl hr, rfl⟩
  | and _ _ ihl ihr => exact List.forall_mem_append.mpr ⟨ihl, ihr⟩
  | or hl hr => exact List.forall_mem_singleton.mpr ⟨.or hl hr, rfl⟩
  | not h => exact List.forall_mem_singleton.mpr ⟨.not h, rfl⟩

section Characters

def chars (p : Predicate) : List Char := p.display.toList

theorem chars_and (l r : Predicate) :
    (and l r).chars = l.chars ++ ' ' :: '&' :: '&' :: ' ' :: r.chars := by
  simp only [chars, display, String.toList_append, List.append_assoc]
  rfl

theorem chars_or (l r : Predicate) :
    (or l r).chars = '(' :: (l.chars ++ ' ' :: '|' :: '|' :: ' ' :: (r.chars ++ [')'])) := by
  simp only [chars, display, String.toList_append, List.append_assoc]
  rfl

theorem chars_not (p : Predicate) : (not p).chars = '!' :: '(' :: (p.chars ++ [')']) := by
  simp only [chars, display, String.toList_append, List.append_assoc]
  rfl

theorem chars_compare (l : Operand) (op : Comparison) (r : Operand) :
    (compare l op r).chars =
      l.display.toList ++ ' ' :: (op.symbol.toList ++ ' ' :: r.display.toList) := by
  simp only [chars, display, String.toList_append, List.append_assoc]
  rfl

/-- The parts of a conjunction behind the first one. -/
def behindChars (ds : List Predicate) : List Char := ds.flatMap fun d => ' ' :: '&' :: '&' :: ' ' :: d.chars

theorem behindChars_cons (d : Predicate) (ds : List Predicate) :
    behindChars (d :: ds) = ' ' :: '&' :: '&' :: ' ' :: (d.chars ++ behindChars ds) := by
  rw [behindChars, List.flatMap_cons]
  rfl

theorem chars_of_conjuncts {p c : Predicate} {cs : List Predicate} (h : p.conjuncts = c :: cs) :
    p.chars = c.chars ++ behindChars cs := by
  induction p generalizing c cs with
  | and l r ihl ihr =>
      obtain ⟨d, ds, hl, -⟩ := l.exists_conjuncts
      obtain ⟨e, es, hr, -⟩ := r.exists_conjuncts
      rw [conjuncts, hl, hr, List.cons_append] at h
      obtain ⟨rfl, rfl⟩ := List.cons.inj h
      have happend : behindChars (ds ++ e :: es) = behindChars ds ++ behindChars (e :: es) :=
        List.flatMap_append ..
      rw [chars_and, ihl hl, ihr hr, happend, behindChars_cons, List.append_assoc]
  | or l r | not p | compare l op r =>
      obtain ⟨rfl, rfl⟩ := List.cons.inj h
      exact (List.append_nil _).symm

/-- What is behind a filter in a display, if the filter goes no further. -/
structure Stops (rest : List Char) : Prop where
  ends : Text.Ends Operand.isWordChar rest
  halts : ∀ r, rest ≠ ' ' :: '&' :: r

theorem stops_nil : Stops [] := ⟨Text.ends_nil _, nofun⟩

theorem stops_parenthesis (rest : List Char) : Stops (')' :: rest) :=
  ⟨Text.ends_cons (by decide) _, nofun⟩

theorem stops_bar (rest : List Char) : Stops (' ' :: '|' :: rest) :=
  ⟨Text.ends_cons (by decide) _, fun r h => absurd (List.cons.inj (List.cons.inj h).2).1 (by decide)⟩

theorem Stops.ends_behindChars {s : List Char} (h : Stops s) (ds : List Predicate) :
    Text.Ends Operand.isWordChar (behindChars ds ++ s) := by
  cases ds with
  | nil => exact h.ends
  | cons d ds => rw [behindChars_cons]; exact Text.ends_cons (by decide) _

/-- A filter that goes no further has no parts behind it. -/
theorem Stops.eq_nil {r s : List Char} {ds : List Predicate} (hr : Stops r) (h : r = behindChars ds ++ s) :
    ds = [] := by
  cases ds with
  | nil => rfl
  | cons d ds => exact absurd h (by rw [behindChars_cons]; exact hr.halts _)

end Characters

/-- Where the displays of a filter and of some parts are the same text, up to what is behind them, the
filter has the first of these parts and the others are behind it. -/
def Splits (p : Predicate) : Prop :=
  ∀ (d : Predicate) (ds : List Predicate) (r s : List Char),
    (∀ c ∈ d :: ds, c.Plain ∧ c.isPart = true) → Text.Ends Operand.isWordChar r → Stops s →
    p.chars ++ r = d.chars ++ (behindChars ds ++ s) →
    ∃ front back, d :: ds = front ++ back ∧ List.Forall₂ Regroups p.conjuncts front ∧
      r = behindChars back ++ s

section Splitting

variable {l r p q : Predicate}

/-- A filter that splits is cut off in one way only. -/
theorem Splits.regroups (hp : p.Splits) (hq : q.Plain) {u v : List Char} (hu : Stops u) (hv : Stops v)
    (h : p.chars ++ u = q.chars ++ v) : p.Regroups q ∧ u = v := by
  obtain ⟨d, ds, hparts, -⟩ := q.exists_conjuncts
  rw [chars_of_conjuncts hparts, List.append_assoc] at h
  obtain ⟨front, back, hfront, hregroups, hrest⟩ := hp d ds u v (hparts ▸ hq.conjuncts) hu.ends hv h
  obtain rfl := hu.eq_nil hrest
  rw [List.append_nil] at hfront
  exact ⟨.of_conjuncts (hparts.trans hfront ▸ hregroups), hrest⟩

/-- A conjunction takes up the parts of its left side, and then those of its right side. -/
theorem splits_and (hl : l.Splits) (hr : r.Splits) : (and l r).Splits := by
  intro d ds u s hds hu hs h
  simp only [chars_and, List.append_assoc, List.cons_append] at h
  obtain ⟨front, back, hfront, hregroups, hrest⟩ := hl d ds _ s hds (Text.ends_cons (by decide) _) hs h
  cases back with
  | nil => exact absurd hrest.symm (hs.halts _)
  | cons e es =>
      -- The operator between the two sides is the one in front of the next part.
      rw [behindChars_cons] at hrest
      simp only [List.cons_append, List.append_assoc, List.cons.injEq, true_and] at hrest
      have hes : ∀ c ∈ e :: es, c.Plain ∧ c.isPart = true := fun c hc =>
        hds c (hfront ▸ List.mem_append_right _ hc)
      obtain ⟨others, back, hothers, hmore, hbehind⟩ := hr e es u s hes hu hs hrest
      refine ⟨front ++ others, back, ?_, List.rel_append hregroups hmore, hbehind⟩
      rw [hfront, hothers, List.append_assoc]

/-- A comparison does not begin with a parenthesis or a negation. -/
theorem chars_compare_ne {a b : Operand} {op : Comparison} (ha : a.IsWord) {x : Char}
    (hx : Operand.isWordChar x = false) (u v : List Char) : (compare a op b).chars ++ u ≠ x :: v := by
  obtain ⟨c, cs, hcs, hc⟩ := ha.exists_cons
  rw [chars_compare, hcs]
  intro h
  obtain rfl := (List.cons.inj h).1
  rw [hx] at hc
  cases hc

/-- A comparison is one part, which is cut into its three words at the spaces between them. -/
theorem splits_compare (op : Comparison) {a b : Operand} (ha : a.IsWord) (hb : b.IsWord) :
    (compare a op b).Splits := by
  intro d ds u s hds hu hs h
  obtain ⟨⟨hd, hpart⟩, -⟩ := List.forall_mem_cons.mp hds
  cases hd with
  | and => cases hpart
  | or => rw [chars_or] at h; exact absurd h (chars_compare_ne ha (by decide) _ _)
  | not => rw [chars_not] at h; exact absurd h (chars_compare_ne ha (by decide) _ _)
  | compare other ha' hb' =>
      simp only [chars_compare, List.append_assoc, List.cons_append] at h
      obtain ⟨hleft, hmiddle⟩ := Text.append_inj_of_ends ha.isWordChar ha'.isWordChar
        (Text.ends_cons (by decide) _) (Text.ends_cons (by decide) _) h
      obtain ⟨hsymbol, hend⟩ := Text.append_inj_of_ends op.notSpace_of_mem_symbol
        other.notSpace_of_mem_symbol (Text.ends_cons (by decide) _) (Text.ends_cons (by decide) _)
        (List.cons.inj hmiddle).2
      obtain ⟨hright, hrest⟩ := Text.append_inj_of_ends hb.isWordChar hb'.isWordChar hu
        (hs.ends_behindChars ds) (List.cons.inj hend).2
      obtain rfl := ha.display_inj ha' (String.toList_inj.mp hleft)
      obtain rfl := Comparison.symbol_inj (String.toList_inj.mp hsymbol)
      obtain rfl := hb.display_inj hb' (String.toList_inj.mp hright)
      exact ⟨[_], ds, rfl, .cons (.refl _) .nil, hrest⟩

/-- A disjunction is one part: its sides end at the bar and at the parenthesis. -/
theorem splits_or (hl : l.Splits) (hr : r.Splits) : (or l r).Splits := by
  intro d ds u s hds hu hs h
  obtain ⟨⟨hd, hpart⟩, -⟩ := List.forall_mem_cons.mp hds
  cases hd with
  | and => cases hpart
  | compare op ha hb => rw [chars_or] at h; exact absurd h.symm (chars_compare_ne ha (by decide) _ _)
  | not => rw [chars_or, chars_not] at h; exact absurd (List.cons.inj h).1 (by decide)
  | or hl' hr' =>
      simp only [chars_or, List.append_assoc, List.cons_append, List.nil_append] at h
      obtain ⟨hleft, h⟩ := hl.regroups hl' (stops_bar _) (stops_bar _) (List.cons.inj h).2
      simp only [List.cons.injEq, true_and] at h
      obtain ⟨hright, h⟩ := hr.regroups hr' (stops_parenthesis _) (stops_parenthesis _) h
      exact ⟨[_], ds, rfl, .cons (.or hleft hright) .nil, (List.cons.inj h).2⟩

theorem splits_not (hp : p.Splits) : (not p).Splits := by
  intro d ds u s hds hu hs h
  obtain ⟨⟨hd, hpart⟩, -⟩ := List.forall_mem_cons.mp hds
  cases hd with
  | and => cases hpart
  | compare op ha hb => rw [chars_not] at h; exact absurd h.symm (chars_compare_ne ha (by decide) _ _)
  | or => rw [chars_or, chars_not] at h; exact absurd (List.cons.inj h).1 (by decide)
  | not hq =>
      simp only [chars_not, List.append_assoc, List.cons_append, List.nil_append, List.cons.injEq,
        true_and] at h
      obtain ⟨hinner, h⟩ := hp.regroups hq (stops_parenthesis _) (stops_parenthesis _) h
      exact ⟨[_], ds, rfl, .cons (.not hinner) .nil, (List.cons.inj h).2⟩

theorem Plain.splits (h : p.Plain) : p.Splits := by
  -- The induction is on one of the two filters only, as the other one is given by its parts.
  induction h with
  | compare op hl hr => exact splits_compare op hl hr
  | and _ _ ihl ihr => exact splits_and ihl ihr
  | or _ _ ihl ihr => exact splits_or ihl ihr
  | not _ ih => exact splits_not ih

theorem Plain.regroups (hp : p.Plain) (hq : q.Plain) (h : p.display = q.display) : p.Regroups q := by
  have hchars : p.chars ++ [] = q.chars ++ [] := congrArg (·.toList ++ []) h
  exact (hp.splits.regroups hq stops_nil stops_nil hchars).1

end Splitting

section Errors

variable {p q c d : Predicate} {lead lead' : String}

/-- The first part of a filter that is refused, and what is said in front of its display. -/
def Rejects (p c : Predicate) (lead : String) : Prop :=
  ∃ before after, p.conjuncts = before ++ c :: after ∧ (∀ b ∈ before, ∃ e, b.Equates e) ∧ c.Refused lead

/-- What is said in front of a display is over at its colon. -/
theorem Refused.exists_stem (h : c.Refused lead) :
    ∃ stem : String, lead = stem ++ ": " ∧ ∀ x ∈ stem.toList, (x != ':') = true := by
  cases h with
  | or => exact ⟨"disjunction is not supported", rfl, List.all_eq_true.mp (by decide)⟩
  | not => exact ⟨"negation is not supported", rfl, List.all_eq_true.mp (by decide)⟩
  | operands => exact ⟨"expected a field compared with a literal", rfl, List.all_eq_true.mp (by decide)⟩
  | @operator _ _ op =>
      refine ⟨"operator '" ++ op.symbol ++ "' is not supported", ?_, ?_⟩
      · have hcolon : "' is not supported: " = "' is not supported" ++ ": " := rfl
        simp only [hcolon, String.append_assoc]
      · cases op <;> exact List.all_eq_true.mp (by decide)

/-- An error tells what it shows from what it says in front of that. -/
theorem Refused.said_inj (hc : c.Refused lead) (hd : d.Refused lead')
    (h : lead ++ c.display = lead' ++ d.display) : lead = lead' ∧ c.display = d.display := by
  obtain ⟨stem, rfl, hstem⟩ := hc.exists_stem
  obtain ⟨stem', rfl, hstem'⟩ := hd.exists_stem
  have hcolon : ": ".toList = [':', ' '] := rfl
  have hchars := congrArg String.toList h
  simp only [String.toList_append, List.append_assoc, hcolon, List.cons_append, List.nil_append] at hchars
  obtain ⟨hsaid, hshown⟩ := Text.append_inj_of_ends hstem hstem' (Text.ends_cons (by decide) _)
    (Text.ends_cons (by decide) _) hchars
  simp only [List.cons.injEq, true_and] at hshown
  rw [String.toList_inj.mp hsaid]
  exact ⟨rfl, String.toList_inj.mp hshown⟩

/-- Every integer has a text in a request. -/
theorem Plain.writes (h : p.Plain) (x : Extractor) : x.Writes p.conjuncts := by
  intro c hc e he
  obtain ⟨hplain, -⟩ := h.conjuncts c hc
  cases he with
  | field name v =>
      cases hplain with
      | compare _ _ hr => cases hr; exact ⟨_, rfl⟩
  | reversed name v =>
      cases hplain with
      | compare _ hl _ => cases hl; exact ⟨_, rfl⟩

/-- A filter that does not translate is refused for its first part that does not. -/
theorem Plain.exists_rejects (h : p.Plain) {x : Extractor} {err : QueryError}
    (hx : x.extract p = .error err) :
    ∃ c lead, p.Rejects c lead ∧ err = .unsupportedPredicate (lead ++ c.display) := by
  rw [Extractor.extract, Extractor.collect_eq_foldlM] at hx
  rcases equates_or_firstRefused fun c hc => equates_or_refused (p := p) hc with hall | ⟨first, hfirst⟩
  · obtain ⟨es, hes⟩ := exists_equates_iff.mpr hall
    rw [Extractor.foldlM_of_equates hes (h.writes x)] at hx
    cases hx
  · rw [Extractor.foldlM_of_firstRefused hfirst (h.writes x)] at hx
    obtain ⟨before, c, after, lead, hparts, hbefore, hc, rfl⟩ := hfirst
    exact ⟨c, lead, ⟨before, after, hparts, hbefore, hc⟩, (Except.error.inj hx).symm⟩

theorem Rejects.refused (h : p.Rejects c lead) : c.Refused lead := by
  obtain ⟨-, -, -, -, hc⟩ := h
  exact hc

theorem Rejects.plain (h : p.Rejects c lead) (hp : p.Plain) : c.Plain := by
  obtain ⟨before, after, hparts, -⟩ := h
  exact (hp.conjuncts c (by rw [hparts]; exact List.mem_append_right _ (List.mem_cons_self ..))).1

/-- Filters over comparisons of fields and integers have the same display exactly if they differ in
nothing but the grouping of conjunctions. The same holds of the parts for which two of them are refused
with the same error. -/
theorem display_determines (hp : p.Plain) (hq : q.Plain) :
    (p.display = q.display ↔ p.Regroups q) ∧
    ∀ (x y : Extractor) err, x.extract p = .error err → y.extract q = .error err →
      ∃ c d lead, p.Rejects c lead ∧ q.Rejects d lead ∧
        err = .unsupportedPredicate (lead ++ c.display) ∧ c.Regroups d := by
  refine ⟨⟨hp.regroups hq, Regroups.display_eq⟩, fun x y err hx hy => ?_⟩
  obtain ⟨c, lead, hc, rfl⟩ := hp.exists_rejects hx
  obtain ⟨d, lead', hd, herr⟩ := hq.exists_rejects hy
  obtain ⟨hlead, hshown⟩ := hc.refused.said_inj hd.refused (QueryError.unsupportedPredicate.inj herr)
  subst hlead
  exact ⟨c, d, lead, hc, hd, rfl, (hc.plain hp).regroups (hd.plain hq) hshown⟩

/-- Three filters with a negated disjunction. Two of them group their conjunctions differently and have
one display. In the third the disjunction takes in what the conjunction joins it with in the others. -/
theorem display_determines_negated :
    let a : Predicate := .field "A" .eq (.int 1)
    let b : Predicate := .compare (.literal (.int (-2))) .ge (.field "B2")
    let c : Predicate := .field "C" .lt (.int 3)
    let p : Predicate := .and (.and a b) (.not (.or c a))
    let q : Predicate := .and a (.and b (.not (.or c a)))
    let r : Predicate := .and a (.not (.or (.and b c) a))
    p.Plain ∧ q.Plain ∧ r.Plain ∧ p.display = q.display ∧
      p.display = "it.A == 1 && -2 >= it.B2 && !((it.C < 3 || it.A == 1))" ∧ ¬p.Regroups r := by
  intro a b c p q r
  have ha : a.Plain := .compare _ (.field (by decide) (List.all_eq_true.mp (by decide))) (.integer 1)
  have hb : b.Plain := .compare _ (.integer (-2)) (.field (by decide) (List.all_eq_true.mp (by decide)))
  have hc : c.Plain := .compare _ (.field (by decide) (List.all_eq_true.mp (by decide))) (.integer 3)
  have hp : p.Plain := .and (.and ha hb) (.not (.or hc ha))
  have hq : q.Plain := .and ha (.and hb (.not (.or hc ha)))
  have hr : r.Plain := .and ha (.not (.or (.and hb hc) ha))
  refine ⟨hp, hq, hr, (display_determines hp hq).1.mpr (.rotate ..), by decide +kernel, ?_⟩
  rw [← (display_determines hp hr).1]
  decide +kernel

end Errors

end Predicate

end FeedClient
