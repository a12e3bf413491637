import FeedClient.Query.Folding

/-!
# What folding settles

An operand denotes a value, fails for a reason, or waits for the entity. Folding
keeps a predicate as it is but for its operands: those that wait stay, and all
others become the literals of what they denote. The first one that fails decides
the error, and nothing but an operand of the predicate accounts for it.
-/
namespace FeedClient

/-- Two results under one constructor, the first before the second. -/
theorem pairing_eq_ok_iff {ε α β γ : Type} {x : Except ε α} {y : Except ε β} {f : α → β → γ} {c : γ} :
    (do return f (← x) (← y) : Except ε γ) = .ok c ↔ ∃ a b, x = .ok a ∧ y = .ok b ∧ f a b = c := by
  cases x <;> cases y <;> simp [bind, Except.bind, pure, Except.pure]

theorem pairing_eq_error_iff {ε α β γ : Type} {x : Except ε α} {y : Except ε β} {f : α → β → γ}
    {e : ε} :
    (do return f (← x) (← y) : Except ε γ) = .error e ↔
      x = .error e ∨ (∃ a, x = .ok a) ∧ y = .error e := by
  cases x <;> cases y <;> simp [bind, Except.bind, pure, Except.pure]

namespace Operand

/-- What an operand stands for under captures. A field stands for nothing before the query. -/
inductive Denotes (captures : Captures) : Operand → Value → Prop where
  | literal (v : Value) : Denotes captures (.literal v) v
  | captured {name : String} {v : Value} (h : captures.find? name = some v) :
      Denotes captures (.variable name) v
  | member {target : Operand} {name : String} {v w : Value} (ht : Denotes captures target v)
      (hm : v.member? name = some w) : Denotes captures (.member target name) w
  | computed {c : Computation} {v : Value} (h : c.outcome = .ok v) : Denotes captures (.computed c) v

/-- Why an operand that does not wait for the entity stands for nothing. -/
inductive Fails (captures : Captures) : Operand → QueryError → Prop where
  | unbound {name : String} (h : captures.find? name = none) :
      Fails captures (.variable name) (.unboundVariable name)
  | target {target : Operand} {name : String} {err : QueryError} (h : Fails captures target err) :
      Fails captures (.member target name) err
  | missing {target : Operand} {name : String} {v : Value} (ht : Denotes captures target v)
      (hm : v.member? name = none) :
      Fails captures (.member target name) (.memberNotFound target.display name)
  | computed {c : Computation} {err : QueryError} (h : c.outcome = .error err) :
      Fails captures (.computed c) err

section Inversions

variable {captures : Captures} {name : String} {target : Operand} {c : Computation} {v : Value}
  {err : QueryError}

theorem not_denotes_field : ¬Denotes captures (.field name) v := fun h => by cases h

theorem denotes_literal_iff {w : Value} : Denotes captures (.literal w) v ↔ w = v :=
  ⟨fun h => by cases h; rfl, fun h => h ▸ .literal w⟩

theorem denotes_variable_iff :
    Denotes captures (.variable name) v ↔ captures.find? name = some v :=
  ⟨fun h => by cases h; assumption, .captured⟩

theorem denotes_computed_iff : Denotes captures (.computed c) v ↔ c.outcome = .ok v :=
  ⟨fun h => by cases h; assumption, .computed⟩

theorem denotes_member_iff :
    Denotes captures (.member target name) v ↔
      ∃ w, target.Denotes captures w ∧ w.member? name = some v :=
  ⟨fun h => by cases h with | member ht hm => exact ⟨_, ht, hm⟩, fun ⟨_, ht, hm⟩ => .member ht hm⟩

theorem not_fails_literal : ¬Fails captures (.literal v) err := fun h => by cases h

theorem fails_variable_iff :
    Fails captures (.variable name) err ↔
      captures.find? name = none ∧ err = .unboundVariable name :=
  ⟨fun h => by cases h with | unbound h => exact ⟨h, rfl⟩, fun ⟨h, he⟩ => he ▸ .unbound h⟩

theorem fails_computed_iff : Fails captures (.computed c) err ↔ c.outcome = .error err :=
  ⟨fun h => by cases h; assumption, .computed⟩

theorem fails_member_iff :
    Fails captures (.member target name) err ↔ target.Fails captures err ∨
      ∃ w, target.Denotes captures w ∧ w.member? name = none ∧
        err = .memberNotFound target.display name := by
  constructor
  · intro h
    cases h with
    | target h => exact .inl h
    | missing ht hm => exact .inr ⟨_, ht, hm, rfl⟩
  · rintro (h | ⟨w, ht, hm, rfl⟩)
    · exact .target h
    · exact .missing ht hm

end Inversions

theorem value_eq_ok_iff {captures : Captures} {e : Operand} {v : Value} :
    e.value captures = .ok v ↔ e.Denotes captures v := by
  induction e generalizing v with
  | field name => simp [value, not_denotes_field]
  | literal w => simp [value, denotes_literal_iff]
  | computed c => rw [value, denotes_computed_iff]
  | «variable» name =>
      rw [value, denotes_variable_iff]
      cases captures.find? name <;> simp
  | member target name ih =>
      simp only [value, denotes_member_iff, ← ih]
      cases target.value captures with
      | error err => simp
      | ok w => cases hm : w.member? name <;> simp [hm]

/-- Away from the fields of the entity, the error of an operand has one of its reasons. -/
theorem value_eq_error_iff {captures : Captures} {e : Operand} (he : e.isOpen = false)
    {err : QueryError} : e.value captures = .error err ↔ e.Fails captures err := by
  induction e generalizing err with
  | field name => cases he
  | literal w => simp [value, not_fails_literal]
  | computed c => rw [value, fails_computed_iff]
  | «variable» name =>
      rw [value, fails_variable_iff]
      cases captures.find? name <;> simp [eq_comm]
  | member target name ih =>
      simp only [value, fails_member_iff, ← ih he, ← value_eq_ok_iff]
      cases target.value captures with
      | error e => simp
      | ok w => cases hm : w.member? name <;> simp [hm, eq_comm]

/-- An operand that denotes a value does not wait for the entity. -/
theorem Denotes.isOpen_eq_false {captures : Captures} {e : Operand} {v : Value}
    (h : e.Denotes captures v) : e.isOpen = false := by
  induction h with
  | literal => rfl
  | captured => rfl
  | computed => rfl
  | member _ _ ih => exact ih

theorem Fails.isOpen_eq_false {captures : Captures} {e : Operand} {err : QueryError}
    (h : e.Fails captures err) : e.isOpen = false := by
  induction h with
  | unbound => rfl
  | computed => rfl
  | target _ ih => exact ih
  | missing ht => exact ht.isOpen_eq_false

/-- What folding makes of an operand: one that waits stays, any other becomes the literal of what it
denotes. -/
def SettlesTo (captures : Captures) (e f : Operand) : Prop :=
  (e.isOpen = true ∧ f = e) ∨ ∃ v, e.Denotes captures v ∧ f = .literal v

theorem fold_eq_ok_iff {captures : Captures} {e f : Operand} :
    e.fold captures = .ok f ↔ e.SettlesTo captures f := by
  unfold fold SettlesTo
  cases he : e.isOpen with
  | true =>
      simp only [if_true, Except.ok.injEq, true_and]
      refine ⟨fun h => .inl h.symm, fun h => ?_⟩
      rcases h with h | ⟨v, hv, -⟩
      · exact h.symm
      · rw [hv.isOpen_eq_false] at he; cases he
  | false =>
      simp only [Bool.false_eq_true, if_false, false_and, false_or, ← value_eq_ok_iff]
      cases e.value captures with
      | error err => simp [Except.map]
      | ok v => simp [Except.map, eq_comm]

theorem fold_of_value {captures : Captures} {e : Operand} {v : Value} (h : e.value captures = .ok v) :
    e.fold captures = .ok (.literal v) :=
  fold_eq_ok_iff.mpr (.inr ⟨v, value_eq_ok_iff.mp h, rfl⟩)

theorem fold_eq_error_iff {captures : Captures} {e : Operand} {err : QueryError} :
    e.fold captures = .error err ↔ e.Fails captures err := by
  unfold fold
  cases he : e.isOpen with
  | true =>
      simp only [if_true, reduceCtorEq, false_iff]
      intro h
      rw [h.isOpen_eq_false] at he; cases he
  | false =>
      rw [← value_eq_error_iff he]
      cases e.value captures <;> simp [Except.map]

/-- An operand that folding accepts denotes a value or waits. -/
theorem exists_settlesTo_iff {captures : Captures} {e : Operand} :
    (∃ f, e.SettlesTo captures f) ↔ (e.isOpen = false → ∃ v, e.Denotes captures v) := by
  constructor
  · rintro ⟨f, ⟨he, -⟩ | ⟨v, hv, -⟩⟩ hclosed
    · rw [he] at hclosed; cases hclosed
    · exact ⟨v, hv⟩
  · intro h
    cases he : e.isOpen with
    | true => exact ⟨e, .inl ⟨he, rfl⟩⟩
    | false =>
        obtain ⟨v, hv⟩ := h he
        exact ⟨.literal v, .inr ⟨v, hv, rfl⟩⟩

theorem SettlesTo.isSettled {captures : Captures} {e f : Operand} (h : e.SettlesTo captures f) :
    f.isSettled = true := by
  rcases h with ⟨he, rfl⟩ | ⟨v, -, rfl⟩
  · simp [Operand.isSettled, he]
  · rfl

/-- Settled operands are those that folding leaves alone. -/
theorem settlesTo_self_iff {captures : Captures} {e : Operand} :
    e.SettlesTo captures e ↔ e.isSettled = true := by
  refine ⟨SettlesTo.isSettled, fun h => ?_⟩
  cases e with
  | literal v => exact .inr ⟨v, .literal v, rfl⟩
  | _ => simp_all [SettlesTo, Operand.isSettled, literal?]

/-- An operand and all that its members are taken from. -/
def parts : Operand → List Operand
  | .member target name => .member target name :: target.parts
  | e => [e]

/-- An error that an operand raises itself. -/
def Raises : Operand → QueryError → Prop
  | .variable name, err => err = .unboundVariable name
  | .member target name, err => err = .memberNotFound target.display name
  | .computed c, err => c.outcome = .error err
  | _, _ => False

theorem Fails.exists_raises {captures : Captures} {e : Operand} {err : QueryError}
    (h : e.Fails captures err) : ∃ s ∈ e.parts, s.Raises err := by
  induction h with
  | unbound => exact ⟨_, List.mem_singleton_self _, rfl⟩
  | computed h => exact ⟨_, List.mem_singleton_self _, h⟩
  | missing => exact ⟨_, List.mem_cons_self .., rfl⟩
  | target _ ih =>
      obtain ⟨s, hs, hr⟩ := ih
      exact ⟨s, List.mem_cons_of_mem _ hs, hr⟩

end Operand

namespace Predicate

/-- Predicates that are equal but for their operands, which are related place by place. -/
inductive Pointwise (R : Operand → Operand → Prop) : Predicate → Predicate → Prop where
  | and {l r l' r' : Predicate} (hl : Pointwise R l l') (hr : Pointwise R r r') :
      Pointwise R (.and l r) (.and l' r')
  | or {l r l' r' : Predicate} (hl : Pointwise R l l') (hr : Pointwise R r r') :
      Pointwise R (.or l r) (.or l' r')
  | not {p p' : Predicate} (h : Pointwise R p p') : Pointwise R (.not p) (.not p')
  | compare {l r l' r' : Operand} {op : Comparison} (hl : R l l') (hr : R r r') :
      Pointwise R (.compare l op r) (.compare l' op r')

theorem fold_eq_ok_iff {captures : Captures} {p q : Predicate} :
    p.fold captures = .ok q ↔ Pointwise (Operand.SettlesTo captures) p q := by
  induction p generalizing q with
  | and l r ihl ihr =>
      rw [fold, pairing_eq_ok_iff]
      constructor
      · rintro ⟨l', r', hl, hr, rfl⟩
        exact .and (ihl.mp hl) (ihr.mp hr)
      · rintro (⟨hl, hr⟩ | _)
        exact ⟨_, _, ihl.mpr hl, ihr.mpr hr, rfl⟩
  | or l r ihl ihr =>
      rw [fold, pairing_eq_ok_iff]
      constructor
      · rintro ⟨l', r', hl, hr, rfl⟩
        exact .or (ihl.mp hl) (ihr.mp hr)
      · rintro (_ | ⟨hl, hr⟩)
        exact ⟨_, _, ihl.mpr hl, ihr.mpr hr, rfl⟩
  | not p ih =>
      rw [fold]
      constructor
      · intro h
        cases hp : p.fold captures with
        | error err => simp [hp, bind, Except.bind] at h
        | ok p' =>
            obtain rfl : Predicate.not p' = q := by simpa [hp, bind, Except.bind, pure, Except.pure] using h
            exact .not (ih.mp hp)
      · rintro (_ | _ | h)
        simp [ih.mpr h, bind, Except.bind, pure, Except.pure]
  | compare l op r =>
      rw [fold, pairing_eq_ok_iff]
      simp only [Operand.fold_eq_ok_iff]
      constructor
      · rintro ⟨l', r', hl, hr, rfl⟩
        exact .compare hl hr
      · rintro (_ | _ | _ | ⟨hl, hr⟩)
        exact ⟨_, _, hl, hr, rfl⟩

/-- Folding succeeds as soon as every operand is accepted by itself. -/
theorem exists_pointwise_iff {R : Operand → Operand → Prop} {p : Predicate} :
    (∃ q, Pointwise R p q) ↔ ∀ e ∈ p.operands, ∃ f, R e f := by
  induction p with
  | and l r ihl ihr =>
      simp only [operands, List.forall_mem_append, ← ihl, ← ihr]
      constructor
      · rintro ⟨_, ⟨hl, hr⟩ | _⟩
        exact ⟨⟨_, hl⟩, ⟨_, hr⟩⟩
      · rintro ⟨⟨_, hl⟩, ⟨_, hr⟩⟩
        exact ⟨_, .and hl hr⟩
  | or l r ihl ihr =>
      simp only [operands, List.forall_mem_append, ← ihl, ← ihr]
      constructor
      · rintro ⟨_, _ | ⟨hl, hr⟩⟩
        exact ⟨⟨_, hl⟩, ⟨_, hr⟩⟩
      · rintro ⟨⟨_, hl⟩, ⟨_, hr⟩⟩
        exact ⟨_, .or hl hr⟩
  | not p ih =>
      simp only [operands, ← ih]
      constructor
      · rintro ⟨_, _ | _ | h⟩
        exact ⟨_, h⟩
      · rintro ⟨_, h⟩
        exact ⟨_, .not h⟩
  | compare l op r =>
      simp only [operands, List.forall_mem_cons, List.not_mem_nil, false_imp_iff, implies_true,
        and_true]
      constructor
      · rintro ⟨_, _ | _ | _ | ⟨hl, hr⟩⟩
        exact ⟨⟨_, hl⟩, ⟨_, hr⟩⟩
      · rintro ⟨⟨_, hl⟩, ⟨_, hr⟩⟩
        exact ⟨_, .compare hl hr⟩

/-- Folding settles every operand. -/
theorem Pointwise.isSettled {captures : Captures} {p q : Predicate}
    (h : Pointwise (Operand.SettlesTo captures) p q) : q.isSettled = true := by
  induction h with
  | and _ _ ihl ihr => simp [Predicate.isSettled, ihl, ihr]
  | or _ _ ihl ihr => simp [Predicate.isSettled, ihl, ihr]
  | not _ ih => exact ih
  | compare hl hr => simp [Predicate.isSettled, hl.isSettled, hr.isSettled]

/-- Exactly the settled predicates are left alone, under whatever captures. -/
theorem fold_self_iff {captures : Captures} {p : Predicate} :
    p.fold captures = .ok p ↔ p.isSettled = true := by
  refine ⟨fun h => (fold_eq_ok_iff.mp h).isSettled, fun h => ?_⟩
  rw [fold_eq_ok_iff]
  induction p with
  | and l r ihl ihr =>
      simp only [isSettled, Bool.and_eq_true] at h
      exact .and (ihl h.1) (ihr h.2)
  | or l r ihl ihr =>
      simp only [isSettled, Bool.and_eq_true] at h
      exact .or (ihl h.1) (ihr h.2)
  | not p ih => exact .not (ih h)
  | compare l op r =>
      simp only [isSettled, Bool.and_eq_true] at h
      exact .compare (Operand.settlesTo_self_iff.mpr h.1) (Operand.settlesTo_self_iff.mpr h.2)

/-- The first of some operands that fails, behind others that do not. -/
def FirstFailure (captures : Captures) (es : List Operand) (err : QueryError) : Prop :=
  ∃ before e after, es = before ++ e :: after ∧
    (∀ o ∈ before, o.isOpen = false → ∃ v, o.Denotes captures v) ∧
    e.isOpen = false ∧ e.Fails captures err

theorem firstFailure_append_iff {captures : Captures} {xs ys : List Operand} {err : QueryError} :
    FirstFailure captures (xs ++ ys) err ↔
      FirstFailure captures xs err ∨
        (∀ o ∈ xs, o.isOpen = false → ∃ v, o.Denotes captures v) ∧ FirstFailure captures ys err := by
  constructor
  · rintro ⟨before, e, after, he, hbefore, hfails⟩
    rcases List.append_eq_append_iff.mp he with ⟨cs, rfl, hcs⟩ | ⟨cs, rfl, hcs⟩
    · right
      refine ⟨fun o ho => hbefore o (List.mem_append_left _ ho), cs, e, after, hcs, ?_, hfails⟩
      exact fun o ho => hbefore o (List.mem_append_right _ ho)
    · cases cs with
      | nil =>
          right
          refine ⟨fun o ho => hbefore o (by simpa using ho), [], e, after, hcs.symm, by simp, hfails⟩
      | cons c cs =>
          left
          obtain ⟨rfl, rfl⟩ := List.cons.inj hcs
          exact ⟨before, e, cs, rfl, hbefore, hfails⟩
  · rintro (⟨before, e, after, rfl, hbefore, hfails⟩ | ⟨hxs, before, e, after, rfl, hbefore, hfails⟩)
    · exact ⟨before, e, after ++ ys, by simp, hbefore, hfails⟩
    · refine ⟨xs ++ before, e, after, by simp, fun o ho => ?_, hfails⟩
      rcases List.mem_append.mp ho with ho | ho
      · exact hxs o ho
      · exact hbefore o ho

theorem firstFailure_singleton_iff {captures : Captures} {e : Operand} {err : QueryError} :
    FirstFailure captures [e] err ↔ e.Fails captures err := by
  constructor
  · rintro ⟨before, f, after, he, -, -, hfails⟩
    obtain ⟨-, rfl, -⟩ : before = [] ∧ e = f ∧ after = [] := by
      cases before <;> simp_all
    exact hfails
  · intro h
    exact ⟨[], e, [], rfl, by simp, h.isOpen_eq_false, h⟩

/-- What it takes for a predicate to fold. -/
theorem exists_fold_iff {captures : Captures} {p : Predicate} :
    (∃ q, p.fold captures = .ok q) ↔
      ∀ e ∈ p.operands, e.isOpen = false → ∃ v, e.Denotes captures v := by
  simp only [fold_eq_ok_iff, exists_pointwise_iff, Operand.exists_settlesTo_iff]

/-- The first failing operand from left to right decides the error. -/
theorem fold_eq_error_iff {captures : Captures} {p : Predicate} {err : QueryError} :
    p.fold captures = .error err ↔ FirstFailure captures p.operands err := by
  induction p with
  | and l r ihl ihr =>
      rw [fold, pairing_eq_error_iff, operands, firstFailure_append_iff, ihl, ihr, exists_fold_iff]
  | or l r ihl ihr =>
      rw [fold, pairing_eq_error_iff, operands, firstFailure_append_iff, ihl, ihr, exists_fold_iff]
  | not p ih =>
      rw [operands, ← ih, fold]
      cases p.fold captures <;> simp [bind, Except.bind, pure, Except.pure]
  | compare l op r =>
      rw [fold, pairing_eq_error_iff, operands, show [l, r] = [l] ++ [r] from rfl,
        firstFailure_append_iff, firstFailure_singleton_iff, firstFailure_singleton_iff]
      simp only [Operand.fold_eq_error_iff, Operand.fold_eq_ok_iff, Operand.exists_settlesTo_iff,
        List.mem_singleton, forall_eq]

/-- The operands of a predicate and all that their members are taken from. -/
def parts (p : Predicate) : List Operand := p.operands.flatMap Operand.parts

theorem exists_raises_of_fold {captures : Captures} {p : Predicate} {err : QueryError}
    (h : p.fold captures = .error err) : ∃ s ∈ p.parts, s.Raises err := by
  obtain ⟨before, e, after, he, -, -, hfails⟩ := fold_eq_error_iff.mp h
  obtain ⟨s, hs, hr⟩ := hfails.exists_raises
  exact ⟨s, List.mem_flatMap.mpr ⟨e, by simp [he], hs⟩, hr⟩

/-- Folding is exact. It succeeds if every operand that does not wait denotes a value, and gives the
same tree with the literals of these values. That is settled, and settled predicates are exactly those
that it leaves alone. Otherwise the first failing operand decides the error, which is its own or that
of something it takes a member of; a mismatch of types is never more than a computation's. -/
theorem fold_exact (p : Predicate) (captures : Captures) :
    ((∃ q, p.fold captures = .ok q) ↔
      ∀ e ∈ p.operands, e.isOpen = false → ∃ v, e.Denotes captures v) ∧
    (∀ q, p.fold captures = .ok q ↔ Pointwise (Operand.SettlesTo captures) p q) ∧
    (∀ q, p.fold captures = .ok q →
      q.isSettled = true ∧ ∀ others, q.fold others = .ok q) ∧
    (∀ others, p.fold others = .ok p ↔ p.isSettled = true) ∧
    (∀ err, p.fold captures = .error err ↔ FirstFailure captures p.operands err) ∧
    (∀ err, p.fold captures = .error err → ∃ s ∈ p.parts, s.Raises err) ∧
    ∀ reason, p.fold captures = .error (.typeMismatch reason) →
      ∃ c, .computed c ∈ p.parts ∧ c.outcome = .error (.typeMismatch reason) := by
  refine ⟨exists_fold_iff, fun q => fold_eq_ok_iff, fun q hq => ?_, fun _ => fold_self_iff,
    fun _ => fold_eq_error_iff, fun _ => exists_raises_of_fold, fun reason hr => ?_⟩
  · have hsettled : q.isSettled = true := (fold_eq_ok_iff.mp hq).isSettled
    exact ⟨hsettled, fun _ => fold_self_iff.mpr hsettled⟩
  · obtain ⟨s, hs, hraises⟩ := exists_raises_of_fold hr
    cases s with
    | computed c => exact ⟨c, hs, hraises⟩
    | «variable» name => cases hraises
    | member target name => cases hraises
    | field name => cases hraises
    | literal v => cases hraises

/-- A captured member folds under a negation and next to a field. Without captures its variable is
the first operand to fail, and with them a computation behind it. -/
theorem fold_exact_captured_member :
    let limit : Predicate := .compare (.field "Limit") .eq (.path "page" ["size"])
    let broken : Computation := ⟨"clock", 0, .error (.typeMismatch "no clock")⟩
    let p : Predicate := .or limit (.compare (.computed broken) .ne (.literal .null))
    let captures := Captures.empty.bind "page" (.object [("size", .int 25)])
    let settled : Predicate := .not (.compare (.field "Limit") .eq (.literal (.int 25)))
    ((Predicate.not limit).fold captures = .ok settled ∧ settled.isSettled = true ∧
      settled.fold .empty = .ok settled) ∧
    (p.fold .empty = .error (.unboundVariable "page") ∧
      ∃ s ∈ p.parts, s.Raises (.unboundVariable "page")) ∧
    p.fold captures = .error (.typeMismatch "no clock") ∧
      ∃ c, .computed c ∈ p.parts ∧ c.outcome = .error (.typeMismatch "no clock") := by
  intro limit broken p captures settled
  have hsettled : (Predicate.not limit).fold captures = .ok settled := rfl
  have hempty : p.fold .empty = .error (.unboundVariable "page") := rfl
  have hbound : p.fold captures = .error (.typeMismatch "no clock") := rfl
  obtain ⟨-, -, hok, -⟩ := fold_exact (.not limit) captures
  obtain ⟨-, -, -, -, -, hraises, -⟩ := fold_exact p .empty
  obtain ⟨-, -, -, -, -, -, hmismatch⟩ := fold_exact p captures
  exact ⟨⟨hsettled, (hok _ hsettled).1, (hok _ hsettled).2 .empty⟩, ⟨hempty, hraises _ hempty⟩,
    hbound, hmismatch _ hbound⟩

end Predicate

end FeedClient
