import FeedClient.Text.Entries
import Mathlib.Data.List.Induction
import Mathlib.Data.List.Nodup
import Mathlib.Data.String.Basic

/-!
# The order of insertions

Two insertions under different names commute, so entries put in under distinct
names are the same in whatever order they are put in. Insertions keep the order of
the names, in which no name comes twice.
-/
namespace FeedClient.Entries

theorem insert_comm {α : Type} {n m : String} (h : n ≠ m) (a b : α) (entries : List (String × α)) :
    insert n a (insert m b entries) = insert m b (insert n a entries) := by
  induction entries with
  | nil => grind [insert]
  | cons e rest ih =>
      obtain ⟨k, c⟩ := e
      -- The entry in front stands before, at or behind each of the two names.
      grind [insert]

theorem ofPairs_eq_of_perm {α : Type} {ps qs : List (String × α)} (h : ps.Perm qs)
    (hnames : (ps.map Prod.fst).Nodup) : ofPairs ps = ofPairs qs := by
  unfold ofPairs
  apply h.foldl_eq'
  intro p hp q hq entries
  by_cases hpq : p.1 = q.1
  · rw [List.inj_on_of_nodup_map hnames hp hq hpq]
  · exact insert_comm (Ne.symm hpq) _ _ entries

/-- Entries in the order of their names, each name once. -/
def Ordered {α : Type} (entries : List (String × α)) : Prop := entries.Pairwise fun p q => p.1 < q.1

theorem mem_names_insert {α : Type} {name n : String} {a : α} {entries : List (String × α)} :
    n ∈ (insert name a entries).map Prod.fst ↔ n = name ∨ n ∈ entries.map Prod.fst := by
  induction entries with
  | nil => simp [insert]
  | cons e rest ih =>
      obtain ⟨k, b⟩ := e
      simp only [insert]
      split
      · rename_i h; subst h; simp
      · split
        · simp
        · rw [List.map_cons, List.mem_cons, ih, List.map_cons, List.mem_cons]
          exact or_left_comm

theorem Ordered.insert {α : Type} {entries : List (String × α)} (h : Ordered entries) (name : String)
    (a : α) : Ordered (insert name a entries) := by
  induction entries with
  | nil => exact List.pairwise_singleton ..
  | cons e rest ih =>
      obtain ⟨k, b⟩ := e
      obtain ⟨hk, hrest⟩ := List.pairwise_cons.mp h
      simp only [Entries.insert]
      split
      · rename_i hname
        subst hname
        exact List.pairwise_cons.mpr ⟨hk, hrest⟩
      · rename_i hne
        split
        · rename_i hlt
          refine List.pairwise_cons.mpr ⟨fun p hp => ?_, h⟩
          rcases List.mem_cons.mp hp with rfl | hp
          · exact hlt
          · exact lt_trans hlt (hk p hp)
        · rename_i hnlt
          have hkn : k < name := lt_of_le_of_ne (not_lt.mp hnlt) (Ne.symm hne)
          refine List.pairwise_cons.mpr ⟨fun p hp => ?_, ih hrest⟩
          rcases mem_names_insert.mp (List.mem_map_of_mem hp) with hp | hp
          · exact hp ▸ hkn
          · obtain ⟨q, hq, hqp⟩ := List.mem_map.mp hp
            exact hqp ▸ hk q hq

/-- An ordered list has the entries that looking up finds. -/
theorem Ordered.mem_iff {α : Type} {entries : List (String × α)} (h : Ordered entries)
    {name : String} {a : α} : (name, a) ∈ entries ↔ find? name entries = some a := by
  induction entries with
  | nil => simp [find?]
  | cons e rest ih =>
      obtain ⟨k, b⟩ := e
      obtain ⟨hk, hrest⟩ := List.pairwise_cons.mp h
      rw [find?, List.mem_cons]
      split
      · rename_i hname
        subst hname
        have hnot : (k, a) ∉ rest := fun hmem => lt_irrefl k (hk _ hmem)
        simp [hnot, eq_comm]
      · rename_i hname
        rw [← ih hrest]
        simp [Ne.symm hname]

/-- Ordered lists with the same entries are the same. -/
theorem Ordered.ext {α : Type} {entries others : List (String × α)} (h : Ordered entries)
    (ho : Ordered others) (hmem : ∀ e, e ∈ entries ↔ e ∈ others) : entries = others := by
  have hperm : entries.Perm others :=
    (List.perm_ext_iff_of_nodup (h.imp fun hlt => by rintro rfl; exact lt_irrefl _ hlt)
      (ho.imp fun hlt => by rintro rfl; exact lt_irrefl _ hlt)).mpr hmem
  exact hperm.eq_of_pairwise (fun p q _ _ hpq hqp => absurd hpq (lt_asymm hqp)) h ho

theorem Ordered.nodup_names {α : Type} {entries : List (String × α)} (h : Ordered entries) :
    (entries.map Prod.fst).Nodup := List.pairwise_map.mpr (h.imp fun hlt => hlt.ne)

section Putting

variable {α : Type} {name : String} {a : α} {entries pairs : List (String × α)}

theorem mem_of_mem_insert {e : String × α} (h : e ∈ insert name a entries) :
    e = (name, a) ∨ e ∈ entries := by
  induction entries with
  | nil => exact .inl (List.mem_singleton.mp h)
  | cons d rest ih => grind [insert]

theorem insert_of_lt (h : ∀ e ∈ entries, e.1 < name) : insert name a entries = entries ++ [(name, a)] := by
  induction entries with
  | nil => rfl
  | cons e rest ih =>
      have hlt : e.1 < name := h e (List.mem_cons_self ..)
      rw [insert, if_neg hlt.ne', if_neg (not_lt_of_gt hlt),
        ih fun d hd => h d (List.mem_cons_of_mem _ hd), List.cons_append]

theorem ofPairs_append_singleton (pairs : List (String × α)) (p : String × α) :
    ofPairs (pairs ++ [p]) = insert p.1 p.2 (ofPairs pairs) := List.foldl_append ..

theorem mem_of_mem_ofPairs {e : String × α} (h : e ∈ ofPairs pairs) : e ∈ pairs := by
  induction pairs using List.reverseRecOn with
  | nil => exact h
  | append_singleton pairs p ih =>
      rw [ofPairs_append_singleton] at h
      rcases mem_of_mem_insert h with h | h
      · exact List.mem_append_right _ (List.mem_singleton.mpr h)
      · exact List.mem_append_left _ (ih h)

theorem ordered_ofPairs (pairs : List (String × α)) : Ordered (ofPairs pairs) := by
  induction pairs using List.reverseRecOn with
  | nil => exact List.Pairwise.nil
  | append_singleton pairs p ih =>
      rw [ofPairs_append_singleton]
      exact ih.insert ..

/-- Entries that are in order stay as they are. -/
theorem Ordered.ofPairs_eq (h : Ordered pairs) : ofPairs pairs = pairs := by
  induction pairs using List.reverseRecOn with
  | nil => rfl
  | append_singleton pairs p ih =>
      obtain ⟨hpairs, -, hlast⟩ := List.pairwise_append.mp h
      rw [ofPairs_append_singleton, ih hpairs]
      exact insert_of_lt fun e he => hlast e he p (List.mem_singleton_self p)

theorem find?_append (name : String) (entries others : List (String × α)) :
    find? name (entries ++ others) = (find? name entries).or (find? name others) := by
  induction entries with
  | nil => rfl
  | cons e rest ih =>
      rw [List.cons_append, find?, find?, ih]
      split <;> rfl

theorem find?_eq_none_iff : find? name entries = none ↔ name ∉ entries.map Prod.fst := by
  induction entries with
  | nil => simp [find?]
  | cons e rest ih =>
      rw [find?]
      split
      · rename_i h
        simp [h]
      · rename_i h
        simp [ih, Ne.symm h]

/-- Under distinct names everything that is put in is found. -/
theorem find?_ofPairs (h : (pairs.map Prod.fst).Nodup) (name : String) :
    find? name (ofPairs pairs) = find? name pairs := by
  induction pairs using List.reverseRecOn with
  | nil => rfl
  | append_singleton pairs p ih =>
      rw [List.map_append, List.nodup_append] at h
      obtain ⟨hpairs, -, hlast⟩ := h
      rw [ofPairs_append_singleton, find?_insert, find?_append, ih hpairs]
      split
      · rename_i hname
        have hnew : find? name pairs = none := find?_eq_none_iff.mpr fun hmem =>
          hlast name hmem p.1 (by simp) hname.symm
        rw [hnew, Option.none_or, find?, if_pos hname]
      · rename_i hname
        rw [find?, if_neg hname, find?, Option.or_none]

/-- Of the values that are put in under a name the last one is found. -/
theorem find?_ofPairs_eq_last (pairs : List (String × α)) (name : String) :
    find? name (ofPairs pairs) = ((pairs.filter fun p => p.1 = name).getLast?).map Prod.snd := by
  induction pairs using List.reverseRecOn with
  | nil => rfl
  | append_singleton pairs p ih =>
      rw [ofPairs_append_singleton, find?_insert, ih, List.filter_append]
      by_cases hname : p.1 = name
      · simp [hname]
      · simp [hname]

/-- Where some of a list give values under their names, the last value of a name is found. -/
theorem find?_ofPairs_filterMap {β : Type} (key : β → String) (value? : β → Option α) (bs : List β)
    (name : String) :
    find? name (ofPairs (bs.filterMap fun b => (value? b).map (key b, ·))) =
      ((bs.filter fun b => key b = name).filterMap value?).getLast? := by
  have hunder : ((bs.filterMap fun b => (value? b).map (key b, ·)).filter fun p => p.1 = name).map
      Prod.snd = (bs.filter fun b => key b = name).filterMap value? := by
    induction bs with
    | nil => rfl
    | cons b bs ih =>
        by_cases hname : key b = name
        · cases hvalue : value? b <;> simp [hname, hvalue, ih]
        · cases hvalue : value? b <;> simp [hname, hvalue, ih]
  rw [find?_ofPairs_eq_last, ← List.getLast?_map, hunder]

theorem find?_ofPairs_filterMap_eq_some_iff {β : Type} {key : β → String} {value? : β → Option α}
    {bs : List β} :
    find? name (ofPairs (bs.filterMap fun b => (value? b).map (key b, ·))) = some a ↔
      ∃ before b after, bs = before ++ b :: after ∧ key b = name ∧ value? b = some a ∧
        ∀ c ∈ after, key c = name → value? c = none := by
  rw [find?_ofPairs_filterMap, List.filterMap_filter, List.getLast?_eq_some_iff]
  simp only [decide_eq_true_eq]
  constructor
  · rintro ⟨earlier, h⟩
    obtain ⟨before, later, rfl, -, hlater⟩ := List.filterMap_eq_append_iff.mp h
    obtain ⟨between, b, after, rfl, -, hb, hafter⟩ := List.filterMap_eq_cons_iff.mp hlater
    obtain ⟨hname, hvalue⟩ := Option.ite_none_right_eq_some.mp hb
    refine ⟨before ++ between, b, after, by rw [List.append_assoc], hname, hvalue, fun c hc hkey => ?_⟩
    simpa [hkey] using List.filterMap_eq_nil_iff.mp hafter c hc
  · rintro ⟨before, b, after, rfl, hname, hvalue, hafter⟩
    have hnothing : after.filterMap (fun c => if key c = name then value? c else none) = [] := by
      refine List.filterMap_eq_nil_iff.mpr fun c hc => ?_
      split
      · exact hafter c hc ‹_›
      · rfl
    refine ⟨before.filterMap fun c => if key c = name then value? c else none, ?_⟩
    rw [List.filterMap_append, List.filterMap_cons, if_pos hname, hvalue, hnothing]

theorem mem_ofPairs_of_find? (h : (pairs.map Prod.fst).Nodup) (ha : find? name pairs = some a) :
    (name, a) ∈ ofPairs pairs := by
  rw [(ordered_ofPairs pairs).mem_iff, find?_ofPairs h]
  exact ha

end Putting

end FeedClient.Entries
