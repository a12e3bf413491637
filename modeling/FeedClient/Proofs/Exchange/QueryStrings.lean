import FeedClient.Proofs.Entity.FieldTables
import FeedClient.Proofs.Text.PercentDecoding
import Mathlib.Data.List.Induction
import Mathlib.Tactic.Tauto

/-!
# Query strings

Pushing keeps one value for each name, the last one, in the place where the name
first came. The query string of a request is read by cutting it at its ampersands,
each part at its equals sign, and decoding what is between. What is read are the
parameters whose values are not blank.
-/
namespace FeedClient

namespace Request

section Pushing

variable {name value n v : String} {ps : List (String × String)}

theorem names_setParameter : (setParameter name value ps).map Prod.fst =
    if name ∈ ps.map Prod.fst then ps.map Prod.fst else ps.map Prod.fst ++ [name] := by
  split
  · rename_i h
    induction ps with
    | nil => cases h
    | cons p ps ih =>
        obtain ⟨m, w⟩ := p
        rw [setParameter]
        by_cases hm : m = name
        · rw [if_pos hm]
          rfl
        · have hrest : name ∈ ps.map Prod.fst := (List.mem_cons.mp h).resolve_left (Ne.symm hm)
          rw [if_neg hm, List.map_cons, ih hrest]
          rfl
  · rename_i h
    rw [setParameter_of_notMem h, List.map_append]
    rfl

theorem nodup_names_setParameter (h : (ps.map Prod.fst).Nodup) :
    ((setParameter name value ps).map Prod.fst).Nodup := by
  rw [names_setParameter]
  split
  · exact h
  · rename_i hmem
    rw [List.nodup_append]
    refine ⟨h, by simp, ?_⟩
    rintro n hn m hm rfl
    exact hmem (List.mem_singleton.mp hm ▸ hn)

theorem eraseDups_concat (names : List String) (name : String) : (names ++ [name]).eraseDups =
    if name ∈ names then names.eraseDups else names.eraseDups ++ [name] := by
  rw [List.eraseDups_append]
  split
  · rename_i h
    have hnone : [name].removeAll names = [] := by simp [List.removeAll, h]
    rw [hnone, List.eraseDups_nil, List.append_nil]
  · rename_i h
    have hone : [name].removeAll names = [name] := by simp [List.removeAll, h]
    rw [hone, List.eraseDups_cons]
    rfl

theorem mem_setParameter (hnames : (ps.map Prod.fst).Nodup) : (n, v) ∈ setParameter name value ps ↔
    (n = name ∧ v = value) ∨ (n ≠ name ∧ (n, v) ∈ ps) := by
  induction ps with
  | nil => simp [setParameter]
  | cons p ps ih =>
      obtain ⟨m, w⟩ := p
      obtain ⟨hm, hrest⟩ := List.nodup_cons.mp hnames
      rw [setParameter]
      by_cases h : m = name
      · subst h
        have hnot : n = m → (n, v) ∉ ps := by
          intro hn hmem
          have hname : n ∈ ps.map Prod.fst := List.mem_map.mpr ⟨(n, v), hmem, rfl⟩
          exact hm (hn ▸ hname)
        simp only [if_true, List.mem_cons, Prod.mk.injEq]
        tauto
      · have hne : n = m → n ≠ name := fun hn => hn ▸ h
        simp only [if_neg h, List.mem_cons, Prod.mk.injEq, ih hrest]
        tauto

theorem parameters_foldl_push (pushes : List (String × String)) (r : Request) :
    (pushes.foldl (fun r p => r.push p.1 p.2) r).parameters =
      pushes.foldl (fun ps p => setParameter p.1 p.2 ps) r.parameters :=
  (List.foldl_hom Request.parameters fun _ _ => rfl).symm

theorem endpoint_foldl_push (pushes : List (String × String)) (r : Request) :
    (pushes.foldl (fun r p => r.push p.1 p.2) r).endpoint = r.endpoint := by
  induction pushes generalizing r with
  | nil => rfl
  | cons p pushes ih => exact ih (r.push p.1 p.2)

/-- What pushes leave. The induction is on the last push. -/
theorem foldl_setParameter_spec (pushes : List (String × String)) :
    let ps := pushes.foldl (fun ps p => setParameter p.1 p.2 ps) []
    (ps.map Prod.fst).Nodup ∧ ps.map Prod.fst = (pushes.map Prod.fst).eraseDups ∧
      ∀ name value, (name, value) ∈ ps ↔ pushes.reverse.lookup name = some value := by
  induction pushes using List.reverseRecOn with
  | nil => simp
  | append_singleton pushes p ih =>
      obtain ⟨name, value⟩ := p
      simp only [List.foldl_append, List.foldl_cons, List.foldl_nil]
      generalize pushes.foldl (fun ps p => setParameter p.1 p.2 ps) [] = ps at ih ⊢
      obtain ⟨hnodup, hnames, hvalues⟩ := ih
      have hvalue : ∀ n v, (n, v) ∈ setParameter name value ps ↔
          (pushes ++ [(name, value)]).reverse.lookup n = some v := by
        intro n v
        rw [mem_setParameter hnodup, hvalues, List.reverse_concat, List.lookup_cons]
        by_cases h : n = name
        · subst h
          simp [eq_comm]
        · have hbeq : (n == name) = false := beq_false_of_ne h
          simp [h, hbeq]
      refine ⟨nodup_names_setParameter hnodup, ?_, hvalue⟩
      rw [names_setParameter, List.map_append, List.map_singleton, eraseDups_concat, hnames]
      simp only [List.mem_eraseDups]

end Pushing

/-- The name and value that stand around the only equals sign of a part. -/
def readPair? (part : List Char) : Option (String × String) :=
  match part.splitOn '=' with
  | [name, value] => do return (← Percent.decode? name, ← Percent.decode? value)
  | _ => none

/-- The names and values of a query string. -/
def readQuery? (query : String) : Option (List (String × String)) :=
  if query = "" then some [] else (query.toList.splitOn '&').mapM readPair?

/-- The characters of query strings: those of encoded text and the two separators. -/
def isQueryChar (c : Char) : Bool := Percent.isEncodedChar c || c == '=' || c == '&'

section Reading

variable {ps : List (String × String)}

theorem notMem_encode {c : Char} (h : Percent.isEncodedChar c = false) (s : String) :
    c ∉ (Percent.encode s).toList := by
  intro hc
  rw [Percent.isEncodedChar_of_mem_encode hc] at h
  cases h

theorem toList_pairText (p : String × String) :
    (pairText p).toList = (Percent.encode p.1).toList ++ '=' :: (Percent.encode p.2).toList := by
  simp [pairText]

theorem ampersand_notMem_pairText (p : String × String) : '&' ∉ (pairText p).toList := by
  have hname := notMem_encode (rfl : Percent.isEncodedChar '&' = false) p.1
  have hvalue := notMem_encode (rfl : Percent.isEncodedChar '&' = false) p.2
  simp [toList_pairText, hname, hvalue]

/-- A name is read back, a blank one as the empty text; so is a value. -/
theorem readPair?_pairText (p : String × String) :
    readPair? (pairText p).toList =
      some (if Text.isBlank p.1 then "" else p.1, if Text.isBlank p.2 then "" else p.2) := by
  have hsplit : (pairText p).toList.splitOn '=' =
      [(Percent.encode p.1).toList, (Percent.encode p.2).toList] := by
    have hjoin : (pairText p).toList =
        ['='].intercalate [(Percent.encode p.1).toList, (Percent.encode p.2).toList] := by
      simp [toList_pairText]
    rw [hjoin]
    apply List.splitOn_intercalate _ _ (List.cons_ne_nil _ _)
    simp only [List.mem_cons, List.not_mem_nil, or_false, forall_eq_or_imp, forall_eq]
    exact ⟨notMem_encode rfl p.1, notMem_encode rfl p.2⟩
  simp only [readPair?, hsplit, Percent.decode?_encode]
  rfl

theorem mapM_readPair? (hvalues : ∀ p ∈ ps, Text.isBlank p.2 = false) :
    (ps.map fun p => (pairText p).toList).mapM readPair? =
      some (ps.map fun p => (if Text.isBlank p.1 then "" else p.1, p.2)) := by
  induction ps with
  | nil => rfl
  | cons p ps ih =>
      obtain ⟨hp, hrest⟩ := List.forall_mem_cons.mp hvalues
      rw [List.map_cons, List.mapM_cons, readPair?_pairText, ih hrest, hp]
      rfl

theorem intercalate_pairText_eq_empty_iff :
    String.intercalate "&" (ps.map pairText) = "" ↔ ps = [] := by
  cases ps with
  | nil => simp
  | cons p ps =>
      have hfirst : pairText p ≠ "" := by
        intro h
        have htext := toList_pairText p
        rw [h] at htext
        simp at htext
      cases ps with
      | nil => simpa using hfirst
      | cons q ps => simp [hfirst]

theorem readQuery?_intercalate (hvalues : ∀ p ∈ ps, Text.isBlank p.2 = false) :
    readQuery? (String.intercalate "&" (ps.map pairText)) =
      some (ps.map fun p => (if Text.isBlank p.1 then "" else p.1, p.2)) := by
  by_cases hps : ps = []
  · subst hps
    rfl
  · have hsplit : (String.intercalate "&" (ps.map pairText)).toList.splitOn '&' =
        ps.map fun p => (pairText p).toList := by
      rw [String.toList_intercalate, List.map_map]
      apply List.splitOn_intercalate '&' _ (by simpa using hps)
      simp only [List.mem_map]
      rintro _ ⟨p, -, rfl⟩
      exact ampersand_notMem_pairText p
    rw [readQuery?, if_neg (mt intercalate_pairText_eq_empty_iff.mp hps), hsplit,
      mapM_readPair? hvalues]

/-- None of the parameters has a blank name or value. -/
def IsVisible (r : Request) : Prop :=
  ∀ p ∈ r.parameters, Text.isBlank p.1 = false ∧ Text.isBlank p.2 = false

theorem IsVisible.readQuery?_queryString {r : Request} (h : r.IsVisible) :
    readQuery? r.queryString = some r.parameters := by
  have hkept : (r.parameters.filter fun p => !Text.isBlank p.2) = r.parameters :=
    List.filter_eq_self.mpr fun p hp => by simp [(h p hp).2]
  have hnamed : (r.parameters.map fun p => (if Text.isBlank p.1 then "" else p.1, p.2)) =
      r.parameters := by
    rw [List.map_congr_left fun p hp => by rw [(h p hp).1]]
    simp
  rw [queryString, hkept, readQuery?_intercalate fun p hp => (h p hp).2, hnamed]

theorem queryString_eq_of_url_eq {r s : Request} (hendpoint : r.endpoint = s.endpoint)
    (h : r.url = s.url) : r.queryString = s.queryString := by
  have hlonger : ∀ text : String, s.endpoint ≠ s.endpoint ++ "?" ++ text := by
    intro text heq
    have hlength := congrArg String.length heq
    have hmark : "?".length = 1 := rfl
    rw [String.length_append, String.length_append, hmark] at hlength
    omega
  rw [url, url, hendpoint] at h
  split at h
  · rename_i hempty
    split at h
    · rename_i hother
      rw [hempty, hother]
    · exact absurd h (hlonger _)
  · split at h
    · exact absurd h.symm (hlonger _)
    · simpa using h

/-- Requests to one endpoint have the same address only if they have the same parameters. -/
theorem IsVisible.parameters_eq_of_url_eq {r s : Request} (hr : r.IsVisible) (hs : s.IsVisible)
    (hendpoint : r.endpoint = s.endpoint) (h : r.url = s.url) : r.parameters = s.parameters := by
  have hsame := hr.readQuery?_queryString
  rw [queryString_eq_of_url_eq hendpoint h, hs.readQuery?_queryString] at hsame
  exact (Option.some.inj hsame).symm

theorem isQueryChar_of_mem_pairText {p : String × String} {c : Char}
    (h : c ∈ (pairText p).toList) : isQueryChar c = true := by
  rw [toList_pairText, List.mem_append, List.mem_cons] at h
  rcases h with h | rfl | h
  · rw [isQueryChar, Percent.isEncodedChar_of_mem_encode h]
    rfl
  · rfl
  · rw [isQueryChar, Percent.isEncodedChar_of_mem_encode h]
    rfl

theorem isQueryChar_of_mem_intercalate {c : Char}
    (h : c ∈ (String.intercalate "&" (ps.map pairText)).toList) : isQueryChar c = true := by
  induction ps with
  | nil => cases h
  | cons p ps ih =>
      cases ps with
      | nil =>
          rw [List.map_singleton, String.intercalate_singleton] at h
          exact isQueryChar_of_mem_pairText h
      | cons q ps =>
          rw [List.map_cons, List.map_cons, String.intercalate_cons_cons, ← List.map_cons,
            String.toList_append, String.toList_append, List.mem_append, List.mem_append] at h
          rcases h with (h | h) | h
          · exact isQueryChar_of_mem_pairText h
          · obtain rfl : c = '&' := by simpa using h
            rfl
          · exact ih h

end Reading

/-- What a new request holds after pushes, and what its query string and address are. -/
theorem query_of_pushes (method : Method) (endpoint : String) (streaming : Bool)
    (pushes : List (String × String)) :
    let r : Request := pushes.foldl (fun r p => r.push p.1 p.2) ⟨method, endpoint, [], streaming⟩
    let pairs := r.parameters.filter fun p => !Text.isBlank p.2
    (r.parameters.map Prod.fst).Nodup ∧
    r.parameters.map Prod.fst = (pushes.map Prod.fst).eraseDups ∧
    (∀ name value, (name, value) ∈ r.parameters ↔ pushes.reverse.lookup name = some value) ∧
    (∀ c ∈ r.queryString.toList, isQueryChar c = true) ∧
    readQuery? r.queryString = some (pairs.map fun p => (if Text.isBlank p.1 then "" else p.1, p.2)) ∧
    (r.queryString = "" ↔ ∀ p ∈ r.parameters, Text.isBlank p.2 = true) ∧
    r.url = (if ∀ p ∈ r.parameters, Text.isBlank p.2 = true then endpoint
      else endpoint ++ "?" ++ r.queryString) := by
  intro r pairs
  have hparameters : r.parameters = pushes.foldl (fun ps p => setParameter p.1 p.2 ps) [] :=
    parameters_foldl_push pushes _
  obtain ⟨hnodup, hnames, hvalues⟩ := foldl_setParameter_spec pushes
  rw [← hparameters] at hnodup hnames hvalues
  have hsaid : ∀ p ∈ pairs, Text.isBlank p.2 = false := by
    intro p hp
    simpa using (List.mem_filter.mp hp).2
  have hempty : r.queryString = "" ↔ ∀ p ∈ r.parameters, Text.isBlank p.2 = true := by
    rw [queryString, intercalate_pairText_eq_empty_iff, List.filter_eq_nil_iff]
    simp
  refine ⟨hnodup, hnames, hvalues, fun c hc => isQueryChar_of_mem_intercalate hc,
    readQuery?_intercalate hsaid, hempty, ?_⟩
  have hendpoint : r.endpoint = endpoint := endpoint_foldl_push pushes _
  rw [url, hendpoint]
  simp only [hempty]

end Request

end FeedClient
