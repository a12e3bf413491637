import FeedClient.Calendar.Timestamp
import FeedClient.Proofs.Calendar.DayCounts
import FeedClient.Proofs.Text.Trimming
import FeedClient.Proofs.Text.WrittenNumbers

/-!
# Instants as they are written

An instant is read back from its written form exactly if its date is one that
instants reach and its nanoseconds are those of a second, or of a second with the
leap second behind it at the end of a minute. Whatever is read is such an instant.
-/
namespace FeedClient.Calendar

/-- The nanoseconds are those of the second, or of a leap second behind the last one of a minute. -/
structure Instant.IsCivil (t : Instant) : Prop where
  date : t.date.isValid = true
  nanos : t.nanos < 2 * billion
  leap : billion ≤ t.nanos → t.seconds % 60 = 59

theorem Instant.isCivil_iff {t : Instant} :
    t.IsCivil ↔ (-262143 ≤ t.date.year ∧ t.date.year ≤ 262142) ∧ t.nanos < 2 * billion ∧
      (billion ≤ t.nanos → t.seconds % 60 = 59) := by
  have hdate : t.date.isValid = true ↔ -262143 ≤ t.date.year ∧ t.date.year ≤ 262142 :=
    Date.isValid_ofDays_iff
  rw [← hdate]
  exact ⟨fun h => ⟨h.date, h.nanos, h.leap⟩, fun ⟨hvalid, hnanos, hleap⟩ => ⟨hvalid, hnanos, hleap⟩⟩

instance (t : Instant) : Decidable t.IsCivil := decidable_of_iff' _ Instant.isCivil_iff

namespace Timestamp

section Components

variable {ds rest : List Char} {c : Char}

theorem trimStart_digits (h : Numeral.AreDigits ds) : Text.trimStart (ds ++ rest) = ds ++ rest := by
  cases ds with
  | nil => exact absurd rfl h.1
  | cons d ds => exact Text.trimStart_cons (Numeral.isSpace_of_isDigit (h.2 d (List.mem_cons_self ..))) _

theorem number?_digits {width : Nat} (h : Numeral.AreDigits ds) (hwidth : ds.length ≤ width)
    (hc : Numeral.isDigit c = false) :
    number? width (ds ++ c :: rest) = some (Numeral.value 0 ds, c :: rest) := by
  have hstop : ((c :: rest).take (width - ds.length)).takeWhile Numeral.isDigit = [] := by
    cases width - ds.length with
    | zero => rfl
    | succ n => rw [List.take_succ_cons, List.takeWhile_cons_of_neg (by simp [hc])]
  have htake : ((ds ++ c :: rest).take width).takeWhile Numeral.isDigit = ds := by
    rw [List.take_append, List.take_of_length_le hwidth, List.takeWhile_append_of_pos h.2, hstop,
      List.append_nil]
  have hsome : ds.isEmpty = false := by simp [h.1]
  simp only [number?, htake, hsome, Bool.false_eq_true, if_false, List.drop_left]

theorem component?_twoDigits {n : Nat} (hn : n < 100) (hc : Numeral.isDigit c = false) :
    component? (twoDigits n ++ c :: rest) = some (n, c :: rest) := by
  have hdigits := Numeral.areDigits_padded 2 n
  rw [component?, twoDigits, trimStart_digits hdigits,
    number?_digits hdigits (Nat.le_of_eq (Numeral.length_padded (by decide) hn)) hc,
    Numeral.value_padded]

theorem expect?_cons (hc : Text.isSpace c = false) : expect? c (c :: rest) = some rest := by
  rw [expect?, Text.trimStart_cons hc]
  simp

/-- A year of four digits has no sign, any other one has. -/
theorem year?_yearText (year : Int) (hc : Numeral.isDigit c = false) :
    year? (yearText year ++ c :: rest) = some (year, c :: rest) := by
  have hdigits := Numeral.areDigits_padded 4 year.natAbs
  have hsigned : number? (Numeral.padded '0' 4 year.natAbs ++ c :: rest).length
      (Numeral.padded '0' 4 year.natAbs ++ c :: rest) = some (year.natAbs, c :: rest) := by
    rw [number?_digits hdigits (by simp) hc, Numeral.value_padded]
  unfold yearText
  split
  · rename_i hyear
    have hfour : (Numeral.padded '0' 4 year.natAbs).length = 4 :=
      Numeral.length_padded (by decide) (by have : Nat.pow 10 4 = 10000 := rfl; omega)
    have hread : number? 4 (Numeral.padded '0' 4 year.natAbs ++ c :: rest) =
        some (year.natAbs, c :: rest) := by
      rw [number?_digits hdigits (Nat.le_of_eq hfour) hc, Numeral.value_padded]
    cases hpadded : Numeral.padded '0' 4 year.natAbs with
    | nil => exact absurd hpadded hdigits.1
    | cons d ds =>
        rw [hpadded] at hdigits hread
        obtain ⟨hplus, hminus⟩ := hdigits.head_ne
        unfold year?
        split
        · rename_i heq
          exact absurd (List.cons.inj heq).1 hminus
        · rename_i heq
          exact absurd (List.cons.inj heq).1 hplus
        · rw [hread, Option.map_some]
          simp only [Option.some.injEq, Prod.mk.injEq, and_true]
          omega
  · split
    · rw [List.cons_append, year?, hsigned, Option.map_some]
      simp only [Option.some.injEq, Prod.mk.injEq, and_true]
      omega
    · rw [List.cons_append, year?, hsigned, Option.map_some]
      simp only [Option.some.injEq, Prod.mk.injEq, and_true]
      omega

theorem trimStart_yearText (year : Int) :
    Text.trimStart (yearText year ++ rest) = yearText year ++ rest := by
  have hdigits := Numeral.areDigits_padded 4 year.natAbs
  unfold yearText
  split
  · exact trimStart_digits hdigits
  · split <;> exact Text.trimStart_cons rfl _

theorem fraction?_padded {n width : Nat} (hwidth : 0 < width) (hnine : width ≤ 9)
    (hn : n < Nat.pow 10 width) :
    fraction? ('.' :: Numeral.padded '0' width n ++ ['Z']) =
      some (n * Nat.pow 10 (9 - width), ['Z']) := by
  have hlength := Numeral.length_padded hwidth hn
  obtain ⟨hne, hdigits⟩ := Numeral.areDigits_padded width n
  have htake : ((Numeral.padded '0' width n ++ ['Z']).take 9).takeWhile Numeral.isDigit =
      Numeral.padded '0' width n := by
    have hstop : (['Z'].take (9 - width)).takeWhile Numeral.isDigit = [] := by
      cases 9 - width <;> rfl
    rw [List.take_append, List.take_of_length_le (by omega), List.takeWhile_append_of_pos hdigits,
      hlength, hstop, List.append_nil]
  have hdrop : (Numeral.padded '0' width n ++ ['Z']).dropWhile Numeral.isDigit = ['Z'] := by
    rw [List.dropWhile_append_of_pos hdigits]
    rfl
  have hsome : (Numeral.padded '0' width n).isEmpty = false := by simp [hne]
  simp only [List.cons_append, fraction?, htake, hdrop, hsome, Bool.false_eq_true, if_false,
    Numeral.value_padded, hlength]

theorem fraction?_fractionText {n : Nat} (hn : n < billion) :
    fraction? (fractionText n ++ ['Z']) = some (n, ['Z']) := by
  have h3 : Nat.pow 10 3 = 1000 := rfl
  have h6 : Nat.pow 10 6 = 1000000 := rfl
  have h9 : Nat.pow 10 9 = 1000000000 := rfl
  have hbillion : billion = 1000000000 := rfl
  unfold fractionText
  split
  · rename_i hzero
    rw [hzero]
    rfl
  · split
    · rw [fraction?_padded (by decide) (by decide) (by omega)]
      simp only [Option.some.injEq, Prod.mk.injEq, and_true, h6]
      omega
    · split
      · rw [fraction?_padded (by decide) (by decide) (by omega)]
        simp only [Option.some.injEq, Prod.mk.injEq, and_true, h3]
        omega
      · rw [fraction?_padded (by decide) (by decide) (by omega)]
        simp

theorem fractionText_append (n : Nat) :
    ∃ c rest, fractionText n ++ ['Z'] = c :: rest ∧ Numeral.isDigit c = false := by
  unfold fractionText
  split
  · exact ⟨'Z', [], rfl, rfl⟩
  · split
    · exact ⟨'.', _, rfl, rfl⟩
    · split <;> exact ⟨'.', _, rfl, rfl⟩

end Components

theorem date?_dateText {d : Date} (h : d.isValid = true) (rest : List Char) :
    date? (dateText d ++ 'T' :: rest) = some (d, 'T' :: rest) := by
  have hvalid := h
  simp only [Date.isValid, Bool.and_eq_true, decide_eq_true_eq] at hvalid
  obtain ⟨⟨⟨-, hmonth⟩, -⟩, hday⟩ := hvalid
  have hlength : daysInMonth d.year d.month ≤ 31 := by
    unfold daysInMonth
    split
    · split <;> omega
    · split <;> omega
  simp only [date?, dateText, List.append_assoc, List.cons_append, trimStart_yearText,
    Option.bind_eq_bind, year?_yearText d.year (rfl : Numeral.isDigit '-' = false),
    Option.bind_some, expect?_cons (rfl : Text.isSpace '-' = false),
    component?_twoDigits (by omega : d.month < 100) (rfl : Numeral.isDigit '-' = false),
    component?_twoDigits (by omega : d.day < 100) (rfl : Numeral.isDigit 'T' = false), h, if_true]

theorem secondOfDay_lt (t : Instant) : t.secondOfDay < 86400 := by
  rw [Instant.secondOfDay, Int.fmod_eq_emod_of_nonneg _ (by decide)]
  omega

/-- The clock is read as the second of the day and the nanoseconds, a leap second included. -/
theorem clock?_clockText {t : Instant} (h : t.IsCivil) :
    clock? (clockText t ++ (fractionText t.fraction ++ ['Z'])) =
      some (t.secondOfDay, t.nanos, ['Z']) := by
  have hday := secondOfDay_lt t
  have hbillion : billion = 1000000000 := rfl
  have hnanos := h.nanos
  have hlast : billion ≤ t.nanos → t.secondOfDay % 60 = 59 := by
    have hleap := h.leap
    rw [Instant.secondOfDay, Int.fmod_eq_emod_of_nonneg _ (by decide)]
    omega
  simp only [hbillion] at hnanos hlast
  obtain ⟨c, rest, hrest, hc⟩ := fractionText_append t.fraction
  have hhour : t.hour < 24 := by rw [Instant.hour]; omega
  have hminute : t.minute < 60 := by rw [Instant.minute]; omega
  have hsecond : t.second ≤ 60 := by rw [Instant.second, hbillion]; omega
  have hfraction : t.fraction < billion := Nat.mod_lt _ (by decide)
  have hread := fraction?_fractionText hfraction
  rw [hrest] at hread
  simp only [clock?, clockText, List.append_assoc, List.cons_append, hrest, Option.bind_eq_bind,
    component?_twoDigits (by omega : t.hour < 100) (rfl : Numeral.isDigit ':' = false),
    component?_twoDigits (by omega : t.minute < 100) (rfl : Numeral.isDigit ':' = false),
    component?_twoDigits (by omega : t.second < 100) hc, Option.bind_some,
    expect?_cons (rfl : Text.isSpace ':' = false), hread]
  rw [if_pos (by omega)]
  by_cases hsixty : t.second = 60
  · rw [if_pos hsixty]
    simp only [Instant.second, Instant.hour, Instant.minute, Instant.fraction, hbillion,
      Option.some.injEq, Prod.mk.injEq, and_true] at hsixty ⊢
    omega
  · rw [if_neg hsixty]
    simp only [Instant.second, Instant.hour, Instant.minute, Instant.fraction, hbillion,
      Option.some.injEq, Prod.mk.injEq, and_true] at hsixty ⊢
    omega

theorem read?_zulu {t : Instant} (h : t.IsCivil) : read? t.zulu = some t := by
  have hdays := Date.toDays_ofDays (t.seconds.fdiv 86400)
  have hdate : t.date.isValid = true := h.date
  have hinstant : (⟨t.date.toDays * 86400 + t.secondOfDay - 0 * 60, t.nanos⟩ : Instant) = t := by
    obtain ⟨seconds, nanos⟩ := t
    simp only [Instant.mk.injEq, and_true, Instant.date, hdays, Instant.secondOfDay]
    rw [Int.fmod_eq_emod_of_nonneg _ (by decide), Int.fdiv_eq_ediv_of_nonneg _ (by decide)]
    omega
  have hchars : t.zulu.toList =
      dateText t.date ++ 'T' :: (clockText t ++ (fractionText t.fraction ++ ['Z'])) := by
    simp [Instant.zulu, Instant.stem]
  simp only [read?, hchars, Option.bind_eq_bind, date?_dateText hdate, Option.bind_some, separator?,
    clock?_clockText h]
  have hoffset : offset? (Text.trimStart ['Z']) = some (0, []) := rfl
  simp only [hoffset, Option.bind_some, List.all_nil, if_true, hinstant, hdate]

section Reading

/-- The digits of a fraction that count are nine at most. -/
theorem scaled_lt {ds : List Char} (hdigits : ∀ c ∈ ds, Numeral.isDigit c = true)
    (hnine : ds.length ≤ 9) : Numeral.value 0 ds * Nat.pow 10 (9 - ds.length) < billion := by
  have hvalue : Numeral.value 0 ds < Nat.pow 10 ds.length := Numeral.value_lt hdigits
  have hpow : Nat.pow 10 ds.length * Nat.pow 10 (9 - ds.length) = Nat.pow 10 9 := by
    have h9 : ds.length + (9 - ds.length) = 9 := by omega
    calc Nat.pow 10 ds.length * Nat.pow 10 (9 - ds.length)
        = Nat.pow 10 (ds.length + (9 - ds.length)) := (Nat.pow_add ..).symm
      _ = Nat.pow 10 9 := by rw [h9]
  calc Numeral.value 0 ds * Nat.pow 10 (9 - ds.length)
      < Nat.pow 10 ds.length * Nat.pow 10 (9 - ds.length) :=
        Nat.mul_lt_mul_of_pos_right hvalue (Nat.pow_pos (by decide))
    _ = billion := hpow

theorem fraction?_lt {cs rest : List Char} {n : Nat} (h : fraction? cs = some (n, rest)) :
    n < billion := by
  unfold fraction? at h
  split at h
  · rename_i cs
    simp only at h
    split at h
    · cases h
    · obtain ⟨rfl, -⟩ := Prod.mk.inj (Option.some.inj h)
      have hdigits := fun c hc =>
        List.all_eq_true.mp (List.all_takeWhile (p := Numeral.isDigit) (l := cs.take 9)) c hc
      have hspan := (List.takeWhile_sublist (l := cs.take 9) Numeral.isDigit).length_le
      exact scaled_lt hdigits (Nat.le_trans hspan (List.length_take_le ..))
  · obtain ⟨rfl, -⟩ := Prod.mk.inj (Option.some.inj h)
    decide

/-- Only the last second of a minute is read with a leap second behind it. -/
theorem clock?_spec {cs rest : List Char} {second nanos : Nat}
    (h : clock? cs = some (second, nanos, rest)) :
    nanos < 2 * billion ∧ (billion ≤ nanos → second % 60 = 59) := by
  simp only [clock?, Option.bind_eq_bind, Option.bind_eq_some_iff, Prod.exists] at h
  obtain ⟨hour, _, -, _, -, minute, _, -, _, -, written, _, -, fraction, _, hfraction, h⟩ := h
  have hlt := fraction?_lt hfraction
  split at h
  · split at h
    · simp only [Option.some.injEq, Prod.mk.injEq] at h
      omega
    · simp only [Option.some.injEq, Prod.mk.injEq] at h
      omega
  · cases h

theorem isCivil_of_read? {s : String} {t : Instant} (h : read? s = some t) : t.IsCivil := by
  simp only [read?, Option.bind_eq_bind, Option.bind_eq_some_iff, Prod.exists] at h
  obtain ⟨date, _, -, _, -, second, nanos, _, hclock, offset, _, -, h⟩ := h
  obtain ⟨hnanos, hleap⟩ := clock?_spec hclock
  split at h
  · split at h
    · rename_i hvalid
      obtain rfl := Option.some.inj h
      exact ⟨hvalid, hnanos, fun hbillion => by have := hleap hbillion; simp only; omega⟩
    · cases h
  · cases h

end Reading

/-- The instants that are read back from their written form. -/
theorem read?_zulu_iff {t : Instant} : read? t.zulu = some t ↔ t.IsCivil :=
  ⟨isCivil_of_read?, read?_zulu⟩

end Timestamp

end FeedClient.Calendar
