import Caseload.Instant.Printer
import Caseload.Instant.Reader
import Caseload.Proofs.Sort.Total
import Caseload.Proofs.Text.Digits

/-!
# Printed instants

Reading undoes printing (`ofText?_toText`), for every instant: leap seconds, fractions of any
precision and years of up to six digits on either side of the year zero.  Each part of the text is
read by itself, whatever comes after it.
-/

namespace Caseload.Instant

open Caseload.Text (NoDigit noDigit_cons padded spanDigits spanDigits_append trimFront)

variable {rest : List Char}

/-! ## Numbers and marks -/

theorem isBlank_of_isDigit {c : Char} (digit : c.isDigit = true) : Text.isBlank c = false := by
  have bounds : 48 ≤ c.toNat ∧ c.toNat ≤ 57 := by
    simpa [Char.isDigit, UInt32.le_iff_toNat_le, ← Char.toNat_val] using digit
  simp [Text.isBlank]
  omega

theorem trimFront_cons {c : Char} (mark : Text.isBlank c = false) :
    trimFront (c :: rest) = c :: rest :=
  List.dropWhile_cons_of_neg (by simp [mark])

theorem mark?_cons {c : Char} (mark : Text.isBlank c = false) :
    mark? c (c :: rest) = some rest := by
  simp [mark?, trimFront_cons mark]

theorem trimFront_append {digits : List Char} (nonempty : digits ≠ [])
    (each : ∀ c ∈ digits, c.isDigit = true) : trimFront (digits ++ rest) = digits ++ rest := by
  obtain ⟨c, more, rfl⟩ := List.exists_cons_of_ne_nil nonempty
  exact trimFront_cons (isBlank_of_isDigit (each c List.mem_cons_self))

theorem padded_ne_nil {width : Nat} (positive : 0 < width) (n : Nat) : padded width n ≠ [] := by
  rw [← List.length_pos_iff, Text.length_padded]
  exact positive

theorem number?_padded {width n : Nat} (positive : 0 < width) (fits : n < 10 ^ width) :
    number? width (padded width n ++ rest) = some (n, rest) := by
  have each : ∀ c ∈ padded width n, c.isDigit = true := fun _ => Text.isDigit_of_mem_padded
  rw [number?, trimFront_append (padded_ne_nil positive n) each,
    spanDigits_append each (.inl (Text.length_padded width n))]
  have value := Text.value_padded_of_lt fits
  cases digits : padded width n with
  | nil => exact absurd digits (padded_ne_nil positive n)
  | cons c more =>
    rw [digits] at value
    simp [value]

/-- Two digits, as months, days, hours, minutes and seconds have them. -/
theorem number?_two {n : Nat} (fits : n < 100) :
    number? 2 (padded 2 n ++ rest) = some (n, rest) :=
  number?_padded (by omega) (by omega)

/-! ## Dates -/

/-- The digits of a year are those of its magnitude, four of them or more. -/
theorem exists_yearDigits_eq {magnitude : Nat} (bound : magnitude ≤ 262143) :
    ∃ width, 0 < width ∧ yearDigits magnitude = padded width magnitude ∧ magnitude < 10 ^ width ∧
      (magnitude < 10000 → width = 4) := by
  unfold yearDigits
  split
  next small => exact ⟨4, by omega, rfl, by omega, fun _ => rfl⟩
  next =>
    split
    next => exact ⟨5, by omega, rfl, by omega, fun _ => by omega⟩
    next => exact ⟨6, by omega, rfl, by omega, fun _ => by omega⟩

/-- A year without a sign is a number of four digits. -/
theorem year?_of_isDigit {c : Char} (digit : c.isDigit = true) :
    year? (c :: rest) = (number? 4 (c :: rest)).map fun x => ((x.1 : Int), x.2) := by
  rw [year?, trimFront_cons (isBlank_of_isDigit digit)]
  split
  next same =>
    cases (List.cons_eq_cons.mp same).1
    cases digit
  next same =>
    cases (List.cons_eq_cons.mp same).1
    cases digit
  next => rfl

/-- After a sign the digits go on as long as there are any. -/
theorem exists_spanDigits_eq {width n : Nat} (positive : 0 < width) (fits : n < 10 ^ width)
    (ended : NoDigit rest) :
    ∃ c more, spanDigits (padded width n ++ rest).length (padded width n ++ rest) =
      (c :: more, rest) ∧ Text.value (c :: more) = n := by
  have spanned : spanDigits (padded width n ++ rest).length (padded width n ++ rest) =
      (padded width n, rest) :=
    spanDigits_append (fun _ => Text.isDigit_of_mem_padded) (.inr ⟨by simp, ended⟩)
  obtain ⟨c, more, digits⟩ := List.exists_cons_of_ne_nil (padded_ne_nil positive n)
  have value := Text.value_padded_of_lt fits
  rw [digits] at spanned value ⊢
  exact ⟨c, more, spanned, value⟩

theorem year?_minus {width n : Nat} (positive : 0 < width) (fits : n < 10 ^ width)
    (ended : NoDigit rest) :
    year? ('-' :: (padded width n ++ rest)) = some (-(n : Int), rest) := by
  obtain ⟨c, more, spanned, value⟩ := exists_spanDigits_eq positive fits ended
  have front : trimFront ('-' :: (padded width n ++ rest)) = '-' :: (padded width n ++ rest) :=
    trimFront_cons rfl
  rw [year?, front]
  simp only [spanned, value]

theorem year?_plus {width n : Nat} (positive : 0 < width) (fits : n < 10 ^ width)
    (ended : NoDigit rest) :
    year? ('+' :: (padded width n ++ rest)) = some ((n : Int), rest) := by
  obtain ⟨c, more, spanned, value⟩ := exists_spanDigits_eq positive fits ended
  have front : trimFront ('+' :: (padded width n ++ rest)) = '+' :: (padded width n ++ rest) :=
    trimFront_cons rfl
  rw [year?, front]
  simp only [spanned, value]

theorem year?_padded {n : Nat} (fits : n < 10 ^ 4) :
    year? (padded 4 n ++ rest) = some ((n : Int), rest) := by
  obtain ⟨c, more, digits⟩ := List.exists_cons_of_ne_nil (@padded_ne_nil 4 (by omega) n)
  have digit : c.isDigit = true := Text.isDigit_of_mem_padded (digits ▸ List.mem_cons_self)
  have read := @number?_padded rest 4 n (by omega) fits
  rw [digits, List.cons_append] at read ⊢
  rw [year?_of_isDigit digit, read, Option.map_some]

theorem year?_printYear {year : Int} (low : -262143 ≤ year) (high : year ≤ 262142)
    (ended : NoDigit rest) : year? (printYear year ++ rest) = some (year, rest) := by
  obtain ⟨width, positive, digits, fits, short⟩ := @exists_yearDigits_eq year.natAbs (by omega)
  rw [printYear, digits]
  split
  next negative =>
    have signed : -(year.natAbs : Int) = year := by omega
    rw [List.cons_append, year?_minus positive fits ended, signed]
  next nonnegative =>
    have unsigned : (year.natAbs : Int) = year := by omega
    split
    next few =>
      obtain rfl := short (by omega)
      rw [year?_padded fits, unsigned]
    next =>
      rw [List.cons_append, year?_plus positive fits ended, unsigned]

theorem date?_printDate (d : Date) : date? (printDate d ++ rest) = some (d, rest) := by
  obtain ⟨-, month, -, day⟩ := d.isDate.bounds
  obtain ⟨low, high, -, -⟩ := d.isDate
  have minus : NoDigit ('-' :: (padded 2 d.month ++ ('-' :: (padded 2 d.day ++ rest)))) :=
    noDigit_cons rfl
  have text : printDate d ++ rest =
      printYear d.year ++ ('-' :: (padded 2 d.month ++ ('-' :: (padded 2 d.day ++ rest)))) := by
    simp [printDate]
  have mark (cs : List Char) : mark? '-' ('-' :: cs) = some cs := mark?_cons rfl
  have date : Date.ofParts? d.year d.month d.day = some d := dif_pos d.isDate
  rw [text, date?, year?_printYear low high minus]
  simp [mark, number?_two (show d.month < 100 by omega), number?_two (show d.day < 100 by omega),
    date]

/-! ## Times -/

theorem fraction?_padded {width n : Nat} (positive : 0 < width) (most : width ≤ 9)
    (fits : n < 10 ^ width) (ended : NoDigit rest) :
    fraction? ('.' :: (padded width n ++ rest)) = some (n * 10 ^ (9 - width), rest) := by
  have spanned : spanDigits 9 (padded width n ++ rest) = (padded width n, rest) :=
    spanDigits_append (fun _ => Text.isDigit_of_mem_padded)
      (.inr ⟨by rwa [Text.length_padded], ended⟩)
  have kept : rest.dropWhile Char.isDigit = rest := by
    cases rest with
    | nil => rfl
    | cons c rest => exact List.dropWhile_cons_of_neg (by simp [ended c rfl])
  have value := Text.value_padded_of_lt fits
  have length := Text.length_padded width n
  have nonempty := padded_ne_nil positive n
  rw [fraction?, spanned]
  generalize padded width n = digits at *
  cases digits with
  | nil => exact absurd rfl nonempty
  | cons c more =>
    simp only [value, length, kept]
    rfl

theorem fraction?_printFraction {nano : Nat} (small : nano < nanosPerSecond)
    (ended : NoDigit rest) (noPoint : ∀ c ∈ rest.head?, c ≠ '.') :
    fraction? (printFraction nano ++ rest) = some (nano, rest) := by
  rw [nanosPerSecond] at small
  unfold printFraction
  split
  next none =>
    subst none
    rw [List.nil_append]
    unfold fraction?
    split
    next => exact absurd rfl (noPoint '.' rfl)
    next => rfl
  next =>
    split
    next millis =>
      rw [List.cons_append, fraction?_padded (by omega) (by omega) (by omega) ended]
      simp
      omega
    next =>
      split
      next micros =>
        rw [List.cons_append, fraction?_padded (by omega) (by omega) (by omega) ended]
        simp
        omega
      next => rw [List.cons_append, fraction?_padded (by omega) (by omega) (by omega) ended]; simp

theorem time?_printTime {second nano : Nat} (isTime : IsTimeOfDay second nano)
    (ended : NoDigit rest) (noPoint : ∀ c ∈ rest.head?, c ≠ '.') :
    time? (printTime second nano ++ rest) = some (second, nano, rest) := by
  obtain ⟨inDay, inSecond, leap⟩ := isTime
  simp only [secondsPerDay, nanosPerSecond] at inDay inSecond leap
  have mark (cs : List Char) : mark? ':' (':' :: cs) = some cs := mark?_cons rfl
  have fraction := @fraction?_printFraction rest (nano % nanosPerSecond)
    (Nat.mod_lt _ (by decide)) ended noPoint
  have text : printTime second nano ++ rest =
      padded 2 (second / 3600) ++ (':' :: (padded 2 (second / 60 % 60) ++ (':' ::
        (padded 2 (second % 60 + nano / nanosPerSecond) ++
          (printFraction (nano % nanosPerSecond) ++ rest))))) := by
    simp [printTime]
  rw [text, time?]
  simp only [nanosPerSecond] at fraction ⊢
  simp only [number?_two (show second / 3600 < 100 by omega),
    number?_two (show second / 60 % 60 < 100 by omega),
    number?_two (show second % 60 + nano / 1000000000 < 100 by omega), mark, fraction,
    Option.bind_eq_bind, Option.bind_some]
  rw [if_pos (by omega)]
  -- the fraction is below a second, and a leap second is the one printed as 60
  split
  next sixty =>
    simp only [Option.some.injEq, Prod.mk.injEq, and_true]
    omega
  next below =>
    simp only [Option.some.injEq, Prod.mk.injEq, and_true]
    omega

/-! ## Instants -/

theorem ofLocal?_universal (i : Instant) : ofLocal? i.date i.second i.nano 0 = some i := by
  have inDay := i.isTime.1
  have parts : ofParts? i.date i.second i.nano = some i := dif_pos i.isTime
  have universal : (i.second : Int) - 60 * 0 = i.second := by omega
  simp only [ofLocal?, universal]
  rw [if_neg (by omega), if_pos (by omega), Int.toNat_natCast, parts]

/-- The parts of a text in turn; what they leave at the end is blank. -/
theorem ofText?_of_parts {s : String} {d : Date} {second nano : Nat} {ahead : Int}
    {afterDate time afterTime ending : List Char} (date : date? s.toList = some (d, afterDate))
    (between : between? afterDate = some time)
    (timeOfDay : time? time = some (second, nano, afterTime))
    (zone : zone? (trimFront afterTime) = some (ahead, ending)) (blank : trimFront ending = []) :
    ofText? s = ofLocal? d second nano ahead := by
  rw [ofText?, date]
  simp only [between, timeOfDay, zone, blank, Option.bind_eq_bind, Option.bind_some, if_true]

theorem ofText?_toText (i : Instant) : ofText? i.toText = some i := by
  have text : i.toText.toList =
      printDate i.date ++ ('T' :: (printTime i.second i.nano ++ ['Z'])) := by
    simp [toText]
  have time := @time?_printTime ['Z'] _ _ i.isTime (noDigit_cons rfl) (by simp)
  have zone : zone? (trimFront ['Z']) = some (0, []) := by
    rw [trimFront_cons rfl]
    rfl
  rw [ofText?_of_parts (text ▸ date?_printDate i.date) rfl time zone rfl]
  exact ofLocal?_universal i

end Caseload.Instant
