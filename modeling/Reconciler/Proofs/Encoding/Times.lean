import Mathlib.Algebra.Group.Nat.Defs
import Reconciler.Proofs.Encoding.Calendar
import Reconciler.Time.Text

set_option autoImplicit false

namespace Reconciler.Timestamp

structure Numeral (n : Nat) (digits : List Char) : Prop where
  nonempty : digits ≠ []
  each : ∀ c ∈ digits, c.isDigit = true
  value : Nat.ofDigitChars 10 digits 0 = n

def Parts (cs : List Char) : Prop :=
  ∀ c, cs.head? = some c → c.isDigit = false

section

variable {n width most : Nat} {digits cs : List Char} {c : Char}

theorem isBlank_of_isDigit (digit : c.isDigit = true) : Text.isBlank c = false := by
  have bounds : 48 ≤ c.toNat ∧ c.toNat ≤ 57 := by
    simpa [Char.isDigit, UInt32.le_iff_toNat_le] using digit
  simp [Text.isBlank]
  omega

theorem trimStart_of_not_blank (shown : Text.isBlank c = false) : Text.trimStart (c :: cs) = c :: cs := by
  simp [Text.trimStart, shown]

theorem Numeral.head (numeral : Numeral n digits) : ∃ c rest, digits = c :: rest ∧ c.isDigit = true := by
  obtain ⟨c, rest, rfl⟩ := List.exists_cons_of_ne_nil numeral.nonempty
  exact ⟨c, rest, rfl, numeral.each c List.mem_cons_self⟩

theorem Numeral.trimStart (numeral : Numeral n digits) : Text.trimStart (digits ++ cs) = digits ++ cs := by
  obtain ⟨c, rest, rfl, digit⟩ := numeral.head
  exact trimStart_of_not_blank (isBlank_of_isDigit digit)

theorem toList_toString (n : Nat) : (toString n).toList = Nat.toDigits 10 n := by
  rw [Nat.toString_eq_ofList_toDigits, String.toList_ofList]

theorem numeral_padded (width n : Nat) : Numeral n (padded width n) where
  nonempty := by simp [padded, Nat.toDigits_ne_nil]
  each := by
    intro c member
    rw [padded, toList_toString] at member
    rcases List.mem_append.mp member with zero | digit
    · rw [List.eq_of_mem_replicate zero]
      rfl
    · exact Nat.isDigit_of_mem_toDigits (by decide) (by decide) digit
  value := by
    rw [padded, toList_toString, Nat.ofDigitChars_append, Nat.ofDigitChars_replicate_zero, Nat.mul_zero,
      Nat.ofDigitChars_ten_toDigits]

theorem length_padded (wide : 0 < width) (small : n < 10 ^ width) : (padded width n).length = width := by
  have fits := (Nat.length_toDigits_le_iff (by decide) wide).mpr small
  simp only [padded, toList_toString, List.length_append, List.length_replicate]
  omega

theorem more_digits (each : ∀ c ∈ digits, c.isDigit = true) (fits : digits.length ≤ most)
    (ends : digits.length = most ∨ Parts cs) (value : Nat) :
    readDigits?.more most value (digits ++ cs) = (Nat.ofDigitChars 10 digits value, cs) := by
  induction digits generalizing most value with
  | nil =>
      rw [List.nil_append, Nat.ofDigitChars_nil]
      cases most with
      | zero => rfl
      | succ most =>
          rcases ends with full | apart
          · simp at full
          · cases cs with
            | nil => rfl
            | cons c cs => simp [readDigits?.more, apart c rfl]
  | cons c rest ih =>
      cases most with
      | zero => simp at fits
      | succ most =>
          have digit := each c List.mem_cons_self
          have later := ih (fun d member => each d (List.mem_cons_of_mem c member)) (by simpa using fits)
            (by simpa using ends) (value * 10 + (c.toNat - 48))
          simp only [List.cons_append, readDigits?.more, digit, if_true, later, Nat.ofDigitChars_cons, Nat.mul_comm]
          rfl

theorem readDigits?_numeral (numeral : Numeral n digits) (fits : digits.length ≤ most)
    (ends : digits.length = most ∨ Parts cs) : readDigits? most (digits ++ cs) = some (n, cs) := by
  obtain ⟨c, rest, rfl, digit⟩ := numeral.head
  cases most with
  | zero => simp at fits
  | succ most =>
      have later : readDigits?.more most (c.toNat - 48) (rest ++ cs) =
          (Nat.ofDigitChars 10 rest (c.toNat - 48), cs) :=
        more_digits (fun d member => numeral.each d (List.mem_cons_of_mem c member)) (by simpa using fits)
          (by simpa using ends) (c.toNat - 48)
      have value := numeral.value
      rw [Nat.ofDigitChars_cons] at value
      simp only [List.cons_append, readDigits?, digit, if_true, later, Option.some.injEq, Prod.mk.injEq, and_true]
      simpa using value

theorem readPart?_padded (small : n < 100) : readPart? 2 (padded 2 n ++ cs) = some (n, cs) := by
  have length : (padded 2 n).length = 2 := length_padded (by decide) small
  rw [readPart?, (numeral_padded 2 n).trimStart]
  exact readDigits?_numeral (numeral_padded 2 n) (Nat.le_of_eq length) (.inl length)

theorem skipMark?_self (shown : Text.isBlank c = false) : skipMark? c (c :: cs) = some cs := by
  simp [skipMark?, trimStart_of_not_blank shown]

theorem readYear?_of_digit (digit : c.isDigit = true) :
    readYear? (c :: cs) = (readDigits? 4 (c :: cs)).map fun (n, rest) => ((n : Int), rest) := by
  unfold readYear?
  rw [trimStart_of_not_blank (isBlank_of_isDigit digit)]
  split
  · rename_i same
    obtain ⟨rfl, _⟩ := List.cons.inj same
    exact absurd digit (by decide)
  · rename_i same
    obtain ⟨rfl, _⟩ := List.cons.inj same
    exact absurd digit (by decide)
  · rfl

theorem readYear?_yearText (year : Int) (apart : Parts cs) : readYear? (yearText year ++ cs) = some (year, cs) := by
  unfold yearText
  split
  · have numeral := numeral_padded 4 year.toNat
    have length : (padded 4 year.toNat).length = 4 := length_padded (by decide) (by omega)
    have read : readDigits? 4 (padded 4 year.toNat ++ cs) = some (year.toNat, cs) :=
      readDigits?_numeral numeral (Nat.le_of_eq length) (.inl length)
    obtain ⟨c, rest, same, digit⟩ := numeral.head
    rw [same] at read ⊢
    rw [List.cons_append, readYear?_of_digit digit, ← List.cons_append, read]
    simp only [Option.map_some, Option.some.injEq, Prod.mk.injEq, and_true]
    omega
  · have read : readDigits? (padded 4 year.natAbs ++ cs).length (padded 4 year.natAbs ++ cs) =
        some (year.natAbs, cs) :=
      readDigits?_numeral (numeral_padded 4 year.natAbs) (by simp) (.inr apart)
    by_cases negative : year < 0
    · simp only [negative, if_true, List.cons_append, readYear?]
      rw [trimStart_of_not_blank (by decide)]
      simp only [read, Option.map_some, Option.some.injEq, Prod.mk.injEq, and_true]
      omega
    · simp only [negative, if_false, List.cons_append, readYear?]
      rw [trimStart_of_not_blank (by decide)]
      simp only [read, Option.map_some, Option.some.injEq, Prod.mk.injEq, and_true]
      omega

theorem dropWhile_isDigit (apart : Parts cs) : cs.dropWhile Char.isDigit = cs := by
  cases cs with
  | nil => rfl
  | cons c cs => simp [apart c rfl]

theorem readFraction?_padded (wide : 0 < width) (narrow : width ≤ 9) (small : n < 10 ^ width) (apart : Parts cs) :
    readFraction? ('.' :: padded width n ++ cs) = some (n * 10 ^ (9 - width), cs) := by
  have length := length_padded wide small
  have read : readDigits? 9 (padded width n ++ cs) = some (n, cs) :=
    readDigits?_numeral (numeral_padded width n) (by omega) (.inr apart)
  simp [readFraction?, read, length, dropWhile_isDigit apart]

theorem readFraction?_fractionText {nano : Nat} (small : nano < 10 ^ 9) (apart : Parts cs)
    (whole : cs.head? ≠ some '.') : readFraction? (fractionText nano ++ cs) = some (nano, cs) := by
  unfold fractionText
  split
  · rename_i none
    cases cs with
    | nil => simp [readFraction?, none]
    | cons c cs =>
        have other : c ≠ '.' := by simpa using whole
        simp [readFraction?, none, other]
  · split
    · rw [readFraction?_padded (by decide) (by decide) (by omega) apart]
      simp only [Option.some.injEq, Prod.mk.injEq, and_true]
      omega
    · split
      · rw [readFraction?_padded (by decide) (by decide) (by omega) apart]
        simp only [Option.some.injEq, Prod.mk.injEq, and_true]
        omega
      · rw [readFraction?_padded (by decide) (by decide) (by omega) apart]
        simp

theorem skipTimeMark?_self : skipTimeMark? ('T' :: cs) = some cs := rfl

theorem readDate?_dateText {date : Date} (there : date.Exists) :
    readDate? (dateText date ++ cs) = some (date, cs) := by
  obtain ⟨_, month, _, day⟩ := there
  have day : date.day < 100 := by
    refine Nat.lt_of_le_of_lt day ?_
    unfold Date.daysInMonth
    repeat' split
    all_goals decide
  have year : Parts ('-' :: (padded 2 date.month ++ '-' :: (padded 2 date.day ++ cs))) := by simp [Parts]
  simp only [readDate?, dateText, List.append_assoc, List.cons_append, readYear?_yearText _ year,
    skipMark?_self (c := '-') (by decide), readPart?_padded (show date.month < 100 by omega), readPart?_padded day,
    Option.bind_eq_bind, Option.bind_some, Option.pure_def]

end

theorem shown_cases (t : Timestamp) :
    (t.secondOfMinute = 60 ∧ t.second % 60 = 59 ∧ t.fraction + Duration.perSecond = t.nano) ∨
      (t.secondOfMinute = t.second % 60 ∧ t.fraction = t.nano) ∧ t.nano < Duration.perSecond := by
  obtain ⟨-, -, -, -, leap⟩ := id t.valid
  by_cases late : Duration.perSecond ≤ t.nano
  · have minute := leap late
    simp only [secondOfMinute, fraction, inLeapSecond, late, decide_true, if_true]
    omega
  · refine .inr ⟨?_, Nat.lt_of_not_le late⟩
    simp [secondOfMinute, fraction, inLeapSecond, late]

theorem fraction_lt (t : Timestamp) : t.fraction < 10 ^ 9 := by
  obtain ⟨-, -, -, fine, -⟩ := id t.valid
  unfold Duration.perSecond at fine
  rcases t.shown_cases with ⟨-, -, more⟩ | ⟨⟨-, same⟩, less⟩
  · unfold Duration.perSecond at more
    omega
  · unfold Duration.perSecond at less
    omega

theorem secondOfMinute_le (t : Timestamp) : t.secondOfMinute ≤ 60 := by
  rcases t.shown_cases with ⟨same, -, -⟩ | ⟨⟨same, -⟩, -⟩ <;> omega

theorem ofLocal?_shown (t : Timestamp) :
    ofLocal? (Date.ofNumber t.day) (t.second / 3600) (t.second / 60 % 60) t.secondOfMinute t.fraction 0 = some t := by
  obtain ⟨first, last, within, -, -⟩ := id t.valid
  have bound := t.secondOfMinute_le
  have second : (if t.secondOfMinute = 60 then 59 else t.secondOfMinute) = t.second % 60 := by
    rcases t.shown_cases with ⟨same, minute, -⟩ | ⟨⟨same, -⟩, -⟩ <;> split <;> omega
  have nano : (if t.secondOfMinute = 60 then t.fraction + Duration.perSecond else t.fraction) = t.nano := by
    rcases t.shown_cases with ⟨same, -, more⟩ | ⟨⟨same, equal⟩, -⟩ <;> split <;> omega
  unfold ofLocal?
  rw [Date.number_ofNumber, if_pos ⟨Date.exists_ofNumber t.day, by omega, by omega, bound, by decide, by decide,
    first, last⟩]
  simp only [second, nano, secondsPerDay]
  have total : ((t.second / 3600 : Nat) : Int) * 3600 + ((t.second / 60 % 60 : Nat) : Int) * 60 +
      ((t.second % 60 : Nat) : Int) - 0 = t.second := by omega
  have day : t.day + (t.second : Int) / 86400 = t.day := by omega
  have rest : ((t.second : Int) % 86400).toNat = t.second := by omega
  rw [total, day, rest, of?, dif_pos t.valid]

def cut (t : Timestamp) : Timestamp where
  day := t.day
  second := t.second
  nano := if Duration.perSecond ≤ t.nano then Duration.perSecond else 0
  valid := by
    obtain ⟨first, last, within, _, leap⟩ := id t.valid
    refine ⟨first, last, within, ?_, ?_⟩
    · split <;> decide
    · split
      · exact fun _ => leap ‹_›
      · exact fun late => absurd late (by decide)

theorem inLeapSecond_cut (t : Timestamp) : t.cut.inLeapSecond = t.inLeapSecond := by
  have some : ¬Duration.perSecond ≤ 0 := by decide
  by_cases late : Duration.perSecond ≤ t.nano <;> simp [inLeapSecond, cut, late, some]

theorem renderSeconds_eq (t : Timestamp) : t.renderSeconds = t.cut.render := by
  have whole : t.cut.wholeText = t.wholeText := by
    rw [wholeText, secondOfMinute, inLeapSecond_cut]
    rfl
  have none : t.cut.fraction = 0 := by
    rw [fraction, inLeapSecond_cut]
    by_cases late : Duration.perSecond ≤ t.nano <;> simp [inLeapSecond, cut, late]
  rw [renderSeconds, render, whole, none]
  simp [fractionText]

theorem parse?_render (t : Timestamp) : parse? t.render = some t := by
  obtain ⟨-, -, within, -, -⟩ := id t.valid
  have second := Nat.lt_of_le_of_lt t.secondOfMinute_le (by decide : 60 < 100)
  have fraction : readFraction? (fractionText t.fraction ++ ['Z']) = some (t.fraction, ['Z']) :=
    readFraction?_fractionText t.fraction_lt (by simp [Parts]) (by simp)
  have text : t.render.toList = dateText (Date.ofNumber t.day) ++ 'T' :: (padded 2 (t.second / 3600) ++
      ':' :: (padded 2 (t.second / 60 % 60) ++ ':' :: (padded 2 t.secondOfMinute ++
        (fractionText t.fraction ++ ['Z'])))) := by
    simp [render, wholeText]
  rw [parse?, text]
  -- Each reader takes its part of the text, and leaves the rest to the next.
  refine Option.bind_eq_some_iff.mpr ⟨_, readDate?_dateText (Date.exists_ofNumber t.day), ?_⟩
  refine Option.bind_eq_some_iff.mpr ⟨_, skipTimeMark?_self, ?_⟩
  refine Option.bind_eq_some_iff.mpr ⟨_, readPart?_padded (by omega), ?_⟩
  refine Option.bind_eq_some_iff.mpr ⟨_, skipMark?_self (by decide), ?_⟩
  refine Option.bind_eq_some_iff.mpr ⟨_, readPart?_padded (by omega), ?_⟩
  refine Option.bind_eq_some_iff.mpr ⟨_, skipMark?_self (by decide), ?_⟩
  refine Option.bind_eq_some_iff.mpr ⟨_, readPart?_padded second, ?_⟩
  refine Option.bind_eq_some_iff.mpr ⟨_, fraction, ?_⟩
  refine Option.bind_eq_some_iff.mpr ⟨(0, []), by decide, ?_⟩
  exact ofLocal?_shown t

end Reconciler.Timestamp
