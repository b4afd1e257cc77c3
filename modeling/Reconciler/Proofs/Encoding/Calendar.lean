import Reconciler.Time.Date

set_option autoImplicit false

namespace Reconciler.Date

def daysBefore (year : Int) : Int :=
  year * 365 + year / 4 - year / 100

def yearOfDay (day : Int) : Int :=
  (day - day / 1460 + day / 36524 - day / 146096) / 365

theorem le_daysInMonth {year : Int} {month day : Nat} (most : day ≤ 31)
    (short : month = 4 ∨ month = 6 ∨ month = 9 ∨ month = 11 → day ≤ 30)
    (february : month = 2 → day ≤ 28 ∨ day = 29 ∧ isLeap year = true) : day ≤ daysInMonth year month := by
  unfold daysInMonth
  split
  · rcases february rfl with within | ⟨rfl, leap⟩
    · split <;> omega
    · simp [leap]
  all_goals first | exact short (by simp) | exact most

section

variable {day : Int} (first : 0 ≤ day) (last : day < eraDays)

include first last

theorem yearOfDay_bounds : 0 ≤ yearOfDay day ∧ yearOfDay day < 400 := by
  unfold yearOfDay
  unfold eraDays at last
  omega

theorem century_eq : yearOfDay day / 100 = day / 36524 - day / 146096 := by
  unfold yearOfDay
  unfold eraDays at last
  have quarters : day / 36524 ≤ day / 1460 := by omega
  -- With the century known, all else is linear.
  rcases (by omega : day / 36524 = 0 ∨ day / 36524 = 1 ∨ day / 36524 = 2 ∨ day / 36524 = 3 ∨ day / 36524 = 4) with
    c | c | c | c | c <;> omega

theorem quarter_bounds : yearOfDay day / 4 ≤ day / 1460 ∧ day / 1460 ≤ yearOfDay day / 4 + 1 := by
  unfold yearOfDay
  unfold eraDays at last
  omega

theorem daysBefore_le : daysBefore (yearOfDay day) ≤ day := by
  have centuries := century_eq first last
  have quarters := quarter_bounds first last
  have year : yearOfDay day = (day - day / 1460 + day / 36524 - day / 146096) / 365 := rfl
  unfold daysBefore
  omega

theorem le_daysBefore : day ≤ daysBefore (yearOfDay day) + 365 := by
  have centuries := century_eq first last
  have quarters := quarter_bounds first last
  have year : yearOfDay day = (day - day / 1460 + day / 36524 - day / 146096) / 365 := rfl
  unfold daysBefore
  omega

theorem isLeap_of_long (long : day = daysBefore (yearOfDay day) + 365) : isLeap (yearOfDay day + 1) = true := by
  have bounds := yearOfDay_bounds first last
  have centuries := century_eq first last
  have quarters := quarter_bounds first last
  have year : yearOfDay day = (day - day / 1460 + day / 36524 - day / 146096) / 365 := rfl
  generalize yearOfDay day = y at *
  unfold daysBefore at long
  unfold eraDays at last
  have fourth : y % 4 = 3 := by
    refine Decidable.byContradiction fun short => ?_
    have same : day / 1460 = y / 4 := by omega
    have early : day ≠ 146096 := by
      rintro rfl
      exact short (by rw [year]; decide)
    omega
  have hundredth : (y + 1) % 100 = 0 → (y + 1) % 400 = 0 := by
    intro hundred
    have : day = 36524 * (y / 100) + 36524 := by omega
    omega
  simp [isLeap]
  omega

end

def assemble (era year dayOfYear : Int) : Date :=
  let month := (5 * dayOfYear + 2) / 153
  let day := dayOfYear - (153 * month + 2) / 5 + 1
  let month := if month < 10 then month + 3 else month - 9
  let year := year + era * 400
  ⟨if month ≤ 2 then year + 1 else year, month.toNat, day.toNat⟩

theorem ofNumber_eq (n : Int) : ∃ era day, 0 ≤ day ∧ day < eraDays ∧ n = era * eraDays + day - epochShift ∧
    ofNumber n = assemble era (yearOfDay day) (day - daysBefore (yearOfDay day)) := by
  refine ⟨(n + epochShift) / eraDays, n + epochShift - (n + epochShift) / eraDays * eraDays, ?_, ?_, by omega, ?_⟩
  · unfold eraDays
    omega
  · unfold eraDays
    omega
  · simp only [ofNumber, assemble, yearOfDay, daysBefore, Int.mul_comm]

section

variable {era year dayOfYear : Int} (first : 0 ≤ year) (last : year < 400) (start : 0 ≤ dayOfYear)
  (finish : dayOfYear ≤ 365)

include first last start finish

theorem number_assemble :
    (assemble era year dayOfYear).number = era * eraDays + (daysBefore year + dayOfYear) - epochShift := by
  unfold assemble number daysBefore eraDays
  dsimp only
  have months : 0 ≤ (5 * dayOfYear + 2) / 153 ∧ (5 * dayOfYear + 2) / 153 ≤ 11 := by omega
  generalize month : (5 * dayOfYear + 2) / 153 = m at *
  by_cases late : m < 10
  · have shown : ¬m + 3 ≤ 2 := by omega
    have whole : ((m + 3).toNat : Int) = m + 3 := by omega
    have counted : (m + 3).toNat > 2 := by omega
    have more : ¬(m + 3).toNat ≤ 2 := by omega
    simp only [late, shown, counted, more, if_true, if_false, whole]
    omega
  · have shown : m - 9 ≤ 2 := by omega
    have whole : ((m - 9).toNat : Int) = m - 9 := by omega
    have counted : ¬(m - 9).toNat > 2 := by omega
    have more : (m - 9).toNat ≤ 2 := by omega
    simp only [late, shown, counted, more, if_true, if_false, whole]
    omega

omit first last in
theorem exists_assemble (long : dayOfYear = 365 → isLeap (year + 1) = true) :
    (assemble era year dayOfYear).Exists := by
  unfold assemble Exists
  dsimp only
  have months : 0 ≤ (5 * dayOfYear + 2) / 153 ∧ (5 * dayOfYear + 2) / 153 ≤ 11 := by omega
  have leap : isLeap (year + era * 400 + 1) = isLeap (year + 1) := by
    unfold isLeap
    have h4 : (year + era * 400 + 1) % 4 = (year + 1) % 4 := by omega
    have h100 : (year + era * 400 + 1) % 100 = (year + 1) % 100 := by omega
    have h400 : (year + era * 400 + 1) % 400 = (year + 1) % 400 := by omega
    rw [h4, h100, h400]
  generalize month : (5 * dayOfYear + 2) / 153 = m at *
  split
  · refine ⟨by omega, by omega, by omega, le_daysInMonth (by omega) (by omega) (by omega)⟩
  · refine ⟨by omega, by omega, by omega, le_daysInMonth (by omega) (by omega) fun february => ?_⟩
    have shown : m - 9 ≤ 2 := by omega
    simp only [shown, if_true, leap]
    by_cases last : dayOfYear = 365
    · exact .inr ⟨by omega, long last⟩
    · exact .inl (by omega)

end

theorem number_ofNumber (n : Int) : (ofNumber n).number = n := by
  obtain ⟨era, day, first, last, rfl, same⟩ := ofNumber_eq n
  obtain ⟨low, high⟩ := yearOfDay_bounds first last
  have start := daysBefore_le first last
  have finish := le_daysBefore first last
  rw [same, number_assemble low high (by omega) (by omega)]
  omega

theorem exists_ofNumber (n : Int) : (ofNumber n).Exists := by
  obtain ⟨era, day, first, last, -, same⟩ := ofNumber_eq n
  have start := daysBefore_le first last
  have finish := le_daysBefore first last
  rw [same]
  exact exists_assemble (by omega) (by omega) fun long => isLeap_of_long first last (by omega)

end Reconciler.Date
