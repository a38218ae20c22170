import QueryBuilder.Proofs.Literal.Integer

set_option autoImplicit false

namespace QueryBuilder

open Text

namespace Digits

variable {width n : Nat}

theorem toList_padded (width n : Nat) :
    (padded width n).toList = List.replicate (width - count n) '0' ++ ofNat n :=
  String.toList_ofList

theorem isDigit_padded (width n : Nat) : ∀ c ∈ (padded width n).toList, isDigit c = true := by
  rw [toList_padded]
  exact List.forall_mem_append.mpr
    ⟨Json.Numeral.isDigit_replicate _, Json.Numeral.isDigit_ofNat n⟩

theorem length_padded (positive : 0 < width) (fits : n < Nat.pow 10 width) :
    (padded width n).toList.length = width := by
  have short : (ofNat n).length ≤ width :=
    (Nat.length_toDigits_le_iff (by decide) positive).mpr fits
  rw [toList_padded, List.length_append, List.length_replicate, count]
  omega

theorem value_replicate_append (k : Nat) (ds : List Char) :
    value (List.replicate k '0' ++ ds) = value ds := by
  induction k with
  | zero => rfl
  | succ k ih =>
    rw [← ih, List.replicate_succ]
    rfl

theorem value_padded (width n : Nat) : value (padded width n).toList = n := by
  rw [toList_padded, value_replicate_append]
  exact Json.Numeral.value_ofNat n

end Digits

namespace Date

variable {d : Date}

def OnCalendar (d : Date) : Prop :=
  (1 ≤ d.month ∧ d.month ≤ 12) ∧ (1 ≤ d.day ∧ d.day ≤ daysInMonth d.year d.month)

theorem daysInMonth_pos (year : Int) (month : Nat) : 1 ≤ daysInMonth year month := by
  unfold daysInMonth
  split
  · split <;> decide
  · split <;> decide

theorem daysInMonth_le (year : Int) (month : Nat) : daysInMonth year month ≤ 31 := by
  unfold daysInMonth
  split
  · split <;> decide
  · split <;> decide

theorem next_onCalendar (on : d.OnCalendar) : d.next.OnCalendar := by
  obtain ⟨month, day⟩ := on
  unfold next
  split
  · exact ⟨month, by dsimp only; omega⟩
  · split
    · exact ⟨by dsimp only; omega, Nat.le_refl 1, daysInMonth_pos _ _⟩
    · exact ⟨⟨Nat.le_refl 1, by dsimp only; omega⟩, Nat.le_refl 1, daysInMonth_pos _ _⟩

theorem previous_onCalendar (on : d.OnCalendar) : d.previous.OnCalendar := by
  obtain ⟨month, day⟩ := on
  unfold previous
  split
  · exact ⟨month, by dsimp only; omega⟩
  · split
    · exact ⟨by dsimp only; omega, daysInMonth_pos _ _, Nat.le_refl _⟩
    · exact ⟨⟨by dsimp only; omega, Nat.le_refl 12⟩, by dsimp only; omega, Nat.le_refl 31⟩

end Date

namespace Moment

variable {m : Moment}

-- The shift may lead out of the years that can be counted with, so the year is asked for again.
theorem behind_isValid (valid : m.IsValid) (minutes : Int)
    (year : -262143 ≤ (m.behind minutes).date.year ∧ (m.behind minutes).date.year ≤ 262142) :
    (m.behind minutes).IsValid := by
  obtain ⟨⟨-, on⟩, -, -, second, millisecond⟩ := valid
  have shifted : (m.behind minutes).date.OnCalendar := by
    unfold behind
    dsimp only
    split
    · exact Date.previous_onCalendar on
    · split
      · exact on
      · exact Date.next_onCalendar on
  refine ⟨⟨year, shifted⟩, ?_, ?_, second, millisecond⟩
  · show ((60 * (m.hour : Int) + m.minute - minutes) % 1440).toNat / 60 < 24
    omega
  · exact Nat.mod_lt _ (by decide)

theorem behind_zero (valid : m.IsValid) : m.behind 0 = m := by
  obtain ⟨-, hour, minute, -, -⟩ := valid
  obtain ⟨date, h, mi, s, ms⟩ := m
  dsimp only at hour minute
  have same : (60 * (h : Int) + mi - 0) % 1440 = 60 * h + mi := by omega
  simp only [behind, same]
  rw [if_neg (by omega), if_pos (by omega)]
  congr 1 <;> omega

theorem twoDigits_of_isValid (valid : m.IsValid) :
    m.date.month < 100 ∧ m.date.day < 100 ∧ m.hour < 100 ∧ m.minute < 100 ∧ m.second < 100 := by
  obtain ⟨⟨-, month, day⟩, hour, minute, second, -⟩ := valid
  have length := Date.daysInMonth_le m.date.year m.date.month
  omega

end Moment

namespace MomentText

variable {cs : List Char} {m : Moment}

theorem valid_eq_some {shown : Moment} (checked : valid? shown = some m) :
    shown = m ∧ m.IsValid := by
  unfold valid? at checked
  split at checked
  · next valid =>
    cases checked
    exact ⟨rfl, valid⟩
  · cases checked

-- Of the steps of the form only the last three matter, which read the offset, check the moment and
-- bring it to universal time.
theorem strict_eq_some (read : strict? cs = some m) :
    ∃ (shown : Moment) (offset : Int), shown.IsValid ∧ m = shown.behind offset := by
  unfold strict? at read
  iterate 12 obtain ⟨_, -, read⟩ := Option.bind_eq_some_iff.mp read
  obtain ⟨offset, -, read⟩ := Option.bind_eq_some_iff.mp read
  obtain ⟨shown, checked, read⟩ := Option.bind_eq_some_iff.mp read
  obtain ⟨rfl, valid⟩ := valid_eq_some checked
  exact ⟨_, offset, valid, (Option.some.inj read).symm⟩

theorem loose_eq_some {parts : List Part} (read : loose? parts cs = some m) : m.IsValid := by
  obtain ⟨⟨shown, rest⟩, -, checked⟩ := Option.bind_eq_some_iff.mp read
  dsimp only at checked
  split at checked
  · exact (valid_eq_some checked).2
  · cases checked

theorem read_isValid (read : read? cs = some m)
    (year : -262143 ≤ m.date.year ∧ m.date.year ≤ 262142) : m.IsValid := by
  cases strict : strict? cs with
  | some m' =>
    obtain ⟨shown, offset, valid, rfl⟩ := strict_eq_some strict
    have same : m = shown.behind offset := by simpa [read?, strict] using read.symm
    subst same
    exact shown.behind_isValid valid offset year
  | none =>
    have loose : looseForms.findSome? (fun parts => loose? parts cs) = some m := by
      simpa [read?, strict] using read
    obtain ⟨parts, -, found⟩ := List.exists_of_findSome?_eq_some loose
    exact loose_eq_some found

theorem fixed_padded {width n : Nat} (positive : 0 < width) (fits : n < Nat.pow 10 width)
    (rest : List Char) :
    fixed? width ((Digits.padded width n).toList ++ rest) = some (n, rest) := by
  have length := Digits.length_padded positive fits
  have taken : ((Digits.padded width n).toList ++ rest).take width =
      (Digits.padded width n).toList := List.take_left' length
  have left : ((Digits.padded width n).toList ++ rest).drop width = rest := List.drop_left' length
  have digits := List.all_eq_true.mpr (Digits.isDigit_padded width n)
  rw [fixed?, taken, left, if_pos ⟨length, digits⟩, Digits.value_padded]

theorem fraction_padded {n : Nat} (fits : n < 1000) {rest : List Char}
    (stop : ∀ c ∈ rest.head?, isDigit c = false) :
    fraction? ('.' :: ((Digits.padded 3 n).toList ++ rest)) = some (n, rest) := by
  have length : (Digits.padded 3 n).toList.length = 3 := Digits.length_padded (by decide) fits
  have parts := span_of_stop (Digits.isDigit_padded 3 n) stop
  have thousandths : milliseconds (Digits.padded 3 n).toList = n := by
    rw [milliseconds, List.take_of_length_le (Nat.le_of_eq length), length, Digits.value_padded]
    exact Nat.mul_one n
  rw [fraction?, parts.1, parts.2]
  split
  · next empty =>
    rw [empty] at length
    cases length
  · rw [thousandths]

theorem toList_text (year : 0 ≤ m.date.year ∧ m.date.year ≤ 9999) :
    m.text.toList =
      (Digits.padded 4 m.date.year.toNat).toList ++ ('-' ::
        ((Digits.padded 2 m.date.month).toList ++ ('-' ::
          ((Digits.padded 2 m.date.day).toList ++ ('T' ::
            ((Digits.padded 2 m.hour).toList ++ (':' ::
              ((Digits.padded 2 m.minute).toList ++ (':' ::
                ((Digits.padded 2 m.second).toList ++ ('.' ::
                  ((Digits.padded 3 m.millisecond).toList ++ ['Z'])))))))))))) := by
  simp [Moment.text, Date.text, Date.yearText, year]

-- One step for each part of the form: a number or a mark is read, and the next step has the rest.
theorem strict_text (valid : m.IsValid) (year : 0 ≤ m.date.year ∧ m.date.year ≤ 9999) :
    strict? m.text.toList = some m := by
  obtain ⟨month, day, hour, minute, second⟩ := Moment.twoDigits_of_isValid valid
  have millisecond : m.millisecond < 1000 := valid.2.2.2.2
  have years : m.date.year.toNat < 10000 := by omega
  have back : (m.date.year.toNat : Int) = m.date.year := by omega
  have stop : ∀ c ∈ ['Z'].head?, isDigit c = false := by
    rintro c ⟨⟩
    rfl
  rw [toList_text year, strict?]
  refine Option.bind_eq_some_iff.mpr ⟨_, fixed_padded (by decide) years _, ?_⟩
  refine Option.bind_eq_some_iff.mpr ⟨_, rfl, ?_⟩
  refine Option.bind_eq_some_iff.mpr ⟨_, fixed_padded (by decide) month _, ?_⟩
  refine Option.bind_eq_some_iff.mpr ⟨_, rfl, ?_⟩
  refine Option.bind_eq_some_iff.mpr ⟨_, fixed_padded (by decide) day _, ?_⟩
  refine Option.bind_eq_some_iff.mpr ⟨_, rfl, ?_⟩
  refine Option.bind_eq_some_iff.mpr ⟨_, fixed_padded (by decide) hour _, ?_⟩
  refine Option.bind_eq_some_iff.mpr ⟨_, rfl, ?_⟩
  refine Option.bind_eq_some_iff.mpr ⟨_, fixed_padded (by decide) minute _, ?_⟩
  refine Option.bind_eq_some_iff.mpr ⟨_, rfl, ?_⟩
  refine Option.bind_eq_some_iff.mpr ⟨_, fixed_padded (by decide) second _, ?_⟩
  refine Option.bind_eq_some_iff.mpr ⟨_, fraction_padded millisecond stop, ?_⟩
  refine Option.bind_eq_some_iff.mpr ⟨_, rfl, ?_⟩
  refine Option.bind_eq_some_iff.mpr ⟨m, ?_, congrArg some (Moment.behind_zero valid)⟩
  show valid? ⟨⟨(m.date.year.toNat : Int), _, _⟩, _, _, _, _⟩ = some m
  rw [back]
  exact if_pos valid

theorem read_text (valid : m.IsValid) (year : 0 ≤ m.date.year ∧ m.date.year ≤ 9999) :
    read? m.text.toList = some m := by
  rw [read?, strict_text valid year]
  rfl

def places (text : String) : List Char :=
  text.toList.map fun c => if isDigit c then '0' else c

theorem places_padded (width : Nat) {n : Nat} (positive : 0 < width) (fits : n < Nat.pow 10 width) :
    (Digits.padded width n).toList.map (fun c => if isDigit c then '0' else c) =
      List.replicate width '0' := by
  refine List.eq_replicate_iff.mpr ⟨?_, fun d mem => ?_⟩
  · rw [List.length_map, Digits.length_padded positive fits]
  · obtain ⟨c, digit, rfl⟩ := List.mem_map.mp mem
    exact if_pos (Digits.isDigit_padded width n c digit)

theorem places_text (valid : m.IsValid) (year : 0 ≤ m.date.year ∧ m.date.year ≤ 9999) :
    places m.text = "0000-00-00T00:00:00.000Z".toList := by
  obtain ⟨month, day, hour, minute, second⟩ := Moment.twoDigits_of_isValid valid
  have millisecond : m.millisecond < 1000 := valid.2.2.2.2
  have years : m.date.year.toNat < 10000 := by omega
  have two {n : Nat} (fits : n < 100) := places_padded 2 (by decide) fits
  rw [places, toList_text year]
  simp [places_padded 4 (by decide) years, two month, two day, two hour, two minute, two second,
    places_padded 3 (by decide) millisecond]
  decide

theorem unblank_of_places {text : String} (unblank : (places text).any isBlank = false) :
    ∀ c ∈ text.toList, isBlank c = false := by
  intro c mem
  by_cases digit : isDigit c = true
  · exact isBlank_of_isDigit digit
  · have kept := List.any_eq_false.mp unblank _ (List.mem_map_of_mem mem)
    rw [if_neg digit] at kept
    simpa using kept

theorem trim_text (valid : m.IsValid) (year : 0 ≤ m.date.year ∧ m.date.year ≤ 9999) :
    trim m.text = m.text := by
  refine trim_of_unblank (unblank_of_places ?_)
  rw [places_text valid year]
  decide

end MomentText

namespace Literal

variable {raw : String} {l : Literal}

theorem coerce_date_iff :
    coerce .date raw = .ok l ↔
      ∃ m, MomentText.read? (trim raw).toList = some m ∧ l = .date (trim raw) m := by
  cases read : MomentText.read? (trim raw).toList with
  | none => simp [coerce, date?, read]
  | some shown => simp [coerce, date?, read, eq_comm]

theorem coerce_date_text (read : coerce .date raw = .ok l) :
    ∃ m, l = .date (trim raw) m ∧ (0 ≤ m.date.year ∧ m.date.year ≤ 9999 →
      MomentText.places m.text = "0000-00-00T00:00:00.000Z".toList ∧
        coerce .date m.text = .ok (.date m.text m)) := by
  obtain ⟨m, shown, rfl⟩ := coerce_date_iff.mp read
  refine ⟨m, rfl, fun year => ?_⟩
  have valid : m.IsValid := MomentText.read_isValid shown (by omega)
  have trimmed := MomentText.trim_text valid year
  refine ⟨MomentText.places_text valid year, coerce_date_iff.mpr ⟨m, ?_, by rw [trimmed]⟩⟩
  rw [trimmed]
  exact MomentText.read_text valid year

def newYearsEve : Moment := ⟨⟨2024, 1, 1⟩, 1, 30, 60, 987⟩

-- A leap second, and an offset that leads into the next year.
theorem newYearsEve_text :
    coerce .date " 2023-12-31T23:30:60.98765-02:00 " =
        .ok (.date "2023-12-31T23:30:60.98765-02:00" newYearsEve) ∧
      newYearsEve.text = "2024-01-01T01:30:60.987Z" ∧
      MomentText.places newYearsEve.text = "0000-00-00T00:00:00.000Z".toList ∧
      coerce .date newYearsEve.text = .ok (.date newYearsEve.text newYearsEve) := by
  have trimmed : trim " 2023-12-31T23:30:60.98765-02:00 " = "2023-12-31T23:30:60.98765-02:00" := by
    decide +kernel
  have shown : MomentText.read? "2023-12-31T23:30:60.98765-02:00".toList = some newYearsEve := by
    decide +kernel
  have read : coerce .date " 2023-12-31T23:30:60.98765-02:00 " =
      .ok (.date "2023-12-31T23:30:60.98765-02:00" newYearsEve) :=
    coerce_date_iff.mpr ⟨newYearsEve, by rw [trimmed, shown], by rw [trimmed]⟩
  obtain ⟨m, same, stable⟩ := coerce_date_text read
  obtain rfl : newYearsEve = m := (Literal.date.inj same).2
  exact ⟨read, by decide +kernel, stable (by decide)⟩

end Literal

end QueryBuilder
