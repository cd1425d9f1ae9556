import BenchLedger.Calendar.Timestamp
import BenchLedger.Proofs.DigitText
import Mathlib.Algebra.Ring.Int.Defs
import Mathlib.Algebra.Ring.Nat
import Mathlib.Data.List.Basic

/-!
Timestamps as documents hold them. Main statement: `ofText?_text`: every point in time reads back
from its text, and nothing else is read.
-/

namespace BenchLedger.Calendar

open Text (AllDigits allDigits_paddedDigits digitsValue_paddedDigits isBlank length_paddedDigits
  paddedDigits paddedDigits_ne_nil trimStart)

/-- No digit stands in front. -/
private def EndsDigits (rest : List Char) : Prop :=
  ∀ c ∈ rest.head?, c.isDigit = false

private theorem endsDigits_cons {c : Char} (h : c.isDigit = false) (rest : List Char) :
    EndsDigits (c :: rest) := by
  simpa [EndsDigits] using h

/-! ### Items -/

private theorem take_digits {ds rest : List Char} (digits : AllDigits ds)
    (ends : EndsDigits rest) {width : Nat} (fits : ds.length ≤ width) :
    ((ds ++ rest).take width).takeWhile Char.isDigit = ds := by
  rw [List.take_append, List.take_of_length_le fits]
  refine Text.takeWhile_digits_append digits ?_
  intro c first
  cases rest with
  | nil => simp at first
  | cons d rest =>
    cases room : width - ds.length with
    | zero => simp [room] at first
    | succ n =>
      rw [room, List.take_succ_cons, List.head?_cons, Option.mem_def, Option.some.injEq] at first
      exact ends c (by simp [first])

private theorem takeDigits_append {ds rest : List Char} (digits : AllDigits ds) (filled : ds ≠ [])
    (ends : EndsDigits rest) {width : Nat} (fits : ds.length ≤ width) :
    takeDigits width (ds ++ rest) = some (Text.digitsValue ds, rest) := by
  simp [takeDigits, take_digits digits ends fits, filled]

private theorem trimStart_digits {ds : List Char} (digits : AllDigits ds) (filled : ds ≠ [])
    (rest : List Char) : trimStart (ds ++ rest) = ds ++ rest := by
  cases ds with
  | nil => exact absurd rfl filled
  | cons d ds =>
    have noBlank := Text.not_isBlank_of_isDigit (digits d (by simp))
    simp [trimStart, noBlank]

private theorem takeItem_append {n : Nat} (fits : n < 100) {rest : List Char}
    (ends : EndsDigits rest) : takeItem (paddedDigits 2 n ++ rest) = some (n, rest) := by
  have digits := allDigits_paddedDigits 2 n
  have filled := paddedDigits_ne_nil 2 n
  have width : (paddedDigits 2 n).length = 2 := length_paddedDigits (by decide) fits
  rw [takeItem, trimStart_digits digits filled,
    takeDigits_append digits filled ends (Nat.le_of_eq width), digitsValue_paddedDigits]

private theorem takeMark_cons {mark : Char} (h : isBlank mark = false) (rest : List Char) :
    takeMark mark (mark :: rest) = some rest := by
  simp [takeMark, trimStart, h]

/-- A year is read from its text, four digits wide or with a sign. -/
private theorem takeYear_append (year : Int) {rest : List Char} (ends : EndsDigits rest) :
    takeYear (yearText year ++ rest) = some (year, rest) := by
  unfold yearText
  split
  next plain =>
    simp only [Bool.and_eq_true, decide_eq_true_eq] at plain
    have digits := allDigits_paddedDigits 4 year.toNat
    have filled := paddedDigits_ne_nil 4 year.toNat
    have width : (paddedDigits 4 year.toNat).length = 4 :=
      length_paddedDigits (by decide) (by omega)
    have read := takeDigits_append digits filled ends (Nat.le_of_eq width)
    unfold takeYear
    rw [trimStart_digits digits filled]
    split
    next more same =>
      exact absurd same (Text.digits_append_ne_cons digits filled (by decide) rest more)
    next more same =>
      exact absurd same (Text.digits_append_ne_cons digits filled (by decide) rest more)
    next =>
      rw [read, digitsValue_paddedDigits, Option.map_some, Int.toNat_of_nonneg plain.1]
  next signed =>
    have digits := allDigits_paddedDigits 4 year.natAbs
    have filled := paddedDigits_ne_nil 4 year.natAbs
    have fits : (paddedDigits 4 year.natAbs).length
        ≤ (paddedDigits 4 year.natAbs ++ rest).length := by
      simp
    have read := takeDigits_append digits filled ends fits
    rw [digitsValue_paddedDigits] at read
    split
    next negative =>
      have start : trimStart ('-' :: (paddedDigits 4 year.natAbs ++ rest))
          = '-' :: (paddedDigits 4 year.natAbs ++ rest) := rfl
      simp only [takeYear, List.cons_append, start, read, Option.map_some]
      rw [Int.ofNat_natAbs_of_nonpos (by omega), Int.neg_neg]
    next positive =>
      have start : trimStart ('+' :: (paddedDigits 4 year.natAbs ++ rest))
          = '+' :: (paddedDigits 4 year.natAbs ++ rest) := rfl
      simp only [takeYear, List.cons_append, start, read, Option.map_some]
      rw [Int.natAbs_of_nonneg (by omega)]

private theorem takeFraction_digits {ds rest : List Char} (digits : AllDigits ds)
    (filled : ds ≠ []) (short : ds.length ≤ 9) (ends : EndsDigits rest) :
    takeFraction ('.' :: (ds ++ rest))
      = some (Text.digitsValue ds * 10 ^ (9 - ds.length), rest) := by
  simp [takeFraction, take_digits digits ends short, filled,
    Text.dropWhile_digits_append digits ends]

/-- The decimals of a second are read from as few groups of three as hold them. -/
private theorem takeFraction_append {nanosecond : Nat} (fits : nanosecond < 1000000000)
    {rest : List Char} (ends : EndsDigits rest) (noPoint : ∀ c ∈ rest.head?, c ≠ '.') :
    takeFraction (fractionText nanosecond ++ rest) = some (nanosecond, rest) := by
  have group (width unit : Nat) (positive : 0 < width) (short : width ≤ 9)
      (scale : 10 ^ (9 - width) = unit) (whole : nanosecond / unit * unit = nanosecond)
      (room : nanosecond / unit < 10 ^ width) :
      takeFraction ('.' :: (paddedDigits width (nanosecond / unit) ++ rest))
        = some (nanosecond, rest) := by
    have length := length_paddedDigits positive room
    rw [takeFraction_digits (allDigits_paddedDigits _ _) (paddedDigits_ne_nil _ _) (by omega) ends,
      digitsValue_paddedDigits, length, scale, whole]
  unfold fractionText
  split
  next none =>
    subst none
    cases rest with
    | nil => rfl
    | cons c rest => simp [takeFraction, noPoint c (by simp)]
  split
  next millis => exact group 3 1000000 (by decide) (by decide) (by decide) (by omega) (by omega)
  split
  next micros => exact group 6 1000 (by decide) (by decide) (by decide) (by omega) (by omega)
  next =>
    have nanos := group 9 1 (by decide) (by decide) (by decide) (by omega) (by omega)
    rw [Nat.div_one] at nanos
    exact nanos

/-! ### Offsets -/

private theorem takePair_append {n : Nat} (fits : n < 100) (rest : List Char) :
    takePair (paddedDigits 2 n ++ rest) = some (n, rest) := by
  have digits := allDigits_paddedDigits 2 n
  have value := digitsValue_paddedDigits 2 n
  have width : (paddedDigits 2 n).length = 2 := length_paddedDigits (by decide) fits
  obtain ⟨a, b, pair⟩ := List.length_eq_two.1 width
  rw [pair] at digits value ⊢
  simp [takePair, digits a (by simp), digits b (by simp), value]

private theorem takeOffset_signed {sign : Char} (h : sign = '+' ∨ sign = '-') {hours minutes : Nat}
    (hoursFit : hours < 100) (minutesFit : minutes < 60) :
    takeOffset (sign :: (paddedDigits 2 hours ++ ':' :: paddedDigits 2 minutes))
      = some (if sign == '+' then (hours * 60 + minutes : Int) else -(hours * 60 + minutes), [])
    := by
  have separator : (':' :: paddedDigits 2 minutes).dropWhile (fun c => c == ':' || isBlank c)
      = paddedDigits 2 minutes := by
    have digits := allDigits_paddedDigits 2 minutes
    cases front : paddedDigits 2 minutes with
    | nil => rfl
    | cons d ds =>
      have digit := digits d (by simp [front])
      have noColon : d ≠ ':' := by
        rintro rfl
        simp at digit
      simp [noColon, Text.not_isBlank_of_isDigit digit]
  have early := takePair_append hoursFit (':' :: paddedDigits 2 minutes)
  have late := takePair_append (n := minutes) (by omega) []
  rw [List.append_nil] at late
  have inHour : ¬ 60 ≤ minutes := by omega
  rcases h with rfl | rfl <;>
    simp [takeOffset, early, separator, late, inHour]

private theorem takeOffset_text {offset : Int} (fits : offset.natAbs < 1440) :
    takeOffset (offsetText offset) = some (offset, []) := by
  unfold offsetText
  split
  next none =>
    subst none
    rfl
  have whole : offset.natAbs / 60 * 60 + offset.natAbs % 60 = offset.natAbs := by omega
  split
  next west =>
    have back : -(((offset.natAbs / 60 : Nat) : Int) * 60 + ((offset.natAbs % 60 : Nat) : Int))
        = offset := by
      omega
    rw [takeOffset_signed (.inr rfl) (by omega) (by omega), if_neg (by decide), back]
  next east =>
    have back : ((offset.natAbs / 60 : Nat) : Int) * 60 + ((offset.natAbs % 60 : Nat) : Int)
        = offset := by
      omega
    rw [takeOffset_signed (.inl rfl) (by omega) (by omega), if_pos (by decide), back]

private theorem trimStart_offsetText (offset : Int) :
    trimStart (offsetText offset) = offsetText offset := by
  unfold offsetText
  split
  · rfl
  · split <;> rfl

private theorem offsetText_head (offset : Int) :
    EndsDigits (offsetText offset) ∧ ∀ c ∈ (offsetText offset).head?, c ≠ '.' := by
  unfold offsetText
  split
  · simp [EndsDigits]
  · split <;> simp [EndsDigits]

private theorem fractionText_head (nanosecond : Nat) {rest : List Char} (ends : EndsDigits rest) :
    EndsDigits (fractionText nanosecond ++ rest) := by
  unfold fractionText
  split
  · exact ends
  · split
    · exact endsDigits_cons (by decide) _
    · split <;> exact endsDigits_cons (by decide) _

/-! ### Points in time -/

/-- What a point in time promises about its items. -/
private theorem Timestamp.items_fit {t : Timestamp} (h : t.exists = true) :
    t.date.month < 100 ∧ t.date.day < 100 ∧ t.clock.hour < 100 ∧ t.clock.minute < 100 ∧
      t.clock.second < 100 ∧ t.clock.nanosecond < 1000000000 ∧ t.offset.natAbs < 1440 := by
  have days : daysInMonth t.date.year t.date.month ≤ 31 := by
    unfold daysInMonth
    repeat' split
    all_goals omega
  simp only [Timestamp.exists, Date.exists, Clock.exists, Bool.and_eq_true,
    decide_eq_true_eq] at h
  omega

/-- A point in time reads back from its text. -/
theorem Timestamp.ofText?_text {t : Timestamp} (h : t.exists = true) :
    Timestamp.ofText? t.text = some t := by
  obtain ⟨month, day, hour, minute, second, nanosecond, offset⟩ := items_fit h
  obtain ⟨ends, noPoint⟩ := offsetText_head t.offset
  have fraction := takeFraction_append nanosecond ends noPoint
  have endsSecond := fractionText_head t.clock.nanosecond ends
  have dash : isBlank '-' = false := by decide
  have colon : isBlank ':' = false := by decide
  have text : t.text.toList = yearText t.date.year ++ '-' :: (paddedDigits 2 t.date.month ++ '-' ::
      (paddedDigits 2 t.date.day ++ 'T' :: (paddedDigits 2 t.clock.hour ++ ':' ::
        (paddedDigits 2 t.clock.minute ++ ':' :: (paddedDigits 2 t.clock.second ++
          (fractionText t.clock.nanosecond ++ offsetText t.offset)))))) := by
    simp only [Timestamp.text, Date.text, String.toList_ofList, List.append_assoc,
      List.cons_append]
  -- The items one after another, as the reader takes them.
  rw [ofText?, text]
  refine Option.bind_eq_some_iff.2 ⟨_, takeYear_append _ (endsDigits_cons (by decide) _), ?_⟩
  refine Option.bind_eq_some_iff.2 ⟨_, takeMark_cons dash _, ?_⟩
  refine Option.bind_eq_some_iff.2 ⟨_, takeItem_append month (endsDigits_cons (by decide) _), ?_⟩
  refine Option.bind_eq_some_iff.2 ⟨_, takeMark_cons dash _, ?_⟩
  refine Option.bind_eq_some_iff.2 ⟨_, takeItem_append day (endsDigits_cons (by decide) _), ?_⟩
  refine Option.bind_eq_some_iff.2 ⟨_, takeItem_append hour (endsDigits_cons (by decide) _), ?_⟩
  refine Option.bind_eq_some_iff.2 ⟨_, takeMark_cons colon _, ?_⟩
  refine Option.bind_eq_some_iff.2 ⟨_, takeItem_append minute (endsDigits_cons (by decide) _), ?_⟩
  refine Option.bind_eq_some_iff.2 ⟨_, takeMark_cons colon _, ?_⟩
  refine Option.bind_eq_some_iff.2 ⟨_, takeItem_append second endsSecond, ?_⟩
  refine Option.bind_eq_some_iff.2 ⟨_, fraction, ?_⟩
  refine Option.bind_eq_some_iff.2 ⟨(t.offset, []), ?_, if_pos ?_⟩
  · rw [trimStart_offsetText, takeOffset_text offset]
  · exact h

/-- Whatever is read is a point in time. -/
theorem Timestamp.exists_of_ofText? {text : String} {t : Timestamp}
    (h : Timestamp.ofText? text = some t) : t.exists = true := by
  unfold Timestamp.ofText? at h
  obtain ⟨⟨_, _⟩, _, h⟩ := Option.bind_eq_some_iff.1 h
  obtain ⟨_, _, h⟩ := Option.bind_eq_some_iff.1 h
  obtain ⟨⟨_, _⟩, _, h⟩ := Option.bind_eq_some_iff.1 h
  obtain ⟨_, _, h⟩ := Option.bind_eq_some_iff.1 h
  obtain ⟨⟨_, cs⟩, _, h⟩ := Option.bind_eq_some_iff.1 h
  dsimp only at h
  split at h
  · split at h
    · obtain ⟨_, _, h⟩ := Option.bind_eq_some_iff.1 h
      obtain ⟨⟨_, _⟩, _, h⟩ := Option.bind_eq_some_iff.1 h
      obtain ⟨_, _, h⟩ := Option.bind_eq_some_iff.1 h
      obtain ⟨⟨_, _⟩, _, h⟩ := Option.bind_eq_some_iff.1 h
      obtain ⟨_, _, h⟩ := Option.bind_eq_some_iff.1 h
      obtain ⟨⟨_, _⟩, _, h⟩ := Option.bind_eq_some_iff.1 h
      obtain ⟨⟨_, _⟩, _, h⟩ := Option.bind_eq_some_iff.1 h
      obtain ⟨⟨_, _⟩, _, h⟩ := Option.bind_eq_some_iff.1 h
      dsimp only at h
      split at h
      next found =>
        cases h
        exact (Bool.and_eq_true_iff.1 found).2
      · cases h
    · cases h
  · cases h

end BenchLedger.Calendar
