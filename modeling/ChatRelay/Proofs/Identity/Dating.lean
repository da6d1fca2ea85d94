import Mathlib.Order.Bounds.Defs
import ChatRelay.Identity

/-! Message numbers and moments. The first number of a moment and the moment of a number determine each other:
a number is not below the first one of a moment exactly if it was given out then or later. -/
namespace ChatRelay

/-- How moments are counted in milliseconds of the Unix epoch. -/
structure Calendar (Moment : Type) where
  /-- The moment at which a millisecond begins, if the calendar reaches that far. -/
  moment? : Int → Option Moment
  /-- The millisecond that a moment falls in. -/
  millisecond : Moment → Int

namespace Calendar

/-- The first millisecond of the year -262143. -/
def earliest : Int := -8334601228800000

/-- The last millisecond of the year 262142. -/
def latest : Int := 8210266876799999

/-- Each millisecond of these years begins at a moment, which falls in it. -/
structure Complete {Moment : Type} (calendar : Calendar Moment) : Prop where
  reaches : ∀ time, earliest ≤ time → time ≤ latest → ∃ moment, calendar.moment? time = some moment
  begins : ∀ time moment, calendar.moment? time = some moment → calendar.millisecond moment = time

end Calendar

namespace MessageId

variable {Moment : Type} {calendar : Calendar Moment} {time earlier later : Int}

/-- The smallest number that can have been given out at a moment or later. -/
def firstAt (calendar : Calendar Moment) (moment : Moment) : MessageId :=
  floorAt (calendar.millisecond moment)

/-- The moment at which a number was given out. -/
def moment? (calendar : Calendar Moment) (id : MessageId) : Option Moment :=
  calendar.moment? id.timestamp

def lastMillisecond : Int := Int64.maxValue.toInt / perMillisecond + epoch

theorem toInt_maxValue : Int64.maxValue.toInt = 9223372036854775807 := rfl

/-- The first number is counted from the epoch, within the range of numbers. -/
theorem toInt_floorAt (time : Int) :
    (floorAt time).value.toInt = max 0 (min ((time - epoch) * perMillisecond) Int64.maxValue.toInt) := by
  by_cases before : time ≤ epoch
  · rw [floorAt, if_pos before, none, Int64.toInt_zero]
    simp only [epoch, perMillisecond] at before ⊢
    omega
  · by_cases within : (time - epoch) * perMillisecond ≤ Int64.maxValue.toInt
    · rw [floorAt, if_neg before, if_pos within]
      simp only [epoch, perMillisecond, toInt_maxValue] at before within ⊢
      rw [Int64.toInt_ofInt_of_le (by omega) (by omega)]
      omega
    · rw [floorAt, if_neg before, if_neg within]
      simp only [epoch, perMillisecond, toInt_maxValue] at before within ⊢
      omega

/-- Below the largest number, numbers and milliseconds are ordered alike. -/
theorem floorAt_le_iff (id : MessageId) (nonneg : 0 ≤ id.value) (below : id.value < Int64.maxValue) :
    (floorAt time).value ≤ id.value ↔ time ≤ id.timestamp := by
  rw [Int64.le_iff_toInt_le, Int64.toInt_zero] at nonneg
  rw [Int64.lt_iff_toInt_lt] at below
  rw [Int64.le_iff_toInt_le, toInt_floorAt]
  simp only [timestamp, epoch, perMillisecond, toInt_maxValue] at below ⊢
  omega

theorem timestamp_le_lastMillisecond (id : MessageId) : id.timestamp ≤ lastMillisecond := by
  have bound := id.value.toInt_le
  simp only [timestamp, lastMillisecond, epoch, perMillisecond, toInt_maxValue] at bound ⊢
  omega

theorem eq_iff_toInt_eq {first second : MessageId} : first = second ↔ first.value.toInt = second.value.toInt := by
  cases first
  cases second
  rw [MessageId.mk.injEq, Int64.toInt_inj]

/-- The largest number stands for all moments that no number was given out at or after. -/
theorem floorAt_eq_max_iff : floorAt time = ⟨Int64.maxValue⟩ ↔ lastMillisecond < time := by
  rw [eq_iff_toInt_eq, toInt_floorAt]
  simp only [lastMillisecond, epoch, perMillisecond, toInt_maxValue]
  omega

theorem floorAt_nonneg (time : Int) : 0 ≤ (floorAt time).value := by
  rw [Int64.le_iff_toInt_le, toInt_floorAt, Int64.toInt_zero]
  exact Int.le_max_left _ _

theorem floorAt_mono (before : earlier ≤ later) : (floorAt earlier).value ≤ (floorAt later).value := by
  rw [Int64.le_iff_toInt_le, toInt_floorAt, toInt_floorAt]
  simp only [epoch, perMillisecond]
  omega

theorem timestamp_floorAt (since : epoch ≤ time) (within : time ≤ lastMillisecond) :
    (floorAt time).timestamp = time := by
  rw [timestamp, toInt_floorAt]
  simp only [lastMillisecond, epoch, perMillisecond, toInt_maxValue] at since within ⊢
  omega

/-- While there are numbers, the first number of a millisecond is the least that carries it or a later one. -/
theorem floorAt_isLeast (within : time ≤ lastMillisecond) :
    IsLeast {number : Int64 | 0 ≤ number ∧ time ≤ (MessageId.mk number).timestamp} (floorAt time).value := by
  refine ⟨⟨floorAt_nonneg time, ?_⟩, ?_⟩
  · simp only [timestamp, toInt_floorAt]
    simp only [lastMillisecond, epoch, perMillisecond, toInt_maxValue] at within ⊢
    omega
  · rintro number ⟨nonneg, late⟩
    by_cases below : number < Int64.maxValue
    · exact (floorAt_le_iff ⟨number⟩ nonneg below).mpr late
    · -- only the largest number is left, and no first number is above it
      rw [Int64.lt_iff_toInt_lt, toInt_maxValue] at below
      rw [Int64.le_iff_toInt_le, toInt_floorAt, toInt_maxValue]
      omega

def GivenSince (calendar : Calendar Moment) (moment : Moment) (id : MessageId) : Prop :=
  ∃ made, id.moment? calendar = some made ∧ calendar.millisecond moment ≤ calendar.millisecond made

/-- How numbers and the moments of a calendar correspond. -/
structure Dates (calendar : Calendar Moment) : Prop where
  /-- Each number was given out at a moment, in the millisecond that it carries. -/
  dated : ∀ id : MessageId, ∃ made, id.moment? calendar = some made ∧
    calendar.millisecond made = id.timestamp
  adjoint : ∀ moment (id : MessageId), 0 ≤ id.value → id.value < Int64.maxValue →
    ((firstAt calendar moment).value ≤ id.value ↔ id.GivenSince calendar moment)
  least : ∀ moment, firstAt calendar moment ≠ ⟨Int64.maxValue⟩ →
    IsLeast {number : Int64 | 0 ≤ number ∧ (MessageId.mk number).GivenSince calendar moment}
      (firstAt calendar moment).value
  /-- The largest number is the first one of those moments that come after all numbers. -/
  saturates : ∀ moment, firstAt calendar moment = ⟨Int64.maxValue⟩ ↔
    ∀ id : MessageId, ¬ id.GivenSince calendar moment
  monotone : ∀ earlier later, calendar.millisecond earlier ≤ calendar.millisecond later →
    (firstAt calendar earlier).value ≤ (firstAt calendar later).value
  /-- From the epoch on, a moment is read back from its first number up to what its millisecond leaves out. -/
  truncates : ∀ moment, epoch ≤ calendar.millisecond moment →
    firstAt calendar moment ≠ ⟨Int64.maxValue⟩ →
      (firstAt calendar moment).moment? calendar = calendar.moment? (calendar.millisecond moment) ∧
        ∃ made, (firstAt calendar moment).moment? calendar = some made ∧
          calendar.millisecond made = calendar.millisecond moment

theorem earliest_le_timestamp (id : MessageId) : Calendar.earliest ≤ id.timestamp := by
  have bound := id.value.le_toInt
  simp only [timestamp, Calendar.earliest, epoch, perMillisecond] at bound ⊢
  omega

/-- All numbers end long before a calendar does. -/
theorem timestamp_le_latest (id : MessageId) : id.timestamp ≤ Calendar.latest := by
  have bound := id.timestamp_le_lastMillisecond
  simp only [lastMillisecond, Calendar.latest, epoch, perMillisecond, toInt_maxValue] at bound ⊢
  omega

section Complete

variable (complete : calendar.Complete)
include complete

theorem moment?_eq_some (id : MessageId) :
    ∃ made, id.moment? calendar = some made ∧ calendar.millisecond made = id.timestamp := by
  obtain ⟨made, found⟩ := complete.reaches _ id.earliest_le_timestamp id.timestamp_le_latest
  exact ⟨made, found, complete.begins _ _ found⟩

theorem givenSince_iff (id : MessageId) (moment : Moment) :
    id.GivenSince calendar moment ↔ calendar.millisecond moment ≤ id.timestamp := by
  obtain ⟨made, found, inside⟩ := moment?_eq_some complete id
  constructor
  · rintro ⟨other, same, late⟩
    cases found.symm.trans same
    rwa [inside] at late
  · exact fun late => ⟨made, found, inside ▸ late⟩

end Complete

theorem numbers_date_moments (complete : calendar.Complete) : Dates calendar where
  dated := moment?_eq_some complete
  adjoint moment id nonneg below := by
    rw [givenSince_iff complete]
    exact floorAt_le_iff id nonneg below
  least moment unsaturated := by
    simp only [givenSince_iff complete]
    exact floorAt_isLeast (Int.not_lt.mp (mt floorAt_eq_max_iff.mpr unsaturated))
  saturates moment := by
    rw [firstAt, floorAt_eq_max_iff]
    simp only [givenSince_iff complete, Int.not_le]
    constructor
    · exact fun after id => Int.lt_of_le_of_lt id.timestamp_le_lastMillisecond after
    · exact fun after => after ⟨Int64.maxValue⟩
  monotone earlier later := floorAt_mono
  truncates moment since unsaturated := by
    have exact_ : (firstAt calendar moment).timestamp = calendar.millisecond moment :=
      timestamp_floorAt since (Int.not_lt.mp (mt floorAt_eq_max_iff.mpr unsaturated))
    obtain ⟨made, found, inside⟩ := moment?_eq_some complete (firstAt calendar moment)
    exact ⟨by rw [moment?, exact_], made, found, inside.trans exact_⟩

/-- Moments as seconds of the Unix epoch with nanoseconds, in the years of a calendar. -/
def secondsAndNanoseconds : Calendar (Int × Nat) where
  moment? time :=
    if Calendar.earliest ≤ time ∧ time ≤ Calendar.latest then
      some (time / 1000, (time % 1000).toNat * 1000000)
    else Option.none
  millisecond moment := millisecondOf moment.1 moment.2

theorem secondsAndNanoseconds_complete : secondsAndNanoseconds.Complete where
  reaches time since within := ⟨_, if_pos ⟨since, within⟩⟩
  begins time moment found := by
    obtain ⟨-, same⟩ := Option.ite_none_right_eq_some.mp found
    cases same
    simp only [secondsAndNanoseconds, millisecondOf]
    omega

/-- The first moment that has a number but zero, with the rest of its millisecond. -/
theorem secondsAndNanoseconds_dated :
    Dates secondsAndNanoseconds ∧
      firstAt secondsAndNanoseconds (1609459200, 1999999) = ⟨4194304⟩ ∧
      (firstAt secondsAndNanoseconds (1609459200, 1999999)).moment? secondsAndNanoseconds =
        some (1609459200, 1000000) :=
  ⟨numbers_date_moments secondsAndNanoseconds_complete, by decide, by decide⟩

end MessageId
end ChatRelay
