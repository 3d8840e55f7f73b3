import Blive.Misc.Binary64
import Blive.Adapters.Ib.MarketData

/-!
# The window a duration covers

The request for daily bars counts the days of the window with a ceiling that is right for whole
seconds: a window that reaches into its last day by less than a second loses that day. The
request for shorter bars drops the fraction of a second. These are the windows whose first bars
are left out.
-/

namespace Blive

/-- A `datetime` of the years 1 to 9999, with an offset of less than a day. -/
def Datetime.Representable (t : Datetime) : Prop :=
  |t.utcOffset.getD 0| < 86400000000 ∧ -62135596800000000 ≤ t.micros + t.utcOffset.getD 0 ∧
    t.micros + t.utcOffset.getD 0 ≤ 253402300799999999

instance (t : Datetime) : Decidable t.Representable := inferInstanceAs (Decidable (_ ∧ _))

/-- The length of a unit in microseconds; a day has 24 hours, a year 365 days. -/
def DurationUnit.micros : DurationUnit → Int
  | .seconds => 1000000
  | .days => 86400 * 1000000
  | .years => 365 * 86400 * 1000000

def IbDuration.micros (duration : IbDuration) : Int := duration.count * duration.unit.micros

/-- The span of that duration which ends at `stop` covers `start`. -/
def Covers (duration : IbDuration) (start stop : Datetime) : Prop :=
  stop.micros - duration.micros ≤ start.micros

/-- Whatever bar lies inside the window lies in the span of the request. -/
def NothingLeftOut (start stop : Datetime) (freq : BarFreq) : Prop :=
  ∀ instrument whatToShow useRth request,
    historicalRequest instrument freq start stop whatToShow useRth = .ok request →
    ∀ opens closes, start.micros ≤ opens → opens < closes → closes ≤ stop.micros →
      request.endDateTime.micros - request.duration.micros ≤ opens ∧
        closes ≤ request.endDateTime.micros

/-- The length of the window in microseconds. -/
def windowMicros (start stop : Datetime) : Int := stop.micros - start.micros

/-- The whole days of the window. -/
def wholeDays (start stop : Datetime) : Int := windowMicros start stop / 86400000000

/-- The microseconds past the last whole day. -/
def restMicros (start stop : Datetime) : Int := windowMicros start stop % 86400000000

/-- The window reaches into its last day by a second or, when it is longer than 2^33 seconds, by
so much that the floats round it up to one. -/
def ReachesNextDay (start stop : Datetime) : Prop :=
  1000000 ≤ restMicros start stop ∨
    2 ^ 33 < 86400 * (wholeDays start stop + 1) ∧
      86400 * (wholeDays start stop + 1) ≤ nearestFloat (totalSeconds start stop + 86399)

/-- The window for daily bars consists of whole days, or has none, or reaches the next day, or is
asked for in years that hold one day more than its whole days. -/
def DaysSuffice (start stop : Datetime) : Prop :=
  restMicros start stop = 0 ∨ wholeDays start stop = 0 ∨ ReachesNextDay start stop ∨
    365 < wholeDays start stop ∧ ¬ 365 ∣ wholeDays start stop

/-- The window for shorter bars is of a minute at most, or of whole seconds. -/
def SecondsSuffice (start stop : Datetime) : Prop :=
  windowMicros start stop ≤ 60000000 ∨ 1000000 ∣ windowMicros start stop

variable {start stop : Datetime}

/-! ## The float number of seconds -/

theorem windowMicros_lt (hstart : start.Representable) (hstop : stop.Representable) :
    windowMicros start stop < 86400000000 * 3700000 := by
  obtain ⟨hoffset, hlow, -⟩ := hstart
  obtain ⟨hoffset', -, hhigh⟩ := hstop
  rw [abs_lt] at hoffset hoffset'
  unfold windowMicros
  omega

theorem le_totalSeconds_of_float {start stop : Datetime} {a : Decimal} (ha : IsBinary64 a)
    (hnonneg : 0 ≤ a) (h : a * 1000000 ≤ (windowMicros start stop : Decimal)) :
    a ≤ totalSeconds start stop := by
  refine ha.le_nearestFloat hnonneg ?_
  rw [le_div_iff₀ (by norm_num)]
  exact_mod_cast h

theorem le_totalSeconds {n : ℤ} (hn : 0 ≤ n) (hlt : n < 2 ^ 53)
    (h : n * 1000000 ≤ windowMicros start stop) : (n : Decimal) ≤ totalSeconds start stop := by
  have hfloat : IsBinary64 (n : Decimal) := isBinary64_intCast (by rwa [abs_of_nonneg hn])
  refine le_totalSeconds_of_float hfloat (by exact_mod_cast hn) ?_
  exact_mod_cast h

theorem totalSeconds_pos (h : 0 < windowMicros start stop) : 0 < totalSeconds start stop := by
  have hfloat : IsBinary64 (1 / 2 ^ 20) := ⟨1, -20, by norm_num [zpow_neg], by norm_num, by omega⟩
  have hmicros : (1 : Decimal) ≤ windowMicros start stop := by exact_mod_cast h
  have hle : 1 / 2 ^ 20 ≤ totalSeconds start stop :=
    le_totalSeconds_of_float hfloat (by norm_num) (by linarith)
  exact lt_of_lt_of_le (by norm_num) hle

theorem totalSeconds_le_of_float {a : Decimal} (ha : IsBinary64 a)
    (hnonneg : 0 ≤ windowMicros start stop)
    (h : (windowMicros start stop : Decimal) ≤ a * 1000000) : totalSeconds start stop ≤ a := by
  have hdiv : (0 : Decimal) ≤ (windowMicros start stop : Decimal) / (1000000 : ℤ) :=
    div_nonneg (by exact_mod_cast hnonneg) (by norm_num)
  refine ha.nearestFloat_le hdiv ?_
  rw [div_le_iff₀ (by norm_num)]
  exact_mod_cast h

/-- The last float of a grid of `2 ^ -20` below a whole number. -/
theorem isBinary64_sub {n : ℤ} (hn : 0 < n) (hle : n ≤ 2 ^ 33) :
    IsBinary64 ((n : Decimal) - 1 / 2 ^ 20) := by
  refine ⟨n * 2 ^ 20 - 1, -20, ?_, ?_, by omega⟩
  · push_cast
    rw [zpow_neg]
    norm_num
    ring
  · rw [abs_of_pos (by omega)]
    omega

/-- A microsecond is more than a unit of that grid. -/
theorem totalSeconds_lt {n : ℤ} (hle : n ≤ 2 ^ 33) (hnonneg : 0 ≤ windowMicros start stop)
    (h : windowMicros start stop < n * 1000000) :
    totalSeconds start stop ≤ n - 1 / 2 ^ 20 := by
  refine totalSeconds_le_of_float (isBinary64_sub (by omega) hle) hnonneg ?_
  have hmicros : (windowMicros start stop : Decimal) ≤ n * 1000000 - 1 := by
    have hint : windowMicros start stop ≤ n * 1000000 - 1 := by omega
    exact_mod_cast hint
  linarith

/-! ## Daily bars -/

/-- The sum whose quotient by a day is taken as the ceiling. -/
def secondsSum (start stop : Datetime) : Decimal := nearestFloat (totalSeconds start stop + 86399)

/-- The duration a number of days is asked for by. -/
def dayDuration (days : Int) : IbDuration :=
  if 365 < days then ⟨max 1 ((days + 364) / 365), .years⟩ else ⟨days, .days⟩

theorem durationStrForRange_daily (h : 0 < windowMicros start stop) :
    durationStrForRange start stop .oneDay =
      dayDuration (max 1 (secondsSum start stop / 86400).floor) := by
  have hpos : ¬ totalSeconds start stop ≤ 0 := not_le.mpr (totalSeconds_pos h)
  rw [durationStrForRange, if_neg hpos, if_pos rfl]
  rfl

/-- A number of days that exceeds the whole days of the window covers it, and so does their own
number where nothing is left of the window. -/
theorem covers_dayDuration {days : Int} (hdays : wholeDays start stop ≤ days)
    (h : restMicros start stop = 0 ∨ wholeDays start stop < days) :
    Covers (dayDuration days) start stop := by
  have hsplit := Int.mul_ediv_add_emod (windowMicros start stop) 86400000000
  have hrest := Int.emod_lt_of_pos (windowMicros start stop) (b := 86400000000) (by norm_num)
  unfold Covers dayDuration
  unfold wholeDays at hdays h
  unfold restMicros at h
  unfold windowMicros at hdays h hsplit hrest
  split_ifs
  · simp only [IbDuration.micros, DurationUnit.micros]
    omega
  · simp only [IbDuration.micros, DurationUnit.micros]
    omega

/-- The whole days alone cover a window with a rest exactly where they are asked for in years that
hold one day more. -/
theorem covers_wholeDays_iff (hrest : restMicros start stop ≠ 0) :
    Covers (dayDuration (wholeDays start stop)) start stop ↔
      365 < wholeDays start stop ∧ ¬ 365 ∣ wholeDays start stop := by
  have hsplit := Int.mul_ediv_add_emod (windowMicros start stop) 86400000000
  have hlt := Int.emod_lt_of_pos (windowMicros start stop) (b := 86400000000) (by norm_num)
  have hnonneg := Int.emod_nonneg (windowMicros start stop) (b := 86400000000) (by norm_num)
  have hpos : 0 < restMicros start stop := lt_of_le_of_ne hnonneg hrest.symm
  unfold Covers dayDuration
  split_ifs with hyears
  · simp only [IbDuration.micros, DurationUnit.micros, hyears, true_and]
    unfold wholeDays restMicros windowMicros at *
    omega
  · simp only [IbDuration.micros, DurationUnit.micros, hyears, false_and, iff_false]
    unfold wholeDays restMicros windowMicros at *
    omega

theorem wholeDays_lt (hstart : start.Representable) (hstop : stop.Representable) :
    wholeDays start stop < 3700000 := by
  have h := windowMicros_lt hstart hstop
  unfold wholeDays
  omega

/-- The sum lies past a whole number of seconds where the window does. -/
theorem le_secondsSum {n : ℤ} (hn : 0 ≤ n) (hlt : n + 86399 < 2 ^ 53)
    (h : n * 1000000 ≤ windowMicros start stop) : ((n + 86399 : ℤ) : Decimal) ≤
      secondsSum start stop := by
  have hfloat : IsBinary64 ((n + 86399 : ℤ) : Decimal) :=
    isBinary64_intCast (by rwa [abs_of_nonneg (by omega)])
  refine hfloat.le_nearestFloat (by exact_mod_cast (by omega : 0 ≤ n + 86399)) ?_
  have hseconds := le_totalSeconds hn (by omega) h
  push_cast
  linarith

theorem wholeDays_le_floor (hstart : start.Representable) (hstop : stop.Representable)
    (h : 0 < windowMicros start stop) :
    wholeDays start stop ≤ (secondsSum start stop / 86400).floor := by
  have hlt := wholeDays_lt hstart hstop
  have hnonneg : 0 ≤ wholeDays start stop := Int.ediv_nonneg h.le (by norm_num)
  have hwhole : 86400 * wholeDays start stop * 1000000 ≤ windowMicros start stop := by
    unfold wholeDays
    omega
  have hle := le_secondsSum (by omega) (by omega) hwhole
  refine Rat.le_floor_iff.mpr ?_
  rw [le_div_iff₀ (by norm_num)]
  push_cast at hle
  linarith

/-- The ceiling counts the last day exactly where the window reaches it. -/
theorem wholeDays_lt_floor_iff (hstart : start.Representable) (hstop : stop.Representable)
    (h : 0 < windowMicros start stop) :
    wholeDays start stop < (secondsSum start stop / 86400).floor ↔ ReachesNextDay start stop := by
  have hlt := wholeDays_lt hstart hstop
  have hnonneg : 0 ≤ wholeDays start stop := Int.ediv_nonneg h.le (by norm_num)
  have hfloor : wholeDays start stop < (secondsSum start stop / 86400).floor ↔
      ((86400 * (wholeDays start stop + 1) : ℤ) : Decimal) ≤ secondsSum start stop := by
    rw [← Int.add_one_le_iff, Rat.le_floor_iff, le_div_iff₀ (by norm_num), mul_comm]
    norm_cast
  rw [hfloor]
  constructor
  · intro hle
    by_cases hrest : 1000000 ≤ restMicros start stop
    · exact .inl hrest
    by_cases hlong : 2 ^ 33 < 86400 * (wholeDays start stop + 1)
    · exact .inr ⟨hlong, by exact_mod_cast hle⟩
    · -- In a short window both roundings stay below the next day.
      have hshort : windowMicros start stop < (86400 * wholeDays start stop + 1) * 1000000 := by
        unfold restMicros at hrest
        unfold wholeDays
        omega
      have hseconds := totalSeconds_lt (by omega) h.le hshort
      have hpos := totalSeconds_pos h
      have hsum : secondsSum start stop ≤
          ((86400 * (wholeDays start stop + 1) : ℤ) : Decimal) - 1 / 2 ^ 20 := by
        refine (isBinary64_sub (by omega) (not_lt.mp hlong)).nearestFloat_le (by linarith) ?_
        push_cast at hseconds ⊢
        linarith
      linarith
  · rintro (hrest | ⟨-, hle⟩)
    · have hreached : (86400 * wholeDays start stop + 1) * 1000000 ≤ windowMicros start stop := by
        unfold restMicros at hrest
        unfold wholeDays
        omega
      refine le_trans ?_ (le_secondsSum (by omega) (by omega) hreached)
      exact_mod_cast (by omega : 86400 * (wholeDays start stop + 1) ≤
        86400 * wholeDays start stop + 1 + 86399)
    · exact_mod_cast hle

theorem covers_daily_iff (hstart : start.Representable) (hstop : stop.Representable)
    (h : 0 < windowMicros start stop) :
    Covers (durationStrForRange start stop .oneDay) start stop ↔ DaysSuffice start stop := by
  have hle := wholeDays_le_floor hstart hstop h
  have hreaches := wholeDays_lt_floor_iff hstart hstop h
  have hnonneg : 0 ≤ wholeDays start stop := Int.ediv_nonneg h.le (by norm_num)
  rw [durationStrForRange_daily h, DaysSuffice]
  by_cases hrest : restMicros start stop = 0
  · simp only [hrest, true_or, iff_true]
    exact covers_dayDuration (le_max_of_le_right hle) (.inl hrest)
  by_cases hzero : wholeDays start stop = 0
  · simp only [hzero, true_or, or_true, iff_true]
    exact covers_dayDuration (le_max_of_le_right hle) (.inr (by omega))
  by_cases hnext : ReachesNextDay start stop
  · simp only [hnext, true_or, or_true, iff_true]
    exact covers_dayDuration (le_max_of_le_right hle)
      (.inr (lt_max_of_lt_right (hreaches.mpr hnext)))
  · have hfloor : (secondsSum start stop / 86400).floor = wholeDays start stop :=
      le_antisymm (not_lt.mp (mt hreaches.mp hnext)) hle
    have hdays : max 1 (wholeDays start stop) = wholeDays start stop := by omega
    rw [hfloor, hdays, covers_wholeDays_iff hrest]
    simp only [hrest, hzero, hnext, false_or]

/-! ## Shorter bars -/

/-- In a window of a day at most, the float has the whole seconds of the window. -/
theorem floor_totalSeconds (h : 0 < windowMicros start stop)
    (hday : windowMicros start stop ≤ 86400000000) :
    (totalSeconds start stop).floor = windowMicros start stop / 1000000 := by
  have hbelow : windowMicros start stop / 1000000 ≤ (totalSeconds start stop).floor :=
    Rat.le_floor_iff.mpr (le_totalSeconds (by omega) (by omega) (by omega))
  have habove := totalSeconds_lt (n := windowMicros start stop / 1000000 + 1) (by omega) h.le
    (by omega)
  refine le_antisymm ?_ hbelow
  by_contra hgt
  have hle := Rat.le_floor_iff.mp (not_le.mp hgt)
  push_cast at hle habove
  linarith

theorem covers_seconds_iff {freq : BarFreq} (hfreq : freq ≠ .oneDay)
    (h : 0 < windowMicros start stop) (hday : windowMicros start stop ≤ 86400000000) :
    Covers (durationStrForRange start stop freq) start stop ↔ SecondsSuffice start stop := by
  have hpos : ¬ totalSeconds start stop ≤ 0 := not_le.mpr (totalSeconds_pos h)
  have hduration : durationStrForRange start stop freq =
      ⟨min (max 60 (windowMicros start stop / 1000000)) 86400, .seconds⟩ := by
    rw [durationStrForRange, if_neg hpos, if_neg hfreq, floor_totalSeconds h hday]
  rw [hduration]
  simp only [Covers, SecondsSuffice, IbDuration.micros, DurationUnit.micros]
  unfold windowMicros at *
  omega

/-! ## The requests -/

/-- What the request leaves out is what its duration does not cover. -/
theorem nothingLeftOut_of_covers {freq : BarFreq}
    (h : Covers (durationStrForRange start stop freq) start stop) :
    NothingLeftOut start stop freq := by
  intro instrument whatToShow useRth request hrequest opens closes hopens hbar hcloses
  obtain ⟨-, -, contract, -, rfl⟩ := historicalRequest_eq_ok_iff.mp hrequest
  have hspan : stop.micros - (durationStrForRange start stop freq).micros ≤ opens := h.trans hopens
  exact ⟨hspan, hcloses⟩

/-- The duration covers the window, and no bar inside it is left out of the request, exactly in
the windows whose days or seconds suffice. -/
theorem durationCovers_iff (hstart : start.Representable) (hstop : stop.Representable)
    (hwindow : start.micros < stop.micros) (freq : BarFreq) :
    ((freq = .oneDay ∨ windowMicros start stop ≤ 86400000000) →
        Covers (durationStrForRange start stop freq) start stop ∧
          NothingLeftOut start stop freq) ↔
      (freq = .oneDay → DaysSuffice start stop) ∧
        (freq ≠ .oneDay → windowMicros start stop ≤ 86400000000 → SecondsSuffice start stop) := by
  have hpos : 0 < windowMicros start stop := Int.sub_pos.mpr hwindow
  have hcovers : Covers (durationStrForRange start stop freq) start stop ∧
      NothingLeftOut start stop freq ↔ Covers (durationStrForRange start stop freq) start stop :=
    and_iff_left_of_imp nothingLeftOut_of_covers
  rw [hcovers]
  by_cases hfreq : freq = .oneDay
  · subst hfreq
    simp [covers_daily_iff hstart hstop hpos]
  · simp only [hfreq, false_or, false_imp_iff, true_and, ne_eq, not_false_eq_true, true_imp_iff]
    exact forall_congr' fun hday => covers_seconds_iff hfreq hpos hday

/-- The epoch. -/
def midnight : Datetime := ⟨0, some 0⟩

/-- A day later and half a second. -/
def justPastMidnight : Datetime := ⟨86400500000, some 0⟩

/-- A day and half a second are asked for as one day. -/
theorem not_durationCovers :
    ¬ ∀ (start stop : Datetime) (freq : BarFreq), start.Representable → stop.Representable →
      start.micros < stop.micros →
      (freq = .oneDay ∨ windowMicros start stop ≤ 86400000000) →
        Covers (durationStrForRange start stop freq) start stop ∧
          NothingLeftOut start stop freq := by
  intro h
  have hduration : durationStrForRange midnight justPastMidnight .oneDay = ⟨1, .days⟩ := by
    decide +kernel
  have hcovers := (h midnight justPastMidnight .oneDay (by decide) (by decide) (by decide)
    (.inl rfl)).1
  rw [hduration] at hcovers
  revert hcovers
  unfold Covers
  decide

/-- A window of thirty days. -/
theorem durationCovers_thirtyDays :
    Covers (durationStrForRange midnight ⟨30 * 86400000000, some 0⟩ .oneDay) midnight
        ⟨30 * 86400000000, some 0⟩ ∧
      NothingLeftOut midnight ⟨30 * 86400000000, some 0⟩ .oneDay :=
  (durationCovers_iff (by decide) (by decide) (by decide) .oneDay).mpr
    ⟨fun _ => .inl (by decide), fun h => absurd rfl h⟩ (.inl rfl)

end Blive
