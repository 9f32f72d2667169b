import Neubau.Common.TimerBoundaries

/-! The timer's arithmetic in machine integers. Seconds and time points have 64
bits, and the delay given to the loop has 32. A 64-bit operation that overflows
has no result; the cast of the delay keeps its low bits. Where the next boundary
is representable it is computed, and it is the least one after the time. -/

namespace Neubau.Common.Timer

/-- The result of a signed 64-bit operation, if there is one. -/
def int64 (x : ℤ) : Option ℤ := if -2 ^ 63 ≤ x ∧ x < 2 ^ 63 then some x else none

/-- The delay in `nextEpochAlignedTickAfter`. -/
def tickDelay (elapsed : ℤ) (interval : Interval) : Option ℤ :=
  let remainder := elapsed.tmod interval
  if remainder = 0 then some interval.1 else int64 (interval - remainder)

/-- `nextEpochAlignedTickAfter` of a clock with so many ticks in a second. -/
def nextTick (ticks time : ℤ) (interval : Interval) : Option ℤ := do
  let elapsed := time.fdiv ticks
  let delay ← tickDelay elapsed interval
  let seconds ← int64 (elapsed + delay)
  int64 (seconds * ticks)

/-- What `schedule` computes: the boundary, and the delay as `setTimeout` gets it. -/
def scheduleAt (interval : Interval) (now : Readings) : Option (ℤ × ℤ) := do
  let scheduledAt ← nextTick perSecond now.first interval
  let remaining ← int64 (scheduledAt - now.second)
  let delay := max 1 (remaining.tdiv perMillisecond)
  return (scheduledAt, delay.bmod (2 ^ 32))

theorem int64_eq_some {x y : ℤ} : int64 x = some y ↔ (-2 ^ 63 ≤ x ∧ x < 2 ^ 63) ∧ x = y := by
  unfold int64
  split_ifs with h
  · exact ⟨fun hx => ⟨h, Option.some.inj hx⟩, fun hx => congrArg some hx.2⟩
  · exact ⟨nofun, fun hx => absurd hx.1 h⟩

theorem int64_of_le {x : ℤ} (h : 2 ^ 63 ≤ x) : int64 x = none := if_neg (by omega)

theorem int64_of_lt {x : ℤ} (h₀ : 0 ≤ x) (h : x < 2 ^ 63) : int64 x = some x :=
  int64_eq_some.2 ⟨⟨by omega, h⟩, rfl⟩

/-- The first boundary after a time, in ticks. -/
def boundaryAfter (ticks time : ℤ) (interval : Interval) : ℤ :=
  (time / ticks / interval + 1) * interval * ticks

section

variable {ticks time : ℤ} {interval : Interval}

theorem lt_boundaryAfter (hticks : 0 < ticks) : time < boundaryAfter ticks time interval := by
  have hi := interval.2
  have hsec : time < (time / ticks + 1) * ticks := Int.lt_ediv_add_one_mul_self time hticks
  have hint : time / ticks < (time / ticks / interval + 1) * interval :=
    Int.lt_ediv_add_one_mul_self _ hi
  calc time < (time / ticks + 1) * ticks := hsec
    _ ≤ (time / ticks / interval + 1) * interval * ticks :=
        mul_le_mul_of_nonneg_right hint hticks.le

theorem boundaryAfter_le (hticks : 0 < ticks) :
    boundaryAfter ticks time interval ≤ time + interval * ticks := by
  have hi := interval.2
  have hsec : time / ticks * ticks ≤ time := Int.ediv_mul_le time hticks.ne'
  have hint : time / ticks / interval * interval ≤ time / ticks := Int.ediv_mul_le _ hi.ne'
  calc boundaryAfter ticks time interval
      = time / ticks / interval * interval * ticks + interval * ticks := by
        unfold boundaryAfter
        ring
    _ ≤ time / ticks * ticks + interval * ticks := by gcongr
    _ ≤ time + interval * ticks := by gcongr

/-- No boundary is between the time and the first one after it. -/
theorem boundaryAfter_least (hticks : 0 < ticks) {m : ℤ} (h : time < m * interval * ticks) :
    boundaryAfter ticks time interval ≤ m * interval * ticks := by
  have hsec : time / ticks < m * interval := Int.ediv_lt_of_lt_mul hticks h
  have hint : time / ticks / interval < m := Int.ediv_lt_of_lt_mul interval.2 hsec
  unfold boundaryAfter
  have hi := interval.2
  gcongr
  omega

theorem boundaryAfter_mono (hticks : 0 < ticks) {time' : ℤ} (h : time' ≤ time) :
    boundaryAfter ticks time' interval ≤ boundaryAfter ticks time interval :=
  boundaryAfter_least hticks (h.trans_lt (lt_boundaryAfter hticks))

/-- The delay leads to the first boundary, if it is computed, and it is where the
boundary has 63 bits. -/
theorem tickDelay_spec {elapsed : ℤ} (he : 0 ≤ elapsed) (interval : Interval) :
    (∀ delay, tickDelay elapsed interval = some delay →
      0 < delay ∧ elapsed + delay = (elapsed / interval + 1) * interval) ∧
    ((elapsed / interval + 1) * interval < 2 ^ 63 → (tickDelay elapsed interval).isSome) := by
  have hdiv := Int.mul_ediv_add_emod elapsed interval
  have hrem := Int.emod_nonneg elapsed interval.2.ne'
  have hlt := Int.emod_lt_of_pos elapsed interval.2
  unfold tickDelay
  simp only [Int.tmod_eq_emod_of_nonneg he]
  split_ifs with hr
  · refine ⟨fun delay hd => ?_, fun _ => rfl⟩
    obtain rfl := Option.some.inj hd
    rw [hr] at hdiv
    exact ⟨interval.2, by linear_combination -hdiv⟩
  · refine ⟨fun delay hd => ?_, fun hfit => ?_⟩
    · obtain ⟨-, rfl⟩ := int64_eq_some.1 hd
      exact ⟨by omega, by linear_combination -hdiv⟩
    · have hsum : elapsed + (interval - elapsed % interval) =
          (elapsed / interval + 1) * interval := by linear_combination -hdiv
      rw [int64_of_lt (by omega) (by omega)]
      rfl

/-- The machine computes the first boundary where that has 63 bits, and nothing elsewhere. -/
theorem nextTick_eq (hticks : 0 < ticks) (htime : 0 ≤ time) :
    nextTick ticks time interval = int64 (boundaryAfter ticks time interval) := by
  have helapsed : 0 ≤ time / ticks := Int.ediv_nonneg htime hticks.le
  obtain ⟨hdelay, hsome⟩ := tickDelay_spec helapsed interval
  simp only [nextTick, Int.fdiv_eq_ediv_of_nonneg _ hticks.le]
  by_cases hfit : boundaryAfter ticks time interval < 2 ^ 63
  · -- nothing on the way is larger than the result
    have hpos : 0 < boundaryAfter ticks time interval := htime.trans_lt (lt_boundaryAfter hticks)
    have hseconds : 0 < (time / ticks / interval + 1) * interval :=
      (mul_pos_iff_of_pos_right hticks).1 hpos
    have hle : (time / ticks / interval + 1) * interval ≤ boundaryAfter ticks time interval :=
      le_mul_of_one_le_right hseconds.le hticks
    obtain ⟨delay, hd⟩ := Option.isSome_iff_exists.1 (hsome (hle.trans_lt hfit))
    rw [hd, Option.bind_eq_bind, Option.bind_some, (hdelay delay hd).2,
      int64_of_lt hseconds.le (hle.trans_lt hfit)]
    rfl
  · rw [int64_of_le (not_lt.1 hfit)]
    cases hd : tickDelay (time / ticks) interval with
    | none => rfl
    | some delay =>
      rw [Option.bind_eq_bind, Option.bind_some, (hdelay delay hd).2]
      cases hs : int64 ((time / ticks / interval + 1) * interval) with
      | none => rfl
      | some seconds =>
        obtain ⟨-, rfl⟩ := int64_eq_some.1 hs
        exact int64_of_le (not_lt.1 hfit)

/-- Of a clock with ticks finer than a second, and a time after which there is a
representable boundary, the next tick is computed. It is a boundary, later than the
time by at most an interval, with no boundary before it; and an earlier time has no
later tick. -/
theorem next_tick_is_least_boundary (hticks : 1 < ticks) (htime : 0 ≤ time) {m : ℤ}
    (hm : time < m * interval * ticks) (hrep : m * interval * ticks < 2 ^ 63) :
    ∃ t, nextTick ticks time interval = some t ∧
      (∃ k : ℤ, t = k * interval * ticks) ∧ time < t ∧ t ≤ time + interval * ticks ∧
      (∀ k : ℤ, ¬(time < k * interval * ticks ∧ k * interval * ticks < t)) ∧
      ∀ time', 0 ≤ time' → time' ≤ time →
        ∃ t', nextTick ticks time' interval = some t' ∧ t' ≤ t := by
  have hpos : 0 < ticks := by omega
  have hfit (time' : ℤ) (h₀ : 0 ≤ time') (h : time' ≤ time) :
      nextTick ticks time' interval = some (boundaryAfter ticks time' interval) := by
    have hlt := boundaryAfter_least hpos (h.trans_lt hm)
    have hpast : time' < boundaryAfter ticks time' interval := lt_boundaryAfter hpos
    rw [nextTick_eq hpos h₀, int64_of_lt (by omega) (by omega)]
  refine ⟨boundaryAfter ticks time interval, hfit time htime le_rfl, ⟨_, rfl⟩,
    lt_boundaryAfter hpos, boundaryAfter_le hpos, fun k hk => ?_, fun time' h₀ h => ?_⟩
  · exact absurd (boundaryAfter_least hpos hk.1) (not_le.2 hk.2)
  · exact ⟨_, hfit time' h₀ h, boundaryAfter_mono hpos h⟩

/-- Seven-second ticks of a nanosecond clock, half a second past the 20th. -/
theorem next_tick_is_least_boundary_seven :
    ∃ t, nextTick perSecond 20500000000 ⟨7, by decide⟩ = some t ∧ 20500000000 < t := by
  obtain ⟨t, ht, -, hlt, -⟩ := @next_tick_is_least_boundary perSecond 20500000000
    ⟨7, by decide⟩ (by decide) (by decide) 3 (by decide) (by decide)
  exact ⟨t, ht, hlt⟩

/-! ### The delay -/

/-- Without bounds the code computes the first boundary. -/
theorem nextEpochAlignedTickAfter_eq_boundaryAfter (htime : 0 ≤ time) :
    nextEpochAlignedTickAfter time interval = boundaryAfter perSecond time interval := by
  rw [nextEpochAlignedTickAfter_eq, Int.fdiv_eq_ediv_of_nonneg _ perSecond_pos.le,
    Int.tdiv_eq_ediv_of_nonneg (Int.ediv_nonneg htime perSecond_pos.le)]
  rfl

/-- Nothing overflows, and the loop is given the whole milliseconds to the boundary. -/
def Exact (interval : Interval) (now : Readings) : Prop :=
  let scheduledAt := nextEpochAlignedTickAfter now.first interval
  scheduleAt interval now =
    some (scheduledAt, max 1 ((scheduledAt - now.second).tdiv perMillisecond))

instance (interval : Interval) (now : Readings) : Decidable (Exact interval now) :=
  inferInstanceAs (Decidable (_ = _))

/-- A boundary after the first reading is representable, and less than 2^31
milliseconds after the second. -/
def Near (interval : Interval) (now : Readings) : Prop :=
  ∃ m : ℤ, now.first < m * interval * perSecond ∧ m * interval * perSecond < 2 ^ 63 ∧
    m * interval * perSecond < now.second + 2 ^ 31 * perMillisecond

/-- What the timer arms is computed without overflow if the boundary has 63 bits. -/
theorem scheduleAt_eq {now : Readings} (h₁ : 0 ≤ now.first) (h₂ : 0 ≤ now.second)
    (h₂' : now.second < 2 ^ 63) :
    scheduleAt interval now =
      if nextEpochAlignedTickAfter now.first interval < 2 ^ 63 then
        some (nextEpochAlignedTickAfter now.first interval,
          timeoutDelay (nextEpochAlignedTickAfter now.first interval) now.second)
      else none := by
  have hpast : now.first < boundaryAfter perSecond now.first interval :=
    lt_boundaryAfter perSecond_pos
  rw [scheduleAt, nextTick_eq perSecond_pos h₁, nextEpochAlignedTickAfter_eq_boundaryAfter h₁]
  split_ifs with hfit
  · have hremaining : int64 (boundaryAfter perSecond now.first interval - now.second) =
        some (boundaryAfter perSecond now.first interval - now.second) :=
      int64_eq_some.2 ⟨⟨by omega, by omega⟩, rfl⟩
    rw [int64_of_lt (by omega) hfit, Option.bind_eq_bind, Option.bind_some, hremaining]
    rfl
  · rw [int64_of_le (not_lt.1 hfit)]
    rfl

/-- The cast keeps a positive delay exactly if it has 31 bits. -/
theorem bmod_eq_iff {delay : ℤ} (h : 0 < delay) :
    delay.bmod (2 ^ 32) = delay ↔ delay < 2 ^ 31 := by
  constructor
  · intro heq
    have := Int.bmod_lt (x := delay) (m := 2 ^ 32) (by decide)
    omega
  · intro hlt
    exact Int.bmod_eq_of_le (by omega) (by omega)

theorem tdiv_lt_iff {remaining bound : ℤ} (h : 0 < bound) :
    remaining.tdiv perMillisecond < bound ↔ remaining < bound * perMillisecond := by
  have hms : 0 < perMillisecond := by decide
  rcases le_total 0 remaining with hr | hr
  · rw [Int.tdiv_eq_ediv_of_nonneg hr, Int.ediv_lt_iff_lt_mul hms]
  · have hneg : remaining.tdiv perMillisecond ≤ 0 := by
      have := Int.tdiv_nonneg (Int.neg_nonneg_of_nonpos hr) hms.le
      rw [Int.neg_tdiv] at this
      omega
    exact iff_of_true (hneg.trans_lt h) (hr.trans_lt (mul_pos h hms))

/-- At and after the epoch the arithmetic of the timer is exact if and only if a
boundary is near. -/
theorem timer_arithmetic_exact_iff_near {now : Readings} (h₁ : 0 ≤ now.first)
    (h₂ : 0 ≤ now.second) (h₂' : now.second < 2 ^ 63) : Exact interval now ↔ Near interval now := by
  have hboundary : nextEpochAlignedTickAfter now.first interval =
      boundaryAfter perSecond now.first interval := nextEpochAlignedTickAfter_eq_boundaryAfter h₁
  have hnear : Near interval now ↔ boundaryAfter perSecond now.first interval < 2 ^ 63 ∧
      boundaryAfter perSecond now.first interval < now.second + 2 ^ 31 * perMillisecond := by
    constructor
    · rintro ⟨m, hm, hrep, hsoon⟩
      have hle := boundaryAfter_least perSecond_pos hm
      exact ⟨hle.trans_lt hrep, hle.trans_lt hsoon⟩
    · rintro ⟨hrep, hsoon⟩
      exact ⟨_, lt_boundaryAfter perSecond_pos, hrep, hsoon⟩
  have hcast : (max 1 ((boundaryAfter perSecond now.first interval - now.second).tdiv
      perMillisecond)).bmod (2 ^ 32) = max 1 ((boundaryAfter perSecond now.first interval -
      now.second).tdiv perMillisecond) ↔
      boundaryAfter perSecond now.first interval < now.second + 2 ^ 31 * perMillisecond := by
    rw [bmod_eq_iff (lt_of_lt_of_le one_pos (le_max_left _ _)), max_lt_iff,
      tdiv_lt_iff (by decide), sub_lt_iff_lt_add']
    exact and_iff_right (by decide)
  rw [hnear, Exact, scheduleAt_eq h₁ h₂ h₂', hboundary]
  split_ifs with hfit
  · simp only [Option.some.injEq, Prod.mk.injEq, true_and, timeoutDelay, hcast, hfit]
  · exact iff_of_false nofun fun hn => hfit hn.1

/-- Five seconds are near. -/
theorem timer_arithmetic_exact_iff_near_five : Exact ⟨5, by decide⟩ ⟨0, 0⟩ :=
  (timer_arithmetic_exact_iff_near (by decide) (by decide) (by decide)).2
    ⟨1, by decide, by decide, by decide⟩

/-- Thirty days, as any positive number of seconds, are a valid interval. The delay to
the boundary has 32 bits, and the loop is given a negative one; of the largest interval
there is no boundary to compute. -/
theorem thirty_days_become_negative :
    scheduleAt ⟨2592000, by decide⟩ ⟨0, 0⟩ = some (2592000000000000, -1702967296) ∧
    scheduleAt ⟨2 ^ 63 - 1, by decide⟩ ⟨0, 0⟩ = none ∧
    ¬∀ (interval : Interval) (now : Readings), interval.1 < 2 ^ 63 → 0 ≤ now.first →
      0 ≤ now.second → now.second < 2 ^ 63 → Exact interval now := by
  refine ⟨by decide, by decide, fun h => ?_⟩
  have hexact := h ⟨2592000, by decide⟩ ⟨0, 0⟩ (by decide) (by decide) (by decide) (by decide)
  exact absurd hexact (by decide)

end

end Neubau.Common.Timer
