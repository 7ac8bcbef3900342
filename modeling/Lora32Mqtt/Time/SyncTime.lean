import Lora32Mqtt.Lora.Messages
import Lora32Mqtt.Time.LocalTime

/-!
# Waiting for the time (`sync_time`)

SNTP sets the system clock at some moment, or never.  `sync_time` looks at the
clock every two seconds and takes it as set once it shows a year from 2016 on, in
local time.
-/

namespace Lora32Mqtt

open Calendar

def retryCount : Nat := 10

/-- The local variables of the loop, with the member of `timeinfo` that is read. -/
structure SyncLoop where
  now : Int
  retry : Nat
  tmYear : Int

/-- The loop, given what `time()` returns after each wait. -/
def syncLoop (time : Nat → Int) (loop : SyncLoop) : SyncLoop :=
  if loop.tmYear < 2016 - 1900 then
    -- `++retry` is evaluated only if the year is too small.
    if loop.retry + 1 < retryCount then
      syncLoop time
        { now := time (loop.retry + 1)
          retry := loop.retry + 1
          tmYear := (localtimeR (time (loop.retry + 1))).tmYear }
    else { loop with retry := loop.retry + 1 }
  else loop
termination_by retryCount - loop.retry

def syncWaits (time : Nat → Int) : SyncLoop :=
  syncLoop time { now := 0, retry := 0, tmYear := 0 }

def syncTime (time : Nat → Int) : EspErr :=
  if (syncWaits time).retry = retryCount then .espFail else .espOk

/-- The first second of a year in local time. -/
def startOfYear (year : Int) : Int :=
  86400 * (daysBeforeYear year - epochDay) - brtOffset

theorem le_tmYear_iff (year seconds : Int) :
    year ≤ (localtimeR seconds).tmYear + 1900 ↔ startOfYear year ≤ seconds := by
  obtain ⟨date, yearEq, _, _, number⟩ := localtimeR_date seconds
  rw [yearEq, startOfYear]
  constructor
  · intro le
    have before := daysBeforeYear_mono le
    have inYear := date.year_le_dayNumber
    omega
  · intro le
    by_contra less
    have next := daysBeforeYear_mono (show date.year + 1 ≤ year by omega)
    have inYear := date.dayNumber_lt_year
    omega

/-- From this second on a clock counts as set. -/
def clockEpoch : Int := startOfYear 2016

theorem clockEpoch_eq : clockEpoch = 1451617200 := by decide

theorem tmYear_lt_iff (seconds : Int) :
    (localtimeR seconds).tmYear < 2016 - 1900 ↔ seconds < clockEpoch := by
  have year := le_tmYear_iff 2016 seconds
  rw [clockEpoch]
  omega

theorem syncLoop_of_set {time : Nat → Int} {loop : SyncLoop}
    (set : ¬ loop.tmYear < 2016 - 1900) : syncLoop time loop = loop := by
  rw [syncLoop, if_neg set]

/-- The loop ends with the first look at a clock that is set, or after the ninth. -/
structure SyncEnds (time : Nat → Int) (start : Nat) (loop : SyncLoop) : Prop where
  waited : start < loop.retry
  unset : ∀ look, start < look → look < loop.retry → time look < clockEpoch
  ends : loop.retry = retryCount ∨
    loop.retry < retryCount ∧ loop.now = time loop.retry ∧
      clockEpoch ≤ time loop.retry

theorem syncLoop_ends (time : Nat → Int) (loop : SyncLoop)
    (bounded : loop.retry < retryCount) (early : loop.tmYear < 2016 - 1900) :
    SyncEnds time loop.retry (syncLoop time loop) := by
  fun_induction syncLoop time loop with
  | case1 loop _ more induction =>
      by_cases unset : time (loop.retry + 1) < clockEpoch
      · have later := induction more ((tmYear_lt_iff _).mpr unset)
        refine ⟨Nat.lt_of_succ_lt later.waited, fun look after before => ?_, later.ends⟩
        rcases Nat.eq_or_lt_of_le (Nat.succ_le_of_lt after) with rfl | after
        · exact unset
        · exact later.unset look after before
      · rw [syncLoop_of_set (mt (tmYear_lt_iff _).mp unset)]
        refine ⟨Nat.lt_succ_self _, fun look after before => ?_,
          Or.inr ⟨more, rfl, Int.not_lt.mp unset⟩⟩
        exact absurd after (Nat.not_lt.mpr (Nat.le_of_lt_succ before))
  | case2 loop _ last =>
      have ninth : loop.retry + 1 = retryCount :=
        Nat.le_antisymm bounded (Nat.not_lt.mp last)
      refine ⟨Nat.lt_succ_self _, fun look after before => ?_, Or.inl ninth⟩
      exact absurd after (Nat.not_lt.mpr (Nat.le_of_lt_succ before))
  | case3 loop late => exact absurd early late

theorem syncWaits_ends (time : Nat → Int) : SyncEnds time 0 (syncWaits time) :=
  syncLoop_ends time { now := 0, retry := 0, tmYear := 0 } (by decide) (by decide)

theorem syncWaits_le {time : Nat → Int} {look : Nat} (positive : 0 < look)
    (set : clockEpoch ≤ time look) : (syncWaits time).retry ≤ look := by
  by_contra beyond
  have unset := (syncWaits_ends time).unset look positive (Nat.not_le.mp beyond)
  exact Int.not_lt.mpr set unset

theorem syncTime_ok {time : Nat → Int} (ok : syncTime time = .espOk) :
    (syncWaits time).retry < retryCount ∧
      (syncWaits time).now = time (syncWaits time).retry ∧
      clockEpoch ≤ time (syncWaits time).retry := by
  rw [syncTime] at ok
  split at ok
  next => cases ok
  next early => exact (syncWaits_ends time).ends.resolve_left early

theorem syncTime_eq_espOk {time : Nat → Int} {look : Nat} (positive : 0 < look)
    (less : look < retryCount) (set : clockEpoch ≤ time look) :
    syncTime time = .espOk := by
  have inTime := Nat.lt_of_le_of_lt (syncWaits_le positive set) less
  rw [syncTime, if_neg (Nat.ne_of_lt inTime)]

/-- `sync_time` succeeds exactly if one of its nine looks finds the clock set, and
then ends with the first of these, whose value is left in `now`. -/
theorem syncTime_first_set (time : Nat → Int) :
    (syncTime time = .espOk ↔
      ∃ look, 0 < look ∧ look < retryCount ∧ clockEpoch ≤ time look) ∧
      (syncTime time = .espOk →
        IsLeast { look | 0 < look ∧ clockEpoch ≤ time look } (syncWaits time).retry ∧
          (syncWaits time).now = time (syncWaits time).retry) := by
  have ends := syncWaits_ends time
  refine ⟨⟨fun ok => ?_, ?_⟩, fun ok => ?_⟩
  · obtain ⟨less, _, set⟩ := syncTime_ok ok
    exact ⟨_, ends.waited, less, set⟩
  · rintro ⟨look, positive, less, set⟩
    exact syncTime_eq_espOk positive less set
  · obtain ⟨_, now, set⟩ := syncTime_ok ok
    exact ⟨⟨⟨ends.waited, set⟩, fun look found => syncWaits_le found.1 found.2⟩, now⟩

end Lora32Mqtt
