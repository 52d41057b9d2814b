import SkyDaemon.Protocol.Envelope
import SkyDaemon.Protocol.Payloads

/-! The freshness window in exact integers, for every 64-bit timestamp and every non-negative
time. The wrapping subtraction and absolute value accept one distance outside the window,
exactly `2 ^ 63` seconds, and the clock's range keeps every other wrapped distance far outside
of it. -/
namespace SkyDaemon.Protocol

/-- Whole seconds of the wall clock. -/
def Clock.secs (clock : Clock) : Int := clock.wall / nanosPerSec

theorem Clock.secs_nonneg (clock : Clock) : 0 ≤ clock.secs := by
  unfold secs nanosPerSec
  omega

theorem Clock.secs_lt (clock : Clock) : clock.secs < 2 ^ 34 := by
  have bound := clock.wall_lt
  unfold secs nanosPerSec
  omega

theorem Clock.secs_mono {earlier later : Clock} (ordered : earlier.wall ≤ later.wall) :
    earlier.secs ≤ later.secs := by
  unfold secs nanosPerSec
  omega

theorem nowUnix_toInt (clock : Clock) : (nowUnix clock).toInt = clock.secs := by
  have bound := clock.wall_lt
  unfold nowUnix Clock.secs
  rw [Int64.toInt_ofNat_of_lt (by unfold nanosPerSec; omega)]
  rfl

/-- `i64::abs` in a release build leaves the minimum as it is. -/
theorem int64_abs_toInt (x : Int64) :
    x.abs.toInt = if x.toInt = -2 ^ 63 then -2 ^ 63 else (x.toInt.natAbs : Int) := by
  have minimum : x.toBitVec = BitVec.intMin 64 ↔ x.toInt = -2 ^ 63 := by
    rw [← BitVec.toInt_inj, Int64.toInt_toBitVec]
    rfl
  have absolute : x.abs.toInt = if x.toBitVec = BitVec.intMin 64 then (BitVec.intMin 64).toInt
      else (x.toBitVec.toInt.natAbs : Int) := BitVec.toInt_abs_eq_natAbs
  rw [absolute]
  by_cases least : x.toInt = -2 ^ 63
  · rw [if_pos (minimum.mpr least), if_pos least]
    rfl
  · rw [if_neg (fun same => least (minimum.mp same)), if_neg least, Int64.toInt_toBitVec]

/-- The window as a release build checks it. A distance of `2 ^ 63` or more wraps: the minimum
is its own absolute value, and the last thirty seconds below `2 ^ 64` wrap to near zero. -/
theorem timestampIsFresh_wrapping {now timestamp : Int64} (nonneg : 0 ≤ now.toInt) :
    timestampIsFresh now timestamp = true ↔ |now.toInt - timestamp.toInt| ≤ 30 ∨
      now.toInt - timestamp.toInt = 2 ^ 63 ∨ 2 ^ 64 - 30 ≤ now.toInt - timestamp.toInt := by
  have upper := now.toInt_lt
  have timeLower := timestamp.le_toInt
  have timeUpper := timestamp.toInt_lt
  have skew : maxClockSkewSecs.toInt = 30 := rfl
  rw [timestampIsFresh, decide_eq_true_eq, Int64.le_iff_toInt_le, int64_abs_toInt,
    Int64.toInt_sub, skew, abs_le]
  by_cases small : now.toInt - timestamp.toInt < 2 ^ 63
  · have exact : (now.toInt - timestamp.toInt).bmod (2 ^ 64) = now.toInt - timestamp.toInt := by
      apply Int.bmod_eq_of_le <;> omega
    rw [exact]
    split <;> omega
  · have wrapped : (now.toInt - timestamp.toInt).bmod (2 ^ 64) =
        now.toInt - timestamp.toInt - 2 ^ 64 := by
      rw [← Int.sub_bmod_right]
      apply Int.bmod_eq_of_le <;> omega
    rw [wrapped]
    split <;> omega

theorem timestampIsFresh_iff (clock : Clock) (timestamp : Int64) :
    timestampIsFresh (nowUnix clock) timestamp = true ↔
      (clock.secs - timestamp.toInt ≤ 30 ∧ timestamp.toInt - clock.secs ≤ 30) ∨
        clock.secs - timestamp.toInt = 2 ^ 63 := by
  have lower := clock.secs_nonneg
  have upper := clock.secs_lt
  have timeLower := timestamp.le_toInt
  rw [timestampIsFresh_wrapping (by rw [nowUnix_toInt]; exact lower), nowUnix_toInt, abs_le]
  omega

/-- Two instants at which one timestamp is fresh lie at most a minute apart. -/
theorem fresh_within_minute {first second : Clock} {timestamp : Int64}
    (earlier : timestampIsFresh (nowUnix first) timestamp = true)
    (later : timestampIsFresh (nowUnix second) timestamp = true) :
    second.secs - first.secs ≤ 60 := by
  rw [timestampIsFresh_iff] at earlier later
  have := first.secs_lt
  have := second.secs_lt
  have := first.secs_nonneg
  have := second.secs_nonneg
  omega

/-- A timestamp that was fresh and no longer is stays stale from then on. -/
theorem stale_forever {first second third : Clock} {timestamp : Int64}
    (fresh : timestampIsFresh (nowUnix first) timestamp = true)
    (stale : timestampIsFresh (nowUnix second) timestamp = false)
    (ordered : first.wall ≤ second.wall) (ordered' : second.wall ≤ third.wall) :
    timestampIsFresh (nowUnix third) timestamp = false := by
  rw [← Bool.not_eq_true, timestampIsFresh_iff] at stale ⊢
  rw [timestampIsFresh_iff] at fresh
  have := Clock.secs_mono ordered
  have := Clock.secs_mono ordered'
  have := first.secs_nonneg
  have := third.secs_lt
  omega

/-! ## Every wire timestamp

A debug build panics where an operation leaves the range of `i64`. -/

/-- `a - b` with the overflow check of a debug build. -/
def checkedSub (a b : Int64) : Option Int64 :=
  if -2 ^ 63 ≤ a.toInt - b.toInt ∧ a.toInt - b.toInt < 2 ^ 63 then some (a - b) else none

/-- `a.abs()` with the overflow check of a debug build. -/
def checkedAbs (a : Int64) : Option Int64 := if a.toInt = -2 ^ 63 then none else some a.abs

/-- `timestamp_is_fresh` in a debug build; `none` is the panic. -/
def timestampIsFreshDebug (now timestamp : Int64) : Option Bool := do
  let difference ← checkedSub now timestamp
  let distance ← checkedAbs difference
  pure (decide (distance ≤ maxClockSkewSecs))

/-- `verify` at a given current time. -/
def Envelope.verifyAt (envelope : Envelope) (prims : Primitives) (now : Int64)
    (secret : List UInt8) : Bool :=
  if !timestampIsFresh now envelope.timestamp then false
  else Protocol.verify prims secret envelope.kind envelope.timestamp envelope.nonce
    (Text.bytes envelope.payload) envelope.sig

theorem Envelope.verify_eq_verifyAt (envelope : Envelope) (prims : Primitives) (clock : Clock)
    (secret : List UInt8) :
    envelope.verify prims clock secret = envelope.verifyAt prims (nowUnix clock) secret := rfl

theorem Envelope.fresh_of_verifyAt {envelope : Envelope}
    (verified : envelope.verifyAt prims now secret = true) :
    timestampIsFresh now envelope.timestamp = true := by
  unfold verifyAt at verified
  cases fresh : timestampIsFresh now envelope.timestamp with
  | true => rfl
  | false => simp [fresh] at verified

/-- Whoever holds the secret can sign any fresh timestamp. -/
theorem exists_verifyAt_iff (prims : Primitives) (now : Int64) (secret : List UInt8) :
    (∃ envelope : Envelope, envelope.timestamp = timestamp ∧
      envelope.verifyAt prims now secret = true) ↔ timestampIsFresh now timestamp = true := by
  constructor
  · rintro ⟨envelope, rfl, verified⟩
    exact envelope.fresh_of_verifyAt verified
  · intro fresh
    refine ⟨⟨"", timestamp, "", "", sign prims secret "" timestamp "" (Text.bytes "")⟩, rfl, ?_⟩
    have signed : Protocol.verify prims secret "" timestamp "" (Text.bytes "")
        (sign prims secret "" timestamp "" (Text.bytes "")) = true := verify_iff.mpr rfl
    simp [Envelope.verifyAt, fresh, signed]

/-- The checked build agrees with the wrapping one up to a distance of `2 ^ 63`, and panics there. -/
theorem timestampIsFreshDebug_eq {now timestamp : Int64} (nonneg : 0 ≤ now.toInt) :
    timestampIsFreshDebug now timestamp =
      if now.toInt - timestamp.toInt < 2 ^ 63 then some (timestampIsFresh now timestamp) else none := by
  have timeUpper := timestamp.toInt_lt
  by_cases small : now.toInt - timestamp.toInt < 2 ^ 63
  · have subtracts : checkedSub now timestamp = some (now - timestamp) := if_pos ⟨by omega, small⟩
    have exact : (now - timestamp).toInt = now.toInt - timestamp.toInt := by
      rw [Int64.toInt_sub]
      apply Int.bmod_eq_of_le <;> omega
    have absolute : checkedAbs (now - timestamp) = some (now - timestamp).abs := if_neg (by omega)
    rw [if_pos small, timestampIsFreshDebug, subtracts, Option.bind_eq_bind, Option.bind_some, absolute]
    rfl
  · have overflows : checkedSub now timestamp = none := if_neg fun range => small range.2
    rw [if_neg small, timestampIsFreshDebug, overflows]
    rfl

/-- At every non-negative current time, the arithmetic stays in range and only timestamps of the
window can pass exactly for the timestamps less than `2 ^ 63` seconds back; a release build
accepts the window, the distance `2 ^ 63` and those that wrap into the window. The current time is
that of the clock that `verify` reads. -/
theorem freshness_exact_iff (prims : Primitives) (secret : List UInt8) (now timestamp : Int64)
    (nonneg : 0 ≤ now.toInt) :
    (((timestampIsFreshDebug now timestamp).isSome = true ∧
      ∀ envelope : Envelope, envelope.timestamp = timestamp →
        envelope.verifyAt prims now secret = true →
          |now.toInt - timestamp.toInt| ≤ maxClockSkewSecs.toInt) ↔
      now.toInt - timestamp.toInt < 2 ^ 63) ∧
    ((∃ envelope : Envelope, envelope.timestamp = timestamp ∧
      envelope.verifyAt prims now secret = true) ↔
      |now.toInt - timestamp.toInt| ≤ maxClockSkewSecs.toInt ∨
        now.toInt - timestamp.toInt = 2 ^ 63 ∨ 2 ^ 64 - 30 ≤ now.toInt - timestamp.toInt) ∧
    ∀ (clock : Clock) (envelope : Envelope), nowUnix clock = now →
      envelope.verify prims clock secret = envelope.verifyAt prims now secret := by
  have skew : maxClockSkewSecs.toInt = 30 := rfl
  rw [skew]
  refine ⟨?_, ?_, ?_⟩
  · rw [timestampIsFreshDebug_eq nonneg]
    constructor
    · rintro ⟨inRange, -⟩
      by_contra far
      rw [if_neg far] at inRange
      contradiction
    · intro near
      rw [if_pos near]
      refine ⟨rfl, ?_⟩
      rintro envelope rfl verified
      rcases (timestampIsFresh_wrapping nonneg).mp (envelope.fresh_of_verifyAt verified) with
        window | minimum | wrapped
      · exact window
      · omega
      · omega
  · rw [exists_verifyAt_iff]
    exact timestampIsFresh_wrapping nonneg
  · rintro clock envelope rfl
    exact envelope.verify_eq_verifyAt prims clock secret

theorem freshness_exact_recent : (0 : Int) ≤ (1700000000 : Int64).toInt ∧
    ∀ prims secret, (timestampIsFreshDebug 1700000000 1699999990).isSome = true ∧
      ∀ envelope : Envelope, envelope.timestamp = 1699999990 →
        envelope.verifyAt prims 1700000000 secret = true →
          |(1700000000 : Int64).toInt - (1699999990 : Int64).toInt| ≤ maxClockSkewSecs.toInt := by
  have nonneg : (0 : Int) ≤ (1700000000 : Int64).toInt := by decide
  refine ⟨nonneg, fun prims secret => ?_⟩
  apply (freshness_exact_iff prims secret 1700000000 1699999990 nonneg).1.mpr
  decide

/-- A clock in November 2023. -/
def laterClock : Clock := ⟨1700000000 * nanosPerSec, 0, by decide⟩

/-- An envelope signed with the secret, `2 ^ 63` seconds before that clock. -/
def distantEnvelope (prims : Primitives) (secret : List UInt8) : Envelope where
  kind := EnvelopeType.command
  timestamp := -9223372035154775808
  nonce := "n1"
  payload := ""
  sig := sign prims secret EnvelopeType.command (-9223372035154775808) "n1" (Text.bytes "")

theorem distant_timestamp_accepted :
    timestampIsFreshDebug (nowUnix laterClock) (-9223372035154775808) = none ∧
      (∀ prims secret, (distantEnvelope prims secret).verify prims laterClock secret = true) ∧
      laterClock.secs - (-9223372035154775808 : Int64).toInt = 2 ^ 63 := by
  refine ⟨by decide, fun prims secret => ?_, by decide⟩
  rw [Envelope.verify_iff]
  exact ⟨by show timestampIsFresh (nowUnix laterClock) (-9223372035154775808) = true; decide, rfl⟩

end SkyDaemon.Protocol
