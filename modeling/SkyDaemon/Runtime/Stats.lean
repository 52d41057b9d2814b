import SkyDaemon.Agent.Messages
import SkyDaemon.Foundation.Binary64
import SkyDaemon.Runtime.Operations

/-! Samples of a container: the counters of Docker's answer and what `parse_docker_stats` makes
of them. The percentage is computed in doubles; it is compared with exact arithmetic. -/
namespace SkyDaemon.Runtime
open Json Binary64
open Agent (Stats)

structure CpuUsage where
  totalUsage : UInt64
  deriving DecidableEq

structure CpuStats where
  cpuUsage : CpuUsage
  systemCpuUsage : UInt64
  onlineCpus : UInt64
  deriving DecidableEq

structure MemoryDetailStats where
  cache : UInt64
  deriving DecidableEq

structure MemoryStats where
  usage : UInt64
  limit : UInt64
  stats : MemoryDetailStats
  deriving DecidableEq

structure NetworkStats where
  rxBytes : UInt64
  txBytes : UInt64
  deriving DecidableEq

structure DockerStatsResponse where
  cpuStats : CpuStats
  precpuStats : CpuStats
  memoryStats : MemoryStats
  networks : HashMap String NetworkStats

/-! ## Decoding

Every field may be absent; a field that is there must have its type. -/

def counter : String → Fields → Option UInt64 := withDefault 0 Agent.asUInt64

def CpuUsage.decode : Decoder CpuUsage := asStruct ["total_usage"] fun fields => do
  pure ⟨← counter "total_usage" fields⟩

def CpuStats.absent : CpuStats := ⟨⟨0⟩, 0, 0⟩

def CpuStats.decode : Decoder CpuStats := asStruct ["cpu_usage", "system_cpu_usage", "online_cpus"] fun fields => do
  let cpuUsage ← withDefault ⟨0⟩ CpuUsage.decode "cpu_usage" fields
  let systemCpuUsage ← counter "system_cpu_usage" fields
  let onlineCpus ← counter "online_cpus" fields
  pure { cpuUsage, systemCpuUsage, onlineCpus }

def MemoryDetailStats.decode : Decoder MemoryDetailStats := asStruct ["cache"] fun fields => do
  pure ⟨← counter "cache" fields⟩

def MemoryStats.decode : Decoder MemoryStats := asStruct ["usage", "limit", "stats"] fun fields => do
  let usage ← counter "usage" fields
  let limit ← counter "limit" fields
  let stats ← withDefault ⟨0⟩ MemoryDetailStats.decode "stats" fields
  pure { usage, limit, stats }

def NetworkStats.decode : Decoder NetworkStats := asStruct ["rx_bytes", "tx_bytes"] fun fields => do
  let rxBytes ← counter "rx_bytes" fields
  let txBytes ← counter "tx_bytes" fields
  pure { rxBytes, txBytes }

def DockerStatsResponse.decode : Decoder DockerStatsResponse :=
  asStruct ["cpu_stats", "precpu_stats", "memory_stats", "networks"] fun fields => do
    let cpuStats ← withDefault CpuStats.absent CpuStats.decode "cpu_stats" fields
    let precpuStats ← withDefault CpuStats.absent CpuStats.decode "precpu_stats" fields
    let memoryStats ← withDefault ⟨0, 0, ⟨0⟩⟩ MemoryStats.decode "memory_stats" fields
    let networks ← withDefault ∅ (asMap NetworkStats.decode) "networks" fields
    pure { cpuStats, precpuStats, memoryStats, networks }

/-! ## Conversion -/

/-- The formula of `docker stats`, in doubles. -/
def cpuPercent (cur prev : CpuStats) : Float :=
  let cpuDelta := cur.cpuUsage.totalUsage.toFloat - prev.cpuUsage.totalUsage.toFloat
  let systemDelta := cur.systemCpuUsage.toFloat - prev.systemCpuUsage.toFloat
  if systemDelta ≤ 0.0 ∨ cpuDelta < 0.0 then 0.0
  else
    let onlineCpus := if cur.onlineCpus = 0 then 1.0 else cur.onlineCpus.toFloat
    cpuDelta / systemDelta * onlineCpus * 100.0

/-- The counters of the networks in the order of the map's iteration; sums wrap around. -/
def totals : List NetworkStats → UInt64 × UInt64 :=
  List.foldl (fun (rx, tx) net => (rx + net.rxBytes, tx + net.txBytes)) (0, 0)

def parseDockerStats (raw : DockerStatsResponse) : Stats :=
  let (rx, tx) := totals (raw.networks.entries.map (·.2))
  -- `saturating_sub`
  let memUsed := if raw.memoryStats.usage < raw.memoryStats.stats.cache then 0
    else raw.memoryStats.usage - raw.memoryStats.stats.cache
  { cpuPercent := (cpuPercent raw.cpuStats raw.precpuStats).toBits
    memUsedBytes := memUsed
    memLimitBytes := raw.memoryStats.limit
    netRxBytes := rx
    netTxBytes := tx }

/-! ## The percentage -/

theorem holds_one : Holds 1.0 (1 : ℕ) := by
  have value : ((2 ^ 52 : ℕ) : ℚ) * 2 ^ (-52 : ℤ) = (1 : ℕ) := by norm_num
  rw [← value]
  exact .finite (show (1.0 : Float).toModel.unpack = .finite .positive (2 ^ 52) (-52) (by decide) from rfl)
    ⟨by norm_num, by norm_num, by norm_num, by norm_num⟩

theorem holds_hundred : Holds 100.0 100 := by
  have value : ((25 * 2 ^ 48 : ℕ) : ℚ) * 2 ^ (-46 : ℤ) = 100 := by norm_num
  rw [← value]
  exact .finite (show (100.0 : Float).toModel.unpack = .finite .positive (25 * 2 ^ 48) (-46) (by decide) from rfl)
    ⟨by norm_num, by norm_num, by norm_num, by norm_num⟩

/-- A converted counter is a whole number again. -/
theorem counter_holds (n : UInt64) : ∃ k : ℕ, (k : ℚ) ≤ 2 ^ (64 : ℤ) ∧ RoundsTo n.toNat k ∧ Holds n.toFloat k := by
  obtain ⟨v, rounds, holds⟩ := holds_toFloat n
  obtain ⟨k, rfl⟩ := rounds.whole _ rfl
  exact ⟨k, rounds.atMost _ (short_pow 64) (by exact_mod_cast n.toNat_lt.le), rounds, holds⟩

theorem whole_inRange {n : ℕ} (pos : 0 < n) (le : (n : ℚ) ≤ 2 ^ (64 : ℤ)) : InRange n := by
  have large : (2 : ℚ) ^ (0 : ℤ) ≤ n := by rw [zpow_zero]; exact_mod_cast pos
  exact .of_bounds large le (by norm_num) (by norm_num)

/-- The difference of two counters is below zero or a whole number that may be zero. -/
theorem delta_holds {a b : Float} {j k : ℕ} (ha : Holds a j) (hb : Holds b k) (hj : (j : ℚ) ≤ 2 ^ (64 : ℤ))
    (hk : (k : ℚ) ≤ 2 ^ (64 : ℤ)) :
    (j < k ∧ Negative (a - b)) ∨
      ∃ d : ℕ, k ≤ j ∧ (d : ℚ) ≤ 2 ^ (64 : ℤ) ∧ RoundsTo (j - k : ℕ) d ∧ Holds (a - b) d := by
  rcases lt_or_ge j k with lt | ge
  · have value : |(j : ℚ) - k| = (k - j : ℕ) := by
      rw [abs_sub_comm, abs_of_nonneg (sub_nonneg.mpr (by exact_mod_cast lt.le)), Nat.cast_sub lt.le]
    have small : ((k - j : ℕ) : ℚ) ≤ 2 ^ (64 : ℤ) := le_trans (by exact_mod_cast Nat.sub_le k j) hk
    have range : InRange |(j : ℚ) - k| := by
      rw [value]
      exact whole_inRange (by omega) small
    exact .inl ⟨lt, (holds_sub ha hb (.inr range)).2 (by exact_mod_cast lt)⟩
  · have value : (j : ℚ) - k = (j - k : ℕ) := by rw [Nat.cast_sub ge]
    have small : ((j - k : ℕ) : ℚ) ≤ 2 ^ (64 : ℤ) := le_trans (by exact_mod_cast Nat.sub_le j k) hj
    have range : (j : ℚ) = k ∨ InRange |(j : ℚ) - k| := by
      rcases ge.eq_or_lt with same | gt
      · exact .inl (by rw [same])
      · rw [value, abs_of_nonneg (Nat.cast_nonneg _)]
        exact .inr (whole_inRange (by omega) small)
    obtain ⟨v, rounds, holds⟩ := (holds_sub ha hb range).1 (by exact_mod_cast ge)
    rw [value] at rounds
    obtain ⟨d, rfl⟩ := rounds.whole _ rfl
    exact .inr ⟨d, ge, rounds.atMost _ (short_pow 64) small, rounds, holds⟩

/-- The three roundings behind the guard, when the share is not zero. -/
theorem percent_rounds {f g h : Float} {cpu system online : ℕ} (hf : Holds f cpu) (hg : Holds g system)
    (hh : Holds h online) (cpuMost : (cpu : ℚ) ≤ 2 ^ (64 : ℤ)) (systemMost : (system : ℚ) ≤ 2 ^ (64 : ℤ))
    (onlineMost : (online : ℚ) ≤ 2 ^ (64 : ℤ)) (systemPos : 0 < system) (onlinePos : 0 < online) :
    ∃ share scaled percent, RoundsTo (cpu / system) share ∧ RoundsTo (share * online) scaled ∧
      RoundsTo (scaled * 100) percent ∧ Holds (f / g * h * 100.0) percent := by
  have system_pos : (0 : ℚ) < system := by exact_mod_cast systemPos
  have system_one : (1 : ℚ) ≤ system := by exact_mod_cast systemPos
  have online_one : (1 : ℚ) ≤ online := by exact_mod_cast onlinePos
  rcases Nat.eq_zero_or_pos cpu with rfl | cpuPos
  · -- an idle container: every factor of the product is an exact zero
    rw [Nat.cast_zero] at hf
    obtain ⟨share, first, holds⟩ := holds_div hf hg system_pos (.inl rfl)
    rw [zero_div] at first
    obtain rfl : share = 0 := first.exact (by exact_mod_cast short_nat (Nat.zero_le _))
    obtain ⟨scaled, second, holds⟩ := holds_mul holds hh (.inl (zero_mul _))
    rw [zero_mul] at second
    obtain rfl : scaled = 0 := second.exact (by exact_mod_cast short_nat (Nat.zero_le _))
    obtain ⟨percent, third, holds⟩ := holds_mul holds holds_hundred (.inl (zero_mul _))
    rw [Nat.cast_zero, zero_div]
    exact ⟨0, 0, percent, first, by rwa [zero_mul], third, holds⟩
  · have cpu_one : (1 : ℚ) ≤ cpu := by exact_mod_cast cpuPos
    have low : (2 : ℚ) ^ (-64 : ℤ) ≤ cpu / system := by
      rw [le_div_iff₀ system_pos, zpow_neg]
      calc ((2 : ℚ) ^ (64 : ℤ))⁻¹ * system
        _ ≤ (2 ^ (64 : ℤ))⁻¹ * 2 ^ (64 : ℤ) := mul_le_mul_of_nonneg_left systemMost (by positivity)
        _ = 1 := inv_mul_cancel₀ (two_zpow_pos 64).ne'
        _ ≤ cpu := cpu_one
    have high : (cpu : ℚ) / system ≤ 2 ^ (64 : ℤ) := (div_le_self (Nat.cast_nonneg _) system_one).trans cpuMost
    obtain ⟨share, first, holds⟩ :=
      holds_div hf hg system_pos (.inr (.of_bounds low high (by norm_num) (by norm_num)))
    have shareLow := first.atLeast _ (short_pow _) low
    have shareHigh := first.atMost _ (short_pow _) high
    have sharePos : (0 : ℚ) ≤ share := holds.nonneg
    have low : (2 : ℚ) ^ (-64 : ℤ) ≤ share * online := shareLow.trans (le_mul_of_one_le_right sharePos online_one)
    have high : share * online ≤ 2 ^ (128 : ℤ) := by
      rw [show (128 : ℤ) = 64 + 64 from rfl, zpow_add₀ (by norm_num)]
      exact mul_le_mul shareHigh onlineMost (Nat.cast_nonneg _) (two_zpow_pos 64).le
    obtain ⟨scaled, second, holds⟩ :=
      holds_mul holds hh (.inr (.of_bounds low high (by norm_num) (by norm_num)))
    have scaledLow := second.atLeast _ (short_pow _) low
    have scaledHigh := second.atMost _ (short_pow _) high
    have scaledPos : (0 : ℚ) ≤ scaled := holds.nonneg
    have low : (2 : ℚ) ^ (-64 : ℤ) ≤ scaled * 100 := scaledLow.trans (le_mul_of_one_le_right scaledPos (by norm_num))
    have high : scaled * 100 ≤ 2 ^ (135 : ℤ) := by
      rw [show (135 : ℤ) = 128 + 7 from rfl, zpow_add₀ (by norm_num)]
      exact mul_le_mul scaledHigh (by norm_num) (by norm_num) (two_zpow_pos 128).le
    obtain ⟨percent, third, holds⟩ :=
      holds_mul holds holds_hundred (.inr (.of_bounds low high (by norm_num) (by norm_num)))
    exact ⟨share, scaled, percent, first, second, third, holds⟩

/-- A sample without the number of processors counts as one. -/
def CpuStats.online (cur : CpuStats) : ℕ := if cur.onlineCpus = 0 then 1 else cur.onlineCpus.toNat

theorem online_holds (cur : CpuStats) : ∃ online : ℕ, (online : ℚ) ≤ 2 ^ (64 : ℤ) ∧ 0 < online ∧
    RoundsTo cur.online online ∧ Holds (if cur.onlineCpus = 0 then 1.0 else cur.onlineCpus.toFloat) online := by
  unfold CpuStats.online
  split
  case isTrue => exact ⟨1, by norm_num, by norm_num, .refl (by norm_num), holds_one⟩
  case isFalse some =>
    obtain ⟨online, most, rounds, holds⟩ := counter_holds cur.onlineCpus
    have pos : 0 < cur.onlineCpus.toNat :=
      Nat.pos_of_ne_zero fun none => some (UInt64.toNat_inj.mp (none.trans UInt64.toNat_zero.symm))
    have one : ((1 : ℕ) : ℚ) ≤ online := rounds.atLeast _ (short_nat (by norm_num)) (by exact_mod_cast pos)
    exact ⟨online, most, by exact_mod_cast one, rounds, holds⟩

/-- The percentage from the converted counters: zero if one of them went back or the machine's stood
still, else the quotient of the rounded differences, scaled and rounded. -/
theorem cpuPercent_cases {cur prev : CpuStats} {after before after' before' : ℕ}
    (cpu : Holds cur.cpuUsage.totalUsage.toFloat after) (cpuPrev : Holds prev.cpuUsage.totalUsage.toFloat before)
    (system : Holds cur.systemCpuUsage.toFloat after') (systemPrev : Holds prev.systemCpuUsage.toFloat before')
    (most : ∀ n ∈ [after, before, after', before'], (n : ℚ) ≤ 2 ^ (64 : ℤ)) :
    ((after' ≤ before' ∨ after < before) ∧ Holds (cpuPercent cur prev) 0) ∨
      ∃ cpuDelta systemDelta online : ℕ, ∃ share scaled percent, before' < after' ∧ before ≤ after ∧
        RoundsTo (after - before : ℕ) cpuDelta ∧ RoundsTo (after' - before' : ℕ) systemDelta ∧
        RoundsTo cur.online online ∧ RoundsTo (cpuDelta / systemDelta) share ∧ RoundsTo (share * online) scaled ∧
        RoundsTo (scaled * 100) percent ∧ Holds (cpuPercent cur prev) percent := by
  have zero : Holds 0.0 0 := holds_pack_zero
  simp only [List.forall_mem_cons] at most
  obtain ⟨most, mostPrev, most', mostPrev', -⟩ := most
  rcases delta_holds system systemPrev most' mostPrev' with
    ⟨back, negative⟩ | ⟨systemDelta, ge, deltaMost, rounds, holds⟩
  · refine .inl ⟨.inl back.le, ?_⟩
    simp only [cpuPercent, negative.le_zero, true_or, if_true]
    exact zero
  rcases ge.eq_or_lt with still | moved
  · refine .inl ⟨.inl still.ge, ?_⟩
    subst still
    rw [Nat.sub_self] at rounds
    have none := rounds.exact (short_nat (Nat.zero_le _))
    rw [Nat.cast_zero] at none
    simp only [cpuPercent, holds.le_zero.mpr none, true_or, if_true]
    exact zero
  have one : ((1 : ℕ) : ℚ) ≤ systemDelta := rounds.atLeast _ (short_nat (by norm_num)) (by
    exact_mod_cast Nat.sub_pos_of_lt moved)
  have systemPos : 0 < systemDelta := by exact_mod_cast one
  have systemGuard : ¬ cur.systemCpuUsage.toFloat - prev.systemCpuUsage.toFloat ≤ 0.0 := fun le =>
    systemPos.ne' (by exact_mod_cast holds.le_zero.mp le)
  rcases delta_holds cpu cpuPrev most mostPrev with
    ⟨back, negative⟩ | ⟨cpuDelta, ge', deltaMost', rounds', holds'⟩
  · refine .inl ⟨.inr back, ?_⟩
    simp only [cpuPercent, negative.lt_zero, or_true, if_true]
    exact zero
  obtain ⟨online, onlineMost, onlinePos, onlineRounds, onlineHolds⟩ := online_holds cur
  obtain ⟨share, scaled, percent, first, second, third, result⟩ :=
    percent_rounds holds' holds onlineHolds deltaMost' deltaMost onlineMost systemPos onlinePos
  refine .inr ⟨cpuDelta, systemDelta, online, share, scaled, percent, moved, ge', rounds', rounds, onlineRounds,
    first, second, third, ?_⟩
  simp only [cpuPercent, systemGuard, holds'.not_lt_zero, or_self, if_false]
  exact result

/-- Whatever the counters, the percentage is a number that is not below zero. -/
theorem cpuPercent_holds (cur prev : CpuStats) : ∃ percent, Holds (cpuPercent cur prev) percent := by
  obtain ⟨after, most, -, cpu⟩ := counter_holds cur.cpuUsage.totalUsage
  obtain ⟨before, mostPrev, -, cpuPrev⟩ := counter_holds prev.cpuUsage.totalUsage
  obtain ⟨after', systemMost, -, system⟩ := counter_holds cur.systemCpuUsage
  obtain ⟨before', systemMostPrev, -, systemPrev⟩ := counter_holds prev.systemCpuUsage
  have all : ∀ n ∈ [after, before, after', before'], (n : ℚ) ≤ 2 ^ (64 : ℤ) := by
    simp only [List.forall_mem_cons]
    exact ⟨most, mostPrev, systemMost, systemMostPrev, List.forall_mem_nil _⟩
  rcases cpuPercent_cases cpu cpuPrev system systemPrev all with
    ⟨-, zero⟩ | ⟨_, _, _, _, _, percent, -, -, -, -, -, -, -, -, holds⟩
  · exact ⟨0, zero⟩
  · exact ⟨percent, holds⟩

example : (cpuPercent ⟨⟨50000000⟩, 200000000, 4⟩ ⟨⟨25000000⟩, 100000000, 4⟩).toBits = (100.0 : Float).toBits := by
  decide +kernel

/-- The share of the machine's processor time, in percent of one processor, without rounding. -/
def exactPercent (cur prev : CpuStats) : ℚ :=
  if cur.systemCpuUsage ≤ prev.systemCpuUsage ∨ cur.cpuUsage.totalUsage < prev.cpuUsage.totalUsage then 0
  else (cur.cpuUsage.totalUsage.toNat - prev.cpuUsage.totalUsage.toNat : ℕ) /
    (cur.systemCpuUsage.toNat - prev.systemCpuUsage.toNat : ℕ) * cur.online * 100

/-- Counters up to `2⁵³`, below which a double holds every whole number: 104 days of processor
time in nanoseconds. -/
def CpuStats.Small (stats : CpuStats) : Prop :=
  stats.cpuUsage.totalUsage.toNat ≤ 2 ^ 53 ∧ stats.systemCpuUsage.toNat ≤ 2 ^ 53 ∧ stats.online * 100 ≤ 2 ^ 53

theorem small_counter {n : UInt64} (small : n.toNat ≤ 2 ^ 53) : Holds n.toFloat n.toNat := by
  obtain ⟨k, -, rounds, holds⟩ := counter_holds n
  rwa [rounds.exact (short_nat small)] at holds

/-- For counters up to `2⁵³` the percentage that is reported is the exact one up to a relative error
of `2⁻⁵¹`, and a container that used no more processor time than the machine is never reported above
100 percent of its processors. -/
theorem cpuPercent_accurate (cur prev : CpuStats) (small : cur.Small) (smallPrev : prev.Small) :
    ∃ percent, Holds (cpuPercent cur prev) percent ∧
      |percent - exactPercent cur prev| ≤ exactPercent cur prev / 2 ^ 51 ∧
      (cur.cpuUsage.totalUsage.toNat - prev.cpuUsage.totalUsage.toNat ≤
        cur.systemCpuUsage.toNat - prev.systemCpuUsage.toNat → percent ≤ cur.online * 100) := by
  obtain ⟨cpuSmall, systemSmall, onlineSmall⟩ := small
  have most (n : UInt64) : ((n.toNat : ℕ) : ℚ) ≤ 2 ^ (64 : ℤ) := by exact_mod_cast n.toNat_lt.le
  have all : ∀ n ∈ [cur.cpuUsage.totalUsage.toNat, prev.cpuUsage.totalUsage.toNat, cur.systemCpuUsage.toNat,
      prev.systemCpuUsage.toNat], (n : ℚ) ≤ 2 ^ (64 : ℤ) := by
    simp only [List.forall_mem_cons]
    exact ⟨most _, most _, most _, most _, List.forall_mem_nil _⟩
  rcases cpuPercent_cases (small_counter cpuSmall) (small_counter smallPrev.1) (small_counter systemSmall)
    (small_counter smallPrev.2.1) all with ⟨guarded, zero⟩ |
    ⟨cpuDelta, systemDelta, online, share, scaled, percent, moved, ge, cpuRounds, systemRounds, onlineRounds,
      first, second, third, holds⟩
  · have exact : exactPercent cur prev = 0 := if_pos guarded
    rw [exact]
    exact ⟨0, zero, by norm_num, fun _ => by positivity⟩
  · have exact : exactPercent cur prev = _ := if_neg (not_or.mpr ⟨Nat.not_le.mpr moved, Nat.not_lt.mpr ge⟩)
    have cpuExact := cpuRounds.exact (short_nat ((Nat.sub_le _ _).trans cpuSmall))
    have systemExact := systemRounds.exact (short_nat ((Nat.sub_le _ _).trans systemSmall))
    have onlineExact := onlineRounds.exact (short_nat (by omega))
    rw [cpuExact, systemExact] at first
    rw [onlineExact] at second
    -- each rounding adds its own relative error to what is there
    have nearScaled := second.near_mul first.relative (Nat.cast_nonneg _)
    have nearPercent := third.near_mul nearScaled (by norm_num : (0 : ℚ) ≤ 100)
    refine ⟨percent, holds, ?_, ?_⟩
    · rw [exact, ← one_div_mul_eq_div (2 ^ 51)]
      exact nearPercent.trans (mul_le_mul_of_nonneg_right (by norm_num) (by positivity))
    · intro le
      have systemPos : (0 : ℚ) < (cur.systemCpuUsage.toNat - prev.systemCpuUsage.toNat : ℕ) := by
        exact_mod_cast Nat.sub_pos_of_lt moved
      have shareMost := first.atMost (1 : ℕ) (short_nat (by norm_num)) (by
        rw [Nat.cast_one, div_le_one systemPos]
        exact_mod_cast le)
      rw [Nat.cast_one] at shareMost
      have scaledMost := second.atMost cur.online (short_nat (by omega))
        (mul_le_of_le_one_left (Nat.cast_nonneg _) shareMost)
      have short : Short (cur.online * 100) := by exact_mod_cast short_nat onlineSmall
      exact third.atMost _ short (mul_le_mul_of_nonneg_right scaledMost (by norm_num))

/-- The unit test of the source: a quarter of the machine's time on four processors. -/
theorem quarter_of_four_processors :
    ∃ percent, Holds (cpuPercent ⟨⟨50000000⟩, 200000000, 4⟩ ⟨⟨25000000⟩, 100000000, 4⟩) percent ∧
      |percent - 100| ≤ 100 / 2 ^ 51 := by
  have small : (⟨⟨50000000⟩, 200000000, 4⟩ : CpuStats).Small := ⟨by decide, by decide, by decide⟩
  have smallPrev : (⟨⟨25000000⟩, 100000000, 4⟩ : CpuStats).Small := ⟨by decide, by decide, by decide⟩
  obtain ⟨percent, holds, near, -⟩ := cpuPercent_accurate _ _ small smallPrev
  rw [show exactPercent ⟨⟨50000000⟩, 200000000, 4⟩ ⟨⟨25000000⟩, 100000000, 4⟩ = 100 by decide +kernel] at near
  exact ⟨percent, holds, near⟩

/-! ## The other counters -/

/-- A counter summed over the networks. -/
def total (count : NetworkStats → UInt64) : List NetworkStats → ℕ
  | [] => 0
  | net :: rest => (count net).toNat + total count rest

theorem total_perm {count : NetworkStats → UInt64} {nets order : List NetworkStats} (perm : nets.Perm order) :
    total count nets = total count order := by
  induction perm with
  | nil => rfl
  | cons net _ ih => rw [total, total, ih]
  | swap first second rest =>
    simp only [total]
    omega
  | trans _ _ ih ih' => rw [ih, ih']

theorem totals_toNat (nets : List NetworkStats) :
    (totals nets).1.toNat = total (·.rxBytes) nets % 2 ^ 64 ∧
      (totals nets).2.toNat = total (·.txBytes) nets % 2 ^ 64 := by
  have step (nets : List NetworkStats) : ∀ rx tx : UInt64,
      (nets.foldl (fun (rx, tx) net => (rx + net.rxBytes, tx + net.txBytes)) (rx, tx)).1.toNat =
        (rx.toNat + total (·.rxBytes) nets) % 2 ^ 64 ∧
      (nets.foldl (fun (rx, tx) net => (rx + net.rxBytes, tx + net.txBytes)) (rx, tx)).2.toNat =
        (tx.toNat + total (·.txBytes) nets) % 2 ^ 64 := by
    induction nets with
    | nil =>
      intro rx tx
      exact ⟨(Nat.mod_eq_of_lt rx.toNat_lt).symm, (Nat.mod_eq_of_lt tx.toNat_lt).symm⟩
    | cons net rest ih =>
      intro rx tx
      obtain ⟨first, second⟩ := ih (rx + net.rxBytes) (tx + net.txBytes)
      rw [List.foldl_cons, first, second, UInt64.toNat_add, UInt64.toNat_add, Nat.mod_add_mod, Nat.mod_add_mod,
        Nat.add_assoc, Nat.add_assoc]
      exact ⟨rfl, rfl⟩
  have whole := step nets 0 0
  rwa [UInt64.toNat_zero, Nat.zero_add, Nat.zero_add] at whole

theorem sample_finite (raw : DockerStatsResponse) : Agent.isFinite (parseDockerStats raw).cpuPercent = true := by
  obtain ⟨percent, holds⟩ := cpuPercent_holds raw.cpuStats raw.precpuStats
  exact bne_iff_ne.mpr holds.exponent_field

/-- Whatever Docker reports, the sample that is passed on has a number as its percentage, the memory
without the cache, and the networks' counters summed in any order, modulo the width of the counters. -/
theorem sample_sound (raw : DockerStatsResponse) (order : List NetworkStats)
    (perm : order.Perm (raw.networks.entries.map (·.2))) :
    Agent.isFinite (parseDockerStats raw).cpuPercent = true ∧
    (parseDockerStats raw).memUsedBytes.toNat =
      raw.memoryStats.usage.toNat - raw.memoryStats.stats.cache.toNat ∧
    (parseDockerStats raw).netRxBytes.toNat = total (·.rxBytes) order % 2 ^ 64 ∧
    (parseDockerStats raw).netTxBytes.toNat = total (·.txBytes) order % 2 ^ 64 := by
  obtain ⟨rx, tx⟩ := totals_toNat (raw.networks.entries.map (·.2))
  rw [total_perm perm, total_perm perm]
  refine ⟨sample_finite raw, ?_, rx, tx⟩
  change (if raw.memoryStats.usage < raw.memoryStats.stats.cache then (0 : UInt64)
    else raw.memoryStats.usage - raw.memoryStats.stats.cache).toNat = _
  split
  case isTrue less => exact (Nat.sub_eq_zero_of_le (UInt64.lt_iff_toNat_lt.mp less).le).symm
  case isFalse notLess => exact UInt64.toNat_sub_of_le _ _ (UInt64.not_lt.mp notLess)

def twoNetworks : DockerStatsResponse where
  cpuStats := CpuStats.absent
  precpuStats := CpuStats.absent
  memoryStats := ⟨0, 0, ⟨0⟩⟩
  networks := (AList.singleton "eth0" ⟨1, 2⟩).insert "eth1" ⟨18446744073709551615, 4⟩

theorem two_networks_wrap : (parseDockerStats twoNetworks).netRxBytes.toNat = 0 ∧
    (parseDockerStats twoNetworks).netTxBytes.toNat = 6 := by
  obtain ⟨-, -, rx, tx⟩ := sample_sound twoNetworks [⟨1, 2⟩, ⟨18446744073709551615, 4⟩] (.swap ..)
  exact ⟨rx.trans (by simp [total]), tx.trans (by simp [total])⟩

end SkyDaemon.Runtime
