import Mathlib

/-! Binary64 numbers as rationals. Conversion, subtraction, product and quotient of numbers in
the normal range give the exact rational result rounded once; rounding moves a number by at most
half a unit in the last place and never across a number of at most 53 bits. -/
namespace SkyDaemon.Binary64
open Float.Model Float.Model.UnpackedFloat

/-- Where the exact number lies between a mantissa and the next one. -/
def Fraction : Accuracy → ℚ → Prop
  | .exact, δ => δ = 0
  | .inexact .lt, δ => 0 < δ ∧ δ < 1 / 2
  | .inexact .eq, δ => δ = 1 / 2
  | .inexact .gt, δ => 1 / 2 < δ ∧ δ < 1

theorem Fraction.bounds {acc : Accuracy} {δ : ℚ} (h : Fraction acc δ) : 0 ≤ δ ∧ δ < 1 := by
  cases acc with
  | exact => exact ⟨h.ge, by rw [h]; norm_num⟩
  | inexact order =>
    cases order <;> simp only [Fraction] at h
    · exact ⟨h.1.le, by linarith [h.2]⟩
    · rw [h]
      norm_num
    · exact ⟨by linarith [h.1], h.2⟩

/-- The extended mantissa is the number cut at its unit, together with what was cut off. -/
def Cuts (em : ExtendedMantissa) (x : ℚ) : Prop := Fraction em.accuracy (x - em.mantissa)

theorem cuts_initial {mantissa : ℕ} {acc : Accuracy} {x : ℚ} :
    Cuts (.ofMantissaAndAccuracy mantissa acc) x ↔ Fraction acc (x - mantissa) := by
  cases acc with
  | exact => rfl
  | inexact order => cases order <;> rfl

theorem Cuts.shiftRightOne {em : ExtendedMantissa} {x : ℚ} (h : Cuts em x) :
    Cuts em.shiftRightOne (x / 2) := by
  obtain ⟨mantissa, round, sticky⟩ := em
  have split : (mantissa : ℚ) = 2 * (mantissa / 2 : ℕ) + (mantissa % 2 : ℕ) := by
    exact_mod_cast (Nat.div_add_mod mantissa 2).symm
  -- the bit that falls out becomes the round bit, what was below it the sticky bit
  rcases Nat.mod_two_eq_zero_or_one mantissa with parity | parity <;> cases round <;> cases sticky <;>
    simp only [Cuts, ExtendedMantissa.accuracy, ExtendedMantissa.shiftRightOne, Fraction, parity,
      bne_self_eq_false, Bool.or_self, Bool.or_true, Bool.or_false, Nat.cast_zero, Nat.cast_one,
      show ((1 : ℕ) != 0) = true from rfl] at h split ⊢
  all_goals
    first
    | linarith
    | constructor <;> linarith [h.1, h.2]
    | constructor <;> linarith

theorem Cuts.shift {em : ExtendedMantissa} {x : ℚ} (h : Cuts em x) (amount : ℕ) :
    Cuts (em >>> amount) (x / 2 ^ amount) := by
  induction amount with
  | zero => rwa [pow_zero, div_one]
  | succ amount ih =>
    have next := ih.shiftRightOne
    rwa [div_div, ← pow_succ] at next

/-- A whole number nearest to the exact one: no whole number lies between the two. -/
structure Nearest (x : ℚ) (rounded : ℕ) : Prop where
  near : |(rounded : ℚ) - x| ≤ 1 / 2
  atLeast : ∀ bound : ℕ, (bound : ℚ) ≤ x → bound ≤ rounded
  atMost : ∀ bound : ℕ, x ≤ bound → rounded ≤ bound

theorem Cuts.nearest {em : ExtendedMantissa} {x : ℚ} (h : Cuts em x) : Nearest x em.roundedMantissa := by
  obtain ⟨mantissa, round, sticky⟩ := em
  obtain ⟨low, high⟩ := h.bounds
  have below (bound : ℕ) (le : (bound : ℚ) ≤ x) : bound ≤ mantissa := by
    have lt : (bound : ℚ) < (mantissa + 1 : ℕ) := by push_cast; dsimp only at high; linarith
    exact Nat.lt_succ_iff.mp (by exact_mod_cast lt)
  have even : mantissa % 2 ≤ 1 := Nat.le_of_lt_succ (Nat.mod_lt _ (by decide))
  have evenCast : ((mantissa % 2 : ℕ) : ℚ) ≤ 1 := by exact_mod_cast even
  have evenNonneg : (0 : ℚ) ≤ ((mantissa % 2 : ℕ) : ℚ) := Nat.cast_nonneg _
  cases round <;> cases sticky <;>
    simp only [Cuts, ExtendedMantissa.accuracy, Fraction, ExtendedMantissa.roundedMantissa,
      Accuracy.roundToNearestEven] at h low high ⊢
  · refine ⟨by rw [abs_le]; constructor <;> linarith, below, fun bound le => ?_⟩
    exact_mod_cast (show (mantissa : ℚ) ≤ bound by linarith)
  · refine ⟨by rw [abs_le]; constructor <;> linarith, below, fun bound le => ?_⟩
    exact_mod_cast (show (mantissa : ℚ) ≤ bound by linarith [h.1])
  · refine ⟨by push_cast; rw [abs_le]; constructor <;> linarith,
      fun bound le => (below bound le).trans (Nat.le_add_right _ _), fun bound le => ?_⟩
    have lt : mantissa < bound := by exact_mod_cast (show (mantissa : ℚ) < bound by linarith)
    omega
  · refine ⟨by push_cast; rw [abs_le]; constructor <;> linarith,
      fun bound le => (below bound le).trans (Nat.le_add_right _ _), fun bound le => ?_⟩
    have lt : mantissa < bound := by exact_mod_cast (show (mantissa : ℚ) < bound by linarith [h.1])
    omega

/-- The mantissa and exponent of a normal number. -/
structure Normal (mantissa : ℕ) (exponent : ℤ) : Prop where
  atLeast : 2 ^ 52 ≤ mantissa
  below : mantissa < 2 ^ 53
  notTiny : -1074 ≤ exponent
  notHuge : exponent ≤ 971

section Packed

theorem unpack_pack_zero : (Float.Model.pack (.zero .positive)).unpack = .zero .positive := rfl

theorem implicit_bit {mantissa : ℕ} (low : 2 ^ 52 ≤ mantissa) (high : mantissa < 2 ^ 53) :
    (1#1 ++ BitVec.ofNat 52 mantissa).toNat = mantissa := by
  have rest : (BitVec.ofNat 52 mantissa).toNat = mantissa % 2 ^ 52 := BitVec.toNat_ofNat ..
  rw [BitVec.toNat_append, ← Nat.shiftLeft_add_eq_or_of_lt (BitVec.isLt _), rest, Nat.shiftLeft_eq,
    show (1#1).toNat = 1 from rfl]
  omega

/-- A normal number survives being packed into its 64 bits. -/
theorem Normal.unpack_pack {sign : Sign} {mantissa : ℕ} {exponent : ℤ} (h : Normal mantissa exponent)
    (pos : 0 < mantissa) :
    (Float.Model.pack (.finite sign mantissa exponent pos)).unpack = .finite sign mantissa exponent pos := by
  obtain ⟨low, high, tiny, huge⟩ := h
  obtain ⟨biased, eq⟩ : ∃ biased : ℕ, (biased : ℤ) = exponent + 1075 :=
    ⟨(exponent + 1075).toNat, Int.toNat_of_nonneg (by omega)⟩
  have bits : mantissa.log2 + 1 = Format.binary64.mantissaBits := by
    rw [(Nat.log2_eq_iff pos.ne').mpr ⟨low, high⟩]
    rfl
  have field : (exponent + (Format.binary64.exponentBias : ℕ) + (52 : ℕ)).toNat = biased := by
    rw [show Format.binary64.exponentBias = 1023 from rfl]
    omega
  have packed : UnpackedFloat.pack .binary64 (.finite sign mantissa exponent pos) =
      packComponents .binary64 sign (BitVec.ofNat 11 biased) (BitVec.ofNat 52 mantissa) := by
    simp only [UnpackedFloat.pack, field, bits]
    rw [if_neg (by omega), if_pos trivial]
  have read : (BitVec.ofNat 11 biased).toNat = biased := by
    rw [BitVec.toNat_ofNat, Nat.mod_eq_of_lt (by omega)]
  have notSpecial : BitVec.ofNat 11 biased ≠ -1#11 := by
    intro same
    have := congrArg BitVec.toNat same
    rw [read, show (-1#11).toNat = 2047 from rfl] at this
    omega
  have notSubnormal : BitVec.ofNat 11 biased ≠ 0#11 := by
    intro same
    have := congrArg BitVec.toNat same
    rw [read, show (0#11).toNat = 0 from rfl] at this
    omega
  have exponentBack : (biased : ℤ) - ((Format.binary64.exponentBias : ℕ) + (52 : ℕ)) = exponent := by
    rw [show Format.binary64.exponentBias = 1023 from rfl]
    omega
  change UnpackedFloat.unpack .binary64 (UnpackedFloat.pack .binary64 _) = _
  rw [packed]
  unfold UnpackedFloat.unpack
  simp only [unpackMantissa_packComponents, unpackExponent_packComponents, unpackSign_packComponents, read,
    if_neg notSpecial, if_neg notSubnormal, Sign.ofBitVec_toBitVec, implicit_bit low high, exponentBack]

end Packed

/-- A number of at most 53 bits. -/
def Short (x : ℚ) : Prop := ∃ (mantissa : ℕ) (exponent : ℤ), mantissa ≤ 2 ^ 53 ∧ x = mantissa * 2 ^ exponent

/-- The second number is the first one rounded to 53 bits. -/
structure RoundsTo (exact rounded : ℚ) : Prop where
  near : |rounded - exact| ≤ exact / 2 ^ 53
  atLeast : ∀ bound, Short bound → bound ≤ exact → bound ≤ rounded
  atMost : ∀ bound, Short bound → exact ≤ bound → rounded ≤ bound
  whole : ∀ n : ℕ, exact = n → ∃ k : ℕ, rounded = k

theorem RoundsTo.zero : RoundsTo 0 0 :=
  ⟨by norm_num, fun _ _ le => le, fun _ _ le => le, fun n _ => ⟨0, by norm_num⟩⟩

theorem RoundsTo.exact {exact rounded : ℚ} (h : RoundsTo exact rounded) (short : Short exact) : rounded = exact :=
  le_antisymm (h.atMost _ short le_rfl) (h.atLeast _ short le_rfl)

theorem RoundsTo.relative {exact rounded : ℚ} (h : RoundsTo exact rounded) :
    |rounded - exact| ≤ 1 / 2 ^ 53 * exact := by
  rw [one_div_mul_eq_div]
  exact h.near

/-- One more factor and one more rounding. -/
theorem RoundsTo.near_mul {x v c w error : ℚ} (rounds : RoundsTo (v * c) w) (near : |v - x| ≤ error * x)
    (nonneg : 0 ≤ c) : |w - x * c| ≤ (error + (1 + error) / 2 ^ 53) * (x * c) := by
  have first : |v * c - x * c| ≤ error * x * c := by
    rw [← sub_mul, abs_mul, abs_of_nonneg nonneg]
    exact mul_le_mul_of_nonneg_right near nonneg
  have upper : v * c ≤ (1 + error) * (x * c) := by linarith [(abs_le.mp first).2]
  calc |w - x * c|
    _ ≤ |w - v * c| + |v * c - x * c| := abs_sub_le ..
    _ ≤ v * c / 2 ^ 53 + error * x * c := add_le_add rounds.near first
    _ ≤ (1 + error) * (x * c) / 2 ^ 53 + error * x * c := by gcongr
    _ = (error + (1 + error) / 2 ^ 53) * (x * c) := by ring

section Rounding
variable {mantissa : ℕ} {exponent : ℤ} {sign : Sign} {acc : Accuracy} {δ : ℚ}

theorem two_zpow_pos (exponent : ℤ) : (0 : ℚ) < 2 ^ exponent := zpow_pos (by norm_num) _

theorem short_pow (power : ℤ) : Short (2 ^ power) := ⟨1, power, by norm_num, by norm_num⟩

theorem short_nat {n : ℕ} (le : n ≤ 2 ^ 53) : Short n := ⟨n, 0, le, by rw [zpow_zero, mul_one]⟩

/-- Half the exponent: a number of 53 bits at a smaller exponent is at most the smallest mantissa here. -/
theorem short_below {exponent other : ℤ} (lt : other < exponent) (le : mantissa ≤ 2 ^ 53) :
    (mantissa : ℚ) * 2 ^ other ≤ 2 ^ 52 * 2 ^ exponent := by
  have bound : (mantissa : ℚ) ≤ 2 ^ 53 := by exact_mod_cast le
  calc (mantissa : ℚ) * 2 ^ other
    _ ≤ 2 ^ 53 * 2 ^ (exponent - 1) :=
      mul_le_mul bound (zpow_le_zpow_right₀ (by norm_num) (by omega)) (two_zpow_pos _).le (by norm_num)
    _ = 2 ^ 52 * 2 ^ exponent := by
      rw [zpow_sub_one₀ (by norm_num)]
      ring

/-- At a larger exponent it is a whole number of units. -/
theorem short_whole {exponent other : ℤ} (le : exponent ≤ other) :
    (mantissa : ℚ) * 2 ^ other = (mantissa * 2 ^ (other - exponent).toNat : ℕ) * 2 ^ exponent := by
  have split : other = ((other - exponent).toNat : ℤ) + exponent := by omega
  conv_lhs => rw [split, zpow_add₀ (by norm_num), zpow_natCast]
  push_cast
  ring

theorem Nearest.rounds {y : ℚ} {r : ℕ} (h : Nearest y r) (low : 2 ^ 52 ≤ y) (exponent : ℤ) :
    RoundsTo (y * 2 ^ exponent) (r * 2 ^ exponent) := by
  have unit := two_zpow_pos exponent
  have lowest : (2 : ℚ) ^ 52 ≤ r := by exact_mod_cast h.atLeast (2 ^ 52) (by exact_mod_cast low)
  refine ⟨?near, ?atLeast, ?atMost, ?whole⟩
  case near =>
    rw [← sub_mul, abs_mul, abs_of_pos unit, mul_div_right_comm]
    refine mul_le_mul_of_nonneg_right (h.near.trans ?_) unit.le
    rw [le_div_iff₀ (by norm_num)]
    linarith
  case atLeast =>
    rintro _ ⟨mantissa, other, le, rfl⟩ bound
    rcases lt_or_ge other exponent with lt | ge
    · exact (short_below lt le).trans (mul_le_mul_of_nonneg_right lowest unit.le)
    · rw [short_whole ge] at bound ⊢
      have cast := h.atLeast _ (le_of_mul_le_mul_right bound unit)
      exact mul_le_mul_of_nonneg_right (by exact_mod_cast cast) unit.le
  case atMost =>
    rintro _ ⟨mantissa, other, le, rfl⟩ bound
    rcases lt_or_ge other exponent with lt | ge
    · -- both sides are the smallest mantissa of this exponent
      have small : y ≤ (2 ^ 52 : ℕ) := by
        exact_mod_cast le_of_mul_le_mul_right (bound.trans (short_below lt le)) unit
      have cast : (r : ℚ) ≤ 2 ^ 52 := by exact_mod_cast h.atMost _ small
      exact (mul_le_mul_of_nonneg_right (cast.trans low) unit.le).trans bound
    · rw [short_whole ge] at bound ⊢
      have cast := h.atMost _ (le_of_mul_le_mul_right bound unit)
      exact mul_le_mul_of_nonneg_right (by exact_mod_cast cast) unit.le
  case whole =>
    intro n eq
    rcases le_or_gt 0 exponent with nonneg | neg
    · obtain ⟨amount, rfl⟩ := Int.eq_ofNat_of_zero_le nonneg
      exact ⟨r * 2 ^ amount, by push_cast; rw [zpow_natCast]⟩
    · -- a whole number below this exponent's range is a whole number of units, so it was not rounded
      have units : (n : ℚ) * 2 ^ (0 : ℤ) = _ := short_whole neg.le
      rw [zpow_zero, mul_one, ← eq] at units
      have same := mul_right_cancel₀ unit.ne' units
      have rounded := le_antisymm (h.atMost _ same.le) (h.atLeast _ same.ge)
      exact ⟨n, by rw [rounded, ← eq, same]⟩

theorem shiftToTarget_of_bits {extra : ℕ} (bits : mantissa.log2 = 52 + extra)
    (notTiny : -1074 ≤ exponent + extra) :
    shiftToTargetExponent .binary64 mantissa exponent acc =
      (ExtendedMantissa.ofMantissaAndAccuracy mantissa acc >>> extra, exponent + extra) := by
  have target : Format.binary64.targetExponent (totalExponent mantissa exponent) = exponent + extra := by
    rw [Format.targetExponent, totalExponent, bits, show Format.binary64.mantissaBits = 53 from rfl,
      show Format.binary64.minExponent = -1074 from rfl]
    omega
  simp only [shiftToTargetExponent, shiftToExponent, target, add_sub_cancel_left, Int.toNat_natCast]

/-- Numbers whose rounding is a normal number. -/
def InRange (x : ℚ) : Prop := 2 ^ (-1022 : ℤ) ≤ x ∧ x < 2 ^ (1023 : ℤ)

/-- The first shift leaves 53 bits; rounding them up can only reach the next power of two. -/
theorem roundWithAccuracy_bits (sign : Sign) {extra : ℕ} (bits : mantissa.log2 = 52 + extra)
    (notTiny : -1074 ≤ exponent + extra) {r : ℕ}
    (rounded : (ExtendedMantissa.ofMantissaAndAccuracy mantissa acc >>> extra).roundedMantissa = r)
    (low : 2 ^ 52 ≤ r) (high : r ≤ 2 ^ 53) :
    ∃ final, ∃ carry : ℕ, ∃ pos, roundWithAccuracy .binary64 sign mantissa exponent acc =
        .finite sign final (exponent + extra + carry) pos ∧
      carry ≤ 1 ∧ 2 ^ 52 ≤ final ∧ final < 2 ^ 53 ∧ final * 2 ^ carry = r := by
  have pos : 0 < r := by omega
  rcases high.lt_or_eq with small | top
  · have again : shiftToTargetExponent .binary64 r (exponent + extra) .exact = (_, _ + ((0 : ℕ) : ℤ)) :=
      shiftToTarget_of_bits ((Nat.log2_eq_iff pos.ne').mpr ⟨low, small⟩) (by simpa using notTiny)
    refine ⟨r, 0, pos, ?_, by omega, low, small, by simp⟩
    simp only [roundWithAccuracy, shiftToTarget_of_bits bits notTiny, rounded, again]
    exact dif_neg pos.ne'
  · have again : shiftToTargetExponent .binary64 r (exponent + extra) .exact = (_, _ + ((1 : ℕ) : ℤ)) :=
      shiftToTarget_of_bits (by rw [top]; exact Nat.log2_two_pow) (by push_cast; omega)
    have half : (ExtendedMantissa.ofMantissaAndAccuracy r .exact >>> 1).mantissa = 2 ^ 52 := by
      rw [top]
      rfl
    refine ⟨2 ^ 52, 1, by norm_num, ?_, le_rfl, le_rfl, by norm_num, by rw [top]; norm_num⟩
    simp only [roundWithAccuracy, shiftToTarget_of_bits bits notTiny, rounded, again, half]
    exact dif_neg (by norm_num)

theorem round_normal (sign : Sign) (bits : 2 ^ 52 ≤ mantissa) (frac : Fraction acc δ)
    (range : InRange ((mantissa + δ) * 2 ^ exponent)) :
    ∃ final power pos, roundWithAccuracy .binary64 sign mantissa exponent acc = .finite sign final power pos ∧
      Normal final power ∧ RoundsTo ((mantissa + δ) * 2 ^ exponent) (final * 2 ^ power) := by
  have nonzero : mantissa ≠ 0 := by omega
  obtain ⟨extra, log⟩ := Nat.exists_eq_add_of_le ((Nat.le_log2 nonzero).mpr bits)
  obtain ⟨lowLog, highLog⟩ := (Nat.log2_eq_iff nonzero).mp log
  obtain ⟨fracLow, fracHigh⟩ := frac.bounds
  have scale : (0 : ℚ) < 2 ^ extra := by positivity
  have low : (2 : ℚ) ^ 52 ≤ (mantissa + δ) / 2 ^ extra := by
    have cast : (2 : ℚ) ^ (52 + extra) ≤ mantissa := by exact_mod_cast lowLog
    rw [le_div_iff₀ scale, ← pow_add]
    linarith
  have high : (mantissa + δ) / 2 ^ extra < 2 ^ 53 := by
    have cast : (mantissa : ℚ) + 1 ≤ 2 ^ (52 + extra + 1) := by exact_mod_cast highLog
    rw [div_lt_iff₀ scale, ← pow_add, show 53 + extra = 52 + extra + 1 by omega]
    linarith
  have value : (mantissa + δ) / 2 ^ extra * 2 ^ (exponent + extra) = (mantissa + δ) * 2 ^ exponent := by
    rw [zpow_add₀ (by norm_num), zpow_natCast]
    field_simp
  have unit := two_zpow_pos (exponent + extra)
  rw [← value] at range ⊢
  have notTiny : -1022 < 53 + (exponent + extra) := by
    have lt : (2 : ℚ) ^ (-1022 : ℤ) < 2 ^ (53 + (exponent + extra)) := by
      rw [zpow_add₀ (by norm_num)]
      exact range.1.trans_lt (mul_lt_mul_of_pos_right (by exact_mod_cast high) unit)
    exact (zpow_lt_zpow_iff_right₀ (by norm_num)).mp lt
  have notHuge : 52 + (exponent + extra) < 1023 := by
    have lt : (2 : ℚ) ^ (52 + (exponent + extra)) < 2 ^ (1023 : ℤ) := by
      rw [zpow_add₀ (by norm_num)]
      exact (mul_le_mul_of_nonneg_right (by exact_mod_cast low) unit.le).trans_lt range.2
    exact (zpow_lt_zpow_iff_right₀ (by norm_num)).mp lt
  have cut : Cuts (.ofMantissaAndAccuracy mantissa acc) (mantissa + δ) :=
    cuts_initial.mpr (by rwa [add_sub_cancel_left])
  have nearest := (cut.shift extra).nearest
  have smallest : -1074 ≤ exponent + extra := by omega
  obtain ⟨final, carry, pos, eq, small, atLeast, below, product⟩ :=
    roundWithAccuracy_bits sign log smallest rfl (nearest.atLeast _ (by exact_mod_cast low))
      (nearest.atMost _ (by exact_mod_cast high.le))
  refine ⟨final, _, pos, eq, ⟨atLeast, below, by omega, by omega⟩, ?_⟩
  have same : (final : ℚ) * 2 ^ (exponent + extra + carry) =
      (ExtendedMantissa.ofMantissaAndAccuracy mantissa acc >>> extra).roundedMantissa *
        2 ^ (exponent + extra) := by
    rw [← product, zpow_add₀ (by norm_num) (exponent + extra), zpow_natCast]
    push_cast
    ring
  rw [same]
  exact nearest.rounds low _

/-- A mantissa of few bits is widened before it is rounded. -/
theorem round_widens (sign : Sign) (pos : 0 < mantissa) (range : InRange (mantissa * 2 ^ exponent)) :
    ∃ wide power, UnpackedFloat.round .binary64 sign mantissa exponent =
        roundWithAccuracy .binary64 sign wide power .exact ∧
      2 ^ 52 ≤ wide ∧ (wide : ℚ) * 2 ^ power = mantissa * 2 ^ exponent := by
  obtain ⟨lowLog, highLog⟩ := (Nat.log2_eq_iff pos.ne').mp rfl
  have notTiny : -1022 < (mantissa.log2 + 1 : ℕ) + exponent := by
    have lt : (2 : ℚ) ^ (-1022 : ℤ) < 2 ^ ((mantissa.log2 + 1 : ℕ) + exponent) := by
      rw [zpow_add₀ (by norm_num), zpow_natCast]
      exact range.1.trans_lt (mul_lt_mul_of_pos_right (by exact_mod_cast highLog) (two_zpow_pos _))
    exact (zpow_lt_zpow_iff_right₀ (by norm_num)).mp lt
  have target : Format.binary64.targetExponent (totalExponent mantissa exponent) =
      mantissa.log2 + exponent - 52 := by
    rw [Format.targetExponent, totalExponent, show Format.binary64.mantissaBits = 53 from rfl,
      show Format.binary64.minExponent = -1074 from rfl]
    omega
  have amount : (exponent - (mantissa.log2 + exponent - 52)).toNat = 52 - mantissa.log2 := by omega
  refine ⟨mantissa * 2 ^ (52 - mantissa.log2), exponent - (52 - mantissa.log2 : ℕ), ?_, ?_, ?_⟩
  · simp only [UnpackedFloat.round, decreaseExponent, target, amount, Nat.shiftLeft_eq]
  · calc 2 ^ 52
      _ ≤ 2 ^ (mantissa.log2 + (52 - mantissa.log2)) := Nat.pow_le_pow_right (by norm_num) (by omega)
      _ = 2 ^ mantissa.log2 * 2 ^ (52 - mantissa.log2) := pow_add ..
      _ ≤ mantissa * 2 ^ (52 - mantissa.log2) := Nat.mul_le_mul_right _ lowLog
  · rw [zpow_sub₀ (by norm_num), zpow_natCast]
    push_cast
    field_simp

theorem round_finite (sign : Sign) (pos : 0 < mantissa) (range : InRange (mantissa * 2 ^ exponent)) :
    ∃ final power pos, UnpackedFloat.round .binary64 sign mantissa exponent = .finite sign final power pos ∧
      Normal final power ∧ RoundsTo (mantissa * 2 ^ exponent) (final * 2 ^ power) := by
  obtain ⟨wide, power, eq, bits, value⟩ := round_widens sign pos range
  have exact : ((wide : ℚ) + 0) * 2 ^ power = mantissa * 2 ^ exponent := by rw [add_zero, value]
  rw [eq, ← exact]
  exact round_normal sign bits rfl (by rwa [exact])

end Rounding

section Numbers

/-- A number that is zero or positive and normal, with its value. -/
inductive Holds (f : Float) : ℚ → Prop
  | zero (unpacked : f.toModel.unpack = .zero .positive) : Holds f 0
  | finite {mantissa : ℕ} {exponent : ℤ} {pos : 0 < mantissa}
      (unpacked : f.toModel.unpack = .finite .positive mantissa exponent pos)
      (normal : Normal mantissa exponent) : Holds f (mantissa * 2 ^ exponent)

/-- A number below zero. -/
def Negative (f : Float) : Prop :=
  ∃ mantissa exponent pos, f.toModel.unpack = .finite .negative mantissa exponent pos

variable {a b : Float} {x y : ℚ}

theorem Holds.nonneg (h : Holds a x) : 0 ≤ x := by
  cases h with
  | zero => exact le_rfl
  | finite => exact mul_nonneg (Nat.cast_nonneg _) (two_zpow_pos _).le

theorem RoundsTo.refl {exact : ℚ} (nonneg : 0 ≤ exact) : RoundsTo exact exact :=
  ⟨by rw [sub_self, abs_zero]; positivity, fun _ _ le => le, fun _ _ le => le, fun n eq => ⟨n, eq⟩⟩

theorem holds_pack_zero : Holds (.ofModel (.pack (.zero .positive))) 0 := .zero unpack_pack_zero

theorem Normal.holds_pack {mantissa : ℕ} {exponent : ℤ} (normal : Normal mantissa exponent) (pos : 0 < mantissa) :
    Holds (.ofModel (.pack (.finite .positive mantissa exponent pos))) (mantissa * 2 ^ exponent) :=
  .finite (normal.unpack_pack pos) normal

theorem Normal.negative_pack {mantissa : ℕ} {exponent : ℤ} (normal : Normal mantissa exponent)
    (pos : 0 < mantissa) : Negative (.ofModel (.pack (.finite .negative mantissa exponent pos))) :=
  ⟨mantissa, exponent, pos, normal.unpack_pack pos⟩

section Normalize
variable {magnitude : ℕ} {exponent : ℤ}

theorem normalize_pos (pos : 0 < magnitude) :
    UnpackedFloat.normalize .binary64 magnitude exponent .positive =
      UnpackedFloat.round .binary64 .positive magnitude exponent := by
  have order : compare (magnitude : ℤ) 0 = .gt := compare_gt_iff_gt.mpr (by exact_mod_cast pos)
  simp only [UnpackedFloat.normalize, order, Int.toNat_natCast]

theorem normalize_neg (pos : 0 < magnitude) :
    UnpackedFloat.normalize .binary64 (-magnitude : ℤ) exponent .positive =
      UnpackedFloat.round .binary64 .negative magnitude exponent := by
  have order : compare (-(magnitude : ℤ)) 0 = .lt := compare_lt_iff_lt.mpr (by omega)
  simp only [UnpackedFloat.normalize, order, neg_neg, Int.toNat_natCast]

end Normalize

theorem InRange.of_bounds {x : ℚ} {low high : ℤ} (atLeast : 2 ^ low ≤ x) (atMost : x ≤ 2 ^ high)
    (notTiny : -1022 ≤ low) (notHuge : high < 1023) : InRange x :=
  ⟨(zpow_le_zpow_right₀ (by norm_num) notTiny).trans atLeast,
    atMost.trans_lt (zpow_lt_zpow_right₀ (by norm_num) notHuge)⟩

/-- Conversion of an unsigned integer. -/
theorem holds_toFloat (n : UInt64) : ∃ v, RoundsTo n.toNat v ∧ Holds n.toFloat v := by
  change ∃ v, RoundsTo n.toNat v ∧
    Holds (.ofModel (.pack (UnpackedFloat.normalize .binary64 (n.toNat : ℤ) 0 .positive))) v
  rcases Nat.eq_zero_or_pos n.toNat with none | pos
  · rw [none]
    exact ⟨0, by simpa using RoundsTo.zero, holds_pack_zero⟩
  · have value : (n.toNat : ℚ) * 2 ^ (0 : ℤ) = n.toNat := by rw [zpow_zero, mul_one]
    have small : (n.toNat : ℚ) ≤ 2 ^ (64 : ℤ) := by exact_mod_cast n.toNat_lt.le
    have large : (2 : ℚ) ^ (0 : ℤ) ≤ n.toNat := by rw [zpow_zero]; exact_mod_cast pos
    have range : InRange n.toNat := .of_bounds large small (by norm_num) (by norm_num)
    obtain ⟨final, power, finalPos, eq, normal, rounds⟩ := round_finite .positive pos (by rwa [value])
    rw [value] at rounds
    rw [normalize_pos pos, eq]
    exact ⟨_, rounds, normal.holds_pack finalPos⟩

/-- Written at the smaller exponent, the number is the same. -/
theorem decreaseExponent_value {mantissa : ℕ} {exponent low : ℤ} (le : low ≤ exponent) :
    ((decreaseExponent mantissa exponent low).1 : ℚ) * 2 ^ low = mantissa * 2 ^ exponent := by
  rw [short_whole le, decreaseExponent, Nat.shiftLeft_eq]

/-- The difference of two whole multiples of one unit. -/
theorem difference_normal {left right : ℕ} {exponent : ℤ} (lt : right < left)
    (range : InRange ((left - right : ℚ) * 2 ^ exponent)) :
    (∃ v, RoundsTo ((left - right : ℚ) * 2 ^ exponent) v ∧
      Holds (.ofModel (.pack (UnpackedFloat.normalize .binary64 ((left : ℤ) - right) exponent .positive))) v) ∧
    Negative (.ofModel (.pack (UnpackedFloat.normalize .binary64 ((right : ℤ) - left) exponent .positive))) := by
  obtain ⟨gap, rfl⟩ := Nat.exists_eq_add_of_lt lt
  have value : ((right + gap + 1 : ℕ) : ℚ) - right = (gap + 1 : ℕ) := by push_cast; ring
  have up : ((right + gap + 1 : ℕ) : ℤ) - right = (gap + 1 : ℕ) := by push_cast; ring
  have down : (right : ℤ) - (right + gap + 1 : ℕ) = -(gap + 1 : ℕ) := by push_cast; ring
  rw [value] at range ⊢
  rw [up, down, normalize_pos (Nat.succ_pos gap), normalize_neg (Nat.succ_pos gap)]
  obtain ⟨final, power, pos, eq, normal, rounds⟩ := round_finite .positive (Nat.succ_pos gap) range
  obtain ⟨final', power', pos', eq', normal', -⟩ := round_finite .negative (Nat.succ_pos gap) range
  rw [eq, eq']
  exact ⟨⟨_, rounds, normal.holds_pack pos⟩, normal'.negative_pack pos'⟩

/-- Subtraction: the exact difference rounded once, or a number below zero. -/
theorem holds_sub (ha : Holds a x) (hb : Holds b y) (range : x = y ∨ InRange |x - y|) :
    (y ≤ x → ∃ v, RoundsTo (x - y) v ∧ Holds (a - b) v) ∧ (x < y → Negative (a - b)) := by
  have unfolded : a - b = .ofModel (.pack (UnpackedFloat.sub .binary64 a.toModel.unpack b.toModel.unpack)) := rfl
  rw [unfolded]
  cases ha with
  | zero left =>
    cases hb with
    | zero right =>
      rw [left, right, sub_self]
      exact ⟨fun _ => ⟨0, .zero, holds_pack_zero⟩, fun lt => absurd lt (lt_irrefl _)⟩
    | @finite mantissa exponent pos right normal =>
      have positive : (0 : ℚ) < mantissa * 2 ^ exponent := mul_pos (by exact_mod_cast pos) (two_zpow_pos _)
      rw [left, right]
      exact ⟨fun le => absurd positive le.not_gt, fun _ => normal.negative_pack pos⟩
  | @finite mantissa exponent pos left normal =>
    cases hb with
    | zero right =>
      have nonneg : (0 : ℚ) ≤ mantissa * 2 ^ exponent := (Holds.finite left normal).nonneg
      rw [left, right, sub_zero]
      exact ⟨fun _ => ⟨_, .refl nonneg, normal.holds_pack pos⟩, fun lt => absurd lt nonneg.not_gt⟩
    | @finite mantissa' exponent' pos' right normal' =>
      rw [left, right]
      change (_ → ∃ v, _ ∧ Holds (.ofModel (.pack (UnpackedFloat.normalize .binary64
        ((decreaseExponent mantissa exponent (min exponent exponent')).1 -
          (decreaseExponent mantissa' exponent' (min exponent exponent')).1)
        (min exponent exponent') .positive))) v) ∧
        (_ → Negative (.ofModel (.pack (UnpackedFloat.normalize .binary64
        ((decreaseExponent mantissa exponent (min exponent exponent')).1 -
          (decreaseExponent mantissa' exponent' (min exponent exponent')).1)
        (min exponent exponent') .positive))))
      rw [← decreaseExponent_value (min_le_left exponent exponent'),
        ← decreaseExponent_value (min_le_right exponent exponent')] at range ⊢
      generalize (decreaseExponent mantissa exponent (min exponent exponent')).1 = p at range ⊢
      generalize (decreaseExponent mantissa' exponent' (min exponent exponent')).1 = q at range ⊢
      generalize min exponent exponent' = low at range ⊢
      have unit := two_zpow_pos low
      rw [← sub_mul] at range ⊢
      rcases lt_trichotomy p q with lt | rfl | gt
      · have cast : (p : ℚ) < q := by exact_mod_cast lt
        have apart := range.resolve_left fun same => cast.ne (mul_right_cancel₀ unit.ne' same)
        rw [abs_mul, abs_of_pos unit, abs_sub_comm, abs_of_pos (sub_pos.mpr cast)] at apart
        exact ⟨fun le => absurd (le_of_mul_le_mul_right le unit) cast.not_ge,
          fun _ => (difference_normal lt apart).2⟩
      · rw [sub_self, sub_self, zero_mul]
        exact ⟨fun _ => ⟨0, .zero, holds_pack_zero⟩, fun lt => absurd lt (lt_irrefl _)⟩
      · have cast : (q : ℚ) < p := by exact_mod_cast gt
        have apart := range.resolve_left fun same => cast.ne' (mul_right_cancel₀ unit.ne' same)
        rw [abs_mul, abs_of_pos unit, abs_of_pos (sub_pos.mpr cast)] at apart
        exact ⟨fun _ => (difference_normal gt apart).1,
          fun lt => absurd (lt_of_mul_lt_mul_right lt unit.le) cast.not_gt⟩

/-- Product: the exact one rounded once. -/
theorem holds_mul (ha : Holds a x) (hb : Holds b y) (range : x * y = 0 ∨ InRange (x * y)) :
    ∃ v, RoundsTo (x * y) v ∧ Holds (a * b) v := by
  have unfolded : a * b = .ofModel (.pack (UnpackedFloat.mul .binary64 a.toModel.unpack b.toModel.unpack)) := rfl
  rw [unfolded]
  cases ha with
  | zero left =>
    rw [zero_mul]
    cases hb with
    | zero right =>
      rw [left, right]
      exact ⟨0, .zero, holds_pack_zero⟩
    | finite right normal =>
      rw [left, right]
      exact ⟨0, .zero, holds_pack_zero⟩
  | @finite mantissa exponent pos left normal =>
    cases hb with
    | zero right =>
      rw [left, right, mul_zero]
      exact ⟨0, .zero, holds_pack_zero⟩
    | @finite mantissa' exponent' pos' right normal' =>
      have value : (((mantissa * mantissa' : ℕ) : ℚ) + 0) * 2 ^ (exponent + exponent') =
          mantissa * 2 ^ exponent * (mantissa' * 2 ^ exponent') := by
        rw [zpow_add₀ (by norm_num)]
        push_cast
        ring
      have positive : (mantissa : ℚ) * 2 ^ exponent * (mantissa' * 2 ^ exponent') ≠ 0 :=
        (mul_pos (mul_pos (by exact_mod_cast pos) (two_zpow_pos _))
          (mul_pos (by exact_mod_cast pos') (two_zpow_pos _))).ne'
      have bits : 2 ^ 52 ≤ mantissa * mantissa' :=
        normal.atLeast.trans (Nat.le_mul_of_pos_right _ pos')
      obtain ⟨final, power, finalPos, eq, final_normal, rounds⟩ :=
        round_normal .positive bits (show Fraction .exact 0 from rfl)
          (by rw [value]; exact range.resolve_left positive)
      rw [value] at rounds
      rw [left, right]
      change ∃ v, _ ∧ Holds (.ofModel (.pack (roundWithAccuracy .binary64 .positive (mantissa * mantissa')
        (exponent + exponent') .exact))) v
      rw [eq]
      exact ⟨_, rounds, final_normal.holds_pack finalPos⟩

/-- What is left of a division lies between the quotient and the next number. -/
theorem fraction_remainder {num den : ℕ} (lt : num < den) :
    Fraction (accuracyOfFraction num den) (num / den) := by
  have positive : (0 : ℚ) < den := by exact_mod_cast Nat.zero_lt_of_lt lt
  unfold accuracyOfFraction
  split
  case isTrue none => simp [Fraction, none]
  case isFalse some =>
    have numPos : (0 : ℚ) < num := by exact_mod_cast Nat.pos_of_ne_zero some
    have below : (num : ℚ) / den < 1 := (div_lt_one positive).mpr (by exact_mod_cast lt)
    rcases order : compare (2 * num) den with _ | _ | _
    · have cast : (2 * num : ℚ) < den := by exact_mod_cast compare_lt_iff_lt.mp order
      exact ⟨div_pos numPos positive, by rw [div_lt_div_iff₀ positive (by norm_num)]; linarith⟩
    · have cast : (2 * num : ℚ) = den := by exact_mod_cast compare_eq_iff_eq.mp order
      exact (div_eq_div_iff positive.ne' (by norm_num)).mpr (by linarith)
    · have cast : (den : ℚ) < 2 * num := by exact_mod_cast compare_gt_iff_gt.mp order
      exact ⟨by rw [div_lt_div_iff₀ (by norm_num) positive]; linarith, below⟩

/-- The quotient of two normal numbers is computed to at least 53 bits, and its accuracy is that of
the remainder. -/
theorem divCore_normal {mantissa mantissa' : ℕ} {exponent exponent' : ℤ} (normal : Normal mantissa exponent)
    (normal' : Normal mantissa' exponent')
    (notTiny : 2 ^ (-1022 : ℤ) ≤ (mantissa * 2 ^ exponent / (mantissa' * 2 ^ exponent') : ℚ)) :
    ∃ quotient power acc δ, divCore .binary64 mantissa exponent mantissa' exponent' = (quotient, power, acc) ∧
      2 ^ 52 ≤ quotient ∧ Fraction acc δ ∧
      (quotient + δ) * 2 ^ power = (mantissa * 2 ^ exponent / (mantissa' * 2 ^ exponent') : ℚ) := by
  have pos : 0 < mantissa := (Nat.two_pow_pos 52).trans_le normal.atLeast
  have pos' : 0 < mantissa' := (Nat.two_pow_pos 52).trans_le normal'.atLeast
  have cast : (0 : ℚ) < mantissa' := by exact_mod_cast pos'
  have ratio : (mantissa * 2 ^ exponent / (mantissa' * 2 ^ exponent') : ℚ) =
      mantissa / mantissa' * 2 ^ (exponent - exponent') := by
    rw [zpow_sub₀ (by norm_num)]
    field_simp
  rw [ratio] at notTiny ⊢
  have unit := two_zpow_pos (exponent - exponent')
  have below : (mantissa : ℚ) / mantissa' < 2 := by
    have small : (mantissa : ℚ) < 2 ^ 53 := by exact_mod_cast normal.below
    have large : (2 : ℚ) ^ 52 ≤ mantissa' := by exact_mod_cast normal'.atLeast
    rw [div_lt_iff₀ cast]
    linarith
  -- below this exponent the quotient would be subnormal; at it, the dividend is the larger mantissa
  have bound : -1022 < exponent - exponent' ∨ exponent - exponent' = -1022 ∧ mantissa' ≤ mantissa := by
    have lt : (2 : ℚ) ^ (-1022 : ℤ) < 2 ^ (exponent - exponent' + 1) := by
      rw [zpow_add_one₀ (by norm_num), mul_comm _ 2]
      exact notTiny.trans_lt (mul_lt_mul_of_pos_right below unit)
    have atLeast := (zpow_lt_zpow_iff_right₀ (by norm_num : (1 : ℚ) < 2)).mp lt
    rcases (show -1022 ≤ exponent - exponent' by omega).lt_or_eq with above | lowest
    · exact .inl above
    · rw [← lowest, le_mul_iff_one_le_left (two_zpow_pos _), one_le_div cast] at notTiny
      exact .inr ⟨lowest.symm, by exact_mod_cast notTiny⟩
  obtain ⟨shift, power, target, sum, bits⟩ : ∃ (shift : ℕ) (power : ℤ),
      min (exponent - exponent') (Format.binary64.targetExponent
        (totalExponent mantissa exponent - totalExponent mantissa' exponent')) = power ∧
      exponent - exponent' = shift + power ∧ 2 ^ 52 * mantissa' ≤ mantissa * 2 ^ shift := by
    have log := (Nat.log2_eq_iff pos.ne').mpr ⟨normal.atLeast, normal.below⟩
    have log' := (Nat.log2_eq_iff pos'.ne').mpr ⟨normal'.atLeast, normal'.below⟩
    rw [Format.targetExponent, totalExponent, totalExponent, log, log',
      show Format.binary64.mantissaBits = 53 from rfl, show Format.binary64.minExponent = -1074 from rfl]
    have low := normal.atLeast
    have high' := normal'.below
    rcases bound with above | ⟨lowest, le⟩
    · exact ⟨53, exponent - exponent' - 53, by omega, by omega, by omega⟩
    · exact ⟨52, -1074, by omega, by omega, by omega⟩
  have amount : (exponent - exponent' - power).toNat = shift := by omega
  refine ⟨mantissa * 2 ^ shift / mantissa', power,
    accuracyOfFraction (mantissa * 2 ^ shift % mantissa') mantissa', _, ?_, ?_,
    fraction_remainder (Nat.mod_lt _ pos'), ?_⟩
  · simp only [divCore, target, amount, Nat.shiftLeft_eq]
  · exact (Nat.le_div_iff_mul_le pos').mpr bits
  · have division : (mantissa' : ℚ) * (mantissa * 2 ^ shift / mantissa' : ℕ) +
        (mantissa * 2 ^ shift % mantissa' : ℕ) = mantissa * 2 ^ shift := by
      exact_mod_cast Nat.div_add_mod (mantissa * 2 ^ shift) mantissa'
    rw [sum, zpow_add₀ (by norm_num), zpow_natCast]
    field_simp
    rw [mul_comm, division]

/-- Quotient by a positive number: the exact one rounded once. -/
theorem holds_div (ha : Holds a x) (hb : Holds b y) (positive : 0 < y) (range : x = 0 ∨ InRange (x / y)) :
    ∃ v, RoundsTo (x / y) v ∧ Holds (a / b) v := by
  have unfolded : a / b = .ofModel (.pack (UnpackedFloat.div .binary64 a.toModel.unpack b.toModel.unpack)) := rfl
  rw [unfolded]
  cases hb with
  | zero right => exact absurd positive (lt_irrefl _)
  | @finite mantissa' exponent' pos' right normal' =>
    cases ha with
    | zero left =>
      rw [left, right, zero_div]
      exact ⟨0, .zero, holds_pack_zero⟩
    | @finite mantissa exponent pos left normal =>
      have nonzero : (mantissa : ℚ) * 2 ^ exponent ≠ 0 :=
        (mul_pos (by exact_mod_cast pos) (two_zpow_pos _)).ne'
      have inRange := range.resolve_left nonzero
      obtain ⟨quotient, power, acc, δ, core, bits, frac, value⟩ := divCore_normal normal normal' inRange.1
      obtain ⟨final, finalPower, finalPos, eq, final_normal, rounds⟩ :=
        round_normal .positive bits frac (by rwa [value])
      rw [value] at rounds
      have divided : UnpackedFloat.div .binary64 (.finite .positive mantissa exponent pos)
          (.finite .positive mantissa' exponent' pos') =
          roundWithAccuracy .binary64 .positive quotient power acc := by
        simp only [UnpackedFloat.div, core]
        rfl
      rw [left, right, divided, eq]
      exact ⟨_, rounds, final_normal.holds_pack finalPos⟩

section Compare

theorem le_zero_iff : a ≤ 0.0 ↔ a.toModel.unpack.le (.zero .positive) = true := decide_eq_true_iff

theorem lt_zero_iff : a < 0.0 ↔ a.toModel.unpack.lt (.zero .positive) = true := decide_eq_true_iff

theorem Holds.le_zero (h : Holds a x) : a ≤ 0.0 ↔ x = 0 := by
  rw [le_zero_iff]
  cases h with
  | zero unpacked =>
    rw [unpacked]
    exact ⟨fun _ => rfl, fun _ => rfl⟩
  | @finite mantissa exponent pos unpacked normal =>
    have nonzero : (mantissa : ℚ) * 2 ^ exponent ≠ 0 := (mul_pos (by exact_mod_cast pos) (two_zpow_pos _)).ne'
    rw [unpacked]
    exact ⟨fun le => absurd le (by simp [UnpackedFloat.le, UnpackedFloat.compare]), fun eq => absurd eq nonzero⟩

theorem Holds.not_lt_zero (h : Holds a x) : ¬ a < 0.0 := by
  rw [lt_zero_iff]
  cases h with
  | zero unpacked =>
    rw [unpacked]
    simp [UnpackedFloat.lt, UnpackedFloat.compare]
  | finite unpacked normal =>
    rw [unpacked]
    simp [UnpackedFloat.lt, UnpackedFloat.compare]

theorem Negative.lt_zero (h : Negative a) : a < 0.0 := by
  obtain ⟨mantissa, exponent, pos, unpacked⟩ := h
  rw [lt_zero_iff, unpacked]
  rfl

theorem Negative.le_zero (h : Negative a) : a ≤ 0.0 := by
  obtain ⟨mantissa, exponent, pos, unpacked⟩ := h
  rw [le_zero_iff, unpacked]
  rfl

end Compare

/-- The exponent field of such a number is not the one of infinities and not-a-numbers. -/
theorem Holds.exponent_field (h : Holds a x) : a.toBits.toNat / 2 ^ 52 % 2 ^ 11 ≠ 2 ^ 11 - 1 := by
  intro special
  have field : @unpackExponent .binary64 a.toModel.toBits.toBitVec = -1#11 := by
    apply BitVec.eq_of_toNat_eq
    rw [unpackExponent, BitVec.toNat_cast, BitVec.extractLsb_toNat, Nat.shiftRight_eq_div_pow]
    exact special
  have unpacked : a.toModel.unpack.isFinite = false := by
    simp only [Float.Model.unpack, UnpackedFloat.unpack, field, if_true]
    split <;> rfl
  cases h with
  | zero eq => rw [eq] at unpacked; cases unpacked
  | finite eq normal => rw [eq] at unpacked; cases unpacked

end Numbers

end SkyDaemon.Binary64
