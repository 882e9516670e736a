import Mathlib
import WorkloadSpec.Value

/-!
The double nearest to an integer. Its value is what is left of the integer in 53 significant bits,
a half being rounded to the even neighbour, and the sign is kept. So two integers have the same
nearest double just when they are rounded to the same integer, and an integer that 53 bits hold
shares its double with no other.
-/
namespace WorkloadSpec.Double

open Float.Model UnpackedFloat

/-- The quotient by a power of two, rounded to the nearest integer, a half to the even one. -/
def quotient (n k : Nat) : Nat :=
  if 2 * (n % 2 ^ k) < 2 ^ k ∨ 2 * (n % 2 ^ k) = 2 ^ k ∧ n / 2 ^ k % 2 = 0 then n / 2 ^ k
  else n / 2 ^ k + 1

/-- A natural number rounded to 53 significant bits. -/
def nearestNat (n : Nat) : Nat := quotient n (n.log2 - 52) * 2 ^ (n.log2 - 52)

/-- An integer rounded to 53 significant bits. -/
def nearest (z : Int) : Int := z.sign * nearestNat z.natAbs

section Rounding

variable {n k c : Nat}

theorem quotient_bounds (n k : Nat) : n / 2 ^ k ≤ quotient n k ∧ quotient n k ≤ n / 2 ^ k + 1 := by
  unfold quotient
  split <;> omega

/-- Only the ratio of the number and the power counts. -/
theorem quotient_mul (n k c : Nat) : quotient (n * 2 ^ c) (k + c) = quotient n k := by
  have hpos : 0 < 2 ^ c := Nat.two_pow_pos c
  have hdouble : 2 * (n % 2 ^ k * 2 ^ c) = 2 * (n % 2 ^ k) * 2 ^ c := (Nat.mul_assoc _ _ _).symm
  simp only [quotient, Nat.pow_add, Nat.mul_div_mul_right _ _ hpos, Nat.mul_mod_mul_right,
    hdouble, Nat.mul_lt_mul_right hpos, Nat.mul_left_inj hpos.ne']

theorem quotient_zero (n : Nat) : quotient n 0 = n := by
  simp [quotient, Nat.mod_one]

theorem nearestNat_of_lt (h : n < 2 ^ 53) : nearestNat n = n := by
  have hlog : n.log2 - 52 = 0 := by
    rcases Nat.eq_zero_or_pos n with rfl | hpos
    · rfl
    · have := (Nat.log2_lt hpos.ne').2 h
      omega
  rw [nearestNat, hlog, quotient_zero, Nat.pow_zero, Nat.mul_one]

theorem two_pow_le_nearestNat (h : 2 ^ 53 ≤ n) : 2 ^ 53 ≤ nearestNat n := by
  have hn : n ≠ 0 := by omega
  have hlog : 53 ≤ n.log2 := (Nat.le_log2 hn).2 h
  have hself : 2 ^ 52 * 2 ^ (n.log2 - 52) ≤ n := by
    rw [← Nat.pow_add, Nat.add_sub_cancel' (by omega)]
    exact Nat.log2_self_le hn
  have hquotient : 2 ^ 52 ≤ quotient n (n.log2 - 52) :=
    Nat.le_trans ((Nat.le_div_iff_mul_le (Nat.two_pow_pos _)).2 hself) (quotient_bounds _ _).1
  have hpower : 2 ^ 1 ≤ 2 ^ (n.log2 - 52) := Nat.pow_le_pow_right (by decide) (by omega)
  calc 2 ^ 53 = 2 ^ 52 * 2 ^ 1 := by rw [← Nat.pow_add]
    _ ≤ quotient n (n.log2 - 52) * 2 ^ (n.log2 - 52) := Nat.mul_le_mul hquotient hpower

end Rounding

section Shifting

variable {n k : Nat} {em : ExtendedMantissa}

/-- A mantissa that was shifted by `k` places holds the quotient, and in its two bits whether the
remainder is a half or more and whether it is anything else than nothing and a half. -/
structure Shifted (n k : Nat) (em : ExtendedMantissa) : Prop where
  mantissa : em.mantissa = n / 2 ^ k
  roundBit : em.roundBit = true ↔ 2 ^ k ≤ 2 * (n % 2 ^ k)
  stickyBit : em.stickyBit = true ↔ 2 * (n % 2 ^ k) ≠ 0 ∧ 2 * (n % 2 ^ k) ≠ 2 ^ k

theorem Shifted.shiftRightOne (h : Shifted n k em) : Shifted n (k + 1) em.shiftRightOne := by
  have hrest : n % 2 ^ k < 2 ^ k := Nat.mod_lt _ (Nat.two_pow_pos k)
  have hmod : n % 2 ^ (k + 1) = n % 2 ^ k + 2 ^ k * (n / 2 ^ k % 2) := by
    rw [Nat.pow_succ, Nat.mod_mul]
  have hpow : 2 ^ (k + 1) = 2 * 2 ^ k := by rw [Nat.pow_succ, Nat.mul_comm]
  have hbit : n / 2 ^ k % 2 = 0 ∨ n / 2 ^ k % 2 = 1 := by omega
  refine ⟨?_, ?_, ?_⟩
  · change em.mantissa / 2 = n / 2 ^ (k + 1)
    rw [h.mantissa, Nat.div_div_eq_div_mul, Nat.pow_succ]
  · change (em.mantissa % 2 != 0) = true ↔ _
    rw [h.mantissa, hmod, hpow, bne_iff_ne]
    rcases hbit with hbit | hbit <;> rw [hbit] <;> omega
  · change (em.roundBit || em.stickyBit) = true ↔ _
    rw [Bool.or_eq_true, h.roundBit, h.stickyBit, hmod, hpow]
    rcases hbit with hbit | hbit <;> rw [hbit] <;> omega

theorem shifted_repeat (n k : Nat) :
    Shifted n k (Nat.repeat ExtendedMantissa.shiftRightOne k ⟨n, false, false⟩) := by
  induction k with
  | zero =>
    exact ⟨(Nat.div_one n).symm, by simp [Nat.repeat, Nat.mod_one],
      by simp [Nat.repeat, Nat.mod_one]⟩
  | succ k ih => exact ih.shiftRightOne

/-- The two bits say how to round. -/
theorem Shifted.roundedMantissa (h : Shifted n k em) : em.roundedMantissa = quotient n k := by
  obtain ⟨m, round, sticky⟩ := em
  obtain ⟨rfl, hround, hsticky⟩ := h
  unfold quotient
  cases round with
  | false =>
    have hless : 2 * (n % 2 ^ k) < 2 ^ k := Nat.lt_of_not_le fun h => Bool.noConfusion (hround.2 h)
    rw [if_pos (Or.inl hless)]
    cases sticky <;> rfl
  | true =>
    have hmore : 2 ^ k ≤ 2 * (n % 2 ^ k) := hround.1 rfl
    cases sticky with
    | false =>
      have hhalf : 2 * (n % 2 ^ k) = 2 ^ k := by
        by_contra hne
        have hpos : 0 < 2 ^ k := Nat.two_pow_pos k
        exact Bool.noConfusion (hsticky.2 ⟨by omega, hne⟩)
      change n / 2 ^ k + n / 2 ^ k % 2 = _
      split <;> omega
    | true =>
      have hne := (hsticky.1 rfl).2
      rw [if_neg (by omega)]
      rfl

end Shifting

/-- The bits of the double nearest to an integer, taken apart. -/
def unpacked (z : Int) : UnpackedFloat := (ofInt z).val.toModel.unpack

theorem unpacked_zero : unpacked 0 = .zero .positive := rfl

section Unpacked

variable {n k : Nat} {e : Int} {s : Sign} {u : UnpackedFloat}

/-- A float with 53 significant bits whose magnitude is a natural number. -/
inductive IsWhole (s : Sign) (n : Nat) : UnpackedFloat → Prop
  | intro {m e : Nat} (hpos : 0 < m) (hlo : 2 ^ 52 ≤ m) (hhi : m < 2 ^ 53) (he : e ≤ 1023)
    (hvalue : m * 2 ^ e = n * 2 ^ 52) : IsWhole s n (.finite s m (e - 52) hpos)

theorem shiftToTargetExponent_eq (hlo : 2 ^ (52 + k) ≤ n) (hhi : n < 2 ^ (53 + k))
    (he : -1074 ≤ e + k) : shiftToTargetExponent .binary64 n e .exact =
      (Nat.repeat ExtendedMantissa.shiftRightOne k ⟨n, false, false⟩, e + k) := by
  have hn : n ≠ 0 := Nat.ne_of_gt (Nat.lt_of_lt_of_le (Nat.two_pow_pos _) hlo)
  have hlog : n.log2 = 52 + k := by
    rw [Nat.log2_eq_iff hn]
    exact ⟨hlo, by rwa [Nat.add_right_comm]⟩
  have htarget : Format.binary64.targetExponent (totalExponent n e) = e + k := by
    change max ((n.log2 : Int) + 1 + e - 53) (-1074) = e + k
    rw [hlog]
    omega
  have hshift : (e + k - e).toNat = k := by omega
  rw [shiftToTargetExponent, htarget, shiftToExponent, hshift]
  rfl

theorem roundWithAccuracy_of_shifts {em final : ExtendedMantissa} {r m : Nat} {e₁ e₂ : Int}
    (hfirst : shiftToTargetExponent .binary64 n e .exact = (em, e₁)) (hr : em.roundedMantissa = r)
    (hlast : shiftToTargetExponent .binary64 r e₁ .exact = (final, e₂))
    (hm : final.mantissa = m) (hpos : 0 < m) :
    roundWithAccuracy .binary64 s n e .exact = .finite s m e₂ hpos := by
  subst hr hm
  simp only [roundWithAccuracy, hfirst, hlast]
  exact dif_neg hpos.ne'

/-- Rounding gives the quotient as the mantissa, or half of it where it has one bit too many. -/
theorem exists_roundWithAccuracy (s : Sign) (hlo : 2 ^ (52 + k) ≤ n) (hhi : n < 2 ^ (53 + k))
    (he : -1074 ≤ e + k) : ∃ (m e' : Nat) (hpos : 0 < m),
      roundWithAccuracy .binary64 s n e .exact = .finite s m (e + k + e') hpos ∧
        2 ^ 52 ≤ m ∧ m < 2 ^ 53 ∧ e' ≤ 1 ∧ m * 2 ^ e' = quotient n k := by
  have hfirst := shiftToTargetExponent_eq hlo hhi he
  have hrounded := (shifted_repeat n k).roundedMantissa
  obtain ⟨hfloor, hceil⟩ := quotient_bounds n k
  have hlow : 2 ^ 52 ≤ n / 2 ^ k := by
    rw [Nat.le_div_iff_mul_le (Nat.two_pow_pos k), ← Nat.pow_add]
    exact hlo
  have hhigh : n / 2 ^ k < 2 ^ 53 := by
    rw [Nat.div_lt_iff_lt_mul (Nat.two_pow_pos k), ← Nat.pow_add]
    exact hhi
  rcases Nat.lt_or_ge (quotient n k) (2 ^ 53) with hless | hmore
  · have hlast := shiftToTargetExponent_eq (k := 0) (e := e + k) (Nat.le_trans hlow hfloor) hless
      (by omega)
    exact ⟨quotient n k, 0, by omega, roundWithAccuracy_of_shifts hfirst hrounded hlast rfl _,
      by omega, hless, by decide, Nat.mul_one _⟩
  · have hfull : quotient n k = 2 ^ 53 := by omega
    have hlast := shiftToTargetExponent_eq (n := 2 ^ 53) (k := 1) (e := e + k) (by decide)
      (by decide) (by omega)
    exact ⟨2 ^ 52, 1, by decide,
      roundWithAccuracy_of_shifts hfirst (hrounded.trans hfull) hlast rfl _, by decide, by decide,
      by decide, hfull ▸ rfl⟩

theorem quotient_mul_two_pow_log2 {c : Nat} (hc : 52 ≤ n.log2 + c) :
    quotient (n * 2 ^ c) (n.log2 + c - 52) * 2 ^ n.log2 = nearestNat n * 2 ^ 52 := by
  rcases Nat.le_total 52 n.log2 with hlog | hlog
  · have hk : n.log2 + c - 52 = n.log2 - 52 + c := by omega
    rw [hk, quotient_mul, nearestNat, Nat.mul_assoc, ← Nat.pow_add, Nat.sub_add_cancel hlog]
  · obtain ⟨k, hk⟩ : ∃ k, n.log2 + c = 52 + k := Nat.exists_eq_add_of_le hc
    have hshift : c = 52 - n.log2 + k := by omega
    have hnear : n.log2 - 52 = 0 := by omega
    have hexact := quotient_mul (n * 2 ^ (52 - n.log2)) 0 k
    rw [Nat.mul_assoc, ← Nat.pow_add, ← hshift, Nat.zero_add, quotient_zero] at hexact
    rw [hk, Nat.add_sub_cancel_left, hexact, Nat.mul_assoc, ← Nat.pow_add,
      Nat.sub_add_cancel hlog, nearestNat, hnear, quotient_zero, Nat.pow_zero, Nat.mul_one]

theorem isWhole_roundWithAccuracy (s : Sign) {c : Nat} (hn : 0 < n) (hlog : n.log2 < 1023)
    (hc : 52 ≤ n.log2 + c) :
    IsWhole s (nearestNat n) (roundWithAccuracy .binary64 s (n * 2 ^ c) (-c) .exact) := by
  obtain ⟨k, hk⟩ : ∃ k, n.log2 + c = 52 + k := Nat.exists_eq_add_of_le hc
  have hlo : 2 ^ (52 + k) ≤ n * 2 ^ c := by
    rw [← hk, Nat.pow_add]
    exact Nat.mul_le_mul_right _ (Nat.log2_self_le hn.ne')
  have hhi : n * 2 ^ c < 2 ^ (53 + k) := by
    have hpow : 53 + k = n.log2 + 1 + c := by omega
    rw [hpow, Nat.pow_add]
    exact Nat.mul_lt_mul_of_pos_right Nat.lt_log2_self (Nat.two_pow_pos c)
  obtain ⟨m, e', hpos, hround, hmlo, hmhi, he', hvalue⟩ :=
    exists_roundWithAccuracy (e := -c) s hlo hhi (by omega)
  have hexponent : -(c : Int) + k + e' = ((n.log2 + e' : Nat) : Int) - 52 := by omega
  rw [hround, hexponent]
  refine .intro hpos hmlo hmhi (by omega) ?_
  have hk' : k = n.log2 + c - 52 := by omega
  rw [Nat.pow_add, Nat.mul_comm (2 ^ n.log2), ← Nat.mul_assoc, hvalue, hk',
    quotient_mul_two_pow_log2 hc]

/-- Writing the bits and reading them again changes nothing. -/
theorem IsWhole.unpack_pack (h : IsWhole s n u) : (Float.Model.pack u).unpack = u := by
  obtain @⟨m, e, hpos, hlo, hhi, he, -⟩ := h
  have hfield : (BitVec.ofNat 11 (e + 1023)).toNat = e + 1023 := by
    rw [BitVec.toNat_ofNat, Nat.mod_eq_of_lt (by omega)]
  have hmantissa : (1#1 ++ BitVec.ofNat 52 m).toNat = m := by
    rw [BitVec.toNat_append, ← Nat.shiftLeft_add_eq_or_of_lt (BitVec.isLt _), Nat.shiftLeft_eq,
      BitVec.toNat_ofNat, BitVec.toNat_ofNat]
    omega
  have hones : BitVec.ofNat 11 (e + 1023) ≠ -1#11 := by
    intro h
    have htop : e + 1023 = 2047 := hfield.symm.trans (congrArg BitVec.toNat h)
    omega
  have hzero : BitVec.ofNat 11 (e + 1023) ≠ 0#11 := by
    intro h
    have hbottom : e + 1023 = 0 := hfield.symm.trans (congrArg BitVec.toNat h)
    omega
  have hpack : UnpackedFloat.pack .binary64 (.finite s m (e - 52) hpos) =
      packComponents .binary64 s (BitVec.ofNat 11 (e + 1023)) (BitVec.ofNat 52 m) := by
    have hlog : m.log2 = 52 := (Nat.log2_eq_iff hpos.ne').2 ⟨hlo, hhi⟩
    have hbiased : ((e : Int) - 52 + Format.binary64.exponentBias +
        Format.binary64.mantissaBitsWithoutImplicit).toNat = e + 1023 := by
      change ((e : Int) - 52 + 1023 + 52).toNat = e + 1023
      omega
    rw [UnpackedFloat.pack]
    simp only [hlog, hbiased]
    rw [if_neg (by omega)]
    rfl
  change UnpackedFloat.unpack .binary64 (UnpackedFloat.pack .binary64 _) = _
  rw [hpack, UnpackedFloat.unpack]
  simp only [unpackMantissa_packComponents, unpackExponent_packComponents,
    unpackSign_packComponents, Sign.ofBitVec_toBitVec]
  rw [if_neg hones, if_neg hzero, UnpackedFloat.finite.injEq, hfield]
  refine ⟨rfl, hmantissa, ?_⟩
  change ((e + 1023 : Nat) : Int) - (1023 + 52) = e - 52
  omega

theorem IsWhole.isFinite (h : IsWhole s n u) : u.isFinite = true := by
  cases h
  rfl

theorem IsWhole.neg (h : IsWhole s n u) : IsWhole (-s) n u.neg := by
  obtain ⟨hpos, hlo, hhi, he, hvalue⟩ := h
  exact .intro hpos hlo hhi he hvalue

/-- Sign and magnitude are all there is. -/
theorem IsWhole.eq_iff {t : Sign} {k : Nat} {v : UnpackedFloat} (hu : IsWhole s n u)
    (hv : IsWhole t k v) : u = v ↔ s = t ∧ n = k := by
  obtain @⟨m, e, hpos, hlo, hhi, -, hvalue⟩ := hu
  obtain @⟨m', e', hpos', hlo', hhi', -, hvalue'⟩ := hv
  rw [UnpackedFloat.finite.injEq]
  constructor
  · rintro ⟨hs, rfl, he⟩
    obtain rfl : e = e' := by omega
    refine ⟨hs, Nat.eq_of_mul_eq_mul_right (Nat.two_pow_pos 52) ?_⟩
    exact hvalue.symm.trans hvalue'
  · rintro ⟨rfl, rfl⟩
    have hlog : ∀ {m e : Nat}, 2 ^ 52 ≤ m → m < 2 ^ 53 → m * 2 ^ e = n * 2 ^ 52 →
        e + 52 = (n * 2 ^ 52).log2 := by
      intro m e hlo hhi hvalue
      have hpow : 0 < 2 ^ e := Nat.two_pow_pos e
      rw [← hvalue, eq_comm, Nat.log2_eq_iff (Nat.mul_pos (by omega) hpow).ne']
      have hnext : e + 52 + 1 = 53 + e := by omega
      rw [hnext, Nat.add_comm, Nat.pow_add, Nat.pow_add]
      exact ⟨Nat.mul_le_mul_right _ hlo, Nat.mul_lt_mul_of_pos_right hhi hpow⟩
    obtain rfl : e = e' := by
      have h := hlog hlo hhi hvalue
      have h' := hlog hlo' hhi' hvalue'
      omega
    refine ⟨rfl, Nat.eq_of_mul_eq_mul_right (Nat.two_pow_pos e) ?_, rfl⟩
    exact hvalue.trans hvalue'.symm

theorem IsWhole.beq_iff {t : Sign} {k : Nat} {v : UnpackedFloat} (hu : IsWhole s n u)
    (hv : IsWhole t k v) : u.beq v = true ↔ s = t ∧ n = k := by
  rw [← hu.eq_iff hv, beq_iff_ne_notANumber_and_eq]
  cases hu
  cases hv
  simp

theorem IsWhole.not_beq_zero (hu : IsWhole s n u) : ¬u.beq (unpacked 0) = true := by
  rw [beq_iff_ne_notANumber_and_eq, unpacked_zero]
  cases hu
  simp

theorem IsWhole.not_zero_beq (hu : IsWhole s n u) : ¬(unpacked 0).beq u = true := by
  rw [beq_iff_ne_notANumber_and_eq, unpacked_zero]
  cases hu
  simp

/-- Multiplying by one changes nothing. -/
theorem IsWhole.mul_one (h : IsWhole s n u) (hone : 0 < 2 ^ 52) :
    IsWhole s n (UnpackedFloat.mul .binary64 u (.finite .positive (2 ^ 52) (-52) hone)) := by
  obtain @⟨m, e, hpos, hlo, hhi, he, hvalue⟩ := h
  have hsign : s * .positive = s := by cases s <;> rfl
  have hmul : 2 ^ (52 + 52) ≤ m * 2 ^ 52 ∧ m * 2 ^ 52 < 2 ^ (53 + 52) := by omega
  obtain ⟨m', e', hpos', hround, hmlo, hmhi, he', hm'⟩ :=
    exists_roundWithAccuracy (e := (e : Int) - 52 + -52) s hmul.1 hmul.2 (by omega)
  have hsame : m' * 2 ^ e' = m := hm'.trans ((quotient_mul m 0 52).trans (quotient_zero m))
  obtain rfl : e' = 0 := by
    rcases Nat.le_one_iff_eq_zero_or_eq_one.1 he' with rfl | rfl
    · rfl
    · omega
  rw [Nat.pow_zero, Nat.mul_one] at hsame
  have hexponent : (e : Int) - 52 + -52 + (52 : Nat) + (0 : Nat) = e - 52 := by omega
  change IsWhole s n (roundWithAccuracy .binary64 (s * .positive) (m * 2 ^ 52)
    ((e : Int) - 52 + -52) .exact)
  rw [hsign, hround, hexponent]
  exact .intro hpos' hmlo hmhi he (hsame ▸ hvalue)

end Unpacked

section Integers

variable {n : Nat} {z w : Int}

/-- A number that 53 bits hold is first shifted to the left. -/
theorem isWhole_ofUInt64 (hn : 0 < n) (hsmall : n < 2 ^ 53) :
    IsWhole .positive (nearestNat n) (Float.Model.ofUInt64 n.toUInt64).unpack := by
  have hlog : n.log2 < 53 := (Nat.log2_lt hn.ne').2 hsmall
  obtain ⟨c, hc⟩ : ∃ c, 52 = n.log2 + c := Nat.exists_eq_add_of_le (Nat.le_of_lt_succ hlog)
  have hword : n.toUInt64.toNat = n := Nat.mod_eq_of_lt (by omega)
  have hcompare : compare (n : Int) 0 = .gt := compare_gt_iff_gt.2 (by omega)
  have htarget : Format.binary64.targetExponent (totalExponent n 0) = -c := by
    change max ((n.log2 : Int) + 1 + 0 - 53) (-1074) = -c
    omega
  have hshift : (0 - -(c : Int)).toNat = c := by omega
  have hround : UnpackedFloat.ofUInt64 .binary64 n.toUInt64 =
      roundWithAccuracy .binary64 .positive (n * 2 ^ c) (-c) .exact := by
    change UnpackedFloat.normalize .binary64 (n.toUInt64.toNat : Int) 0 .positive = _
    rw [hword, UnpackedFloat.normalize, hcompare]
    change UnpackedFloat.round .binary64 .positive n 0 = _
    rw [UnpackedFloat.round, htarget, decreaseExponent, hshift, Nat.shiftLeft_eq]
    simp only [Int.zero_sub]
  have hwhole := isWhole_roundWithAccuracy .positive hn (by omega) hc.le
  rw [Float.Model.ofUInt64, hround, hwhole.unpack_pack]
  exact hwhole

/-- A natural number is read as a product with one, or from its digits where it is too long. -/
theorem isWhole_ofNat (hn : 0 < n) (hlog : n.log2 < 1023) :
    IsWhole .positive (nearestNat n) (Float.ofNat n).toModel.unpack := by
  by_cases hsmall : n < 2 ^ 53
  · have hmodel : (Float.ofNat n).toModel =
        Float.Model.mul (Float.Model.ofUInt64 n.toUInt64) (.ofBits 0x3FF0000000000000) := by
      change (Float.ofScientific n false 0).toModel = _
      rw [Float.ofScientific, dif_pos ⟨hsmall, Nat.zero_le _⟩]
      rfl
    have hone : (Float.Model.ofBits 0x3FF0000000000000).unpack =
        .finite .positive (2 ^ 52) (-52) (by decide) := rfl
    have hwhole := (isWhole_ofUInt64 hn hsmall).mul_one (by decide)
    rw [hmodel, Float.Model.mul, hone, hwhole.unpack_pack]
    exact hwhole
  · have hmodel : (Float.ofNat n).toModel = Float.Model.ofScientific n 0 := by
      change (Float.ofScientific n false 0).toModel = _
      rw [Float.ofScientific, dif_neg fun h => hsmall h.1]
      rfl
    have hround : UnpackedFloat.ofScientific .binary64 n 0 =
        roundWithAccuracy .binary64 .positive (n * 2 ^ 53) (-(53 : Nat)) .exact := by
      have hmore : ¬(0 : Int) < -(2 ^ 11 + (n.log2 : Int)) := by omega
      unfold UnpackedFloat.ofScientific
      rw [dif_neg hn.ne', if_neg (by decide), if_neg hmore, if_pos (le_refl 0)]
      change roundWithAccuracy .binary64 .positive (n <<< 53 * 1) (-53 + 0) .exact = _
      rw [Nat.shiftLeft_eq, Nat.mul_one]
      rfl
    have hwhole := isWhole_roundWithAccuracy .positive hn hlog (c := 53) (by omega)
    rw [hmodel, Float.Model.ofScientific, hround, hwhole.unpack_pack]
    exact hwhole

/-- The sign of an integer other than zero. -/
def signOf (z : Int) : Sign := if z < 0 then .negative else .positive

theorem isWhole_ofInt (hz : z ≠ 0) (hlog : z.natAbs.log2 < 1023) :
    IsWhole (signOf z) (nearestNat z.natAbs) (Float.ofInt z).toModel.unpack := by
  cases z with
  | ofNat n =>
    have hsign : signOf (Int.ofNat n) = .positive := if_neg (Int.not_lt.2 (Int.natCast_nonneg n))
    rw [hsign]
    exact isWhole_ofNat (by omega) hlog
  | negSucc n =>
    have hsign : signOf (Int.negSucc n) = .negative := if_pos (Int.negSucc_lt_zero n)
    have hwhole := (isWhole_ofNat (Nat.succ_pos n) hlog).neg
    have hneg : (Float.ofInt (Int.negSucc n)).toModel.unpack =
        (Float.Model.pack (Float.ofNat (n + 1)).toModel.unpack.neg).unpack := rfl
    rw [hsign, hneg, hwhole.unpack_pack]
    exact hwhole

theorem isWhole_unpacked (hz : z ≠ 0) (hlog : z.natAbs.log2 < 1023) :
    IsWhole (signOf z) (nearestNat z.natAbs) (unpacked z) := by
  have hwhole := isWhole_ofInt hz hlog
  have hfinite : (Float.ofInt z).isFinite = true := hwhole.isFinite
  have hofInt : ofInt z = ⟨Float.ofInt z, hfinite⟩ := by
    rw [ofInt, ofFloat?, dif_pos hfinite]
    rfl
  rw [unpacked, hofInt]
  exact hwhole

theorem nearestNat_pos (hn : 0 < n) : 0 < nearestNat n := by
  rcases Nat.lt_or_ge n (2 ^ 53) with hsmall | hlarge
  · rwa [nearestNat_of_lt hsmall]
  · have := two_pow_le_nearestNat hlarge
    omega

theorem nearest_eq (z : Int) :
    nearest z = if z < 0 then -(nearestNat z.natAbs : Int) else nearestNat z.natAbs := by
  rcases Int.lt_trichotomy z 0 with hneg | rfl | hpos
  · rw [nearest, Int.sign_eq_neg_one_of_neg hneg, if_pos hneg]
    omega
  · rfl
  · rw [nearest, Int.sign_eq_one_of_pos hpos, if_neg (by omega)]
    omega

theorem nearest_ne_zero (hz : z ≠ 0) : nearest z ≠ 0 := by
  have hpos : 0 < nearestNat z.natAbs := nearestNat_pos (Int.natAbs_pos.2 hz)
  rw [nearest_eq]
  split <;> omega

/-- The nearest double of an integer other than zero is known by its sign and its magnitude. -/
theorem nearest_eq_iff (hz : z ≠ 0) (hw : w ≠ 0) : nearest z = nearest w ↔
    signOf z = signOf w ∧ nearestNat z.natAbs = nearestNat w.natAbs := by
  have hzpos : 0 < nearestNat z.natAbs := nearestNat_pos (Int.natAbs_pos.2 hz)
  have hwpos : 0 < nearestNat w.natAbs := nearestNat_pos (Int.natAbs_pos.2 hw)
  rw [nearest_eq, nearest_eq, signOf, signOf]
  by_cases hzneg : z < 0 <;> by_cases hwneg : w < 0 <;> simp [hzneg, hwneg] <;> omega

theorem natAbs_nearest (z : Int) : (nearest z).natAbs = nearestNat z.natAbs := by
  rw [nearest_eq]
  split <;> omega

theorem nearest_of_lt (hz : z.natAbs < 2 ^ 53) : nearest z = z := by
  rw [nearest_eq, nearestNat_of_lt hz]
  split <;> omega

/-- An integer of at most 53 bits is rounded to itself, and no other is rounded to it. -/
theorem nearest_eq_iff_of_lt (hz : z.natAbs < 2 ^ 53) : nearest w = nearest z ↔ w = z := by
  constructor
  · intro h
    rcases Nat.lt_or_ge w.natAbs (2 ^ 53) with hsmall | hlarge
    · rwa [nearest_of_lt hsmall, nearest_of_lt hz] at h
    · have hwide := two_pow_le_nearestNat hlarge
      rw [← natAbs_nearest, h, nearest_of_lt hz] at hwide
      omega
  · exact congrArg nearest

/-- With one bit more an integer may be halfway between two doubles, and the even one is taken. -/
example : nearest 9007199254740993 = 9007199254740992 ∧
    nearest 9007199254740995 = 9007199254740996 := by decide

theorem log2_natAbs_lt (hz : z.natAbs < 2 ^ 64) : z.natAbs.log2 < 1023 := by
  rcases Nat.eq_zero_or_pos z.natAbs with hzero | hpos
  · rw [hzero, Nat.log2_zero]
    decide
  · have := (Nat.log2_lt hpos.ne').2 hz
    omega

/-- Two integers of 64 bits have the same nearest double just when they are rounded to the same
integer. -/
theorem same_ofInt_iff (hz : z.natAbs < 2 ^ 64) (hw : w.natAbs < 2 ^ 64) :
    (ofInt z).same (ofInt w) = true ↔ nearest z = nearest w := by
  change (unpacked z).beq (unpacked w) = true ↔ _
  by_cases hz0 : z = 0 <;> by_cases hw0 : w = 0
  · subst hz0 hw0
    exact iff_of_true rfl rfl
  · subst hz0
    have hwhole := isWhole_unpacked hw0 (log2_natAbs_lt hw)
    exact iff_of_false hwhole.not_zero_beq (nearest_ne_zero hw0).symm
  · subst hw0
    have hwhole := isWhole_unpacked hz0 (log2_natAbs_lt hz)
    exact iff_of_false hwhole.not_beq_zero (nearest_ne_zero hz0)
  · rw [nearest_eq_iff hz0 hw0]
    exact (isWhole_unpacked hz0 (log2_natAbs_lt hz)).beq_iff
      (isWhole_unpacked hw0 (log2_natAbs_lt hw))

end Integers

end WorkloadSpec.Double
