import Mathlib

namespace GoMqtt.Binary

/-- Go's `int(x)` on a 64-bit target: two's complement wrap-around. -/
def wrapInt (x : Int) : Int := x.bmod (2 ^ 64)

def uint16 (hi lo : UInt8) : UInt16 := hi.toUInt16 <<< 8 ||| lo.toUInt16

def putUint16 (v : UInt16) : List UInt8 := [(v >>> 8).toUInt8, v.toUInt8]

def maxVarintLen64 : Nat := 10

/-- `binary.Uvarint`: the value and the number of bytes read; `0` when the buffer ends
inside the varint and `-(i + 1)` on overflow. The accumulator is exact as a `Nat`: every
value it returns has at most 64 bits, since a tenth byte above `1` is rejected. -/
def uvarint (buf : List UInt8) : Nat × Int := go buf 0 0 0
where
  go : List UInt8 → Nat → Nat → Nat → Nat × Int
  | [], _, _, _ => (0, 0)
  | b :: bs, i, x, s =>
      if i = maxVarintLen64 then (0, -(i + 1 : Int))
      else if b < 0x80 then
        if i = maxVarintLen64 - 1 ∧ b > 1 then (0, -(i + 1 : Int))
        else (x ||| b.toNat <<< s, i + 1)
      else go bs (i + 1) (x ||| (b &&& 0x7f).toNat <<< s) (s + 7)

/-- `binary.PutUvarint`, as the bytes it writes. The loop index `i` of the source is the
fuel: a `uint64` never needs more than `maxVarintLen64` bytes. -/
def putUvarint (x : Nat) : List UInt8 := go x maxVarintLen64
where
  go : Nat → Nat → List UInt8
  | x, 0 => [UInt8.ofNat x]
  | x, n + 1 => if x < 0x80 then [UInt8.ofNat x] else (UInt8.ofNat x ||| 0x80) :: go (x >>> 7) n

theorem uint16_toNat (hi lo : UInt8) : (uint16 hi lo).toNat = hi.toNat * 256 + lo.toNat := by
  unfold uint16
  rw [UInt16.toNat_or, UInt16.toNat_shiftLeft]
  simp only [UInt8.toNat_toUInt16, UInt16.toNat_ofNat, Nat.reducePow, Nat.reduceMod,
    Nat.shiftLeft_eq]
  have h1 := hi.toNat_lt
  have h2 := lo.toNat_lt
  rw [Nat.mod_eq_of_lt (by omega)]
  have h := Nat.two_pow_add_eq_or_of_lt (i := 8) h2 hi.toNat
  rw [Nat.mul_comm] at h
  simpa using h.symm

@[simp]
theorem uint16_putUint16 (v : UInt16) : uint16 (v >>> 8).toUInt8 v.toUInt8 = v := by
  apply UInt16.toNat_inj.mp
  rw [uint16_toNat]
  simp only [UInt16.toNat_toUInt8, UInt16.toNat_shiftRight, Nat.shiftRight_eq_div_pow]
  have := v.toNat_lt
  simp
  omega

@[simp]
theorem putUint16_uint16 (hi lo : UInt8) : putUint16 (uint16 hi lo) = [hi, lo] := by
  have h := uint16_toNat hi lo
  have h1 := hi.toNat_lt
  have h2 := lo.toNat_lt
  simp only [putUint16, List.cons.injEq, and_true]
  constructor
  · apply UInt8.toNat_inj.mp
    simp only [UInt16.toNat_toUInt8, UInt16.toNat_shiftRight, Nat.shiftRight_eq_div_pow, h]
    simp
    omega
  · apply UInt8.toNat_inj.mp
    simp only [UInt16.toNat_toUInt8, h]
    omega

@[simp]
theorem length_putUint16 (v : UInt16) : (putUint16 v).length = 2 := rfl

theorem or_shiftLeft_eq_add {acc s : Nat} (h : acc < 2 ^ s) (y : Nat) :
    acc ||| y <<< s = acc + y * 2 ^ s := by
  rw [Nat.lor_comm, ← Nat.shiftLeft_add_eq_or_of_lt h, Nat.shiftLeft_eq, Nat.add_comm]

theorem nat_or_128 (y : Nat) (hy : y < 256) : y ||| 128 = y % 128 + 128 := by
  have hmod : (y ||| 128) % 2 ^ 7 = y % 128 := by
    rw [Nat.or_mod_two_pow]
    norm_num
  have hdiv : (y ||| 128) / 2 ^ 7 = 1 := by
    rw [Nat.or_div_two_pow]
    have h : y / 2 ^ 7 ≤ 1 := by omega
    interval_cases hq : y / 2 ^ 7 <;> norm_num
  have hsplit := Nat.div_add_mod (y ||| 128) (2 ^ 7)
  rw [hdiv, hmod] at hsplit
  omega

theorem ofNat_or_0x80 (x : Nat) : UInt8.ofNat x ||| 0x80 = UInt8.ofNat (x % 128 + 128) := by
  apply UInt8.toNat_inj.mp
  rw [UInt8.toNat_or, UInt8.toNat_ofNat', UInt8.toNat_ofNat']
  have h : x % 2 ^ 8 < 256 := Nat.mod_lt x (by norm_num)
  rw [show (0x80 : UInt8).toNat = 128 from rfl, nat_or_128 _ h,
    Nat.mod_mod_of_dvd x (by norm_num : 128 ∣ 2 ^ 8)]
  omega

theorem and_0x7f (b : UInt8) : (b &&& 0x7f).toNat = b.toNat % 128 := by
  rw [UInt8.toNat_and]
  exact Nat.and_two_pow_sub_one_eq_mod b.toNat 7

theorem putUvarint_go_of_lt {x : Nat} (h : x < 128) (n : Nat) :
    putUvarint.go x n = [UInt8.ofNat x] := by
  cases n with
  | zero => rfl
  | succ n => simp [putUvarint.go, h]

theorem putUvarint_go_of_ge {x : Nat} (h : 128 ≤ x) (n : Nat) :
    putUvarint.go x (n + 1) = UInt8.ofNat (x % 128 + 128) :: putUvarint.go (x / 128) n := by
  have hx : ¬ x < 0x80 := by omega
  simp only [putUvarint.go, hx, if_false, ofNat_or_0x80, Nat.shiftRight_eq_div_pow]

theorem length_putUvarint_go (x k n : Nat) (hk : k ≤ n) (hlo : 128 ^ k ≤ x)
    (hhi : x < 128 ^ (k + 1)) : (putUvarint.go x n).length = k + 1 := by
  induction k generalizing x n with
  | zero => simp [putUvarint_go_of_lt (by simpa using hhi)]
  | succ k ih =>
      obtain ⟨m, rfl⟩ : ∃ m, n = m + 1 := ⟨n - 1, by omega⟩
      have h128 : 128 ≤ x := le_trans (Nat.le_self_pow (by omega) 128) hlo
      rw [putUvarint_go_of_ge h128, List.length_cons]
      have hlo' : 128 ^ k ≤ x / 128 := by
        rw [Nat.le_div_iff_mul_le (by omega), ← Nat.pow_succ]
        exact hlo
      have hhi' : x / 128 < 128 ^ (k + 1) := by
        rw [Nat.div_lt_iff_lt_mul (by omega), ← Nat.pow_succ]
        exact hhi
      rw [ih (x / 128) m (by omega) hlo' hhi']

theorem uvarint_go_last {b : UInt8} (bs : List UInt8) {i : Nat} (x s : Nat) (hb : b.toNat < 128)
    (hi : i < 9 ∨ (i = 9 ∧ b.toNat ≤ 1)) :
    uvarint.go (b :: bs) i x s = (x ||| b.toNat <<< s, ((i + 1 : Nat) : Int)) := by
  have h1 : i ≠ maxVarintLen64 := by simp [maxVarintLen64]; omega
  have h2 : b < 0x80 := UInt8.lt_iff_toNat_lt.mpr hb
  have h3 : ¬ (i = maxVarintLen64 - 1 ∧ b > 1) := by
    simp only [maxVarintLen64, gt_iff_lt, UInt8.lt_iff_toNat_lt]
    simp
    omega
  simp only [uvarint.go, h1, h2, h3, if_false, if_true]
  push_cast
  rfl

theorem uvarint_go_cont {b : UInt8} (bs : List UInt8) {i : Nat} (x s : Nat) (hb : 128 ≤ b.toNat)
    (hi : i < 10) :
    uvarint.go (b :: bs) i x s = uvarint.go bs (i + 1) (x ||| (b.toNat % 128) <<< s) (s + 7) := by
  have h1 : i ≠ maxVarintLen64 := by simp [maxVarintLen64]; omega
  have h2 : ¬ b < 0x80 := by rw [UInt8.lt_iff_toNat_lt]; simp; omega
  simp only [uvarint.go, h1, h2, if_false, and_0x7f]

theorem uvarint_go_putUvarint_go_of_lt (rest : List UInt8) {i x acc : Nat} (n : Nat) (hx : x < 128)
    (hi : i < 9 ∨ (i = 9 ∧ x ≤ 1)) (hacc : acc < 2 ^ (7 * i)) :
    uvarint.go (putUvarint.go x n ++ rest) i acc (7 * i) =
      (acc + x * 2 ^ (7 * i), ((i + (putUvarint.go x n).length : Nat) : Int)) := by
  have hb : (UInt8.ofNat x).toNat = x := by simp; omega
  rw [putUvarint_go_of_lt hx, List.singleton_append,
    uvarint_go_last rest acc (7 * i) (by omega) (by omega), hb, or_shiftLeft_eq_add hacc]
  simp

theorem uvarint_go_putUvarint_go (rest : List UInt8) (n : Nat) : ∀ (i x acc : Nat),
    i + n = 9 → x < 2 ^ (64 - 7 * i) → acc < 2 ^ (7 * i) →
    uvarint.go (putUvarint.go x (n + 1) ++ rest) i acc (7 * i) =
      (acc + x * 2 ^ (7 * i), ((i + (putUvarint.go x (n + 1)).length : Nat) : Int)) := by
  induction n with
  | zero =>
      intro i x acc hi hx hacc
      -- the tenth byte carries the 64th bit alone
      have hx2 : x < 2 := by simpa [show i = 9 by omega] using hx
      exact uvarint_go_putUvarint_go_of_lt rest _ (by omega) (by omega) hacc
  | succ n ih =>
      intro i x acc hi hx hacc
      rcases Nat.lt_or_ge x 128 with hlt | hge
      · exact uvarint_go_putUvarint_go_of_lt rest _ hlt (by omega) hacc
      · have hb : (UInt8.ofNat (x % 128 + 128)).toNat = x % 128 + 128 := by simp; omega
        have hpow : 2 ^ (7 * (i + 1)) = 2 ^ (7 * i) * 128 := by
          rw [Nat.mul_add, Nat.pow_add]
        have hacc' : acc + x % 128 * 2 ^ (7 * i) < 2 ^ (7 * (i + 1)) := by
          rw [hpow]
          have := Nat.mod_lt x (show 128 > 0 by omega)
          nlinarith
        have hx' : x / 128 < 2 ^ (64 - 7 * (i + 1)) := by
          rw [Nat.div_lt_iff_lt_mul (by omega)]
          have h7 : 64 - 7 * i = (64 - 7 * (i + 1)) + 7 := by omega
          rw [h7, Nat.pow_add] at hx
          exact hx
        rw [putUvarint_go_of_ge hge, List.cons_append,
          uvarint_go_cont _ acc (7 * i) (by omega) (by omega), hb, Nat.add_mod_right,
          Nat.mod_mod, or_shiftLeft_eq_add hacc, show 7 * i + 7 = 7 * (i + 1) by ring,
          ih (i + 1) (x / 128) _ (by omega) hx' hacc', hpow, List.length_cons]
        refine Prod.ext ?_ ?_
        · show acc + x % 128 * 2 ^ (7 * i) + x / 128 * (2 ^ (7 * i) * 128) = acc + x * 2 ^ (7 * i)
          conv_rhs => rw [← Nat.div_add_mod x 128]
          ring
        · show ((i + 1 + _ : Nat) : Int) = ((i + (_ + 1) : Nat) : Int)
          omega

theorem uvarint_putUvarint {x : Nat} (hx : x < 2 ^ 64) (rest : List UInt8) :
    uvarint (putUvarint x ++ rest) = (x, ((putUvarint x).length : Int)) := by
  have h := uvarint_go_putUvarint_go rest 9 0 x 0 rfl (by simpa using hx) (by simp)
  simpa [uvarint, putUvarint, maxVarintLen64] using h

theorem uvarint_go_take_putUvarint_go (n : Nat) : ∀ (x i acc s k : Nat),
    k < (putUvarint.go x n).length → i + n ≤ 10 →
    uvarint.go ((putUvarint.go x n).take k) i acc s = (0, 0) := by
  induction n with
  | zero =>
      intro x i acc s k hk _
      have hk0 : k = 0 := by simpa [putUvarint.go] using hk
      simp [hk0, uvarint.go]
  | succ n ih =>
      intro x i acc s k hk hi
      cases k with
      | zero => simp [uvarint.go]
      | succ k =>
          rcases Nat.lt_or_ge x 128 with hlt | hge
          · simp [putUvarint_go_of_lt hlt] at hk
          · have hb : 128 ≤ (UInt8.ofNat (x % 128 + 128)).toNat := by simp; omega
            rw [putUvarint_go_of_ge hge] at hk ⊢
            rw [List.take_succ_cons, uvarint_go_cont _ acc s hb (by omega)]
            exact ih (x / 128) (i + 1) _ (s + 7) k (by simpa using hk) (by omega)

theorem uvarint_take_putUvarint {x k : Nat} (hk : k < (putUvarint x).length) :
    uvarint ((putUvarint x).take k) = (0, 0) :=
  uvarint_go_take_putUvarint_go maxVarintLen64 x 0 0 0 k hk (by simp [maxVarintLen64])

end GoMqtt.Binary
