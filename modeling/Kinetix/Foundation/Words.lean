import Mathlib.Tactic

/-!
# Machine words

Unsigned counters are natural numbers. Where the source names the behaviour at the end of the range,
`saturating_add` or `wrapping_add`, the operation is written out here.
-/

namespace Kinetix.Words

/-- `u64::MAX`. -/
def u64Max : Nat := 18446744073709551615

/-- `u64::saturating_add`. -/
def saturatingAdd (a b : Nat) : Nat := min (a + b) u64Max

/-- `u64::checked_add`. -/
def checkedAdd (a b : Nat) : Option Nat := if a + b ≤ u64Max then some (a + b) else none

/-- `u64::wrapping_add`. -/
def wrappingAdd (a b : Nat) : Nat := (a + b) % (u64Max + 1)

/-- `u64::wrapping_sub`. -/
def wrappingSub (a b : Nat) : Nat := (a + (u64Max + 1) - b) % (u64Max + 1)

/-- `x as i64` for a `u64`. -/
def asI64 (n : Nat) : Int := if n < 9223372036854775808 then n else n - 18446744073709551616

/-- A sum of `i64`s in a release build. -/
def wrapI64 (n : Int) : Int :=
  (n + 9223372036854775808) % 18446744073709551616 - 9223372036854775808

/-- `i64::MAX`. -/
def i64Max : Int := 9223372036854775807

theorem wrappingAdd_of_le {a b : Nat} (h : a + b ≤ u64Max) : wrappingAdd a b = a + b :=
  Nat.mod_eq_of_lt (Nat.lt_succ_of_le h)

theorem wrappingSub_of_le {a b : Nat} (h : b ≤ a) (ha : a ≤ u64Max) :
    wrappingSub a b = a - b := by
  rw [wrappingSub, Nat.sub_add_comm h, Nat.add_mod_right]
  exact Nat.mod_eq_of_lt (by omega)

/-- A saturated sum below a bound that is itself in range did not saturate. -/
theorem add_le_of_saturatingAdd_le {a b n : Nat} (hn : n < u64Max) (h : saturatingAdd a b ≤ n) :
    a + b ≤ n := by
  unfold saturatingAdd at h
  omega

end Kinetix.Words
