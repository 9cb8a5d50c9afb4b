import Kinetix.Foundation.Text
import Mathlib.Tactic

/-!
# ASCII case

`str::to_ascii_lowercase` changes the letters from `A` to `Z` only. What is no such letter is found
in the changed text where it was.
-/

namespace Kinetix.Text

theorem toLower_of_not_upper {c : Char} (h : ¬ (65 ≤ c.toNat ∧ c.toNat ≤ 90)) : c.toLower = c := by
  have hA : 'A'.val.toNat = 65 := rfl
  have hZ : 'Z'.val.toNat = 90 := rfl
  refine dif_neg fun hc => h ?_
  simp only [Char.toNat, ge_iff_le, UInt32.le_iff_toNat_le] at hc ⊢
  omega

theorem toLower_of_upper {c : Char} (h : 65 ≤ c.toNat ∧ c.toNat ≤ 90) :
    97 ≤ c.toLower.toNat ∧ c.toLower.toNat ≤ 122 := by
  have hA : 'A'.val.toNat = 65 := rfl
  have hZ : 'Z'.val.toNat = 90 := rfl
  have hd : ('a'.val - 'A'.val).toNat = 32 := rfl
  have hc : c.val ≥ 'A'.val ∧ c.val ≤ 'Z'.val := by
    simp only [Char.toNat, ge_iff_le, UInt32.le_iff_toNat_le] at h ⊢
    omega
  have hlower : c.toLower.val = c.val + ('a'.val - 'A'.val) := congrArg Char.val (dif_pos hc)
  simp only [Char.toNat, hlower, UInt32.toNat_add] at h ⊢
  omega

theorem toLower_toLower (c : Char) : c.toLower.toLower = c.toLower := by
  by_cases h : 65 ≤ c.toNat ∧ c.toNat ≤ 90
  · have hlower := toLower_of_upper h
    exact toLower_of_not_upper (by omega)
  · rw [toLower_of_not_upper h, toLower_of_not_upper h]

/-- A character that is no letter is the lower case of itself only. -/
theorem toLower_eq_iff {c d : Char} (hd : ¬ (65 ≤ d.toNat ∧ d.toNat ≤ 90))
    (hd' : ¬ (97 ≤ d.toNat ∧ d.toNat ≤ 122)) : c.toLower = d ↔ c = d := by
  constructor
  · intro h
    by_cases hc : 65 ≤ c.toNat ∧ c.toNat ≤ 90
    · exact absurd (h ▸ toLower_of_upper hc) hd'
    · rwa [toLower_of_not_upper hc] at h
  · rintro rfl
    exact toLower_of_not_upper hd

theorem toList_toAsciiLowercase (s : String) :
    (toAsciiLowercase s).toList = s.toList.map Char.toLower := by
  rw [toAsciiLowercase, String.toList_map]

@[simp] theorem toAsciiLowercase_append (s t : String) :
    toAsciiLowercase (s ++ t) = toAsciiLowercase s ++ toAsciiLowercase t := by
  simp only [← String.toList_inj, toList_toAsciiLowercase, String.toList_append, List.map_append]

@[simp] theorem toAsciiLowercase_idem (s : String) :
    toAsciiLowercase (toAsciiLowercase s) = toAsciiLowercase s := by
  simp only [← String.toList_inj, toList_toAsciiLowercase, List.map_map]
  exact List.map_congr_left fun c _ => toLower_toLower c

@[simp] theorem toAsciiLowercase_eq_empty {s : String} : toAsciiLowercase s = "" ↔ s = "" := by
  simp only [← String.toList_inj, toList_toAsciiLowercase, String.toList_empty, List.map_eq_nil_iff]

/-- A character that is no letter is in a text if it is in its lower case. -/
theorem mem_toAsciiLowercase {s : String} {d : Char} (hd : ¬ (65 ≤ d.toNat ∧ d.toNat ≤ 90))
    (hd' : ¬ (97 ≤ d.toNat ∧ d.toNat ≤ 122)) : d ∈ (toAsciiLowercase s).toList ↔ d ∈ s.toList := by
  rw [toList_toAsciiLowercase, List.mem_map]
  constructor
  · rintro ⟨c, hc, h⟩
    rwa [← (toLower_eq_iff hd hd').mp h]
  · exact fun h => ⟨d, h, (toLower_eq_iff hd hd').mpr rfl⟩

theorem eqIgnoreAsciiCase_iff {s t : String} :
    eqIgnoreAsciiCase s t = true ↔ toAsciiLowercase s = toAsciiLowercase t := by
  rw [eqIgnoreAsciiCase, beq_iff_eq]

end Kinetix.Text
