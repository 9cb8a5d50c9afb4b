import Mathlib.Logic.Function.Basic
import Mathlib.Tactic.Common

/-!
# SHA-256

The hash is a parameter: a function from strings to digests in hexadecimal that is taken to be
injective. For runs on fixed strings it is given by a table of their digests.
-/

namespace Kinetix

/-- `hex::encode` of the SHA-256 digest of a string's bytes. -/
structure Sha256 where
  hex : String → String
  injective : Function.Injective hex
  nonempty : ∀ s, hex s ≠ ""

namespace Sha256

/-- Digests of some strings. No digest has a colon, which the values for other strings
begin with. -/
structure Table where
  digests : List (String × String)
  injective : ∀ p ∈ digests, ∀ q ∈ digests, p.2 = q.2 → p.1 = q.1
  hex : ∀ p ∈ digests, ':' ∉ p.2.toList
  nonempty : ∀ p ∈ digests, p.2 ≠ ""

namespace Table
variable {t : Table} {s v : String}

theorem mem_of_lookup (h : t.digests.lookup s = some v) : (s, v) ∈ t.digests := by
  obtain ⟨l₁, l₂, hl, -⟩ := List.lookup_eq_some_iff.mp h
  rw [hl]
  simp

theorem ne_colon_append (h : t.digests.lookup s = some v) (r : String) : v ≠ ":" ++ r := by
  rintro rfl
  exact t.hex _ (mem_of_lookup h) (by simp)

end Table

/-- The hash that has the given digests. -/
def ofTable (t : Table) : Sha256 where
  hex s := (t.digests.lookup s).getD (":" ++ s)
  injective := by
    intro s s' h
    cases hs : t.digests.lookup s with
    | none =>
      cases hs' : t.digests.lookup s' with
      | none => simpa [hs, hs'] using h
      | some v => exact absurd (by simpa [hs, hs'] using h.symm) (Table.ne_colon_append hs' s)
    | some v =>
      cases hs' : t.digests.lookup s' with
      | none => exact absurd (by simpa [hs, hs'] using h) (Table.ne_colon_append hs s')
      | some w =>
        have hvw : v = w := by simpa [hs, hs'] using h
        exact t.injective _ (Table.mem_of_lookup hs) _ (Table.mem_of_lookup hs') hvw
  nonempty := by
    intro s h
    cases hs : t.digests.lookup s with
    | none =>
      have hlen := congrArg String.length h
      simp [hs] at hlen
    | some v => exact t.nonempty _ (Table.mem_of_lookup hs) (by simpa [hs] using h)

end Sha256
end Kinetix
