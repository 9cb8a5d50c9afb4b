import Mathlib.Data.List.Forall2
import Mathlib.Data.List.Induction
import Mathlib.Tactic.Common

/-!
# Steps that can fail

A function that may fail runs its checks in order and returns the first error, so what a success
says is read off check by check. What a list of steps gives if each of them gives something or
fails. And items that are applied one after the other, each to the state the one before it left, up
to the first that is refused: what was applied before stays.
-/

namespace Checks
universe u v
variable {ε : Type u} {α β : Type v}

/-- Fail if a condition holds. -/
def refuseIf (c : Prop) [Decidable c] (error : ε) : Except ε Unit :=
  if c then .error error else .ok ()

/-- `Option::ok_or`. -/
def okOr (x : Option α) (error : ε) : Except ε α :=
  match x with
  | some a => .ok a
  | none => .error error

@[simp] theorem refuseIf_eq_ok {c : Prop} [Decidable c] {error : ε} {u : Unit} :
    refuseIf c error = .ok u ↔ ¬ c := by
  by_cases h : c <;> simp [refuseIf, h]

@[simp] theorem okOr_eq_ok {x : Option α} {error : ε} {a : α} :
    okOr x error = .ok a ↔ x = some a := by
  cases x <;> simp [okOr]

@[simp] theorem refuseIf_eq_error {c : Prop} [Decidable c] {error e : ε} :
    refuseIf c error = .error e ↔ c ∧ error = e := by
  by_cases h : c <;> simp [refuseIf, h]

@[simp] theorem okOr_eq_error {x : Option α} {error e : ε} :
    okOr x error = .error e ↔ x = none ∧ error = e := by
  cases x <;> simp [okOr]

/-- A sequence fails when its first part does, or the rest with what the first part returns. -/
theorem bind_eq_error {x : Except ε α} {f : α → Except ε β} {e : ε} :
    x >>= f = .error e ↔ x = .error e ∨ ∃ a, x = .ok a ∧ f a = .error e := by
  cases x with
  | error e' =>
    constructor
    · intro h
      cases h
      exact Or.inl rfl
    · rintro (h | ⟨_, ⟨⟩, _⟩)
      cases h
      rfl
  | ok a =>
    constructor
    · exact fun h => Or.inr ⟨a, rfl, h⟩
    · rintro (h | ⟨_, ⟨⟩, h⟩)
      · cases h
      · exact h

/-- A sequence succeeds when its first part does, and the rest with what the first part returns. -/
theorem bind_eq_ok {x : Except ε α} {f : α → Except ε β} {b : β} :
    x >>= f = .ok b ↔ ∃ a, x = .ok a ∧ f a = .ok b := by
  constructor
  · intro h
    cases x with
    | error e => cases h
    | ok a => exact ⟨a, rfl, h⟩
  · rintro ⟨a, rfl, h⟩
    exact h

/-- A check that returns nothing, and what follows it. -/
theorem seq_eq_ok {β : Type} {x : Except ε Unit} {f : Unit → Except ε β} {b : β} :
    x >>= f = .ok b ↔ x = .ok () ∧ f () = .ok b := by
  rw [bind_eq_ok]
  exact ⟨fun ⟨_, hx, hf⟩ => ⟨hx, hf⟩, fun ⟨hx, hf⟩ => ⟨(), hx, hf⟩⟩

theorem pure_eq_ok {a b : α} : (pure a : Except ε α) = .ok b ↔ a = b :=
  Except.ok.injEq a b ▸ Iff.rfl

end Checks

namespace Fallible
universe u
variable {α β ε : Type*} {f : α → Except ε β} {l : List α}

theorem bind_eq_ok_iff {γ δ : Type u} {x : Except ε γ} {g : γ → Except ε δ} {r : δ} :
    x >>= g = .ok r ↔ ∃ a, x = .ok a ∧ g a = .ok r := by
  cases x with
  | error error | ok a => simp [bind, Except.bind]

theorem map_eq_ok_iff {x : Except ε α} {g : α → β} {r : β} :
    x.map g = .ok r ↔ ∃ a, x = .ok a ∧ g a = r := by
  cases x with
  | error error | ok a => simp [Except.map]

theorem mapM_cons_eq_ok_iff {a : α} {results : List β} :
    (a :: l).mapM f = .ok results ↔
      ∃ r rest, f a = .ok r ∧ l.mapM f = .ok rest ∧ results = r :: rest := by
  rw [List.mapM_cons]
  cases f a with
  | error error => simp [bind, Except.bind]
  | ok r =>
    cases l.mapM f with
    | error error => simp [bind, Except.bind]
    | ok rest => simp [bind, Except.bind, pure, Except.pure, eq_comm]

/-- All steps give something exactly if each of them gives its own. -/
theorem mapM_eq_ok_iff {results : List β} :
    l.mapM f = .ok results ↔ List.Forall₂ (fun a r => f a = .ok r) l results := by
  induction l generalizing results with
  | nil =>
    rw [List.mapM_nil, List.forall₂_nil_left_iff]
    exact ⟨fun h => (Except.ok.inj h).symm, fun h => congrArg Except.ok h.symm⟩
  | cons a l ih =>
    rw [mapM_cons_eq_ok_iff, List.forall₂_cons_left_iff]
    simp only [ih]

/-- No step fails exactly if all of them together do not. -/
theorem exists_mapM_eq_ok_iff :
    (∃ results, l.mapM f = .ok results) ↔ ∀ a ∈ l, ∃ r, f a = .ok r := by
  induction l with
  | nil => exact iff_of_true ⟨[], rfl⟩ fun a ha => (List.not_mem_nil ha).elim
  | cons a l ih =>
    rw [List.forall_mem_cons, ← ih]
    constructor
    · rintro ⟨results, h⟩
      obtain ⟨r, rest, hr, hrest, -⟩ := mapM_cons_eq_ok_iff.mp h
      exact ⟨⟨r, hr⟩, rest, hrest⟩
    · rintro ⟨⟨r, hr⟩, rest, hrest⟩
      exact ⟨r :: rest, mapM_cons_eq_ok_iff.mpr ⟨r, rest, hr, hrest, rfl⟩⟩

/-- What is given is given by one of the steps. -/
theorem exists_of_mem {results : List β} (h : l.mapM f = .ok results) {r : β} (hr : r ∈ results) :
    ∃ a ∈ l, f a = .ok r := by
  have hall := mapM_eq_ok_iff.mp h
  clear h
  induction hall with
  | nil => cases hr
  | @cons a r' l results ha _ ih =>
    rcases List.mem_cons.mp hr with rfl | hr
    · exact ⟨a, List.mem_cons_self, ha⟩
    · obtain ⟨b, hb, hbr⟩ := ih hr
      exact ⟨b, List.mem_cons_of_mem a hb, hbr⟩

/-- Steps that all give something together give all of it. -/
theorem mapM_eq_ok_of_forall {g : α → β} (h : ∀ a ∈ l, f a = .ok (g a)) :
    l.mapM f = .ok (l.map g) := by
  rw [mapM_eq_ok_iff, List.forall₂_map_right_iff, List.forall₂_same]
  exact h

theorem forM_eq_ok_iff {g : α → Except ε Unit} : l.forM g = .ok () ↔ ∀ a ∈ l, g a = .ok () := by
  induction l with
  | nil => exact ⟨fun _ => nofun, fun _ => rfl⟩
  | cons a l ih => exact Checks.seq_eq_ok.trans (by rw [List.forall_mem_cons, ih])

end Fallible

namespace Batch

variable {σ α ε : Type*}

/-- Apply the items in turn, up to the first that fails. -/
def applyEach (apply : σ → α → Except ε Unit × σ) : σ → List α → Except ε Unit × σ
  | s, [] => (.ok (), s)
  | s, x :: xs =>
    match apply s x with
    | (.ok (), s') => applyEach apply s' xs
    | (.error e, s') => (.error e, s')

/-- An item leads on to the next state if it is accepted, and otherwise fails and
changes nothing. -/
structure Lawful (apply : σ → α → Except ε Unit × σ) (accepts : σ → α → Prop) (next : σ → α → σ) :
    Prop where
  accepted : ∀ s x, accepts s x → apply s x = (.ok (), next s x)
  refused : ∀ s x, ¬ accepts s x → ∃ e, apply s x = (.error e, s)

/-- Each item is accepted after those before it. -/
def AllAccepted (accepts : σ → α → Prop) (next : σ → α → σ) (s : σ) (xs : List α) : Prop :=
  ∀ pre x post, xs = pre ++ x :: post → accepts (pre.foldl next s) x

variable {apply : σ → α → Except ε Unit × σ} {accepts : σ → α → Prop} {next : σ → α → σ} {s : σ}
  {x : α} {xs : List α}

theorem allAccepted_nil : AllAccepted accepts next s [] := by
  intro pre x post h
  simp at h

theorem allAccepted_cons :
    AllAccepted accepts next s (x :: xs) ↔
      accepts s x ∧ AllAccepted accepts next (next s x) xs := by
  constructor
  · intro h
    refine ⟨h [] x xs rfl, fun pre y post hxs => ?_⟩
    exact h (x :: pre) y post (congrArg (x :: ·) hxs)
  · rintro ⟨hx, h⟩ pre y post hxs
    cases pre with
    | nil =>
      obtain ⟨rfl, -⟩ := List.cons.inj hxs
      exact hx
    | cons z pre =>
      obtain ⟨rfl, hrest⟩ := List.cons.inj hxs
      exact h pre y post hrest

/-- How far a batch gets: to its end, or to the first item that is refused. -/
theorem applyEach_spec (h : Lawful apply accepts next) (s : σ) (xs : List α) :
    (AllAccepted accepts next s xs ∧ applyEach apply s xs = (.ok (), xs.foldl next s)) ∨
      ∃ pre y post e, xs = pre ++ y :: post ∧ AllAccepted accepts next s pre ∧
        ¬ accepts (pre.foldl next s) y ∧ applyEach apply s xs = (.error e, pre.foldl next s) := by
  induction xs generalizing s with
  | nil => exact Or.inl ⟨allAccepted_nil, rfl⟩
  | cons x xs ih =>
    by_cases hx : accepts s x
    · have hstep : applyEach apply s (x :: xs) = applyEach apply (next s x) xs := by
        rw [applyEach, h.accepted s x hx]
      rw [hstep, allAccepted_cons]
      rcases ih (next s x) with ⟨hall, hok⟩ | ⟨pre, y, post, e, rfl, hpre, hy, herror⟩
      · exact Or.inl ⟨⟨hx, hall⟩, hok⟩
      · exact Or.inr ⟨x :: pre, y, post, e, rfl, allAccepted_cons.mpr ⟨hx, hpre⟩, hy, herror⟩
    · obtain ⟨e, he⟩ := h.refused s x hx
      refine Or.inr ⟨[], x, xs, e, rfl, allAccepted_nil, hx, ?_⟩
      rw [applyEach, he]
      rfl

end Batch
