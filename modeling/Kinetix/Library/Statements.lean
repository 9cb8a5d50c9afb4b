import Mathlib.Data.List.Basic
import Mathlib.Data.Option.Basic
import Mathlib.Tactic

/-!
# Programs of statements

A program makes statements one at a time, and what it does next depends on the answers so far. Other
programs may make theirs between any two of its own. A program that only reads is replayed by
answering its statements from one state.

## Implementation notes

The residual program is the program that is left, so a program in flight needs no program counter.
The list of statements that led to it says what it has seen of the state.
-/

namespace Statements

universe u v w
variable {Q : Type u} {A : Q → Type v} {σ : Type w} {ρ ρ' : Type v}

/-- A program over an alphabet of statements, each with its type of answers. -/
inductive Program (Q : Type u) (A : Q → Type v) (ρ : Type v) where
  | done (result : ρ)
  | make (q : Q) (next : A q → Program Q A ρ)

namespace Program

def bind : Program Q A ρ → (ρ → Program Q A ρ') → Program Q A ρ'
  | done r, f => f r
  | make q next, f => make q fun a => bind (next a) f

instance : Monad (Program Q A) where
  pure := done
  bind := bind

/-- The program of one statement. -/
def one (q : Q) : Program Q A (A q) := make q done

/-- What a program returns and the state that it leaves if it runs alone. -/
def run (exec : (q : Q) → σ → A q × σ) : Program Q A ρ → σ → ρ × σ
  | done r, s => (r, s)
  | make q next, s => run exec (next (exec q s).1) (exec q s).2

/-- What a program returns if each statement has one answer. -/
def answer (ans : (q : Q) → A q) : Program Q A ρ → ρ
  | done r => r
  | make q next => answer ans (next (ans q))

/-- The statements that `answer` makes. -/
def asked (ans : (q : Q) → A q) : Program Q A ρ → List Q
  | done _ => []
  | make q next => q :: asked ans (next (ans q))

/-- Make each statement by a program over another alphabet. -/
def subst {Q' : Type u} {A' : Q' → Type v} (f : (q : Q) → Program Q' A' (A q)) :
    Program Q A ρ → Program Q' A' ρ
  | done r => done r
  | make q next => f q >>= fun a => subst f (next a)

/-- The program has made its last statement. -/
def finished : Program Q A ρ → Bool
  | done _ => true
  | make _ _ => false

@[simp] theorem run_done (exec : (q : Q) → σ → A q × σ) (r : ρ) (s : σ) :
    (done r : Program Q A ρ).run exec s = (r, s) := rfl

@[simp] theorem run_make (exec : (q : Q) → σ → A q × σ) (q : Q)
    (next : A q → Program Q A ρ) (s : σ) :
    (make q next).run exec s = (next (exec q s).1).run exec (exec q s).2 := rfl

/-- A program is followed by another one in the state that it leaves. -/
theorem run_bind (exec : (q : Q) → σ → A q × σ) (p : Program Q A ρ) (f : ρ → Program Q A ρ')
    (s : σ) : (p >>= f).run exec s = (f (p.run exec s).1).run exec (p.run exec s).2 := by
  induction p generalizing s with
  | done r => rfl
  | make q next ih => exact ih _ _

theorem run_subst {Q' : Type u} {A' : Q' → Type v} (f : (q : Q) → Program Q' A' (A q))
    (exec : (q : Q') → σ → A' q × σ) (p : Program Q A ρ) (s : σ) :
    (p.subst f).run exec s = p.run (fun q => (f q).run exec) s := by
  induction p generalizing s with
  | done r => rfl
  | make q next ih =>
    rw [subst, run_bind]
    exact ih _ _

end Program

/-! ## Early return -/

section
variable {B : Q → Type v}

/-- An alphabet of statements that may fail, and a program that returns nothing when one does. -/
abbrev Fallible (Q : Type u) (B : Q → Type v) : Type v → Type (max u v) :=
  OptionT (Program Q fun q => Option (B q))

/-- The program returns at its first statement that fails. -/
def Program.Stops : Program Q (fun q => Option (B q)) (Option ρ) → Prop
  | done _ => True
  | make _ next => next none = done none ∧ ∀ answer, (next (some answer)).Stops

theorem Program.Stops.elim {p : Program Q (fun q => Option (B q)) (Option ρ)}
    {f : ρ → Program Q (fun q => Option (B q)) (Option ρ')} (hp : p.Stops) (hf : ∀ r, (f r).Stops) :
    (p >>= fun result => result.elim (done none) f).Stops := by
  induction p with
  | done result =>
    cases result with
    | none => trivial
    | some r => exact hf r
  | make q next ih =>
    obtain ⟨hnone, hsome⟩ := hp
    constructor
    · change (next none >>= fun result => result.elim (done none) f) = done none
      rw [hnone]
      rfl
    · intro answer
      exact ih (some answer) (hsome answer)

namespace Fallible

def one (q : Q) : Fallible Q B (B q) := OptionT.mk (Program.one q)

/-- A statement that fails ends the program, and one that is answered lets it go on. -/
theorem answer_one_bind (ans : (q : Q) → Option (B q)) (q : Q) (f : B q → Fallible Q B ρ) :
    (one q >>= f).run.answer ans = (ans q).bind fun b => (f b).run.answer ans := by
  rw [OptionT.run_bind]
  change ((ans q).elim (Program.done none) fun b => (f b).run).answer ans = _
  cases ans q with
  | none | some b => rfl

theorem stops_pure (r : ρ) : (pure r : Fallible Q B ρ).run.Stops := trivial

theorem stops_one (q : Q) : (one q : Fallible Q B (B q)).run.Stops :=
  ⟨rfl, fun _ => trivial⟩

theorem stops_bind {x : Fallible Q B ρ} {f : ρ → Fallible Q B ρ'} (hx : x.run.Stops)
    (hf : ∀ r, (f r).run.Stops) : (x >>= f).run.Stops :=
  by
  rw [OptionT.run_bind]
  exact hx.elim hf

end Fallible

end

/-! ## Failures -/

section
variable {B : Q → Type v} {ε : Type v}

/-- Which of the statements to come fail. -/
abbrev Faults := Nat → Bool

def Faults.drop (f : Faults) (n : Nat) : Faults := fun k => f (k + n)

@[simp] theorem Faults.drop_apply (f : Faults) (n k : Nat) : f.drop n k = f (k + n) := rfl

@[simp] theorem Faults.drop_zero (f : Faults) : f.drop 0 = f := rfl

theorem Faults.drop_drop (f : Faults) (m n : Nat) : (f.drop m).drop n = f.drop (m + n) := by
  funext k
  rw [drop_apply, drop_apply, drop_apply, Nat.add_assoc, Nat.add_comm n m]

/-- A statement that fails or is refused does nothing. -/
def faulty (exec : (q : Q) → σ → Option (B q × σ)) (q : Q) (s : σ × Faults) :
    Option (B q) × (σ × Faults) :=
  let outcome := if s.2 0 then none else exec q s.1
  (outcome.map Prod.fst, ((outcome.map Prod.snd).getD s.1, s.2.drop 1))

theorem faulty_of_fault {exec : (q : Q) → σ → Option (B q × σ)} {q : Q} {s : σ} {f : Faults}
    (h : f 0 = true) : faulty exec q (s, f) = (none, (s, f.drop 1)) := by
  simp [faulty, h]

theorem faulty_of_refused {exec : (q : Q) → σ → Option (B q × σ)} {q : Q} {s : σ} {f : Faults}
    (h : exec q s = none) : faulty exec q (s, f) = (none, (s, f.drop 1)) := by
  simp [faulty, h]

theorem faulty_of_some {exec : (q : Q) → σ → Option (B q × σ)} {q : Q} {s s' : σ} {f : Faults}
    {b : B q} (hf : f 0 = false) (h : exec q s = some (b, s')) :
    faulty exec q (s, f) = (some b, (s', f.drop 1)) := by
  simp [faulty, h, hf]

/-- Where no statement fails, none to come fails either. -/
theorem run_faulty_none {exec : (q : Q) → σ → Option (B q × σ)}
    (p : Program Q (fun q => Option (B q)) ρ) (s : σ) :
    (p.run (faulty exec) (s, fun _ => false)).2.2 = fun _ => false := by
  induction p generalizing s with
  | done r => rfl
  | make q next ih => exact ih _ _

/-- A program that only reads leaves the state alone, and stops at the first statement
that fails. -/
theorem run_faulty_of_reads {exec : (q : Q) → σ → Option (B q × σ)} {s : σ}
    {ans : (q : Q) → B q} (hexec : ∀ q, exec q s = some (ans q, s))
    {p : Program Q (fun q => Option (B q)) (Option ρ)} (hp : p.Stops) (f : Faults) :
    (p.run (faulty exec) (s, f)).2.1 = s ∧
      (p.run (faulty exec) (s, f)).1 =
        if ∀ k < (p.asked fun q => some (ans q)).length, f k = false
        then p.answer fun q => some (ans q) else none := by
  induction p generalizing f with
  | done result => exact ⟨rfl, by simp [Program.asked, Program.answer]⟩
  | make q next ih =>
    obtain ⟨hnone, hsome⟩ := hp
    cases hf : f 0 with
    | true =>
      rw [Program.run_make, faulty_of_fault hf, hnone]
      refine ⟨rfl, (if_neg fun h => ?_).symm⟩
      have := h 0 (by simp [Program.asked])
      rw [hf] at this
      cases this
    | false =>
      rw [Program.run_make, faulty_of_some hf (hexec q)]
      obtain ⟨hstate, hresult⟩ := ih (some (ans q)) (hsome _) (f.drop 1)
      refine ⟨hstate, hresult.trans (if_congr ?_ rfl rfl)⟩
      rw [Program.asked, List.length_cons, Nat.forall_lt_succ_left']
      exact ⟨fun h => ⟨hf, h⟩, fun h => h.2⟩

end

/-! ## The statements of a run -/

section
variable {B : Q → Type v} {ε : Type v}

namespace Program

/-- The statements of a program that runs alone if none of them fails. -/
def trace (exec : (q : Q) → σ → Option (B q × σ)) :
    Program Q (fun q => Option (B q)) ρ → σ → List Q
  | done _, _ => []
  | make q next, s =>
    q :: trace exec (next ((exec q s).map Prod.fst)) (((exec q s).map Prod.snd).getD s)

/-- The program returns an error at its first statement that fails, but ignores the outcome of
some. -/
def Strict (ignores : Q → Bool) : Program Q (fun q => Option (B q)) (Except ε ρ) → Prop
  | done _ => True
  | make q next =>
    (if ignores q then ∀ a, next a = next none else ∃ e, next none = done (.error e)) ∧
      ∀ a, (next a).Strict ignores

variable {exec : (q : Q) → σ → Option (B q × σ)} {ignores reads : Q → Bool}
  {p : Program Q (fun q => Option (B q)) (Except ε ρ)} {s t : σ}

theorem Strict.bind {g : Except ε ρ → Program Q (fun q => Option (B q)) (Except ε ρ')}
    (hp : p.Strict ignores) (herror : ∀ e, ∃ e', g (.error e) = done (.error e'))
    (hg : ∀ r, (g r).Strict ignores) : (p >>= g).Strict ignores := by
  induction p with
  | done r => exact hg r
  | make q next ih =>
    refine ⟨?_, fun a => ih a (hp.2 a)⟩
    have hq := hp.1
    split_ifs at hq ⊢ with hignored
    · exact fun a => congrArg (Program.bind · g) (hq a)
    · obtain ⟨e, he⟩ := hq
      obtain ⟨e', he'⟩ := herror e
      exact ⟨e', (congrArg (Program.bind · g) he).trans he'⟩

/-- If there were only reads before a statement that fails, the program returns an error and leaves
the state alone. -/
theorem Strict.run_of_fault (hp : p.Strict ignores)
    (hreads : ∀ q, reads q = true → ignores q = false ∧ ∀ s b t, exec q s = some (b, t) → t = s)
    {f : Faults} {i : Nat} {q : Q} (hq : (p.trace exec s)[i]? = some q)
    (hignored : ignores q = false)
    (hf : f i = true) (hbefore : ∀ q ∈ (p.trace exec s).take i, reads q = true) :
    ∃ e g, p.run (faulty exec) (s, f) = (.error e, (s, g)) := by
  induction p generalizing f i with
  | done r => cases hq
  | make q₀ next ih =>
    have hq₀ : ignores q₀ = false := by
      cases i with
      | zero => exact Option.some.inj hq ▸ hignored
      | succ i => exact (hreads q₀ (hbefore q₀ List.mem_cons_self)).1
    obtain ⟨hnext, hstrict⟩ := hp
    rw [hq₀, if_neg Bool.false_ne_true] at hnext
    obtain ⟨e, he⟩ := hnext
    have hrefused (h : faulty exec q₀ (s, f) = (none, (s, f.drop 1))) :
        ∃ e g, (make q₀ next).run (faulty exec) (s, f) = (.error e, (s, g)) :=
      ⟨e, f.drop 1, by rw [run_make, h, he]; rfl⟩
    cases hf₀ : f 0 with
    | true => exact hrefused (faulty_of_fault hf₀)
    | false =>
      cases hexec : exec q₀ s with
      | none => exact hrefused (faulty_of_refused hexec)
      | some outcome =>
        cases i with
        | zero =>
          rw [hf₀] at hf
          cases hf
        | succ i =>
          obtain ⟨b, t⟩ := outcome
          obtain rfl := (hreads q₀ (hbefore q₀ List.mem_cons_self)).2 s b t hexec
          rw [trace, hexec] at hq hbefore
          obtain ⟨e, g, hrun⟩ := ih (some b) (hstrict _) (f := f.drop 1) hq hf
            fun q hq => hbefore q (List.mem_cons_of_mem _ hq)
          exact ⟨e, g, by rw [run_make, faulty_of_some hf₀ hexec, hrun]⟩

/-- If only statements fail whose outcome is ignored, the program returns what it returns if none
does, and leaves the same but for what these do. -/
theorem Strict.run_alike {R : σ → σ → Prop} (hp : p.Strict ignores)
    (halike : ∀ q s t, ignores q = false → R s t →
      Option.Rel (fun x y => x.1 = y.1 ∧ R x.2 y.2) (exec q s) (exec q t))
    (hignored : ∀ q s t, ignores q = true → R s t → ∀ f g : Faults,
      R (faulty exec q (s, f)).2.1 (faulty exec q (t, g)).2.1)
    {f : Faults} (hR : R s t)
    (hf : ∀ i q, (p.trace exec s)[i]? = some q → f i = true → ignores q = true) :
    (p.run (faulty exec) (t, f)).1 = (p.run (faulty exec) (s, fun _ => false)).1 ∧
      R (p.run (faulty exec) (s, fun _ => false)).2.1 (p.run (faulty exec) (t, f)).2.1 := by
  induction p generalizing s t f with
  | done r => exact ⟨rfl, hR⟩
  | make q next ih =>
    have hnext : ∀ i q', ((next ((exec q s).map Prod.fst)).trace exec
        (((exec q s).map Prod.snd).getD s))[i]? = some q' → f (i + 1) = true → ignores q' = true :=
      fun i q' => hf (i + 1) q'
    cases hq : ignores q with
    | true =>
      have hsame := hp.1
      rw [hq, if_pos rfl] at hsame
      have hrel := hignored q s t hq hR (fun _ => false) f
      rw [run_make, run_make, hsame (faulty exec q (t, f)).1,
        ← hsame ((exec q s).map Prod.fst)]
      exact ih _ (hp.2 _) hrel hnext
    | false =>
      have hf₀ : f 0 = false := by
        by_contra h
        rw [hf 0 q rfl (Bool.eq_true_of_not_eq_false h)] at hq
        cases hq
      have hrel := halike q s t hq hR
      cases hs : exec q s with
      | none =>
        rw [hs] at hrel hnext
        cases ht : exec q t with
        | some y =>
          rw [ht] at hrel
          cases hrel
        | none =>
          rw [run_make, run_make, faulty_of_refused hs, faulty_of_refused ht]
          exact ih none (hp.2 _) hR hnext
      | some x =>
        rw [hs] at hrel hnext
        cases ht : exec q t with
        | none =>
          rw [ht] at hrel
          cases hrel
        | some y =>
          rw [ht] at hrel
          obtain ⟨b, s'⟩ := x
          obtain ⟨b', t'⟩ := y
          obtain ⟨rfl, hR'⟩ : b = b' ∧ R s' t' := by
            cases hrel with
            | some h => exact h
          rw [run_make, run_make, faulty_of_some rfl hs, faulty_of_some hf₀ ht]
          exact ih (some b) (hp.2 _) hR' hnext

end Program

end

/-! ## Errors -/

section
variable {B : Q → Type v} {ε : Type v}

/-- A program that may return an error. -/
abbrev Checked (Q : Type u) (B : Q → Type v) (ε : Type v) : Type v → Type (max u v) :=
  ExceptT ε (Program Q fun q => Option (B q))

namespace Checked

/-- A result without any statement. -/
def ofResult (r : Except ε ρ) : Checked Q B ε ρ := ExceptT.mk (Program.done r)

/-- A statement whose failure ends the program. -/
def require (q : Q) (error : ε) : Checked Q B ε (B q) :=
  ExceptT.mk (Program.make q fun b => Program.done (b.elim (Except.error error) Except.ok))

/-- A statement whose result is ignored. -/
def attempt (q : Q) : Checked Q B ε PUnit :=
  ExceptT.mk (Program.make q fun _ => Program.done (Except.ok PUnit.unit))

/-- What a program returns and leaves if it runs alone. -/
def perform (exec : (q : Q) → σ → Option (B q × σ)) (x : Checked Q B ε ρ) (s : σ × Faults) :
    Except ε ρ × (σ × Faults) :=
  Program.run (faulty exec) x.run s

variable {exec : (q : Q) → σ → Option (B q × σ)} {x : Checked Q B ε ρ} {f : ρ → Checked Q B ε ρ'}
  {s t : σ × Faults} {q : Q} {b : B q} {r : ρ} {error : ε}

@[simp] theorem perform_pure : (pure r : Checked Q B ε ρ).perform exec s = (.ok r, s) := rfl

theorem perform_bind_ok (h : x.perform exec s = (.ok r, t)) :
    (x >>= f).perform exec s = (f r).perform exec t := by
  rw [perform] at h
  rw [perform, ExceptT.run_bind, Program.run_bind, h]
  rfl

theorem perform_bind_error (h : x.perform exec s = (.error error, t)) :
    (x >>= f).perform exec s = (.error error, t) := by
  rw [perform] at h
  rw [perform, ExceptT.run_bind, Program.run_bind, h]
  rfl

theorem perform_ofResult_ok : (ofResult (.ok r) >>= f).perform exec s = (f r).perform exec s := rfl

theorem perform_ofResult_error :
    ((ofResult (.error error) : Checked Q B ε ρ) >>= f).perform exec s = (.error error, s) := rfl

theorem perform_require : (require q error : Checked Q B ε _).perform exec s =
    ((faulty exec q s).1.elim (.error error) .ok, (faulty exec q s).2) :=
  rfl

theorem perform_require_ok {s s' : σ} {g : Faults} (hf : g 0 = false)
    (h : exec q s = some (b, s')) :
    (require q error : Checked Q B ε _).perform exec (s, g) = (.ok b, (s', g.drop 1)) := by
  rw [perform_require, faulty_of_some hf h]
  rfl

theorem perform_require_error {s : σ} {g : Faults} (h : g 0 = true ∨ exec q s = none) :
    (require q error : Checked Q B ε _).perform exec (s, g) = (.error error, (s, g.drop 1)) := by
  have hfaulty : faulty exec q (s, g) = (none, (s, g.drop 1)) :=
    h.elim faulty_of_fault faulty_of_refused
  rw [perform_require, hfaulty]
  rfl

theorem perform_attempt :
    (attempt q : Checked Q B ε _).perform exec s = (.ok PUnit.unit, (faulty exec q s).2) :=
  rfl

section
variable {ignores : Q → Bool}

/-- The program returns at its first statement that fails, unless the outcome is ignored. -/
abbrev Strict (ignores : Q → Bool) (x : Checked Q B ε ρ) : Prop := x.run.Strict ignores

theorem strict_pure : (pure r : Checked Q B ε ρ).Strict ignores := trivial

theorem strict_ofResult {result : Except ε ρ} :
    (ofResult result : Checked Q B ε ρ).Strict ignores := trivial

theorem strict_require (h : ignores q = false) :
    (require q error : Checked Q B ε _).Strict ignores :=
  ⟨by rw [h, if_neg Bool.false_ne_true]; exact ⟨error, rfl⟩, fun _ => trivial⟩

theorem strict_attempt (h : ignores q = true) :
    (attempt q : Checked Q B ε PUnit).Strict ignores :=
  ⟨by rw [h, if_pos rfl]; exact fun _ => rfl, fun _ => trivial⟩

theorem strict_bind (hx : x.Strict ignores) (hf : ∀ r, (f r).Strict ignores) :
    (x >>= f).Strict ignores := by
  rw [Strict, ExceptT.run_bind]
  refine Program.Strict.bind hx (fun e => ⟨e, rfl⟩) fun result => ?_
  cases result with
  | ok r => exact hf r
  | error e => trivial

end

/-! ## Runs without failures -/

/-- A program that returns a result from a state if no statement fails, and the state it leaves. -/
def Runs (exec : (q : Q) → σ → Option (B q × σ)) (x : Checked Q B ε ρ) (s : σ) (r : ρ) (t : σ) :
    Prop :=
  x.perform exec (s, fun _ => false) = (.ok r, (t, fun _ => false))

section
variable {s t u : σ} {r' : ρ'}

theorem Runs.pure : (Pure.pure r : Checked Q B ε ρ).Runs exec s r s := rfl

theorem Runs.bind (hx : x.Runs exec s r t) (hf : (f r).Runs exec t r' u) :
    (x >>= f).Runs exec s r' u :=
  (perform_bind_ok hx).trans hf

theorem Runs.of_fst (hr : (x.perform exec (s, fun _ => false)).1 = .ok r)
    (ht : (x.perform exec (s, fun _ => false)).2.1 = t) : x.Runs exec s r t :=
  Prod.ext hr (Prod.ext ht (run_faulty_none x.run s))

theorem Runs.ofResult : (ofResult (.ok r) : Checked Q B ε ρ).Runs exec s r s := rfl

theorem Runs.require (h : exec q s = some (b, t)) :
    (Checked.require q error : Checked Q B ε _).Runs exec s b t :=
  perform_require_ok rfl h

/-- The program returns a result if no statement fails. -/
def Completes (exec : (q : Q) → σ → Option (B q × σ)) (x : Checked Q B ε ρ) (s : σ) : Prop :=
  ∃ r t, x.Runs exec s r t

/-- After a part that returns, the rest decides. -/
theorem completes_bind_of_runs (hx : x.Runs exec s r t) :
    (x >>= f).Completes exec s ↔ (f r).Completes exec t := by
  rw [Completes, Completes]
  simp only [Runs, perform_bind_ok hx]

/-- A program that returns has parts that do. -/
theorem completes_of_bind (h : (x >>= f).Completes exec s) : x.Completes exec s := by
  obtain ⟨r', t, hruns⟩ := h
  cases hx : x.perform exec (s, fun _ => false) with
  | mk result rest =>
    cases result with
    | ok r => exact ⟨r, _, Runs.of_fst (congrArg Prod.fst hx) rfl⟩
    | error error =>
      rw [Runs, perform_bind_error hx] at hruns
      cases congrArg Prod.fst hruns

theorem completes_ofResult {result : Except ε ρ} :
    (ofResult result : Checked Q B ε ρ).Completes exec s ↔ ∃ r, result = .ok r := by
  constructor
  · rintro ⟨r, t, hruns⟩
    exact ⟨r, congrArg Prod.fst hruns⟩
  · rintro ⟨r, rfl⟩
    exact ⟨r, s, Runs.ofResult⟩

theorem completes_ofResult_bind {result : Except ε ρ} :
    (ofResult result >>= f).Completes exec s ↔ ∃ r, result = .ok r ∧ (f r).Completes exec s := by
  cases result with
  | ok r =>
    rw [completes_bind_of_runs Runs.ofResult]
    simp
  | error error =>
    refine iff_of_false ?_ ?_
    · rintro ⟨r', t, hruns⟩
      rw [Runs, perform_ofResult_error] at hruns
      cases congrArg Prod.fst hruns
    · rintro ⟨r, hr, -⟩
      cases hr

/-- A statement that is refused ends the program. -/
theorem completes_require_bind {g : B q → Checked Q B ε ρ'} :
    (Checked.require q error >>= g).Completes exec s ↔
      ∃ b t, exec q s = some (b, t) ∧ (g b).Completes exec t := by
  cases h : exec q s with
  | some outcome =>
    rw [completes_bind_of_runs (Runs.require (b := outcome.1) (t := outcome.2) h)]
    simp only [Option.some.injEq]
    exact ⟨fun hg => ⟨_, _, rfl, hg⟩, fun ⟨_, _, heq, hg⟩ => by
      cases heq
      exact hg⟩
  | none =>
    refine iff_of_false ?_ ?_
    · rintro ⟨r', t, hruns⟩
      rw [Runs, perform_bind_error (perform_require_error (.inr h))] at hruns
      cases congrArg Prod.fst hruns
    · rintro ⟨b, t, hb, -⟩
      cases hb

end

end Checked

end

/-- A program in flight, with the statements that were answered to it so far. -/
inductive Reached (ans : (q : Q) → A q) (p : Program Q A ρ) : List Q → Program Q A ρ → Prop where
  | start : Reached ans p [] p
  | make {asked : List Q} {q : Q} {next : A q → Program Q A ρ}
      (before : Reached ans p asked (.make q next)) : Reached ans p (asked ++ [q]) (next (ans q))

namespace Reached
variable {ans ans' : (q : Q) → A q} {p left : Program Q A ρ} {asked : List Q}

/-- Equal answers to what was asked lead to the same program. -/
theorem replay (h : Reached ans p asked left) (heq : ∀ q ∈ asked, ans' q = ans q) :
    Reached ans' p asked left := by
  induction h with
  | start => exact Reached.start
  | @make asked q next before ih =>
    have hq : ans' q = ans q := heq q (by simp)
    rw [← hq]
    exact Reached.make (ih fun q' hq' => heq q' (by simp [hq']))

/-- The program in flight returns what the whole program returns. -/
theorem answer_eq (h : Reached ans p asked left) : left.answer ans = p.answer ans := by
  induction h with
  | start => rfl
  | make before ih => exact ih

end Reached

end Statements
