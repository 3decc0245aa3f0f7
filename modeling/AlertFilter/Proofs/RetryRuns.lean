import AlertFilter.Store.Retry
import Mathlib.Tactic.Lemma

/-!
# Runs of the retry loop

A run is a row of tries. Every try but the last fails in a way that may pass, and a wait follows
it. The last one succeeds, fails for good or is the last that the policy allows, and the run ends
as it does.
-/

namespace AlertFilter.RetryPolicy

/-- How often an operation is tried at most. -/
def tries (p : RetryPolicy) : Nat := max p.maxAttempts 1

variable {σ α ε : Type}

/-- A failure that may pass. -/
def MayPass (isTransient : ε → Bool) (r : Except ε α) : Prop := ∃ e, r = .error e ∧ isTransient e

/-- What a run makes of the outcome of its last try. -/
def conclude (isTransient : ε → Bool) : Except ε α → Except (RetryError ε) α :=
  Except.mapError fun e => if isTransient e then .exceeded e else .fatal e

variable (p : RetryPolicy) (sleep : Duration → StateM σ Unit) (operation : StateM σ (Except ε α))
  (isTransient : ε → Bool)

/-- The states in which a run makes its tries, each after as many failures that may pass. -/
inductive Retries (s : σ) : Nat → σ → Prop
  | start : Retries s 0 s
  | next {k : Nat} {s₁ s₂ : σ} {r : Except ε α} (before : Retries s k s₁)
      (tried : operation.run s₁ = (r, s₂)) (mayPass : MayPass isTransient r) :
      Retries s (k + 1) ((sleep (p.backoff k)).run s₂).2

variable {p sleep operation isTransient} {s s₁ s₂ : σ} {k : Nat} {r : Except ε α}

lemma conclude_of_transient {e : ε} (he : isTransient e = true) :
    conclude isTransient (.error e : Except ε α) = .error (.exceeded e) :=
  congrArg Except.error (if_pos he)

lemma conclude_of_fatal {e : ε} (he : isTransient e = false) :
    conclude isTransient (.error e : Except ε α) = .error (.fatal e) :=
  congrArg Except.error (if_neg (Bool.eq_false_iff.mp he))

lemma tries_eq : p.tries = p.maxAttempts - 1 + 1 := by
  rw [tries]
  omega

lemma run_bind_of_run {β γ : Type} {x : StateM σ β} {f : β → StateM σ γ} {b : β}
    (h : x.run s₁ = (b, s₂)) : (x >>= f).run s₁ = (f b).run s₂ := by
  rw [StateT.run_bind, h]
  rfl

lemma runFrom_of_settled {left : Nat} (htried : operation.run s₁ = (r, s₂))
    (hlast : ¬MayPass isTransient r ∨ left = 0) :
    (p.runFrom sleep operation isTransient k left).run s₁ = (conclude isTransient r, s₂) := by
  cases left with
  | zero =>
    rw [runFrom, run_bind_of_run htried]
    cases r <;> rfl
  | succ left =>
    rw [runFrom, run_bind_of_run htried]
    cases r with
    | ok a => rfl
    | error e =>
      have he : isTransient e = false := by
        simpa [MayPass] using hlast
      rw [conclude_of_fatal he]
      simp only [he, Bool.false_eq_true, if_false]
      rfl

lemma runFrom_of_mayPass {left : Nat} (htried : operation.run s₁ = (r, s₂))
    (hmayPass : MayPass isTransient r) :
    (p.runFrom sleep operation isTransient k (left + 1)).run s₁ =
      (p.runFrom sleep operation isTransient (k + 1) left).run
        ((sleep (p.backoff k)).run s₂).2 := by
  obtain ⟨e, rfl, he⟩ := hmayPass
  rw [runFrom, run_bind_of_run htried]
  simp only [he, if_true]
  rfl

/-- After some failures that may pass, the rest of the run is a run with fewer tries left. -/
lemma run_of_retries (h : Retries p sleep operation isTransient s k s₁) (hk : k < p.tries) :
    (p.run sleep operation isTransient).run s =
      (p.runFrom sleep operation isTransient k (p.tries - 1 - k)).run s₁ := by
  induction h with
  | start => rw [run, tries_eq, Nat.add_sub_cancel, Nat.sub_zero]
  | @next k s₁ s₂ r before htried hmayPass ih =>
    have hleft : p.tries - 1 - k = p.tries - 1 - (k + 1) + 1 := by omega
    rw [ih (by omega), hleft, runFrom_of_mayPass htried hmayPass]

/-- A run ends as its last try does. -/
theorem run_eq_conclude (h : Retries p sleep operation isTransient s k s₁) (hk : k < p.tries)
    (htried : operation.run s₁ = (r, s₂)) (hlast : ¬MayPass isTransient r ∨ k + 1 = p.tries) :
    (p.run sleep operation isTransient).run s = (conclude isTransient r, s₂) := by
  rw [run_of_retries h hk]
  exact runFrom_of_settled htried (hlast.imp_right fun h => by omega)

/-- What each try and each wait keeps, a run keeps. -/
lemma runFrom_preserves {P : σ → Prop} (htry : ∀ s, P s → P (operation.run s).2)
    (hsleep : ∀ d s, P s → P ((sleep d).run s).2) (left k : Nat) {s : σ} (hs : P s) :
    P ((p.runFrom sleep operation isTransient k left).run s).2 := by
  induction left generalizing k s with
  | zero =>
    have htried : operation.run s = ((operation.run s).1, (operation.run s).2) := rfl
    rw [runFrom_of_settled htried (.inr rfl)]
    exact htry s hs
  | succ left ih =>
    have htried : operation.run s = ((operation.run s).1, (operation.run s).2) := rfl
    by_cases h : MayPass isTransient (operation.run s).1
    · rw [runFrom_of_mayPass htried h]
      exact ih (k + 1) (hsleep _ _ (htry s hs))
    · rw [runFrom_of_settled htried (.inl h)]
      exact htry s hs

end AlertFilter.RetryPolicy
