import AlertFilter.Proofs.RetryRuns
import Mathlib.Order.MinMax

/-!
# Waits between tries

A wait is twice as long as the one before it, six times at most and up to the limit of the policy.
Its length is counted in milliseconds of 64 bits, which is less than a span of time can hold: the
waits of a run grow if the longest of them can be counted, and one that cannot loses its upper part.
-/

namespace AlertFilter

/-- Spans of time by their length. -/
instance : PartialOrder Duration :=
  PartialOrder.lift Duration.nanoseconds fun d e h => by
    cases d
    cases e
    cases h
    rfl

namespace Duration

lemma milliseconds_ofMilliseconds (n : Nat) :
    (ofMilliseconds n).milliseconds = n % 18446744073709551616 := by
  change n % 18446744073709551616 * 1000000 / 1000000 = n % 18446744073709551616
  exact Nat.mul_div_cancel _ (by decide)

lemma milliseconds_lt (d : Duration) : d.milliseconds < 18446744073709551616000 := by
  have hfits := d.fits
  rw [milliseconds]
  omega

lemma ofMilliseconds_le {n : Nat} {d : Duration} (h : n ≤ d.milliseconds) :
    ofMilliseconds n ≤ d := by
  change n % 18446744073709551616 * 1000000 ≤ d.nanoseconds
  rw [milliseconds] at h
  omega

lemma ofMilliseconds_mono {m n : Nat} (h : m ≤ n) (hn : n < 18446744073709551616) :
    ofMilliseconds m ≤ ofMilliseconds n := by
  change m % 18446744073709551616 * 1000000 ≤ n % 18446744073709551616 * 1000000
  omega

end Duration

namespace RetryPolicy

variable {p : RetryPolicy}

/-- The milliseconds to wait after the try with this number: doubled six times at most, and not
beyond the limit. -/
def span (p : RetryPolicy) (attempt : Nat) : Nat :=
  min (p.baseDelay.milliseconds * Nat.pow 2 (min attempt 6)) p.maxDelay.milliseconds

/-- The longest wait can be counted in 64 bits. -/
def IsCounted (p : RetryPolicy) : Prop := p.span 6 < 18446744073709551616

instance : Decidable p.IsCounted := inferInstanceAs (Decidable (_ < _))

lemma factor_mono {a b : Nat} (h : a ≤ b) : Nat.pow 2 (min a 6) ≤ Nat.pow 2 (min b 6) :=
  Nat.pow_le_pow_right (by decide) (by omega)

lemma span_mono (p : RetryPolicy) : Monotone p.span := by
  intro a b hab
  exact min_le_min_right _ (Nat.mul_le_mul_left _ (factor_mono hab))

/-- No wait is longer than after six doublings. -/
lemma span_le_last (p : RetryPolicy) (attempt : Nat) : p.span attempt ≤ p.span 6 := by
  have hfactor : Nat.pow 2 (min attempt 6) ≤ Nat.pow 2 (min 6 6) :=
    Nat.pow_le_pow_right (by decide) (by omega)
  exact min_le_min_right _ (Nat.mul_le_mul_left _ hfactor)

/-- The product of 128 bits is never cut off, so the wait is its span, as far as it is counted. -/
lemma backoff_eq (p : RetryPolicy) (attempt : Nat) :
    p.backoff attempt = .ofMilliseconds (p.span attempt) := by
  have hfactor : Nat.pow 2 (min attempt 6) ≤ 64 :=
    Nat.pow_le_pow_right (by decide) (min_le_right attempt 6)
  unfold backoff span
  split
  · next hzero =>
    have hbase : p.baseDelay.milliseconds = 0 := by
      rw [Duration.milliseconds, of_decide_eq_true hzero]
    rw [hbase, Nat.zero_mul, Nat.zero_min]
    rfl
  · have hlongest : p.baseDelay.milliseconds * Nat.pow 2 (min attempt 6) ≤ longest := by
      calc p.baseDelay.milliseconds * Nat.pow 2 (min attempt 6)
          ≤ 18446744073709551616000 * 64 :=
            Nat.mul_le_mul p.baseDelay.milliseconds_lt.le hfactor
        _ ≤ longest := by decide
    rw [min_eq_left hlongest]

lemma milliseconds_backoff (p : RetryPolicy) (attempt : Nat) :
    (p.backoff attempt).milliseconds = p.span attempt % 18446744073709551616 := by
  rw [backoff_eq, Duration.milliseconds_ofMilliseconds]

lemma backoff_le (p : RetryPolicy) (attempt : Nat) : p.backoff attempt ≤ p.maxDelay := by
  rw [backoff_eq]
  exact Duration.ofMilliseconds_le (min_le_right _ _)

lemma IsCounted.span_lt (h : p.IsCounted) (attempt : Nat) :
    p.span attempt < 18446744073709551616 :=
  lt_of_le_of_lt (p.span_le_last attempt) h

/-- Waits keep their length exactly if the longest one does. -/
lemma isCounted_iff :
    p.IsCounted ↔ ∀ attempt, (p.backoff attempt).milliseconds = p.span attempt := by
  constructor
  · intro h attempt
    rw [milliseconds_backoff, Nat.mod_eq_of_lt (h.span_lt attempt)]
  · intro h
    rw [IsCounted, ← h 6, milliseconds_backoff]
    exact Nat.mod_lt _ (by decide)

lemma IsCounted.backoff_mono (h : p.IsCounted) : Monotone p.backoff := by
  intro a b hab
  rw [backoff_eq, backoff_eq]
  exact Duration.ofMilliseconds_mono (p.span_mono hab) (h.span_lt b)

/-- A world in which tries are counted and waits are written down. -/
structure Logged (σ : Type) where
  state : σ
  tries : Nat
  waits : List Duration

variable {σ α ε : Type}

def loggedSleep (sleep : Duration → StateM σ Unit) (d : Duration) : StateM (Logged σ) Unit :=
  modify fun x => ⟨((sleep d).run x.state).2, x.tries, x.waits ++ [d]⟩

def loggedTry (operation : StateM σ (Except ε α)) : StateM (Logged σ) (Except ε α) :=
  modifyGet fun x =>
    let (r, s) := operation.run x.state
    (r, ⟨s, x.tries + 1, x.waits⟩)

/-- A run with its log. -/
def loggedRun (p : RetryPolicy) (sleep : Duration → StateM σ Unit)
    (operation : StateM σ (Except ε α)) (isTransient : ε → Bool) (s : σ) :
    Except (RetryError ε) α × Logged σ :=
  (p.run (loggedSleep sleep) (loggedTry operation) isTransient).run ⟨s, 0, []⟩

lemma loggedTry_run {operation : StateM σ (Except ε α)} {x : Logged σ} {r : Except ε α} {s : σ}
    (h : operation.run x.state = (r, s)) :
    (loggedTry operation).run x = (r, ⟨s, x.tries + 1, x.waits⟩) := by
  rw [loggedTry, StateT.run_modifyGet, h]
  rfl

/-- The log does not change a run, and has one wait fewer than tries. -/
lemma runFrom_logged (p : RetryPolicy) (sleep : Duration → StateM σ Unit)
    (operation : StateM σ (Except ε α)) (isTransient : ε → Bool) (left attempt : Nat)
    (x : Logged σ) :
    ∃ k ≤ left,
      (p.runFrom (loggedSleep sleep) (loggedTry operation) isTransient attempt left).run x =
        (((p.runFrom sleep operation isTransient attempt left).run x.state).1,
          ⟨((p.runFrom sleep operation isTransient attempt left).run x.state).2, x.tries + (k + 1),
            x.waits ++ (List.range' attempt k).map p.backoff⟩) := by
  induction left generalizing attempt x with
  | zero =>
    have htried : operation.run x.state = ((operation.run x.state).1, (operation.run x.state).2) :=
      rfl
    refine ⟨0, Nat.le_refl 0, ?_⟩
    rw [runFrom_of_settled htried (.inr rfl), runFrom_of_settled (loggedTry_run htried) (.inr rfl),
      List.range'_zero, List.map_nil, List.append_nil]
  | succ left ih =>
    have htried : operation.run x.state = ((operation.run x.state).1, (operation.run x.state).2) :=
      rfl
    by_cases hmayPass : MayPass isTransient (operation.run x.state).1
    · rw [runFrom_of_mayPass htried hmayPass, runFrom_of_mayPass (loggedTry_run htried) hmayPass]
      obtain ⟨k, hk, hrun⟩ := ih (attempt + 1)
        ⟨((sleep (p.backoff attempt)).run (operation.run x.state).2).2, x.tries + 1,
          x.waits ++ [p.backoff attempt]⟩
      refine ⟨k + 1, Nat.succ_le_succ hk, hrun.trans ?_⟩
      rw [List.range'_succ, List.map_cons, List.append_assoc, List.singleton_append,
        Nat.add_assoc x.tries, Nat.add_comm 1]
    · refine ⟨0, Nat.zero_le _, ?_⟩
      rw [runFrom_of_settled htried (.inl hmayPass),
        runFrom_of_settled (loggedTry_run htried) (.inl hmayPass), List.range'_zero, List.map_nil,
        List.append_nil]

/-- Between the tries of a run the first waits are made, one after the other. -/
theorem loggedRun_eq (p : RetryPolicy) (sleep : Duration → StateM σ Unit)
    (operation : StateM σ (Except ε α)) (isTransient : ε → Bool) (s : σ) :
    ∃ k < p.tries, p.loggedRun sleep operation isTransient s =
      (((p.run sleep operation isTransient).run s).1,
        ⟨((p.run sleep operation isTransient).run s).2, k + 1, (List.range k).map p.backoff⟩) := by
  obtain ⟨k, hk, hrun⟩ :=
    p.runFrom_logged sleep operation isTransient (p.maxAttempts - 1) 0 ⟨s, 0, []⟩
  refine ⟨k, ?_, ?_⟩
  · rw [tries_eq]
    omega
  · rw [loggedRun, run, run, hrun, List.nil_append, Nat.zero_add, List.range_eq_range']

lemma IsCounted.pairwise_backoff (h : p.IsCounted) (k : Nat) :
    ((List.range k).map p.backoff).Pairwise (· ≤ ·) := by
  rw [List.pairwise_map]
  exact List.pairwise_lt_range.imp fun hab => h.backoff_mono hab.le

/-- No wait is beyond the limit. Waits have the length meant for them exactly if the longest of them
can be counted, and then they grow, from try to try and in every run. -/
theorem waits_grow (maxAttempts : Nat) (baseDelay maxDelay : Duration) :
    let p := RetryPolicy.new maxAttempts baseDelay maxDelay
    (∀ attempt, p.backoff attempt ≤ p.maxDelay) ∧
    (p.IsCounted ↔ ∀ attempt, (p.backoff attempt).milliseconds = p.span attempt) ∧
    (p.IsCounted → Monotone p.backoff ∧
      ∀ {σ α ε : Type} (sleep : Duration → StateM σ Unit) (operation : StateM σ (Except ε α))
        (isTransient : ε → Bool) (s : σ),
        ∃ k < p.tries, p.loggedRun sleep operation isTransient s =
            (((p.run sleep operation isTransient).run s).1,
              ⟨((p.run sleep operation isTransient).run s).2, k + 1,
                (List.range k).map p.backoff⟩) ∧
          ((List.range k).map p.backoff).Pairwise (· ≤ ·)) := by
  intro p
  refine ⟨p.backoff_le, isCounted_iff, fun h => ⟨h.backoff_mono, ?_⟩⟩
  intro σ α ε sleep operation isTransient s
  obtain ⟨k, hk, hrun⟩ := p.loggedRun_eq sleep operation isTransient s
  exact ⟨k, hk, hrun, h.pairwise_backoff k⟩

/-- An operation that fails five times, with waits of 100 milliseconds and a limit of 350. -/
theorem waits_grow_to_the_limit :
    let p := RetryPolicy.new 5 (.ofMilliseconds 100) (.ofMilliseconds 350)
    let waits := (p.loggedRun (fun _ => pure ()) (pure (.error ()) : StateM Unit (Except Unit Unit))
      (fun _ => true) ()).2.waits
    p.IsCounted ∧ waits = [100, 200, 350, 350].map Duration.ofMilliseconds ∧
      waits.Pairwise (· ≤ ·) ∧ p.backoff 1 ≤ p.backoff 2 ∧ p.backoff 3 ≤ .ofMilliseconds 350 := by
  intro p waits
  have hcounted : p.IsCounted := by decide
  obtain ⟨hlimit, -, hgrow⟩ := waits_grow 5 (.ofMilliseconds 100) (.ofMilliseconds 350)
  obtain ⟨hmono, hruns⟩ := hgrow hcounted
  obtain ⟨k, -, hrun, hpairwise⟩ := hruns (fun _ => pure ())
    (pure (.error ()) : StateM Unit (Except Unit Unit)) (fun _ => true) ()
  refine ⟨hcounted, by decide +kernel, ?_, hmono (by decide), hlimit 3⟩
  have hwaits : waits = (List.range k).map p.backoff := congrArg (·.2.waits) hrun
  rw [hwaits]
  exact hpairwise

/-- The second wait would last as many milliseconds as 64 bits have values, and is none at all. -/
theorem long_wait_is_lost :
    let p := RetryPolicy.new 3 (.ofMilliseconds 9223372036854775808)
      ⟨18446744073709551616000000, by decide⟩
    p.backoff 0 = .ofMilliseconds 9223372036854775808 ∧ p.backoff 1 = .zero ∧
      ¬p.backoff 0 ≤ p.backoff 1 := by
  intro p
  have hfirst : p.backoff 0 = .ofMilliseconds 9223372036854775808 := by decide
  have hsecond : p.backoff 1 = .zero := by decide
  have hlonger : Duration.zero.nanoseconds <
      (Duration.ofMilliseconds 9223372036854775808).nanoseconds := by decide
  refine ⟨hfirst, hsecond, fun hle => ?_⟩
  rw [hfirst, hsecond] at hle
  exact absurd hlonger (Nat.not_lt_of_le hle)

end RetryPolicy

end AlertFilter
