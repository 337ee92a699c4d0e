import Mathlib.Tactic.Ring
import Mathlib.Data.List.Basic

set_option autoImplicit false

/-! # Traced computations

A shallow embedding of straight-line imperative code with observable effects: a computation emits a
list of actions `ω` and ends with a value or with a fault `ε` that stops it (an exception nobody
catches, or an operation the language leaves undefined). Nothing here reads a store: the programs
embedded this way decide what to do from their arguments alone, so the whole list of actions is
known when they are called. -/

/-- A computation that emits actions `ω` and returns an `α`, unless it faults with an `ε`. The trace
    of a faulting computation is what it emitted before the fault. -/
structure Exec (ε ω α : Type) where
  trace : List ω
  result : Except ε α

namespace Exec

variable {ε ω α β σ : Type}

/-- Emit one action. -/
def emit (a : ω) : Exec ε ω Unit := ⟨[a], .ok ()⟩

/-- Stop with a fault. -/
def fault (e : ε) : Exec ε ω α := ⟨[], .error e⟩

instance : Monad (Exec ε ω) where
  pure a := ⟨[], .ok a⟩
  bind x f :=
    match x.result with
    | .ok a => ⟨x.trace ++ (f a).trace, (f a).result⟩
    | .error e => ⟨x.trace, .error e⟩

/-! ## Evaluation

The simp set pushes a program down to its trace and its result, one statement at a time. -/

@[simp] theorem pure_eq (a : α) : (pure a : Exec ε ω α) = ⟨[], .ok a⟩ := rfl

@[simp] theorem emit_eq (a : ω) : (emit a : Exec ε ω Unit) = ⟨[a], .ok ()⟩ := rfl

@[simp] theorem fault_eq (e : ε) : (fault e : Exec ε ω α) = ⟨[], .error e⟩ := rfl

@[simp] theorem ok_bind (t : List ω) (a : α) (f : α → Exec ε ω β) :
    (⟨t, .ok a⟩ : Exec ε ω α) >>= f = ⟨t ++ (f a).trace, (f a).result⟩ := rfl

@[simp] theorem error_bind (t : List ω) (e : ε) (f : α → Exec ε ω β) :
    (⟨t, .error e⟩ : Exec ε ω α) >>= f = ⟨t, .error e⟩ := rfl

/-- **The sequence rule.** For a long program, one statement at a time. -/
theorem bind_of_eq {x : Exec ε ω α} {f : α → Exec ε ω β} {t t' : List ω} {a : α} {r : Except ε β}
    (hx : x = ⟨t, .ok a⟩) (hf : f a = ⟨t', r⟩) : x >>= f = ⟨t ++ t', r⟩ := by
  rw [hx, ok_bind, hf]

/-- A fault stops the sequence. -/
theorem result_bind_of_error {x : Exec ε ω α} {f : α → Exec ε ω β} {e : ε}
    (h : x.result = .error e) : (x >>= f).result = .error e := by
  obtain ⟨t, r⟩ := x
  cases h
  rfl

/-- A sequence's actions are those of its first part, followed by some of the second. -/
theorem mem_trace_bind {x : Exec ε ω α} {f : α → Exec ε ω β} {w : ω} (h : w ∈ (x >>= f).trace) :
    w ∈ x.trace ∨ ∃ a, x.result = .ok a ∧ w ∈ (f a).trace := by
  obtain ⟨t, r⟩ := x
  cases r with
  | error e => exact Or.inl h
  | ok a =>
      rcases List.mem_append.1 h with h | h
      · exact Or.inl h
      · exact Or.inr ⟨a, rfl, h⟩

/-! ## Which actions can happen -/

/-- Every action of the computation is one of `Q`. -/
def EmitsIn (Q : ω → Prop) (x : Exec ε ω α) : Prop :=
  ∀ w ∈ x.trace, Q w

theorem EmitsIn.bind {Q : ω → Prop} {x : Exec ε ω α} {f : α → Exec ε ω β} (hx : x.EmitsIn Q)
    (hf : ∀ a, (f a).EmitsIn Q) : (x >>= f).EmitsIn Q := by
  intro w hw
  rcases mem_trace_bind hw with hw | ⟨a, -, hw⟩
  · exact hx w hw
  · exact hf a w hw

/-! ## Which faults can happen -/

/-- Every fault of the computation is one of `P`. -/
def FaultsIn (P : ε → Prop) (x : Exec ε ω α) : Prop :=
  ∀ e, x.result = .error e → P e

variable {P : ε → Prop}

theorem faultsIn_ok (t : List ω) (a : α) : (⟨t, .ok a⟩ : Exec ε ω α).FaultsIn P := nofun

theorem faultsIn_fault {e : ε} (he : P e) : (fault e : Exec ε ω α).FaultsIn P := by
  intro e' h
  cases h
  exact he

theorem FaultsIn.bind {x : Exec ε ω α} {f : α → Exec ε ω β} (hx : x.FaultsIn P)
    (hf : ∀ a, (f a).FaultsIn P) : (x >>= f).FaultsIn P := by
  intro e he
  obtain ⟨t, r⟩ := x
  cases r with
  | error e' =>
      cases he
      exact hx e rfl
  | ok a => exact hf a e he

/-! ## Counting loops

`for (int i = i₀; cond; i += step) body`, where the loop variable is a machine integer: advancing it
past `max` is an overflow, which faults. A loop with a positive step therefore always ends, whatever
its condition: it leaves through the condition, through a fault of its body, or by overflowing. -/

/-- The counting loop; the loop state `s` stands for the variables the body assigns. -/
def forLoop (max : Int) (overflow : ε) (cond : Int → Bool) (step : Int)
    (body : Int → σ → Exec ε ω σ) (i : Int) (s : σ) : Exec ε ω σ :=
  if cond i then do
    let s' ← body i s
    if _h : 0 < step ∧ i + step ≤ max then
      forLoop max overflow cond step body (i + step) s'
    else fault overflow
  else pure s
termination_by (max - i).toNat
decreasing_by omega

variable {max : Int} {overflow : ε} {cond : Int → Bool} {step : Int}
  {body : Int → σ → Exec ε ω σ}

theorem forLoop_done {i : Int} {s : σ} (hc : cond i = false) :
    forLoop max overflow cond step body i s = ⟨[], .ok s⟩ := by
  rw [forLoop, hc]
  rfl

theorem forLoop_next {i : Int} {s : σ} (hc : cond i = true) (hstep : 0 < step)
    (hmax : i + step ≤ max) :
    forLoop max overflow cond step body i s
      = body i s >>= forLoop max overflow cond step body (i + step) := by
  rw [forLoop, if_pos hc]
  simp only [dif_pos (And.intro hstep hmax)]

/-- **The loop rule.** A property holds of the loop if it holds of its end and of the overflow, and
    carries over from what follows an iteration to the iteration with what follows it. -/
theorem forLoop_rule {P : Exec ε ω σ → Prop} (hdone : ∀ s, P (pure s)) (hover : P (fault overflow))
    (hnext : ∀ i s f, (∀ s', P (f s')) → P (body i s >>= f)) (i : Int) (s : σ) :
    P (forLoop max overflow cond step body i s) := by
  fun_induction Exec.forLoop max overflow cond step body i s with
  | case1 i s hc ih =>
      refine hnext i s _ fun s' => ?_
      by_cases h : 0 < step ∧ i + step ≤ max
      · rw [dif_pos h]
        exact ih s' h
      · rw [dif_neg h]
        exact hover
  | case2 i s hc => exact hdone s

/-- A loop faults as its body does, or by overflowing. -/
theorem FaultsIn.forLoop {P : ε → Prop} (hover : P overflow)
    (hbody : ∀ i s, (body i s).FaultsIn P) (i : Int) (s : σ) :
    (forLoop max overflow cond step body i s).FaultsIn P :=
  forLoop_rule (faultsIn_ok []) (faultsIn_fault hover) (fun i s _ hf => (hbody i s).bind hf) i s

/-- A loop does what its body does. -/
theorem EmitsIn.forLoop {Q : ω → Prop} (hbody : ∀ i s, (body i s).EmitsIn Q) (i : Int) (s : σ) :
    (forLoop max overflow cond step body i s).EmitsIn Q :=
  forLoop_rule (fun _ => nofun) nofun (fun i s _ hf => (hbody i s).bind hf) i s

/-- A loop whose condition never fails runs until its variable overflows. -/
theorem forLoop_overflows (hcond : ∀ i ≤ max, cond i = true)
    (hbody : ∀ i s, ∃ t s', body i s = ⟨t, .ok s'⟩) {i : Int} (s : σ) (hi : i ≤ max) :
    (forLoop max overflow cond step body i s).result = .error overflow := by
  fun_induction Exec.forLoop max overflow cond step body i s with
  | case1 i s hc ih =>
      obtain ⟨t, s', heq⟩ := hbody i s
      rw [heq, ok_bind]
      by_cases h : 0 < step ∧ i + step ≤ max
      · rw [dif_pos h]
        exact ih s' h h.2
      · rw [dif_neg h]
        rfl
  | case2 i s hc => exact absurd (hcond i hi) hc

/-- **The counting-loop rule.** If the condition lets exactly `n` iterations through, none of which
    advances the variable past `max`, and iteration `k` takes the state `f k` to `f (k + 1)` while
    emitting `tr k`, then the loop emits the `tr k` in order and ends in `f n`. -/
theorem forLoop_eq {i₀ : Int} {n : ℕ} (f : ℕ → σ) (tr : ℕ → List ω) (hstep : 0 < step)
    (hmax : i₀ + step * n ≤ max)
    (hcond : ∀ k ≤ n, cond (i₀ + step * k) = decide (k < n))
    (hbody : ∀ k < n, body (i₀ + step * k) (f k) = ⟨tr k, .ok (f (k + 1))⟩) :
    forLoop max overflow cond step body i₀ (f 0) = ⟨(List.range n).flatMap tr, .ok (f n)⟩ := by
  -- the induction runs on the iterations that remain
  have key : ∀ r k : ℕ, k + r = n →
      forLoop max overflow cond step body (i₀ + step * k) (f k)
        = ⟨(List.range' k r).flatMap tr, .ok (f n)⟩ := by
    intro r
    induction r with
    | zero =>
        intro k hk
        have hkn : k = n := by omega
        subst hkn
        exact forLoop_done (by rw [hcond k (le_refl k)]; simp)
    | succ r ih =>
        intro k hk
        have hlt : k < n := by omega
        have hadv : i₀ + step * (k + 1 : ℕ) = i₀ + step * k + step := by push_cast; ring
        have hle : step * ((k + 1 : ℕ) : Int) ≤ step * (n : Int) :=
          Int.mul_le_mul_of_nonneg_left (by omega) (le_of_lt hstep)
        rw [forLoop_next (by rw [hcond k (le_of_lt hlt)]; simpa using hlt) hstep (by omega),
          hbody k hlt, ok_bind, ← hadv, ih (k + 1) (by omega), List.range'_succ, List.flatMap_cons]
  have h0 := key n 0 (by omega)
  rw [← List.range_eq_range'] at h0
  simpa using h0

end Exec
