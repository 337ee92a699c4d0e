import CroniotWatering.Library.Lock

set_option autoImplicit false

/-! # Scripts of calls

A computation that makes calls, whatever a call is: which one it makes next, and what it comes to, may
depend on the values of those before. A script is interpreted by a computation for each call; what it
comes to is followed along the calls it makes, or proved from what is known of each value. -/

/-- A computation that makes calls `Call`, gets values `ν` and comes to a `β`. -/
inductive Script (Call ν β : Type) where
  | done (b : β)
  | call (c : Call) (k : ν → Script Call ν β)

namespace Script

variable {Call ν β γ : Type}

protected def bind : Script Call ν β → (β → Script Call ν γ) → Script Call ν γ
  | .done b, f => f b
  | .call c k, f => .call c fun v => (k v).bind f

instance : Monad (Script Call ν) where
  pure := .done
  bind := Script.bind

/-- Make one call. -/
def perform (c : Call) : Script Call ν ν := .call c .done

@[simp] theorem done_bind (b : β) (f : β → Script Call ν γ) : (.done b : Script Call ν β) >>= f = f b := rfl

@[simp] theorem call_bind (c : Call) (k : ν → Script Call ν β) (f : β → Script Call ν γ) :
    (.call c k : Script Call ν β) >>= f = .call c fun v => k v >>= f := rfl

/-! ## Interpretation -/

section

variable {m : Type → Type} [Monad m]

/-- The computation that makes each call by `f`. -/
def interpret (f : Call → m ν) : Script Call ν β → m β
  | .done b => pure b
  | .call c k => f c >>= fun v => (k v).interpret f

variable [LawfulMonad m] (f : Call → m ν)

theorem interpret_bind (x : Script Call ν β) (g : β → Script Call ν γ) :
    (x >>= g).interpret f = x.interpret f >>= fun b => (g b).interpret f := by
  induction x with
  | done b => simp [interpret]
  | call c k ih => simp only [call_bind, interpret, ih, bind_assoc]

theorem interpret_perform (c : Call) : (perform c).interpret f = f c := by
  simp [perform, interpret]

end

/-! ## What a script comes to -/

/-- If each call has a value that satisfies `P`, the script comes to one that satisfies `Q`. -/
inductive Ensures (P : Call → ν → Prop) (Q : β → Prop) : Script Call ν β → Prop
  | done {b : β} : Q b → Ensures P Q (.done b)
  | call {c : Call} {k : ν → Script Call ν β} :
      (∀ v, P c v → Ensures P Q (k v)) → Ensures P Q (.call c k)

theorem Ensures.bind {P : Call → ν → Prop} {R : β → Prop} {Q : γ → Prop} {x : Script Call ν β}
    {f : β → Script Call ν γ} (hx : x.Ensures P R) (hf : ∀ b, R b → (f b).Ensures P Q) :
    (x >>= f).Ensures P Q := by
  induction hx with
  | done hb => exact hf _ hb
  | call _ ih => exact .call ih

theorem ensures_perform (P : Call → ν → Prop) (c : Call) : (perform c).Ensures P (P c) :=
  .call fun _ hv => .done hv

/-- What a script comes to if a call always has the same value. -/
def eval (f : Call → ν) : Script Call ν β → β
  | .done b => b
  | .call c k => (k (f c)).eval f

/-- The calls it makes on the way. -/
def calls (f : Call → ν) : Script Call ν β → List Call
  | .done _ => []
  | .call c k => c :: (k (f c)).calls f

theorem calls_bind (f : Call → ν) (x : Script Call ν β) (g : β → Script Call ν γ) :
    (x >>= g).calls f = x.calls f ++ (g (x.eval f)).calls f := by
  induction x with
  | done b => rfl
  | call c k ih => rw [call_bind, calls, ih, calls, List.cons_append, eval]

/-! ## The calls of a script -/

/-- The calls from one point of a script to another. -/
inductive Path {ε : Type} (seen : ε → Call × ν) : Script Call ν β → List ε → Script Call ν β → Prop
  | refl (x : Script Call ν β) : Path seen x [] x
  | step {c : Call} {k : ν → Script Call ν β} {e : ε} {v : ν} {es : List ε} {y : Script Call ν β} :
      seen e = (c, v) → Path seen (k v) es y → Path seen (.call c k) (e :: es) y

namespace Path

variable {ε : Type} {seen : ε → Call × ν} {x y : Script Call ν β} {es : List ε}

theorem snoc {c : Call} {k : ν → Script Call ν β} {e : ε} {v : ν} (h : Path seen x es (.call c k))
    (he : seen e = (c, v)) : Path seen x (es ++ [e]) (k v) := by
  generalize hz : Script.call c k = z at h
  induction h with
  | refl =>
      subst hz
      exact .step he (.refl _)
  | step hseen _ ih => exact .step hseen (ih hz)

theorem ensures {P : Call → ν → Prop} {Q : β → Prop} (h : Path seen x es y) (hx : x.Ensures P Q)
    (hes : ∀ e ∈ es, P (seen e).1 (seen e).2) : y.Ensures P Q := by
  induction h with
  | refl => exact hx
  | step hseen _ ih =>
      have hv := hes _ List.mem_cons_self
      rw [hseen] at hv
      cases hx with
      | call hk => exact ih (hk _ hv) fun e he => hes e (List.mem_cons_of_mem _ he)

/-- Over computations that come to these values on these replies, the script gets to the same point. -/
theorem run_interpret {ω ρ : Type} {f : Call → Dialogue ω ρ ν} {requests : ε → List ω}
    {replies : ε → List ρ} (h : Path seen x es y)
    (hes : ∀ e ∈ es, ∀ rest, (f (seen e).1).run (replies e ++ rest)
      = ⟨requests e, some ((seen e).2, rest)⟩) (rest : List ρ) :
    (x.interpret f).run (es.flatMap replies ++ rest)
      = ((y.interpret f).run rest).after (es.flatMap requests) := by
  induction h with
  | refl => rfl
  | @step c k e v es y hseen _ ih =>
      have hcall := hes e List.mem_cons_self (es.flatMap replies ++ rest)
      rw [hseen] at hcall
      rw [List.flatMap_cons, List.append_assoc, interpret, Dialogue.run_bind_of_some hcall,
        ih fun e he => hes e (List.mem_cons_of_mem _ he), Progress.after_after, List.flatMap_cons]

end Path

theorem eq_call_of_calls {f : Call → ν} {x : Script Call ν β} {c : Call} {cs : List Call}
    (h : x.calls f = c :: cs) : ∃ k, x = .call c k ∧ (k (f c)).calls f = cs := by
  cases x with
  | done b => cases h
  | call c' k =>
      cases h
      exact ⟨k, rfl, rfl⟩

theorem path_calls (f : Call → ν) (x : Script Call ν β) :
    Path (fun c => (c, f c)) x (x.calls f) (.done (x.eval f)) := by
  induction x with
  | done b => exact .refl _
  | call c k ih => exact .step rfl (ih (f c))

/-- Over computations that come to the value of each call, the script comes to what it comes to with them. -/
theorem run_calls {ω ρ : Type} {f : Call → Dialogue ω ρ ν} {value : Call → ν} {requests : Call → List ω}
    {replies : Call → List ρ} (hf : ∀ c rest, (f c).run (replies c ++ rest)
      = ⟨requests c, some (value c, rest)⟩) (x : Script Call ν β) (rest : List ρ) :
    (x.interpret f).run ((x.calls value).flatMap replies ++ rest)
      = ⟨(x.calls value).flatMap requests, some (x.eval value, rest)⟩ := by
  rw [(path_calls value x).run_interpret fun c _ => hf c]
  simp [interpret, Progress.after]

end Script
