import CroniotWatering.Library.Runs

set_option autoImplicit false

/-! # Monitors

A monitor is a partial automaton over actions: `next p a` is the phase after action `a`, or `none` if
`a` is not allowed in phase `p`. A list of actions conforms if the monitor never gets stuck on it.

If the code for every message conforms from every resting phase, then so does what the task does in
every run, under any interleaving, and the monitor's phase is at every moment a function of the
task's own history. A property of that history then needs only an induction over the monitor's
transitions. -/

namespace Monitor

variable {Phase Act : Type} (next : Phase → Act → Option Phase)

/-- The phase after a list of actions, in the order they are performed. -/
def run : Phase → List Act → Option Phase
  | p, [] => some p
  | p, a :: as => (next p a).bind fun p' => run p' as

/-- The phase after a history of actions, newest first. -/
def track (p₀ : Phase) : List Act → Option Phase
  | [] => some p₀
  | a :: as => (track p₀ as).bind fun p => next p a

variable {next}

@[simp] theorem run_nil (p : Phase) : run next p [] = some p := rfl

theorem run_cons (p : Phase) (a : Act) (as : List Act) :
    run next p (a :: as) = (next p a).bind fun p' => run next p' as := rfl

theorem run_append (p : Phase) (as bs : List Act) :
    run next p (as ++ bs) = (run next p as).bind fun p' => run next p' bs := by
  induction as generalizing p with
  | nil => rfl
  | cons a as ih =>
      rw [List.cons_append, run_cons, run_cons, Option.bind_assoc]
      exact congrArg _ (funext fun p' => ih p')

theorem run_append_of_eq {p p' : Phase} {as : List Act} (h : run next p as = some p')
    (bs : List Act) : run next p (as ++ bs) = run next p' bs := by
  rw [run_append, h]
  rfl

/-- A counted repetition moves the monitor along `f`. -/
theorem run_flatMap_range (f : ℕ → Phase) (tr : ℕ → List Act) (n : ℕ)
    (h : ∀ k < n, run next (f k) (tr k) = some (f (k + 1))) :
    run next (f 0) ((List.range n).flatMap tr) = some (f n) := by
  induction n with
  | zero => rfl
  | succ n ih =>
      rw [List.range_succ, List.flatMap_append,
        run_append_of_eq (ih fun k hk => h k (Nat.lt_succ_of_lt hk))]
      simpa using h n (Nat.lt_succ_self n)

/-- **Monitor invariant.** What holds at the start and is preserved by every transition holds of
    every tracked history. -/
theorem track_induct {J : Phase → List Act → Prop} {p₀ : Phase} (h₀ : J p₀ [])
    (hnext : ∀ p p' a as, J p as → next p a = some p' → J p' (a :: as))
    {as : List Act} {p : Phase} (h : track next p₀ as = some p) : J p as := by
  induction as generalizing p with
  | nil =>
      cases h
      exact h₀
  | cons a as ih =>
      obtain ⟨p', htrack, hstep⟩ := Option.bind_eq_some_iff.1 h
      exact hnext p' p a as (ih htrack) hstep

/-! ## Monitoring concrete actions by what they stand for

Some actions stand for an operation of an abstract automaton, some are of no concern to it; any other
action is not allowed. -/

section Classified

variable {Op : Type} {abs : Phase → Op → Option Phase} {f : Act → Option Op} {ignored : Act → Bool}

/-- The automaton `abs`, over concrete actions. -/
def classified (abs : Phase → Op → Option Phase) (f : Act → Option Op) (ignored : Act → Bool)
    (p : Phase) (a : Act) : Option Phase :=
  match f a with
  | some op => abs p op
  | none => if ignored a then some p else none

/-- A concrete history is tracked to where the operations in it lead. -/
theorem track_of_classified {p₀ p : Phase} {as : List Act}
    (h : track (classified abs f ignored) p₀ as = some p) :
    track abs p₀ (as.filterMap f) = some p := by
  induction as generalizing p with
  | nil => exact h
  | cons a as ih =>
      obtain ⟨p', htrack, hstep⟩ := Option.bind_eq_some_iff.1 h
      unfold classified at hstep
      cases hfa : f a with
      | none =>
          rw [hfa] at hstep
          have hp : p' = p := by
            simp only [Option.ite_none_right_eq_some, Option.some.injEq] at hstep
            exact hstep.2
          rw [List.filterMap_cons_none hfa, ← hp]
          exact ih htrack
      | some op =>
          rw [hfa] at hstep
          rw [List.filterMap_cons_some hfa]
          exact Option.bind_eq_some_iff.2 ⟨p', ih htrack, hstep⟩

/-- Code whose other actions are all ignored runs as its operations do. -/
theorem run_classified {p : Phase} {as : List Act} (h : ∀ a ∈ as, f a = none → ignored a = true) :
    run (classified abs f ignored) p as = run abs p (as.filterMap f) := by
  induction as generalizing p with
  | nil => rfl
  | cons a as ih =>
      obtain ⟨ha, has⟩ := List.forall_mem_cons.1 h
      cases hfa : f a with
      | none =>
          have hstay : classified abs f ignored p a = some p := by
            simp only [classified, hfa, ha hfa, if_true]
          rw [List.filterMap_cons_none hfa, run_cons, hstay]
          exact ih has
      | some op =>
          have hstep : classified abs f ignored p a = abs p op := by
            simp only [classified, hfa]
          rw [List.filterMap_cons_some hfa, run_cons, run_cons, hstep]
          exact congrArg _ (funext fun p' => ih has)

end Classified

end Monitor

namespace TaskSystem

variable {Tid Msg Act Store Phase : Type} [DecidableEq Tid]

namespace System

variable {S : System Tid Msg Act Store} {σ₀ : Store}

/-- Task `t` conforms to a monitor: from a resting phase, handling any message is allowed throughout
    and ends in the resting phase `settle` names. -/
structure Conforms (S : System Tid Msg Act Store) (t : Tid) (next : Phase → Act → Option Phase)
    (Rest : Phase → Prop) (settle : Phase → Msg → Phase) : Prop where
  handle : ∀ p, Rest p → ∀ m, Monitor.run next p ((S.task t).handle m) = some (settle p m)
  rest : ∀ p, Rest p → ∀ m, Rest (settle p m)

/-- The resting phase after a list of messages, newest first. -/
def settled (settle : Phase → Msg → Phase) (p₀ : Phase) (ms : List Msg) : Phase :=
  ms.foldr (fun m p => settle p m) p₀

/-- **Conforming tasks stay on their monitor in every run.** The task's history is tracked to a phase
    from which what it still has to do leads to the resting phase its messages call for; what it has
    done for its latest message alone leads to that phase from a resting one. -/
theorem Run.monitored {t : Tid} {next : Phase → Act → Option Phase} {Rest : Phase → Prop}
    {settle : Phase → Msg → Phase} (hconf : S.Conforms t next Rest settle) {p₀ : Phase}
    (hp₀ : Rest p₀) {h : List (Event Tid Msg Act)} {s : State Tid Msg Act Store}
    (hrun : S.Run σ₀ h s) :
    Rest (settled settle p₀ (received t h)) ∧
    ∃ p, Monitor.track next p₀ (acts t h) = some p ∧
      Monitor.run next p (s.thread t).remaining = some (settled settle p₀ (received t h)) ∧
      ∃ q, Rest q ∧ Monitor.track next q (progress t h) = some p := by
  induction hrun with
  | refl => exact ⟨hp₀, p₀, rfl, rfl, p₀, hp₀, rfl⟩
  | @snoc h s₁ s₂ e _ hstep ih =>
      obtain ⟨hrest, p, htrack, hrem, q, hq, hcurrent⟩ := ih
      have hth := hstep.threadStep t
      generalize s₁.thread t = x at hth hrem
      generalize s₂.thread t = y at hth
      cases hth with
      | other hne =>
          obtain ⟨hacts, hrec, hprogress⟩ := acts_of_owner_ne hne h
          rw [hacts, hrec, hprogress]
          exact ⟨hrest, p, htrack, hrem, q, hq, hcurrent⟩
      | start | finish => exact ⟨hrest, p, htrack, hrem, q, hq, hcurrent⟩
      | receive m =>
          -- waiting, the monitor is in the resting phase itself
          have hp : p = settled settle p₀ (received t h) := Option.some.inj hrem
          subst hp
          simp only [received, progress, if_true]
          exact ⟨hconf.rest _ hrest m, _, htrack, hconf.handle _ hrest m, _, hrest, rfl⟩
      | act m a todo =>
          obtain ⟨p', hnext, hrem⟩ := Option.bind_eq_some_iff.1 hrem
          refine ⟨hrest, p', ?_, hrem, q, hq, ?_⟩
          · simp only [acts, if_true]
            exact Option.bind_eq_some_iff.2 ⟨p, htrack, hnext⟩
          · simp only [progress, if_true]
            exact Option.bind_eq_some_iff.2 ⟨p, hcurrent, hnext⟩

end System

end TaskSystem
