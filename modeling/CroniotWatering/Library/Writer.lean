import CroniotWatering.Library.Runs

set_option autoImplicit false

/-! # Writers

A program that performs actions on the store from outside of the tasks, one after the other. Before,
between and after them the tasks go on. A part of the store that no task writes but some that wait is the
writer's alone, as long as these take no message. -/

namespace TaskSystem

namespace System

variable {Tid Msg Act Store β : Type} [DecidableEq Tid]

/-- A call of a writer during a run, with the events in between (newest first). -/
inductive WriteCall (S : System Tid Msg Act Store) : State Tid Msg Act Store → List Act →
    List (Event Tid Msg Act) → State Tid Msg Act Store → Prop
  | ret (s : State Tid Msg Act Store) : WriteCall S s [] [] s
  | write {s s' : State Tid Msg Act Store} {a : Act} {as : List Act} {ls : List (Event Tid Msg Act)} :
      WriteCall S { s with store := S.apply a s.store } as ls s' → WriteCall S s (a :: as) ls s'
  | step {s s₁ s' : State Tid Msg Act Store} {e : Event Tid Msg Act} {as : List Act}
      {ls : List (Event Tid Msg Act)} :
      S.Step s e s₁ → WriteCall S s₁ as ls s' → WriteCall S s as (ls ++ [e]) s'

variable {S : System Tid Msg Act Store}

/-- The writer alone. -/
theorem writeCall_alone (s : State Tid Msg Act Store) (as : List Act) :
    S.WriteCall s as [] { s with store := as.foldl (fun σ a => S.apply a σ) s.store } := by
  induction as generalizing s with
  | nil => exact .ret s
  | cons a as ih => exact .write (ih _)

/-! ## What is still to be done -/

/-- What the main thread and the tasks have still to do is what their code prescribes. -/
structure Sound (S : System Tid Msg Act Store) (s : State Tid Msg Act Store) : Prop where
  boot : ∀ t a, BootOp.construct t a ∈ s.boot → S.Prescribes t a
  remaining : ∀ t, ∀ a ∈ (s.thread t).remaining, S.Prescribes t a

theorem Run.sound {σ₀ : Store} {h : List (Event Tid Msg Act)} {s : State Tid Msg Act Store}
    (hrun : S.Run σ₀ h s) : S.Sound s where
  boot := by
    intro t a hmem
    obtain ⟨t', -, hop⟩ := List.mem_flatMap.1 ((Run.boot_suffix hrun).subset hmem)
    have htid : t = t' := tid_of_mem_construct hop
    subst htid
    simp only [List.mem_append, List.mem_map, BootOp.construct.injEq, true_and, exists_eq_right,
      List.mem_singleton, reduceCtorEq, or_false] at hop
    exact Or.inl hop
  remaining := by
    intro t a ha
    have hall := Run.acts_append_remaining hrun t
    have hmem : a ∈ (received t h).reverse.flatMap (S.task t).handle := by
      rw [← hall]
      exact List.mem_append_right _ ha
    obtain ⟨m, -, hm⟩ := List.mem_flatMap.1 hmem
    exact Or.inr ⟨m, hm⟩

theorem Step.sound {s s' : State Tid Msg Act Store} {e : Event Tid Msg Act} (hstep : S.Step s e s')
    (hsound : S.Sound s) : S.Sound s' where
  boot := by
    intro t a hmem
    rcases hstep.boot_cases with ⟨op, hb, -⟩ | ⟨hb, -⟩
    · exact hsound.boot t a (by simp [hb, hmem])
    · exact hsound.boot t a (by rwa [← hb])
  remaining := by
    intro t a ha
    have hthread := hstep.threadStep t
    have hold := hsound.remaining t
    generalize s.thread t = x at hthread hold
    generalize s'.thread t = y at hthread ha
    cases hthread with
    | other => exact hold a ha
    | start | finish => cases ha
    | receive m => exact Or.inr ⟨m, ha⟩
    | act m a' todo => exact hold a (List.mem_cons_of_mem a' ha)

/-! ## The writer's own -/

/-- The tasks of `Q` alone change the part of the store that `view` shows, and `upd` says how. -/
structure OwnedBy (S : System Tid Msg Act Store) (Q : Tid → Prop) (view : Store → β)
    (upd : Act → β → β) : Prop where
  view_apply : ∀ a σ, view (S.apply a σ) = upd a (view σ)
  frame : ∀ t, ¬ Q t → ∀ a, S.Prescribes t a → ∀ b, upd a b = b

/-- The tasks of `Q` are constructed and wait. -/
def Idle (Q : Tid → Prop) (s : State Tid Msg Act Store) : Prop :=
  ∀ t, Q t → s.thread t = .waiting ∧ Constructed s t

variable {Q : Tid → Prop} {view : Store → β} {upd : Act → β → β}

/-- A step in which none of them takes a message leaves them idle, and what they own as it was. -/
theorem Step.idle {s s' : State Tid Msg Act Store} {e : Event Tid Msg Act} (hstep : S.Step s e s')
    (hown : S.OwnedBy Q view upd) (hsound : S.Sound s) (hidle : Idle Q s)
    (hquiet : ∀ t, Q t → ∀ m, e ≠ .receive t m) :
    Idle Q s' ∧ view s'.store = view s.store := by
  refine ⟨fun t ht => ⟨?_, Steps.constructed (Steps.refl.snoc hstep) (hidle t ht).2⟩, ?_⟩
  · have hthread := hstep.threadStep t
    rw [(hidle t ht).1] at hthread
    generalize s'.thread t = y at hthread
    cases hthread with
    | other => rfl
    | receive m => exact absurd rfl (hquiet t ht m)
  · cases hstep with
    | start | receive | finish => rfl
    | @construct t a _ _ hb =>
        have hmem : BootOp.construct t a ∈ s.boot := by simp [hb]
        have hnot : ¬ Q t := fun ht => (hidle t ht).2 a hmem
        exact (hown.view_apply a _).trans (hown.frame t hnot a (hsound.boot t a hmem) _)
    | @act t m a todo _ hr =>
        have hnot : ¬ Q t := by
          intro ht
          have hwaiting := (hidle t ht).1
          simp [hr] at hwaiting
        have ha : S.Prescribes t a := hsound.remaining t a (by simp [hr, Thread.remaining])
        exact (hown.view_apply a _).trans (hown.frame t hnot a ha _)

/-- **A writer has to itself what idle tasks own**, if none of them takes a message meanwhile. -/
theorem WriteCall.view_eq (hown : S.OwnedBy Q view upd) {s s' : State Tid Msg Act Store} {as : List Act}
    {ls : List (Event Tid Msg Act)} (hcall : S.WriteCall s as ls s') (hsound : S.Sound s)
    (hidle : Idle Q s) (hquiet : ∀ t, Q t → ∀ m, .receive t m ∉ ls) :
    view s'.store = as.foldl (fun b a => upd a b) (view s.store) := by
  induction hcall with
  | ret => rfl
  | write _ ih =>
      rw [ih ⟨hsound.boot, hsound.remaining⟩ hidle hquiet, hown.view_apply]
      rfl
  | @step s s₁ s' e as ls hstep _ ih =>
      have hone : ∀ t, Q t → ∀ m, e ≠ .receive t m := by
        rintro t ht m rfl
        exact hquiet t ht m (by simp)
      obtain ⟨hidle₁, hview⟩ := hstep.idle hown hsound hidle hone
      rw [← hview]
      refine ih (hstep.sound hsound) hidle₁ fun t ht m hmem => ?_
      exact hquiet t ht m (List.mem_append_left _ hmem)

end System

end TaskSystem
