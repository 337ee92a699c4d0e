import CroniotWatering.Library.Runs
import Mathlib.Data.List.Induction

set_option autoImplicit false

/-! # Runs that exist

Schedules of a task system: the main thread runs to its end, and a task handles a message with nobody
in between. They show which states can be reached. -/

namespace TaskSystem

namespace System

variable {Tid Msg Act Store : Type} [DecidableEq Tid] (S : System Tid Msg Act Store)

/-- The store after some actions, in the order they are performed. -/
def performed (as : List Act) (σ : Store) : Store := as.foldl (fun σ a => S.apply a σ) σ

omit [DecidableEq Tid] in
theorem performed_append (as bs : List Act) (σ : Store) :
    S.performed (as ++ bs) σ = S.performed bs (S.performed as σ) := List.foldl_append ..

variable {S}

theorem Steps.single {s s' : State Tid Msg Act Store} {e : Event Tid Msg Act}
    (hstep : S.Step s e s') : S.Steps s [e] s' := Steps.refl.snoc hstep

variable {boot : List (BootOp Tid Act)} {thread : Tid → Thread Msg Act} {store : Store} {t : Tid}
  {m : Msg}

/-! ## Handling a message -/

/-- The events of a task taking a message and performing some actions, newest first. -/
def beginEvents (t : Tid) (m : Msg) (as : List Act) : List (Event Tid Msg Act) :=
  (as.map (Event.act t m)).reverse ++ [.receive t m]

/-- The events of a task handling a message to the end. -/
def serveEvents (t : Tid) (m : Msg) (as : List Act) : List (Event Tid Msg Act) :=
  .finish t m :: beginEvents t m as

/-- A task that is handling a message performs its next actions, if none of them halts. -/
theorem Steps.perform {as todo : List Act} (hr : thread t = .running m (as ++ todo))
    (hquiet : ∀ a ∈ as, S.halts a = false) :
    S.Steps ⟨boot, thread, store, false⟩ (as.map (Event.act t m)).reverse
      ⟨boot, Function.update thread t (.running m todo), S.performed as store, false⟩ := by
  induction as generalizing thread store with
  | nil =>
      have hsame : Function.update thread t (.running m todo) = thread :=
        Function.update_eq_self_iff.2 hr.symm
      rw [hsame]
      exact .refl
  | cons a as ih =>
      obtain ⟨ha, has⟩ := List.forall_mem_cons.1 hquiet
      have hstep : S.Step ⟨boot, thread, store, false⟩ (.act t m a)
          ⟨boot, Function.update thread t (.running m (as ++ todo)), S.apply a store, S.halts a⟩ :=
        Step.act rfl hr
      rw [ha] at hstep
      have hrest := @ih _ (S.apply a store)
        (Function.update_self t (.running m (as ++ todo)) thread) has
      rw [Function.update_idem] at hrest
      rw [List.map_cons, List.reverse_cons]
      exact (Steps.single hstep).trans hrest

/-- A waiting task takes a message and performs the first part of its code. -/
theorem Steps.begin {as todo : List Act} (hw : thread t = .waiting)
    (hm : (S.task t).handle m = as ++ todo) (hquiet : ∀ a ∈ as, S.halts a = false) :
    S.Steps ⟨boot, thread, store, false⟩ (beginEvents t m as)
      ⟨boot, Function.update thread t (.running m todo), S.performed as store, false⟩ := by
  have hreceive : S.Step ⟨boot, thread, store, false⟩ (.receive t m)
      ⟨boot, Function.update thread t (.running m (as ++ todo)), store, false⟩ := by
    rw [← hm]
    exact Step.receive m rfl hw
  have hperform := @Steps.perform _ _ _ _ _ S boot _ store _ _ _ _
    (Function.update_self t (.running m (as ++ todo)) thread) hquiet
  rw [Function.update_idem] at hperform
  exact (Steps.single hreceive).trans hperform

/-- A waiting task handles a whole message and waits again. -/
theorem Steps.serve (m : Msg) (hw : thread t = .waiting)
    (hquiet : ∀ a ∈ (S.task t).handle m, S.halts a = false) :
    S.Steps ⟨boot, thread, store, false⟩ (serveEvents t m ((S.task t).handle m))
      ⟨boot, thread, S.performed ((S.task t).handle m) store, false⟩ := by
  have hbegin : S.Steps ⟨boot, thread, store, false⟩ _
      ⟨boot, Function.update thread t (.running m []), S.performed ((S.task t).handle m) store,
        false⟩ := Steps.begin hw (List.append_nil _).symm hquiet
  have hfinish : S.Step
      ⟨boot, Function.update thread t (.running m []), S.performed ((S.task t).handle m) store, false⟩
      (.finish t m) ⟨boot, _, S.performed ((S.task t).handle m) store, false⟩ :=
    Step.finish rfl (Function.update_self ..)
  have hsame : Function.update thread t .waiting = thread :=
    Function.update_eq_self_iff.2 hw.symm
  rw [Function.update_idem, hsame] at hfinish
  exact hbegin.snoc hfinish

omit [DecidableEq Tid] in
theorem beginEvents_concat (t : Tid) (m : Msg) (as : List Act) (a : Act) :
    beginEvents t m (as ++ [a]) = .act t m a :: beginEvents t m as := by
  simp [beginEvents]

/-- What beginning a message adds to a history. -/
theorem acts_beginEvents (t : Tid) (m : Msg) (as : List Act) :
    acts t (beginEvents t m as) = as.reverse := by
  induction as using List.reverseRecOn with
  | nil => rfl
  | append_singleton as a ih =>
      rw [beginEvents_concat, List.reverse_concat, ← ih]
      exact if_pos rfl

theorem received_beginEvents (t t' : Tid) (m : Msg) (as : List Act) :
    received t' (beginEvents t m as) = if t = t' then [m] else [] := by
  induction as using List.reverseRecOn with
  | nil => rfl
  | append_singleton as a ih =>
      rw [beginEvents_concat]
      exact ih

theorem received_serveEvents (t t' : Tid) (m : Msg) (as : List Act)
    (h : List (Event Tid Msg Act)) :
    received t' (serveEvents t m as ++ h) = (if t = t' then [m] else []) ++ received t' h := by
  rw [received_append, ← received_beginEvents t t' m as]
  rfl

theorem progress_beginEvents (t : Tid) (m : Msg) (as : List Act) (h : List (Event Tid Msg Act)) :
    progress t (beginEvents t m as ++ h) = as.reverse := by
  induction as using List.reverseRecOn with
  | nil => exact if_pos rfl
  | append_singleton as a ih =>
      rw [beginEvents_concat, List.reverse_concat, ← ih]
      exact if_pos rfl

/-! ## Booting -/

/-- The main thread constructs and starts one task. -/
theorem Steps.bootTask (as : List Act) (ht : thread t = .absent) :
    ∃ ls, S.Steps ⟨as.map (.construct t) ++ .start t :: boot, thread, store, false⟩ ls
        ⟨boot, Function.update thread t .waiting, S.performed as store, false⟩ ∧
      ∀ t', acts t' ls = [] ∧ received t' ls = [] := by
  induction as generalizing store with
  | nil => exact ⟨[.start t], Steps.single (Step.start rfl rfl ht), fun t' => ⟨rfl, rfl⟩⟩
  | cons a as ih =>
      obtain ⟨ls, hls, hquiet⟩ := @ih (S.apply a store)
      have hstep : S.Step ⟨(a :: as).map (.construct t) ++ .start t :: boot, thread, store, false⟩
          (.construct t a)
          ⟨as.map (.construct t) ++ .start t :: boot, thread, S.apply a store, false⟩ :=
        Step.construct rfl rfl
      refine ⟨ls ++ [.construct t a], (Steps.single hstep).trans hls, fun t' => ?_⟩
      obtain ⟨hacts, hrec⟩ := hquiet t'
      rw [acts_append, received_append, hacts, hrec]
      exact ⟨rfl, rfl⟩

/-- The main thread constructs and starts the tasks one after the other. -/
theorem Steps.bootTasks (ts : List Tid) (hnd : ts.Nodup) (habs : ∀ t ∈ ts, thread t = .absent) :
    ∃ ls, S.Steps
        ⟨ts.flatMap fun t => (S.task t).construct.map (.construct t) ++ [.start t],
          thread, store, false⟩ ls
        ⟨[], fun t => if t ∈ ts then .waiting else thread t,
          S.performed (ts.flatMap fun t => (S.task t).construct) store, false⟩ ∧
      ∀ t', acts t' ls = [] ∧ received t' ls = [] := by
  induction ts generalizing thread store with
  | nil =>
      have hthread : (fun t => if t ∈ ([] : List Tid) then .waiting else thread t) = thread := by
        funext t
        simp
      rw [hthread]
      exact ⟨[], .refl, fun _ => ⟨rfl, rfl⟩⟩
  | cons t ts ih =>
      obtain ⟨ht, hts⟩ := List.nodup_cons.1 hnd
      obtain ⟨ha, has⟩ := List.forall_mem_cons.1 habs
      have habs' : ∀ t' ∈ ts, Function.update thread t .waiting t' = .absent := by
        intro t' ht'
        have hne : t' ≠ t := by
          rintro rfl
          exact ht ht'
        rw [Function.update_of_ne hne]
        exact has t' ht'
      obtain ⟨ls, hls, hquiet⟩ := @Steps.bootTask _ _ _ _ _ S
        (ts.flatMap fun t => (S.task t).construct.map (.construct t) ++ [.start t]) thread store t
        (S.task t).construct ha
      obtain ⟨ls', hls', hquiet'⟩ := @ih _ (S.performed (S.task t).construct store) hts habs'
      have hthread : (fun t' => if t' ∈ ts then .waiting else Function.update thread t .waiting t')
          = fun t' => if t' ∈ t :: ts then .waiting else thread t' := by
        funext t'
        by_cases htt : t' = t
        · subst htt
          simp
        · simp [htt]
      rw [hthread, ← performed_append] at hls'
      refine ⟨ls' ++ ls, ?_, fun t' => ?_⟩
      · rw [List.flatMap_cons, List.flatMap_cons, List.append_assoc]
        exact hls.trans hls'
      · rw [acts_append, received_append, (hquiet t').1, (hquiet t').2, (hquiet' t').1,
          (hquiet' t').2]
        exact ⟨rfl, rfl⟩

/-- **Booting.** From power-up, all tasks are constructed and come to wait. -/
theorem Run.booted (hnd : S.order.Nodup) (σ₀ : Store) :
    ∃ h, S.Run σ₀ h
        ⟨[], fun t => if t ∈ S.order then .waiting else .absent,
          S.performed (S.order.flatMap fun t => (S.task t).construct) σ₀, false⟩ ∧
      ∀ t, acts t h = [] ∧ received t h = [] :=
  Steps.bootTasks S.order hnd fun _ _ => rfl

end System

end TaskSystem
