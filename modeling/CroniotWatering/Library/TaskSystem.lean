import Mathlib.Logic.Function.Basic
import Mathlib.Data.List.Basic
import Mathlib.Data.List.Nodup
import Mathlib.Data.List.TakeWhile

set_option autoImplicit false

/-! # Queue-driven tasks over a shared store

Several tasks share a store. A main thread constructs them one after the other, in a fixed order, and
starts each; from then on a started task takes messages one at a time and handles each to the end.
Every action of every task is one atomic step and the steps interleave freely, with each other and
with the constructors that have yet to run. Which messages arrive, and when, is not constrained. An
action may halt the whole system.

A run is recorded by its events, newest first, so that "since the last ..." is a recursion on the
history. -/

namespace TaskSystem

/-- A task: the actions of its constructor, and those of handling a message. -/
structure Task (Msg Act : Type) where
  construct : List Act
  handle : Msg → List Act

/-- A set of tasks, the order the main thread constructs them in, and what an action does to the
    store and to the system. -/
structure System (Tid Msg Act Store : Type) where
  task : Tid → Task Msg Act
  order : List Tid
  apply : Act → Store → Store
  halts : Act → Bool

/-- One step of the main thread. -/
inductive BootOp (Tid Act : Type) where
  | construct (t : Tid) (a : Act)
  | start (t : Tid)

/-- What a task is doing: not started yet, waiting for a message, or handling one with the actions
    `todo` still to perform. -/
inductive Thread (Msg Act : Type) where
  | absent
  | waiting
  | running (m : Msg) (todo : List Act)

structure State (Tid Msg Act Store : Type) where
  boot : List (BootOp Tid Act)
  thread : Tid → Thread Msg Act
  store : Store
  halted : Bool

inductive Event (Tid Msg Act : Type) where
  | construct (t : Tid) (a : Act)
  | start (t : Tid)
  | receive (t : Tid) (m : Msg)
  | act (t : Tid) (m : Msg) (a : Act)
  | finish (t : Tid) (m : Msg)

variable {Tid Msg Act Store : Type}

/-- The task whose thread an event belongs to; the constructors run on the main thread. -/
def Event.owner : Event Tid Msg Act → Option Tid
  | .construct _ _ => none
  | .start t | .receive t _ | .act t _ _ | .finish t _ => some t

/-- The task a step of the main thread works on. -/
def BootOp.tid : BootOp Tid Act → Tid
  | .construct t _ => t
  | .start t => t

/-- The actions a task still has to perform for its current message. -/
def Thread.remaining : Thread Msg Act → List Act
  | .running _ todo => todo
  | _ => []

namespace System

variable (S : System Tid Msg Act Store)

/-- The main thread's program. -/
def bootProgram : List (BootOp Tid Act) :=
  S.order.flatMap fun t => (S.task t).construct.map (.construct t) ++ [.start t]

def initial (σ₀ : Store) : State Tid Msg Act Store :=
  { boot := S.bootProgram, thread := fun _ => .absent, store := σ₀, halted := false }

variable [DecidableEq Tid]

/-- One atomic step. -/
inductive Step : State Tid Msg Act Store → Event Tid Msg Act → State Tid Msg Act Store → Prop
  | construct {s : State Tid Msg Act Store} {t : Tid} {a : Act} {rest : List (BootOp Tid Act)} :
      s.halted = false → s.boot = .construct t a :: rest →
      Step s (.construct t a) { s with boot := rest, store := S.apply a s.store }
  | start {s : State Tid Msg Act Store} {t : Tid} {rest : List (BootOp Tid Act)} :
      s.halted = false → s.boot = .start t :: rest → s.thread t = .absent →
      Step s (.start t) { s with boot := rest, thread := Function.update s.thread t .waiting }
  | receive {s : State Tid Msg Act Store} {t : Tid} (m : Msg) :
      s.halted = false → s.thread t = .waiting →
      Step s (.receive t m)
        { s with thread := Function.update s.thread t (.running m ((S.task t).handle m)) }
  | act {s : State Tid Msg Act Store} {t : Tid} {m : Msg} {a : Act} {todo : List Act} :
      s.halted = false → s.thread t = .running m (a :: todo) →
      Step s (.act t m a)
        { s with
          thread := Function.update s.thread t (.running m todo)
          store := S.apply a s.store
          halted := S.halts a }
  | finish {s : State Tid Msg Act Store} {t : Tid} {m : Msg} :
      s.halted = false → s.thread t = .running m [] →
      Step s (.finish t m) { s with thread := Function.update s.thread t .waiting }

/-- Any number of steps from `s`, with their events newest first. -/
inductive Steps (s : State Tid Msg Act Store) :
    List (Event Tid Msg Act) → State Tid Msg Act Store → Prop
  | refl : Steps s [] s
  | snoc {h : List (Event Tid Msg Act)} {s' s'' : State Tid Msg Act Store} {e : Event Tid Msg Act} :
      Steps s h s' → S.Step s' e s'' → Steps s (e :: h) s''

/-- A run from power-up, with `σ₀` whatever the store then holds. -/
def Run (σ₀ : Store) (h : List (Event Tid Msg Act)) (s : State Tid Msg Act Store) : Prop :=
  S.Steps (S.initial σ₀) h s

/-- A step as one task sees it: another thread moved, or it did one of its four moves itself. -/
inductive ThreadStep (t : Tid) : Thread Msg Act → Event Tid Msg Act → Thread Msg Act → Prop
  | other {x : Thread Msg Act} {e : Event Tid Msg Act} : e.owner ≠ some t → ThreadStep t x e x
  | start : ThreadStep t .absent (.start t) .waiting
  | receive (m : Msg) : ThreadStep t .waiting (.receive t m) (.running m ((S.task t).handle m))
  | act (m : Msg) (a : Act) (todo : List Act) :
      ThreadStep t (.running m (a :: todo)) (.act t m a) (.running m todo)
  | finish (m : Msg) : ThreadStep t (.running m []) (.finish t m) .waiting

variable {S}

theorem Step.threadStep {s s' : State Tid Msg Act Store} {e : Event Tid Msg Act}
    (hstep : S.Step s e s') (t : Tid) : S.ThreadStep t (s.thread t) e (s'.thread t) := by
  cases hstep with
  | construct hh hb => exact .other nofun
  | @start t' _ hh _ hx | @receive t' _ hh hx | @act t' _ _ _ hh hx | @finish t' _ hh hx =>
      by_cases htt : t' = t
      · subst htt
        simp only [Function.update_self, hx]
        constructor
      · simp only [Function.update_of_ne (Ne.symm htt)]
        exact .other fun heq => htt (Option.some.inj heq)

theorem Steps.trans {s s' s'' : State Tid Msg Act Store} {h h' : List (Event Tid Msg Act)}
    (hs : S.Steps s h s') (hs' : S.Steps s' h' s'') : S.Steps s (h' ++ h) s'' := by
  induction hs' with
  | refl => exact hs
  | snoc _ hstep ih => exact ih.snoc hstep

end System

/-! ## Reading a history -/

/-- The action an event performs on the store, if any. -/
def Event.effect : Event Tid Msg Act → Option Act
  | .construct _ a => some a
  | .act _ _ a => some a
  | _ => none

section History

variable [DecidableEq Tid]

/-- What a task did in handling its messages, newest first. -/
def acts (t : Tid) : List (Event Tid Msg Act) → List Act
  | [] => []
  | .act t' _ a :: h => if t' = t then a :: acts t h else acts t h
  | _ :: h => acts t h

/-- The messages a task took, newest first. -/
def received (t : Tid) : List (Event Tid Msg Act) → List Msg
  | [] => []
  | .receive t' m :: h => if t' = t then m :: received t h else received t h
  | _ :: h => received t h

/-- What a task has done since it took its latest message, newest first. -/
def progress (t : Tid) : List (Event Tid Msg Act) → List Act
  | [] => []
  | .act t' _ a :: h => if t' = t then a :: progress t h else progress t h
  | .receive t' _ :: h => if t' = t then [] else progress t h
  | _ :: h => progress t h

/-- Events of other threads add nothing to a task's own history. -/
theorem acts_of_owner_ne {t : Tid} {e : Event Tid Msg Act} (he : e.owner ≠ some t)
    (h : List (Event Tid Msg Act)) :
    acts t (e :: h) = acts t h ∧ received t (e :: h) = received t h ∧
      progress t (e :: h) = progress t h := by
  cases e with
  | act t' m a | receive t' m =>
      have htt : t' ≠ t := fun heq => he (congrArg some heq)
      simp [acts, received, progress, htt]
  | _ => exact ⟨rfl, rfl, rfl⟩

theorem mem_acts {t : Tid} {a : Act} {h : List (Event Tid Msg Act)} :
    a ∈ acts t h ↔ ∃ m, Event.act t m a ∈ h := by
  induction h with
  | nil => simp [acts]
  | cons e h ih =>
      cases e with
      | act t' m' a' =>
          simp only [acts, List.mem_cons, Event.act.injEq, exists_or]
          split
          · next ht => simp [ih, ht]
          · next ht => simp [ih, Ne.symm ht]
      | _ => simp [acts, ih]

theorem acts_append (t : Tid) (ls h : List (Event Tid Msg Act)) :
    acts t (ls ++ h) = acts t ls ++ acts t h := by
  induction ls with
  | nil => rfl
  | cons e ls ih =>
      cases e with
      | act t' m a =>
          simp only [List.cons_append, acts, ih]
          split <;> rfl
      | _ => exact ih

theorem received_append (t : Tid) (ls h : List (Event Tid Msg Act)) :
    received t (ls ++ h) = received t ls ++ received t h := by
  induction ls with
  | nil => rfl
  | cons e ls ih =>
      cases e with
      | receive t' m =>
          simp only [List.cons_append, received, ih]
          split <;> rfl
      | _ => exact ih

theorem mem_received {t : Tid} {m : Msg} {h : List (Event Tid Msg Act)} :
    m ∈ received t h ↔ Event.receive t m ∈ h := by
  induction h with
  | nil => simp [received]
  | cons e h ih =>
      cases e with
      | receive t' m' =>
          simp only [received, List.mem_cons, Event.receive.injEq]
          split
          · next ht => simp [ih, ht]
          · next ht => simp [ih, Ne.symm ht]
      | _ => simp [received, ih]

/-- The part of a task's actions that belongs to its latest message comes last. -/
theorem progress_prefix_acts (t : Tid) (h : List (Event Tid Msg Act)) :
    progress t h <+: acts t h := by
  induction h with
  | nil => exact List.prefix_refl _
  | cons e h ih =>
      cases e with
      | act t' m a =>
          simp only [progress, acts]
          split
          · exact List.cons_prefix_cons.2 ⟨rfl, ih⟩
          · exact ih
      | receive t' m =>
          simp only [progress, acts]
          split
          · exact List.nil_prefix
          · exact ih
      | _ => exact ih

/-- Every stretch of a task's actions ends some stretch of the history. -/
theorem exists_suffix_of_acts {t : Tid} {h : List (Event Tid Msg Act)} {as : List Act}
    (hs : as <:+ acts t h) : ∃ h', h' <:+ h ∧ acts t h' = as := by
  induction h with
  | nil => exact ⟨[], List.suffix_refl _, (List.suffix_nil.1 hs).symm⟩
  | cons e h ih =>
      by_cases hwhole : as = acts t (e :: h)
      · exact ⟨e :: h, List.suffix_refl _, hwhole.symm⟩
      · have hsub : as <:+ acts t h := by
          cases e with
          | act t' m a =>
              simp only [acts] at hs hwhole
              split at hs
              · next ht =>
                  rw [if_pos ht] at hwhole
                  exact (List.suffix_cons_iff.1 hs).resolve_left hwhole
              · exact hs
          | _ => exact hs
        obtain ⟨h', hh', heq⟩ := ih hsub
        exact ⟨h', hh'.trans (List.suffix_cons e h), heq⟩

/-- The history since a task's latest action with a value: it is the part in which the task does
    nothing that has one, and at every moment of it that value is still the latest. -/
theorem exists_since {γ : Type} (t : Tid) (v : Act → Option γ) (h : List (Event Tid Msg Act)) :
    ∃ recent older, h = recent ++ older ∧
      acts t recent = (acts t h).takeWhile (fun a => (v a).isNone) ∧
      ∀ h', older <:+ h' → h' <:+ h → (acts t h').findSome? v = (acts t h).findSome? v := by
  obtain ⟨older, ⟨recent, rfl⟩, holder⟩ :=
    exists_suffix_of_acts (List.dropWhile_suffix (l := acts t h) fun a => (v a).isNone)
  have hsplit := List.takeWhile_append_dropWhile (p := fun a => (v a).isNone)
    (l := acts t (recent ++ older))
  rw [← holder] at hsplit
  have hrecent : acts t recent = (acts t (recent ++ older)).takeWhile fun a => (v a).isNone := by
    rw [acts_append] at hsplit ⊢
    exact (List.append_cancel_right hsplit).symm
  have hquiet : ∀ a ∈ acts t recent, v a = none := by
    intro a ha
    rw [hrecent] at ha
    simpa using List.mem_takeWhile_imp ha
  refine ⟨recent, older, rfl, hrecent, ?_⟩
  rintro h' ⟨l, rfl⟩ ⟨l', hl'⟩
  have hl : recent = l' ++ l := by
    rw [← List.append_assoc] at hl'
    exact (List.append_cancel_right hl').symm
  have hskip : ∀ as : List Act, (∀ a ∈ as, v a = none) →
      (as ++ acts t older).findSome? v = (acts t older).findSome? v := by
    intro as has
    rw [List.findSome?_append, List.findSome?_eq_none_iff.2 has, Option.none_or]
  rw [acts_append, acts_append, hskip _ hquiet]
  refine hskip _ fun a ha => hquiet a ?_
  rw [hl, acts_append]
  exact List.mem_append_right _ ha

end History

end TaskSystem
