import CroniotWatering.Library.Runs

set_option autoImplicit false

/-! # Readers

A program that reads the store of a task system in several steps and answers yes or no. Its reads are
single instants; between two of them the tasks go on. -/

namespace TaskSystem

/-- A program of tests on the store. -/
inductive ReadProg (Store : Type) where
  | ret (b : Bool)
  | test (c : Store → Bool) (yes no : ReadProg Store)

namespace ReadProg

variable {Store : Type}

/-- The answer when nothing happens between the reads. -/
def eval : ReadProg Store → Store → Bool
  | ret b, _ => b
  | test c yes no, σ => if c σ then eval yes σ else eval no σ

/-- `c₁ && c₂ && ...`, which stops at the first test that fails. -/
def allOf : List (Store → Bool) → ReadProg Store
  | [] => ret true
  | c :: cs => test c (allOf cs) (ret false)

theorem eval_allOf (cs : List (Store → Bool)) (σ : Store) :
    (allOf cs).eval σ = cs.all fun c => c σ := by
  induction cs with
  | nil => rfl
  | cons c cs ih =>
      simp only [allOf, eval, ih, List.all_cons]
      cases c σ <;> rfl

end ReadProg

namespace System

variable {Tid Msg Act Store : Type} [DecidableEq Tid] (S : System Tid Msg Act Store)

/-- A call of a reader during a run, from the state of its first read to the state of its last, with
    the events in between (newest first) and the answer. -/
inductive Call : State Tid Msg Act Store → ReadProg Store → List (Event Tid Msg Act) →
    State Tid Msg Act Store → Bool → Prop
  | ret (s : State Tid Msg Act Store) (b : Bool) : Call s (.ret b) [] s b
  | last {s : State Tid Msg Act Store} {c : Store → Bool} {yes no : ReadProg Store} {b : Bool} :
      (if c s.store then yes else no) = .ret b → Call s (.test c yes no) [] s b
  | test {s s' s'' : State Tid Msg Act Store} {c c' : Store → Bool}
      {yes no yes' no' : ReadProg Store} {ls ls' : List (Event Tid Msg Act)} {b : Bool} :
      (if c s.store then yes else no) = .test c' yes' no' → S.Steps s ls s' →
      Call s' (.test c' yes' no') ls' s'' b → Call s (.test c yes no) (ls' ++ ls) s'' b

/-- Some state on the way from `s` to `s'` has a store with `P`; both ends count. -/
def Visits (s : State Tid Msg Act Store) (ls : List (Event Tid Msg Act))
    (s' : State Tid Msg Act Store) (P : Store → Prop) : Prop :=
  ∃ l₁ l₂ s₁, ls = l₂ ++ l₁ ∧ S.Steps s l₁ s₁ ∧ S.Steps s₁ l₂ s' ∧ P s₁.store

variable {S}

theorem Call.steps {s s' : State Tid Msg Act Store} {prog : ReadProg Store}
    {ls : List (Event Tid Msg Act)} {b : Bool} (h : S.Call s prog ls s' b) : S.Steps s ls s' := by
  induction h with
  | ret | last => exact .refl
  | test _ hsteps _ ih => exact hsteps.trans ih

/-- A call that answers yes has passed its first test. -/
theorem Call.first {s s' : State Tid Msg Act Store} {c : Store → Bool} {cs : List (Store → Bool)}
    {ls : List (Event Tid Msg Act)} (h : S.Call s (.allOf (c :: cs)) ls s' true) :
    c s.store = true := by
  by_contra hc
  cases h with
  | last hbranch =>
      rw [if_neg hc] at hbranch
      cases hbranch
  | test hbranch _ _ =>
      rw [if_neg hc] at hbranch
      cases hbranch

/-- The reader alone: every test holds of one store. -/
theorem call_of_eval {cs : List (Store → Bool)} {s : State Tid Msg Act Store}
    (h : ∀ c ∈ cs, c s.store = true) : S.Call s (.allOf cs) [] s true := by
  induction cs with
  | nil => exact .ret s true
  | cons c cs ih =>
      obtain ⟨hc, hcs⟩ := List.forall_mem_cons.1 h
      cases cs with
      | nil => exact .last (if_pos hc)
      | cons c' cs => exact .test (if_pos hc) .refl (ih hcs)

end System

end TaskSystem
