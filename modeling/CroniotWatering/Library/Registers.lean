import CroniotWatering.Library.Runs

set_option autoImplicit false

/-! # Registers

A register is a part of the store that an action either overwrites as a whole or leaves alone. What it
holds is therefore what the latest write of the history left in it, and whose write that was can be
read off the history as well. -/

namespace TaskSystem

variable {Tid Msg Act Store β : Type} [DecidableEq Tid]

/-- What an event writes to a register. -/
def Event.written (write : Act → Option β) (e : Event Tid Msg Act) : Option β :=
  e.effect.bind write

/-- The latest event that writes a register. -/
def latestWrite (write : Act → Option β) (h : List (Event Tid Msg Act)) :
    Option (Event Tid Msg Act) :=
  h.find? fun e => (e.written write).isSome

/-- The task whose handling of a message wrote a register last; `none` if that was a constructor, or
    nobody. -/
def lastWriter (write : Act → Option β) (h : List (Event Tid Msg Act)) : Option Tid :=
  (latestWrite write h).bind Event.owner

omit [DecidableEq Tid] in
/-- Only writes move the latest write. -/
theorem latestWrite_cons_of_none {write : Act → Option β} {e : Event Tid Msg Act}
    (he : e.written write = none) (h : List (Event Tid Msg Act)) :
    latestWrite write (e :: h) = latestWrite write h :=
  List.find?_cons_of_neg (by simp [he])

omit [DecidableEq Tid] in
theorem mem_of_latestWrite {write : Act → Option β} {e : Event Tid Msg Act}
    {h : List (Event Tid Msg Act)} (hlatest : latestWrite write h = some e) :
    e ∈ h ∧ ∃ b, e.written write = some b := by
  unfold latestWrite at hlatest
  have hwrites := List.find?_some hlatest
  exact ⟨List.mem_of_find?_eq_some hlatest, Option.isSome_iff_exists.1 hwrites⟩

/-- A task that has written the register is not before the latest write. -/
theorem latestWrite_ne_none {write : Act → Option β} {t : Tid} {b : β}
    {h : List (Event Tid Msg Act)} (hwrite : (acts t h).findSome? write = some b) :
    latestWrite write h ≠ none := by
  obtain ⟨a, ha, hb⟩ := List.exists_of_findSome?_eq_some hwrite
  obtain ⟨m, hm⟩ := mem_acts.1 ha
  intro hnone
  have hunwritten := List.find?_eq_none.1 hnone _ hm
  simp [Event.written, Event.effect, hb] at hunwritten

/-- If a task made the latest write of all, it is the latest write of that task. -/
theorem findSome?_acts_of_latestWrite {write : Act → Option β} {t : Tid} {m : Msg} {a : Act}
    {h : List (Event Tid Msg Act)} (hlatest : latestWrite write h = some (.act t m a)) :
    (acts t h).findSome? write = write a := by
  induction h with
  | nil => cases hlatest
  | cons e h ih =>
      -- the newest event is the latest write, or it writes nothing
      cases he : e.written write with
      | some b =>
          have hhead : latestWrite write (e :: h) = some e :=
            List.find?_cons_of_pos (by simp [he])
          obtain rfl : e = .act t m a := Option.some.inj (hhead.symm.trans hlatest)
          have hwrite : write a = some b := he
          simp [acts, hwrite]
      | none =>
          rw [latestWrite_cons_of_none he] at hlatest
          rw [← ih hlatest]
          cases e with
          | act t' m' a' =>
              have hwrite : write a' = none := he
              simp only [acts]
              split
              · rw [List.findSome?_cons, hwrite]
              · rfl
          | _ => rfl

namespace System

variable {S : System Tid Msg Act Store} {σ₀ : Store}

omit [DecidableEq Tid] in
/-- **The register rule.** A register holds what was last written to it. -/
theorem storeAfter_register (view : Store → β) {write : Act → Option β}
    (hview : ∀ a σ, view (S.apply a σ) = (write a).getD (view σ)) (h : List (Event Tid Msg Act)) :
    view (S.storeAfter σ₀ h)
      = ((latestWrite write h).bind fun e => e.written write).getD (view σ₀) := by
  induction h with
  | nil => rfl
  | cons e h ih =>
      cases he : e.written write with
      | some b =>
          obtain ⟨a, heffect, hwrite⟩ := Option.bind_eq_some_iff.1 he
          have hhead : latestWrite write (e :: h) = some e :=
            List.find?_cons_of_pos (by simp [he])
          simp [storeAfter, heffect, hview, hwrite, hhead, he]
      | none =>
          rw [latestWrite_cons_of_none he, ← ih]
          cases heffect : e.effect with
          | none => simp only [storeAfter, heffect]
          | some a =>
              have hwrite : write a = none := by
                simpa [Event.written, heffect] using he
              simp [storeAfter, heffect, hview, hwrite]

end System

end TaskSystem
