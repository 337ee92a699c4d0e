import CroniotWatering.Library.TaskSystem

set_option autoImplicit false

/-! # What every run of a task system satisfies

The induction over the steps of a run is done here, once per kind of fact: the store is the replay of
the history, a task's actions are those its code prescribes, and a part of the store that one task
alone writes depends on that task's own actions only. -/

namespace TaskSystem

variable {Tid Msg Act Store : Type} [DecidableEq Tid]

namespace System

variable {S : System Tid Msg Act Store} {σ₀ : Store}

/-! ## The store is the replay of the history -/

/-- The store after a history. -/
def storeAfter (S : System Tid Msg Act Store) (σ₀ : Store) : List (Event Tid Msg Act) → Store
  | [] => σ₀
  | e :: h =>
      match e.effect with
      | some a => S.apply a (storeAfter S σ₀ h)
      | none => storeAfter S σ₀ h

theorem Run.store_eq {h : List (Event Tid Msg Act)} {s : State Tid Msg Act Store}
    (hrun : S.Run σ₀ h s) : s.store = S.storeAfter σ₀ h := by
  induction hrun with
  | refl => rfl
  | snoc _ hstep ih => cases hstep <;> simp [storeAfter, Event.effect, ih]

/-- Every suffix of a run's history is the history of a run. -/
theorem Run.of_suffix {h h' : List (Event Tid Msg Act)} {s : State Tid Msg Act Store}
    (hrun : S.Run σ₀ h s) (hs : h' <:+ h) :
    ∃ s' ls, S.Run σ₀ h' s' ∧ S.Steps s' ls s ∧ h = ls ++ h' := by
  induction hrun with
  | refl =>
      rw [List.suffix_nil.1 hs]
      exact ⟨_, [], .refl, .refl, rfl⟩
  | @snoc h s₁ s₂ e hrun hstep ih =>
      rcases List.suffix_cons_iff.1 hs with rfl | hs
      · exact ⟨s₂, [], hrun.snoc hstep, .refl, rfl⟩
      · obtain ⟨s', ls, hr, hsteps, heq⟩ := ih hs
        exact ⟨s', e :: ls, hr, hsteps.snoc hstep, by rw [heq, List.cons_append]⟩

/-! ## The boot sequence -/

/-- What the main thread has left to do: after a task's start, nothing more of that task. -/
def BootOrdered (boot : List (BootOp Tid Act)) : Prop :=
  boot.Pairwise fun x y => ∀ t, x = .start t → y.tid ≠ t

omit [DecidableEq Tid] in
/-- The constructor operations of one task are that task's. -/
theorem tid_of_mem_construct {t : Tid} {op : BootOp Tid Act}
    (hop : op ∈ (S.task t).construct.map (.construct t) ++ [.start t]) : op.tid = t := by
  rcases List.mem_append.1 hop with hop | hop
  · obtain ⟨a, -, rfl⟩ := List.mem_map.1 hop
    rfl
  · rw [List.mem_singleton.1 hop]
    rfl

omit [DecidableEq Tid] in
theorem bootProgram_ordered (hnd : S.order.Nodup) : BootOrdered S.bootProgram := by
  unfold BootOrdered bootProgram
  rw [List.pairwise_flatMap]
  constructor
  · intro t _
    rw [List.pairwise_append]
    refine ⟨?_, List.pairwise_singleton _ _, ?_⟩
    · rw [List.pairwise_map]
      exact List.pairwise_of_forall fun _ _ => nofun
    · intro x hx y _ t' hxt
      obtain ⟨a, -, rfl⟩ := List.mem_map.1 hx
      cases hxt
  · refine List.Pairwise.imp ?_ hnd
    intro t t' hne x hx y hy t'' hxt
    have hx' : t'' = t := by
      have := tid_of_mem_construct hx
      rwa [hxt] at this
    rw [tid_of_mem_construct hy, hx']
    exact fun heq => hne heq.symm

/-- A step either takes the main thread's next operation, or leaves the main thread and the set of
    started tasks alone. -/
theorem Step.boot_cases {s s' : State Tid Msg Act Store} {e : Event Tid Msg Act}
    (hstep : S.Step s e s') :
    (∃ op, s.boot = op :: s'.boot ∧
      ∀ t, s'.thread t ≠ .absent → s.thread t ≠ .absent ∨ op = .start t) ∨
    (s'.boot = s.boot ∧ ∀ t, s'.thread t ≠ .absent → s.thread t ≠ .absent) := by
  cases hstep with
  | construct hh hb => exact Or.inl ⟨_, hb, fun _ ht => Or.inl ht⟩
  | @start t' rest hh hb _ =>
      refine Or.inl ⟨_, hb, fun t ht => ?_⟩
      by_cases htt : t = t'
      · exact Or.inr (by rw [htt])
      · exact Or.inl (by simpa [Function.update_of_ne htt] using ht)
  | @receive t' _ hh hr | @act t' _ _ _ hh hr | @finish t' _ hh hr =>
      refine Or.inr ⟨rfl, fun t ht => ?_⟩
      by_cases htt : t = t'
      · rw [htt, hr]
        exact nofun
      · simpa [Function.update_of_ne htt] using ht

/-- Once a task is started, the main thread does nothing more for it. -/
theorem Run.boot_of_started (hnd : S.order.Nodup) {h : List (Event Tid Msg Act)}
    {s : State Tid Msg Act Store} (hrun : S.Run σ₀ h s) :
    BootOrdered s.boot ∧ ∀ t, s.thread t ≠ .absent → ∀ op ∈ s.boot, op.tid ≠ t := by
  induction hrun with
  | refl => exact ⟨bootProgram_ordered hnd, fun t ht => absurd rfl ht⟩
  | snoc _ hstep ih =>
      obtain ⟨hord, hdone⟩ := ih
      rcases hstep.boot_cases with ⟨op, hb, hst⟩ | ⟨hb, hst⟩
      · rw [hb] at hord hdone
        obtain ⟨hop, hord'⟩ := List.pairwise_cons.1 hord
        refine ⟨hord', fun t ht op' hop' => ?_⟩
        rcases hst t ht with ht | rfl
        · exact hdone t ht op' (List.mem_cons_of_mem _ hop')
        · exact hop op' hop' t rfl
      · rw [hb]
        exact ⟨hord, fun t ht => hdone t (hst t ht)⟩

/-! ## A task does what its code prescribes -/

theorem Run.boot_suffix {h : List (Event Tid Msg Act)} {s : State Tid Msg Act Store}
    (hrun : S.Run σ₀ h s) : s.boot <:+ S.bootProgram := by
  induction hrun with
  | refl => exact List.suffix_refl _
  | snoc _ hstep ih =>
      rcases hstep.boot_cases with ⟨op, hb, -⟩ | ⟨hb, -⟩
      · exact (List.suffix_cons op _).trans (hb ▸ ih)
      · rwa [hb]

/-- **The current message.** What a task has done since it took its latest message, followed by what
    it still has to do, is the code for that message. -/
theorem Run.progress_append {h : List (Event Tid Msg Act)} {s : State Tid Msg Act Store}
    (hrun : S.Run σ₀ h s) {t : Tid} :
    ∀ {m : Msg} {todo : List Act}, s.thread t = .running m todo →
      (progress t h).reverse ++ todo = (S.task t).handle m ∧ (received t h).head? = some m := by
  induction hrun with
  | refl =>
      intro m todo ht
      cases ht
  | @snoc h s₁ _ e _ hstep ih =>
      intro m todo ht
      have hth := hstep.threadStep t
      rw [ht] at hth
      generalize hx : s₁.thread t = x at hth
      cases hth with
      | other hne =>
          obtain ⟨-, hrec, hprog⟩ := acts_of_owner_ne hne h
          rw [hrec, hprog]
          exact ih hx
      | receive => simp [progress, received]
      | act m a todo => simpa [progress, received] using ih hx

/-- **All messages.** What a task has done, followed by what it still has to do, is the code for the
    messages it took, one after the other. -/
theorem Run.acts_append_remaining {h : List (Event Tid Msg Act)} {s : State Tid Msg Act Store}
    (hrun : S.Run σ₀ h s) (t : Tid) :
    (acts t h).reverse ++ (s.thread t).remaining
      = (received t h).reverse.flatMap (S.task t).handle := by
  induction hrun with
  | refl => rfl
  | @snoc h s₁ s₂ e _ hstep ih =>
      have hth := hstep.threadStep t
      generalize s₁.thread t = x at hth ih
      generalize s₂.thread t = x' at hth
      cases hth with
      | other hne =>
          obtain ⟨hacts, hrec, -⟩ := acts_of_owner_ne hne h
          rw [hacts, hrec]
          exact ih
      | receive m =>
          simp only [Thread.remaining, List.append_nil] at ih
          simp [acts, received, Thread.remaining, ih]
      | act m a todo => simpa [acts, received, Thread.remaining] using ih
      | start | finish => exact ih

/-- A task that waits has done exactly what its messages call for. -/
theorem Run.acts_of_waiting {h : List (Event Tid Msg Act)} {s : State Tid Msg Act Store}
    (hrun : S.Run σ₀ h s) {t : Tid} (hw : s.thread t = .waiting) :
    acts t h = (received t h).flatMap fun m => ((S.task t).handle m).reverse := by
  have hall := hrun.acts_append_remaining t
  simp only [hw, Thread.remaining, List.append_nil] at hall
  rw [← List.reverse_reverse (acts t h), hall, List.reverse_flatMap, List.reverse_reverse]
  rfl

/-- As long as the system runs, no action has halted it. -/
theorem Run.quiet {h : List (Event Tid Msg Act)} {s : State Tid Msg Act Store}
    (hrun : S.Run σ₀ h s) (hh : s.halted = false) (t : Tid) :
    ∀ a ∈ acts t h, S.halts a = false := by
  induction hrun with
  | refl => exact nofun
  | snoc _ hstep ih =>
      cases hstep with
      | construct hh' | start hh' | receive _ hh' | finish hh' => exact ih hh'
      | @act t' m a todo hh' =>
          simp only [acts]
          split
          · intro a' ha'
            rcases List.mem_cons.1 ha' with rfl | ha'
            · exact hh
            · exact ih hh' a' ha'
          · exact ih hh'

/-- The action that halts the system leaves its task in the middle of a message. -/
theorem Run.quiet_of_waiting {h : List (Event Tid Msg Act)} {s : State Tid Msg Act Store}
    (hrun : S.Run σ₀ h s) {t : Tid} (hw : s.thread t = .waiting) :
    ∀ a ∈ acts t h, S.halts a = false := by
  cases hrun with
  | refl => exact nofun
  | snoc hrun hstep =>
      cases hstep with
      | construct hh | start hh | receive _ hh | finish hh => exact Run.quiet hrun hh t
      | @act t' m a todo hh hr =>
          have htt : t' ≠ t := by
            rintro rfl
            simp at hw
          simp only [acts, if_neg htt]
          exact Run.quiet hrun hh t

/-- An action of the task's code: of its constructor, or of handling some message. -/
def Prescribes (S : System Tid Msg Act Store) (t : Tid) (a : Act) : Prop :=
  a ∈ (S.task t).construct ∨ ∃ m, a ∈ (S.task t).handle m

/-- An action performed in a run is one its task's code prescribes. -/
theorem Run.prescribes {h : List (Event Tid Msg Act)} {s s' : State Tid Msg Act Store}
    (hrun : S.Run σ₀ h s) {t : Tid} {a : Act} :
    (S.Step s (.construct t a) s' → a ∈ (S.task t).construct) ∧
    ∀ m, S.Step s (.act t m a) s' → a ∈ (S.task t).handle m := by
  refine ⟨fun hstep => ?_, fun m hstep => ?_⟩
  · cases hstep with
    | construct hh hb =>
        have hmem : BootOp.construct t a ∈ S.bootProgram :=
          hrun.boot_suffix.subset (by rw [hb]; exact List.mem_cons_self)
        obtain ⟨t', -, hmem⟩ := List.mem_flatMap.1 hmem
        rcases List.mem_append.1 hmem with hmem | hmem
        · obtain ⟨a', ha', heq⟩ := List.mem_map.1 hmem
          cases heq
          exact ha'
        · cases List.mem_singleton.1 hmem
  · cases hstep with
    | act hh hr =>
        rw [← (hrun.progress_append hr).1]
        exact List.mem_append_right _ List.mem_cons_self

/-- Every event of a run was a step of it. -/
theorem Run.exists_step {h : List (Event Tid Msg Act)} {s : State Tid Msg Act Store}
    (hrun : S.Run σ₀ h s) {e : Event Tid Msg Act} (hmem : e ∈ h) :
    ∃ h' s₁ s₂, S.Run σ₀ h' s₁ ∧ S.Step s₁ e s₂ := by
  induction hrun with
  | refl => cases hmem
  | snoc hrun hstep ih =>
      rcases List.mem_cons.1 hmem with rfl | hmem
      · exact ⟨_, _, _, hrun, hstep⟩
      · exact ih hmem

/-- The events of a run are actions of the code. -/
theorem Run.mem_handle {h : List (Event Tid Msg Act)} {s : State Tid Msg Act Store}
    (hrun : S.Run σ₀ h s) {t : Tid} {m : Msg} {a : Act} (hmem : Event.act t m a ∈ h) :
    a ∈ (S.task t).handle m := by
  obtain ⟨_, _, _, hrun', hstep⟩ := Run.exists_step hrun hmem
  exact (Run.prescribes hrun').2 m hstep

theorem Run.mem_construct {h : List (Event Tid Msg Act)} {s : State Tid Msg Act Store}
    (hrun : S.Run σ₀ h s) {t : Tid} {a : Act} (hmem : Event.construct t a ∈ h) :
    a ∈ (S.task t).construct := by
  obtain ⟨_, _, _, hrun', hstep⟩ := Run.exists_step hrun hmem
  exact (Run.prescribes hrun').1 hstep

/-- A task acts on messages it has received. -/
theorem Run.mem_received_of_act {h : List (Event Tid Msg Act)} {s : State Tid Msg Act Store}
    (hrun : S.Run σ₀ h s) {t : Tid} {m : Msg} {a : Act} (hmem : Event.act t m a ∈ h) :
    m ∈ received t h := by
  induction hrun with
  | refl => cases hmem
  | @snoc h s₁ _ e hrun hstep ih =>
      have hold : m ∈ received t h → m ∈ received t (e :: h) := by
        intro hm
        rw [mem_received] at hm ⊢
        exact List.mem_cons_of_mem e hm
      rcases List.mem_cons.1 hmem with rfl | hmem
      · cases hstep with
        | act hh hr => exact hold (List.mem_of_mem_head? (Run.progress_append hrun hr).2)
      · exact hold (ih hmem)

/-- A task that is not started has done nothing yet but construct itself. -/
theorem Run.of_absent {h : List (Event Tid Msg Act)} {s : State Tid Msg Act Store}
    (hrun : S.Run σ₀ h s) {t : Tid} (ht : s.thread t = .absent) :
    acts t h = [] ∧ received t h = [] := by
  induction hrun with
  | refl => exact ⟨rfl, rfl⟩
  | @snoc h s₁ _ e _ hstep ih =>
      have hth := hstep.threadStep t
      rw [ht] at hth
      generalize hx : s₁.thread t = x at hth
      cases hth with
      | other hne =>
          obtain ⟨hacts, hrec, -⟩ := acts_of_owner_ne hne h
          rw [hacts, hrec]
          exact ih hx

/-! ## Constructed tasks -/

/-- The constructor of `t` has run: the main thread has nothing left of it. -/
def Constructed (s : State Tid Msg Act Store) (t : Tid) : Prop :=
  ∀ a, BootOp.construct t a ∉ s.boot

theorem Run.constructed_of_started (hnd : S.order.Nodup) {h : List (Event Tid Msg Act)}
    {s : State Tid Msg Act Store} (hrun : S.Run σ₀ h s) {t : Tid} (ht : s.thread t ≠ .absent) :
    Constructed s t :=
  fun _ hop => (Run.boot_of_started hnd hrun).2 t ht _ hop rfl

theorem Steps.constructed {s s' : State Tid Msg Act Store} {ls : List (Event Tid Msg Act)}
    (hs : S.Steps s ls s') {t : Tid} (ht : Constructed s t) : Constructed s' t := by
  induction hs with
  | refl => exact ht
  | snoc _ hstep ih =>
      intro a hop
      rcases hstep.boot_cases with ⟨op, hb, -⟩ | ⟨hb, -⟩
      · exact ih a (by rw [hb]; exact List.mem_cons_of_mem op hop)
      · exact ih a (by rwa [hb] at hop)

/-! ## A part of the store that one task owns -/

/-- Task `t` alone changes the part of the store that `view` shows, and `upd` says how. -/
structure Owns (S : System Tid Msg Act Store) {β : Type} (t : Tid) (view : Store → β)
    (upd : Act → β → β) : Prop where
  view_apply : ∀ a σ, view (S.apply a σ) = upd a (view σ)
  frame : ∀ t', t' ≠ t → ∀ a, S.Prescribes t' a → ∀ b, upd a b = b

/-- The constructor actions of `t` the main thread has left. -/
def pending (t : Tid) (boot : List (BootOp Tid Act)) : List Act :=
  boot.filterMap fun
    | .construct t' a => if t' = t then some a else none
    | .start _ => none

theorem pending_append (t : Tid) (b₁ b₂ : List (BootOp Tid Act)) :
    pending t (b₁ ++ b₂) = pending t b₁ ++ pending t b₂ :=
  List.filterMap_append ..

theorem pending_of_constructed {s : State Tid Msg Act Store} {t : Tid}
    (ht : Constructed s t) : pending t s.boot = [] := by
  refine List.filterMap_eq_nil_iff.2 fun op hop => ?_
  cases op with
  | construct t' a => exact if_neg fun heq => ht a (by rw [← heq]; exact hop)
  | start t' => rfl

/-- Operations on other tasks leave nothing pending. -/
theorem pending_eq_nil {t : Tid} {boot : List (BootOp Tid Act)} (hne : ∀ op ∈ boot, op.tid ≠ t) :
    pending t boot = [] := by
  refine List.filterMap_eq_nil_iff.2 fun op hop => ?_
  cases op with
  | construct t' a => exact if_neg (hne _ hop)
  | start t' => rfl

theorem pending_bootProgram (hnd : S.order.Nodup) {t : Tid} (ht : t ∈ S.order) :
    pending t S.bootProgram = (S.task t).construct := by
  -- the tasks before and after `t` in the order contribute nothing
  have hrest : ∀ l : List Tid, t ∉ l → pending t (l.flatMap fun t' =>
      (S.task t').construct.map (BootOp.construct t') ++ [.start t']) = [] := by
    intro l hl
    refine pending_eq_nil fun op hop heq => ?_
    obtain ⟨t', ht', hop⟩ := List.mem_flatMap.1 hop
    rw [tid_of_mem_construct hop] at heq
    exact hl (heq ▸ ht')
  have hown : pending t ((S.task t).construct.map (BootOp.construct t) ++ [.start t])
      = (S.task t).construct := by
    simp [pending]
  obtain ⟨l₁, l₂, hsplit⟩ := List.append_of_mem ht
  rw [hsplit, List.nodup_append] at hnd
  obtain ⟨-, hnd₂, hdisj⟩ := hnd
  have h₁ : t ∉ l₁ := fun h => hdisj t h t List.mem_cons_self rfl
  have h₂ : t ∉ l₂ := (List.nodup_cons.1 hnd₂).1
  rw [bootProgram, hsplit, List.flatMap_append, List.flatMap_cons, pending_append, pending_append,
    hrest l₁ h₁, hrest l₂ h₂, hown, List.append_nil, List.nil_append]

/-- **The owned part of the store** is what the owner's constructor left there, updated by the
    owner's actions in order, whatever the other tasks did in between. While the constructor runs,
    what is pending of it counts as done. -/
theorem Run.view_eq {β : Type} {t : Tid} {view : Store → β} {upd : Act → β → β}
    (hown : S.Owns t view upd) (hnd : S.order.Nodup) (ht : t ∈ S.order)
    {h : List (Event Tid Msg Act)} {s : State Tid Msg Act Store} (hrun : S.Run σ₀ h s) :
    (pending t s.boot).foldl (fun b a => upd a b) (view s.store)
      = (acts t h).foldr upd ((S.task t).construct.foldl (fun b a => upd a b) (view σ₀)) := by
  induction hrun with
  | refl => simp only [initial, pending_bootProgram hnd ht, acts, List.foldr_nil]
  | @snoc h s₁ s₂ e hrun hstep ih =>
      cases hstep with
      | @construct t' a rest hh hb =>
          have ha : a ∈ (S.task t').construct := (Run.prescribes hrun).1 (.construct hh hb)
          rw [hb] at ih
          simp only [acts, hown.view_apply, ← ih]
          by_cases htt : t' = t
          · subst htt
            simp [pending]
          · simp [pending, htt, hown.frame t' htt a (Or.inl ha)]
      | @start t' rest hh hb hab =>
          rw [hb] at ih
          simpa [acts, pending] using ih
      | receive | finish => exact ih
      | @act t' m a todo hh hr =>
          have ha : a ∈ (S.task t').handle m := (Run.prescribes hrun).2 m (.act hh hr)
          simp only [acts, hown.view_apply]
          by_cases htt : t' = t
          · subst htt
            -- a running task has been started, so nothing of its constructor is pending
            have hpending := pending_of_constructed
              (@Run.constructed_of_started _ _ _ _ _ _ _ hnd _ _ hrun t' (by simp [hr]))
            rw [hpending] at ih ⊢
            rw [if_pos rfl, List.foldr_cons, ← ih]
            rfl
          · rw [if_neg htt, hown.frame t' htt a (Or.inr ⟨m, ha⟩)]
            exact ih

theorem Run.view_of_constructed {β : Type} {t : Tid} {view : Store → β} {upd : Act → β → β}
    (hown : S.Owns t view upd) (hnd : S.order.Nodup) (ht : t ∈ S.order)
    {h : List (Event Tid Msg Act)} {s : State Tid Msg Act Store} (hrun : S.Run σ₀ h s)
    (hcons : Constructed s t) :
    view s.store
      = (acts t h).foldr upd ((S.task t).construct.foldl (fun b a => upd a b) (view σ₀)) := by
  have hview := Run.view_eq hown hnd ht hrun
  rwa [pending_of_constructed hcons] at hview

end System

end TaskSystem
