import CroniotWatering.Library.Dialogue
import Mathlib.Logic.Function.Basic

set_option autoImplicit false

/-! # Calls that share a device under a lock

Any number of threads make calls to one device. A call takes a lock, runs a machine against the device
to its end, and releases the lock. The steps of the threads interleave freely: nothing but the lock, which
a thread takes only when it is free, keeps one call's requests out of another's. What the device replies
is a relation on its states.

The lock makes every run serial: what reaches the device is one call after the other. So a fact about the
device that every call preserves, from the state it finds to the state it leaves, holds over all runs. -/

namespace Lock

/-- The calls, and the device they are made to. -/
structure System (Call ω ρ α σ δ : Type) where
  machine : Call → Machine ω ρ α σ
  start : Call → σ
  reacts : δ → ω → ρ → δ → Prop

/-- What a thread is doing: anything else, or a call, in a state of its machine. -/
inductive Thread (Call σ : Type) where
  | idle
  | inside (c : Call) (p : σ)

structure State (Tid Call σ δ : Type) where
  thread : Tid → Thread Call σ
  lock : Option Tid
  device : δ

inductive Event (Tid Call ω ρ α : Type) where
  | acquire (t : Tid) (c : Call)
  | exchange (t : Tid) (q : ω) (r : ρ)
  | release (t : Tid) (c : Call) (a : α)

variable {Tid Call ω ρ α σ δ : Type} [DecidableEq Tid]

namespace System

variable (S : System Call ω ρ α σ δ)

/-- One step of one thread. Only the first looks at the lock. -/
inductive Step : State Tid Call σ δ → Event Tid Call ω ρ α → State Tid Call σ δ → Prop
  | acquire {s : State Tid Call σ δ} {t : Tid} (c : Call) :
      s.lock = none → s.thread t = .idle →
      Step s (.acquire t c)
        { s with thread := Function.update s.thread t (.inside c (S.start c)), lock := some t }
  | exchange {s : State Tid Call σ δ} {t : Tid} {c : Call} {p : σ} {q : ω} {r : ρ} {d : δ} :
      s.thread t = .inside c p → (S.machine c).move p = .ask q → S.reacts s.device q r d →
      Step s (.exchange t q r)
        { s with
          thread := Function.update s.thread t (.inside c ((S.machine c).next p r))
          device := d }
  | release {s : State Tid Call σ δ} {t : Tid} {c : Call} {p : σ} {a : α} :
      s.thread t = .inside c p → (S.machine c).move p = .done a →
      Step s (.release t c a)
        { s with thread := Function.update s.thread t .idle, lock := none }

/-- A run from a state of the device, with the events newest first. -/
inductive Run (d₀ : δ) : List (Event Tid Call ω ρ α) → State Tid Call σ δ → Prop
  | init : Run d₀ [] ⟨fun _ => .idle, none, d₀⟩
  | snoc {h : List (Event Tid Call ω ρ α)} {s s' : State Tid Call σ δ} {e : Event Tid Call ω ρ α} :
      Run d₀ h s → S.Step s e s' → Run d₀ (e :: h) s'

/-- The call that is under way, and where its machine is. -/
abbrev Holder (Tid Call σ : Type) := Option (Tid × Call × σ)

/-- The lock is held for this call, and no other thread is in one. -/
structure Held (s : State Tid Call σ δ) (holder : Holder Tid Call σ) : Prop where
  inside_iff : ∀ t c p, s.thread t = .inside c p ↔ holder = some (t, c, p)
  lock_eq : s.lock = holder.map Prod.fst

/-- A history in which calls come one after the other, up to the one under way. -/
inductive Serial : List (Event Tid Call ω ρ α) → Holder Tid Call σ → Prop
  | nil : Serial [] none
  | acquire {h : List (Event Tid Call ω ρ α)} (t : Tid) (c : Call) :
      Serial h none → Serial (.acquire t c :: h) (some (t, c, S.start c))
  | exchange {h : List (Event Tid Call ω ρ α)} {t : Tid} {c : Call} {p : σ} {q : ω} (r : ρ) :
      Serial h (some (t, c, p)) → (S.machine c).move p = .ask q →
      Serial (.exchange t q r :: h) (some (t, c, (S.machine c).next p r))
  | release {h : List (Event Tid Call ω ρ α)} {t : Tid} {c : Call} {p : σ} {a : α} :
      Serial h (some (t, c, p)) → (S.machine c).move p = .done a →
      Serial (.release t c a :: h) none

variable {S} {d₀ : δ}

/-- A thread changes while no other is in a call. -/
theorem inside_update {thread : Tid → Thread Call σ} {t : Tid}
    (hothers : ∀ t', t' ≠ t → ∀ c p, thread t' ≠ .inside c p) (x : Thread Call σ) (t' : Tid) (c : Call)
    (p : σ) : Function.update thread t x t' = .inside c p ↔ t' = t ∧ x = .inside c p := by
  by_cases htt : t' = t
  · subst htt
    simp
  · simp [htt, hothers t' htt c p]

omit [DecidableEq Tid] in
theorem Held.others {s : State Tid Call σ δ} {holder : Holder Tid Call σ} (hheld : Held s holder)
    {t : Tid} (ht : ∀ t' c p, holder = some (t', c, p) → t' = t) {t' : Tid} (htt : t' ≠ t) (c : Call)
    (p : σ) : s.thread t' ≠ .inside c p :=
  fun hin => htt (ht t' c p ((hheld.inside_iff t' c p).1 hin))

omit [DecidableEq Tid] in
theorem Held.eq_none {s : State Tid Call σ δ} {holder : Holder Tid Call σ} (hheld : Held s holder)
    (hfree : s.lock = none) : holder = none := by
  have hlock := hheld.lock_eq
  rw [hfree] at hlock
  exact Option.map_eq_none_iff.1 hlock.symm

/-- **What one step does**, when the lock is held for one call at most: it takes the lock for a call,
    or it is a step of the call that holds it. -/
theorem Step.cases_of_held {s s' : State Tid Call σ δ} {e : Event Tid Call ω ρ α}
    {holder : Holder Tid Call σ} (hstep : S.Step s e s') (hheld : Held s holder) :
    (∃ t c, e = .acquire t c ∧ holder = none ∧ s'.device = s.device ∧
        Held s' (some (t, c, S.start c))) ∨
    (∃ t c p q r, e = .exchange t q r ∧ holder = some (t, c, p) ∧ (S.machine c).move p = .ask q ∧
        S.reacts s.device q r s'.device ∧ Held s' (some (t, c, (S.machine c).next p r))) ∨
    ∃ t c p a, e = .release t c a ∧ holder = some (t, c, p) ∧ (S.machine c).move p = .done a ∧
        s'.device = s.device ∧ Held s' none := by
  cases hstep with
  | @acquire t c hfree _ =>
      obtain rfl := hheld.eq_none hfree
      have hupdate := inside_update (fun t' htt => hheld.others nofun (t := t) htt)
        (.inside c (S.start c))
      refine Or.inl ⟨t, c, rfl, rfl, rfl, fun t' c' p' => ?_, rfl⟩
      rw [hupdate]
      simp [eq_comm]
  | @exchange t c p q r d hin hmove hreact =>
      obtain rfl := (hheld.inside_iff t c p).1 hin
      have hupdate := inside_update (fun t' htt => hheld.others (by simp_all) (t := t) htt)
        (.inside c ((S.machine c).next p r))
      refine Or.inr (Or.inl ⟨t, c, p, q, r, rfl, rfl, hmove, hreact, fun t' c' p' => ?_, hheld.lock_eq⟩)
      rw [hupdate]
      simp [eq_comm]
  | @release t c p a hin hdone =>
      obtain rfl := (hheld.inside_iff t c p).1 hin
      have hupdate := inside_update (fun t' htt => hheld.others (by simp_all) (t := t) htt) .idle
      refine Or.inr (Or.inr ⟨t, c, p, a, rfl, rfl, hdone, rfl, fun t' c' p' => ?_, rfl⟩)
      rw [hupdate]
      simp

/-- **Every run is serial.** -/
theorem Run.serial {h : List (Event Tid Call ω ρ α)} {s : State Tid Call σ δ}
    (hrun : S.Run d₀ h s) : ∃ holder, S.Serial h holder ∧ Held s holder := by
  induction hrun with
  | init => exact ⟨none, .nil, fun _ _ _ => by simp, rfl⟩
  | snoc _ hstep ih =>
      obtain ⟨holder, hserial, hheld⟩ := ih
      rcases hstep.cases_of_held hheld with ⟨t, c, rfl, rfl, -, hheld'⟩
        | ⟨t, c, p, q, r, rfl, rfl, hmove, -, hheld'⟩ | ⟨t, c, p, a, rfl, rfl, hdone, -, hheld'⟩
      · exact ⟨_, hserial.acquire t c, hheld'⟩
      · exact ⟨_, hserial.exchange r hmove, hheld'⟩
      · exact ⟨_, hserial.release hdone, hheld'⟩

/-- While the lock is free, no thread is in a call. -/
theorem Run.idle_of_free {h : List (Event Tid Call ω ρ α)} {s : State Tid Call σ δ}
    (hrun : S.Run d₀ h s) (hfree : s.lock = none) (t : Tid) : s.thread t = .idle := by
  obtain ⟨holder, -, hheld⟩ := hrun.serial
  obtain rfl := hheld.eq_none hfree
  cases hthread : s.thread t with
  | idle => rfl
  | inside c p => cases (hheld.inside_iff t c p).1 hthread

/-- A run on a device that does less. -/
theorem Run.of_reacts {reacts : δ → ω → ρ → δ → Prop} (hle : ∀ d q r d', reacts d q r d' → S.reacts d q r d')
    {h : List (Event Tid Call ω ρ α)} {s : State Tid Call σ δ}
    (hrun : ({ S with reacts := reacts } : System Call ω ρ α σ δ).Run d₀ h s) : S.Run d₀ h s := by
  induction hrun with
  | init => exact .init
  | snoc _ hstep ih =>
      refine ih.snoc ?_
      cases hstep with
      | acquire c hfree hidle => exact .acquire c hfree hidle
      | exchange hin hmove hreact => exact .exchange hin hmove (hle _ _ _ _ hreact)
      | release hin hdone => exact .release hin hdone

/-! ## A call on its own -/

/-- The events of some exchanges, newest first. -/
def exchanges (t : Tid) (es : List (ω × ρ)) : List (Event Tid Call ω ρ α) :=
  (es.map fun e => .exchange t e.1 e.2).reverse

theorem Run.exchanges {t : Tid} {c : Call} {p p' : σ} {es : List (ω × ρ)}
    (hpath : (S.machine c).Path p es p') {h : List (Event Tid Call ω ρ α)} {s : State Tid Call σ δ}
    {d : δ} (hrun : S.Run d₀ h s) (hin : s.thread t = .inside c p) (hserves : Served S.reacts s.device es d) :
    ∃ s', S.Run d₀ (System.exchanges t es ++ h) s' ∧ s'.thread t = .inside c p' ∧ s'.device = d := by
  induction hpath generalizing h s with
  | refl p =>
      cases hserves
      exact ⟨s, hrun, hin, rfl⟩
  | @step p p' q r es hmove _ ih =>
      cases hserves with
      | step hreact hserves =>
          obtain ⟨s', hrun', hin', hd⟩ :=
            ih (hrun.snoc (.exchange hin hmove hreact)) (Function.update_self ..) hserves
          exact ⟨s', by simpa [System.exchanges] using hrun', hin', hd⟩

/-- While the lock is free, a thread can make a call to its end, and the lock is free again. -/
theorem Run.call {t : Tid} {c : Call} {p : σ} {es : List (ω × ρ)} {a : α}
    (hpath : (S.machine c).Path (S.start c) es p) (hdone : (S.machine c).move p = .done a)
    {h : List (Event Tid Call ω ρ α)} {s : State Tid Call σ δ} {d : δ} (hrun : S.Run d₀ h s)
    (hfree : s.lock = none) (hserves : Served S.reacts s.device es d) :
    ∃ s', S.Run d₀ (.release t c a :: (System.exchanges t es ++ .acquire t c :: h)) s' ∧
      s'.lock = none ∧ s'.device = d := by
  obtain ⟨s', hrun', hin, hd⟩ := Run.exchanges hpath
    (hrun.snoc (.acquire c hfree (hrun.idle_of_free hfree t))) (Function.update_self ..) hserves
  exact ⟨_, hrun'.snoc (.release hin hdone), rfl, hd⟩

/-! ## The calls of a run -/

omit [DecidableEq Tid] in
/-- What the device has seen, in order. -/
def log : List (Event Tid Call ω ρ α) → List (ω × ρ)
  | [] => []
  | .exchange _ q r :: h => log h ++ [(q, r)]
  | _ :: h => log h

/-- A call that has returned, with all it exchanged with the device. -/
structure Section (Tid Call ω ρ α : Type) where
  thread : Tid
  call : Call
  exchanged : List (ω × ρ)
  value : α

/-- What the calls returned, in order. -/
def returns : List (Event Tid Call ω ρ α) → List (Tid × Call × α)
  | [] => []
  | .release t c a :: h => returns h ++ [(t, c, a)]
  | _ :: h => returns h

def Section.returned (x : Section Tid Call ω ρ α) : Tid × Call × α := (x.thread, x.call, x.value)

def Section.requests (x : Section Tid Call ω ρ α) : List ω := x.exchanged.map Prod.fst

def Section.replies (x : Section Tid Call ω ρ α) : List ρ := x.exchanged.map Prod.snd

/-- What the call under way has exchanged. -/
def current : List (Event Tid Call ω ρ α) → List (ω × ρ)
  | .exchange _ q r :: h => current h ++ [(q, r)]
  | _ => []

/-- The calls that have returned, in order. -/
def sections : List (Event Tid Call ω ρ α) → List (Section Tid Call ω ρ α)
  | [] => []
  | .release t c a :: h => sections h ++ [⟨t, c, current h, a⟩]
  | _ :: h => sections h

omit [DecidableEq Tid] in
theorem returns_eq (h : List (Event Tid Call ω ρ α)) :
    returns h = (sections h).map Section.returned := by
  induction h with
  | nil => rfl
  | cons e h ih =>
      cases e with
      | acquire | exchange => exact ih
      | release t c a => rw [returns, sections, ih, List.map_append]; rfl

/-- A section is a call from its start to its end. -/
def Complete (S : System Call ω ρ α σ δ) (x : Section Tid Call ω ρ α) : Prop :=
  ∃ p, (S.machine x.call).Path (S.start x.call) x.exchanged p ∧ (S.machine x.call).move p = .done x.value

/-- What the call under way has exchanged leads to where its machine is. -/
def UnderWay (S : System Call ω ρ α σ δ) (current : List (ω × ρ)) : Holder Tid Call σ → Prop
  | none => current = []
  | some (_, c, p) => (S.machine c).Path (S.start c) current p

omit [DecidableEq Tid] in
/-- **What the device has seen is complete calls, one after the other**, and some beginning of the call
    under way. -/
theorem Serial.sections {h : List (Event Tid Call ω ρ α)} {holder : Holder Tid Call σ}
    (hserial : S.Serial h holder) :
    log h = (sections h).flatMap Section.exchanged ++ current h ∧
      (∀ x ∈ System.sections h, S.Complete x) ∧ S.UnderWay (current h) holder := by
  induction hserial with
  | nil => exact ⟨rfl, nofun, rfl⟩
  | acquire t c _ ih =>
      obtain ⟨hlog, hcomplete, hcurrent⟩ := ih
      have hnone : current _ = [] := hcurrent
      rw [hnone] at hlog
      exact ⟨hlog, hcomplete, .refl _⟩
  | exchange r _ hmove ih =>
      obtain ⟨hlog, hcomplete, hcurrent⟩ := ih
      refine ⟨?_, hcomplete, hcurrent.snoc hmove r⟩
      rw [log, hlog, current, List.append_assoc]
      rfl
  | @release h t c p a _ hdone ih =>
      obtain ⟨hlog, hcomplete, hcurrent⟩ := ih
      refine ⟨?_, ?_, rfl⟩
      · show log h = _
        rw [hlog, System.sections, List.flatMap_append]
        simp [current]
      · intro x hx
        rcases List.mem_append.1 hx with hx | hx
        · exact hcomplete x hx
        · rw [List.mem_singleton.1 hx]
          exact ⟨p, hcurrent, hdone⟩

/-! ## What holds of the device -/

/-- **The rule for shared devices.** `J` says what the device is like when the lock is free, `L` what it
    is like within a call; both may speak of the history. -/
theorem Run.rule {J : List (Event Tid Call ω ρ α) → δ → Prop}
    {L : Call → σ → List (Event Tid Call ω ρ α) → δ → Prop} (hinit : J [] d₀)
    (hacquire : ∀ h d t c, J h d → L c (S.start c) (.acquire t c :: h) d)
    (hexchange : ∀ h d d' t c p q r, L c p h d → (S.machine c).move p = .ask q →
      S.reacts d q r d' → L c ((S.machine c).next p r) (.exchange t q r :: h) d')
    (hrelease : ∀ h d t c p a, L c p h d → (S.machine c).move p = .done a →
      J (.release t c a :: h) d)
    {h : List (Event Tid Call ω ρ α)} {s : State Tid Call σ δ} (hrun : S.Run d₀ h s) :
    ∃ holder, Held s holder ∧
      match holder with
      | none => J h s.device
      | some (_, c, p) => L c p h s.device := by
  induction hrun with
  | init => exact ⟨none, ⟨fun _ _ _ => by simp, rfl⟩, hinit⟩
  | @snoc h s s' e _ hstep ih =>
      obtain ⟨holder, hheld, hdevice⟩ := ih
      rcases hstep.cases_of_held hheld with ⟨t, c, rfl, rfl, hd, hheld'⟩
        | ⟨t, c, p, q, r, rfl, rfl, hmove, hreact, hheld'⟩ | ⟨t, c, p, a, rfl, rfl, hdone, hd, hheld'⟩
      · exact ⟨_, hheld', by rw [hd]; exact hacquire h s.device t c hdevice⟩
      · exact ⟨_, hheld', hexchange h s.device s'.device t c p q r hdevice hmove hreact⟩
      · exact ⟨_, hheld', by rw [hd]; exact hrelease h s.device t c p a hdevice hdone⟩

end System

end Lock
