import CroniotWatering.Library.History
import CroniotWatering.Library.Monitor

set_option autoImplicit false

/-! # The watering cycle

What the watering task is for, in its own terms: a cycle of four timed stages over two valve lines
and a pump. The valve motor is driven open, then the pump runs, then the water settles, then the
motor is driven closed. The automaton is partial: an operation that is out of place, or a delay too
many, has no transition. Times are in seconds and a parameter.

The lines are left as the closing stage leaves them, so a resting cycle remembers whether it has been
used. -/

namespace WateringCycle

open History

inductive Stage where
  | opening
  | watering
  | settling
  | closing
deriving DecidableEq

/-- How many seconds a stage takes: exactly so many, or for `watering` at most so many. -/
structure Timing where
  seconds : Stage → ℕ
  closing_pos : 0 < seconds .closing
  settling_pos : 0 < seconds .settling

/-- An operation on a line or the pump, or one end of a delay of one second. -/
inductive Op where
  | raise1
  | drop2
  | raise2
  | drop1
  | pumpOn
  | pumpOff
  | sleep
  | wake
deriving DecidableEq

/-- Where a cycle is. A stage counts the delays that have ended in it. -/
inductive Phase where
  /-- Nothing is going on; the cycle has run before or not. -/
  | rest (used : Bool)
  /-- Between the two operations that start the opening stage. -/
  | halfOpen (used : Bool)
  | stage (st : Stage) (k : ℕ) (asleep : Bool)
  /-- Between the two operations that start the closing stage. -/
  | halfClosed
deriving DecidableEq

/-- The levels of the two valve lines. -/
def Phase.lines : Phase → Bool × Bool
  | .rest used => (false, used)
  | .halfOpen used => (true, used)
  | .stage .closing _ _ => (false, true)
  | .stage _ _ _ => (true, false)
  | .halfClosed => (true, true)

/-- The pump is to run. -/
def Phase.pumping : Phase → Bool
  | .stage .watering _ _ => true
  | _ => false

/-- What an operation does to the two valve lines. -/
def Op.drive : Op → Bool × Bool → Bool × Bool
  | .raise1, (_, l₂) => (true, l₂)
  | .drop1, (_, l₂) => (false, l₂)
  | .raise2, (l₁, _) => (l₁, true)
  | .drop2, (l₁, _) => (l₁, false)
  | _, ls => ls

/-- What an operation does to the pump, if anything. -/
def Op.pump? : Op → Option Bool
  | .pumpOn => some true
  | .pumpOff => some false
  | _ => none

section Automaton

variable (T : Timing)

def next : Phase → Op → Option Phase
  | .rest used, .raise1 => some (.halfOpen used)
  | .halfOpen _, .drop2 => some (.stage .opening 0 false)
  | .stage st k false, .sleep => if k < T.seconds st then some (.stage st k true) else none
  | .stage .closing k true, .wake =>
      if k + 1 = T.seconds .closing then some (.rest true) else some (.stage .closing (k + 1) false)
  | .stage st k true, .wake => some (.stage st (k + 1) false)
  | .stage .opening k false, .pumpOn =>
      if k = T.seconds .opening then some (.stage .watering 0 false) else none
  | .stage .watering _ false, .pumpOff => some (.stage .settling 0 false)
  | .stage .settling k false, .raise2 =>
      if k = T.seconds .settling then some .halfClosed else none
  | .halfClosed, .drop1 => some (.stage .closing 0 false)
  | _, _ => none

/-- The transitions one by one. -/
inductive Moves : Phase → Op → Phase → Prop
  | raise1 (used : Bool) : Moves (.rest used) .raise1 (.halfOpen used)
  | drop2 (used : Bool) : Moves (.halfOpen used) .drop2 (.stage .opening 0 false)
  | sleep (st : Stage) (k : ℕ) :
      k < T.seconds st → Moves (.stage st k false) .sleep (.stage st k true)
  | wake (st : Stage) (k : ℕ) : Moves (.stage st k true) .wake (.stage st (k + 1) false)
  | finish (k : ℕ) : Moves (.stage .closing k true) .wake (.rest true)
  | pumpOn :
      Moves (.stage .opening (T.seconds .opening) false) .pumpOn (.stage .watering 0 false)
  | pumpOff (k : ℕ) : Moves (.stage .watering k false) .pumpOff (.stage .settling 0 false)
  | raise2 : Moves (.stage .settling (T.seconds .settling) false) .raise2 .halfClosed
  | drop1 : Moves .halfClosed .drop1 (.stage .closing 0 false)

variable {T}

/-- All a step of the automaton can do. -/
theorem moves_of_next {p p' : Phase} {op : Op} (h : next T p op = some p') : Moves T p op p' := by
  unfold next at h
  split at h
  · cases h
    exact .raise1 _
  · cases h
    exact .drop2 _
  · split at h
    · next hk =>
        cases h
        exact .sleep _ _ hk
    · cases h
  · split at h
    · cases h
      exact .finish _
    · cases h
      exact .wake _ _
  · cases h
    exact .wake _ _
  · split at h
    · next hk =>
        cases h
        rw [hk]
        exact .pumpOn
    · cases h
  · cases h
    exact .pumpOff _
  · split at h
    · next hk =>
        cases h
        rw [hk]
        exact .raise2
    · cases h
  · cases h
    exact .drop1
  · cases h

/-! ## Along a history

Histories have the newest operation first and start from a cycle at rest, most of them from one that
has never run. -/

/-- What holds at the start and is kept by every transition holds of every history. -/
theorem track_induct {J : Phase → List Op → Prop} {used : Bool} (h₀ : J (.rest used) [])
    (hmove : ∀ p op p' ops, J p ops → Moves T p op p' → J p' (op :: ops)) {ops : List Op} {p : Phase}
    (h : Monitor.track (next T) (.rest used) ops = some p) : J p ops :=
  Monitor.track_induct h₀
    (fun p p' op ops hJ hnext => hmove p op p' ops hJ (moves_of_next hnext)) h

/-- The phase tells the lines. -/
theorem track_lines {ops : List Op} {p : Phase}
    (h : Monitor.track (next T) (.rest false) ops = some p) :
    p.lines = ops.foldr Op.drive (false, false) := by
  refine track_induct (J := fun p ops => p.lines = ops.foldr Op.drive (false, false)) rfl ?_ h
  intro p op p' ops hJ hmove
  rw [List.foldr_cons, ← hJ]
  cases hmove with
  | sleep st k _ | wake st k => cases st <;> rfl
  | _ => rfl

/-- The phase tells whether the pump is to run: the latest of its operations switched it on. -/
theorem track_pumping {used : Bool} {ops : List Op} {p : Phase}
    (h : Monitor.track (next T) (.rest used) ops = some p) :
    ops.findSome? Op.pump? = some true ↔ p.pumping = true := by
  refine track_induct (J := fun p ops => ops.findSome? Op.pump? = some true ↔ p.pumping = true)
    (iff_of_false nofun nofun) ?_ h
  intro p op p' ops hJ hmove
  cases hmove with
  | sleep st k _ | wake st k => cases st <;> exact hJ
  | pumpOn => exact iff_of_true rfl rfl
  | pumpOff k => exact iff_of_false nofun nofun
  | _ => exact hJ

/-! ## Time -/

/-- What the phase says about the time that has passed: in the opening stage its seconds are those
    since the lines were set; in the watering stage they are those since the pump was switched on,
    at most the allowed number, and the whole opening stage lies before. -/
def Clock (T : Timing) : Phase → List Op → Prop
  | .stage .opening k _, ops => elapsedSince .wake .drop2 ops = some k
  | .stage .watering k asleep, ops =>
      elapsedSince .wake .pumpOn ops = some k ∧ k + asleep.toNat ≤ T.seconds .watering ∧
      ∃ d, elapsedSince .wake .drop2 ops = some d ∧ T.seconds .opening ≤ d
  | _, _ => True

theorem track_clock {ops : List Op} {p : Phase}
    (h : Monitor.track (next T) (.rest false) ops = some p) : Clock T p ops := by
  refine track_induct (J := Clock T) trivial ?_ h
  intro p op p' ops hJ hmove
  cases hmove with
  | drop2 used => exact elapsedSince_self
  | sleep st k hk =>
      cases st with
      | opening => exact (elapsedSince_other (by decide) (by decide)).trans hJ
      | watering =>
          obtain ⟨hon, -, d, hd, hle⟩ := hJ
          refine ⟨(elapsedSince_other (by decide) (by decide)).trans hon, hk, d, ?_, hle⟩
          exact (elapsedSince_other (by decide) (by decide)).trans hd
      | settling | closing => trivial
  | wake st k =>
      cases st with
      | opening =>
          show elapsedSince _ _ _ = _
          rw [elapsedSince_tick (by decide), hJ]
          rfl
      | watering =>
          obtain ⟨hon, hk, d, hd, hle⟩ := hJ
          refine ⟨?_, hk, d + 1, ?_, Nat.le_succ_of_le hle⟩
          · rw [elapsedSince_tick (by decide), hon]
            rfl
          · rw [elapsedSince_tick (by decide), hd]
            rfl
      | settling | closing => trivial
  | pumpOn =>
      refine ⟨elapsedSince_self, Nat.zero_le _, T.seconds .opening, ?_, Nat.le_refl _⟩
      exact (elapsedSince_other (by decide) (by decide)).trans hJ
  | raise1 | finish | pumpOff | raise2 | drop1 => trivial

/-- The operations since the pump was last switched on or off. -/
def sincePump (ops : List Op) : List Op := ops.takeWhile fun op => op.pump?.isNone

/-- In the settling stage the pump has been left alone for every delay the stage counts. -/
def Settling : Phase → List Op → Prop
  | .stage .settling k asleep, ops =>
      ops.findSome? Op.pump? = some false ∧ (asleep = true → .sleep ∈ sincePump ops) ∧
      (0 < k → [Op.wake, Op.sleep].Sublist (sincePump ops))
  | _, _ => True

theorem track_settling {ops : List Op} {p : Phase}
    (h : Monitor.track (next T) (.rest false) ops = some p) : Settling p ops := by
  refine track_induct (J := Settling) trivial ?_ h
  intro p op p' ops hJ hmove
  cases hmove with
  | sleep st k _ =>
      cases st with
      | settling =>
          obtain ⟨hoff, -, hdelay⟩ := hJ
          exact ⟨hoff, fun _ => List.mem_cons_self, fun hk => (hdelay hk).cons _⟩
      | opening | watering | closing => trivial
  | wake st k =>
      cases st with
      | settling =>
          obtain ⟨hoff, hsleep, -⟩ := hJ
          refine ⟨hoff, nofun, fun _ => ?_⟩
          exact List.Sublist.cons_cons _ (List.singleton_sublist.2 (hsleep rfl))
      | opening | watering | closing => trivial
  | pumpOff k => exact ⟨rfl, nofun, nofun⟩
  | raise1 | drop2 | finish | pumpOn | raise2 | drop1 => trivial

/-- **A closing cycle has settled.** The pump was last switched off, and a whole delay has passed
    since. -/
theorem settled_of_raise2 {ops : List Op} {p p' : Phase}
    (h : Monitor.track (next T) (.rest false) ops = some p) (hnext : next T p .raise2 = some p') :
    ops.findSome? Op.pump? = some false ∧ [Op.wake, Op.sleep].Sublist (sincePump ops) := by
  have hsettling := track_settling h
  cases moves_of_next hnext with
  | raise2 => exact ⟨hsettling.1, hsettling.2.2 T.settling_pos⟩

/-! ## First use -/

/-- Only a cycle that has never run rests in its first phase. -/
theorem raise1_mem_iff {ops : List Op} {p : Phase}
    (h : Monitor.track (next T) (.rest false) ops = some p) :
    Op.raise1 ∈ ops ↔ p ≠ .rest false := by
  refine track_induct (J := fun p ops => Op.raise1 ∈ ops ↔ p ≠ .rest false) (by decide) ?_ h
  intro p op p' ops hJ hmove
  cases hmove with
  | raise1 used => exact iff_of_true List.mem_cons_self nofun
  | drop2 | sleep | wake | finish | pumpOn | pumpOff | raise2 | drop1 =>
      exact iff_of_true (List.mem_cons_of_mem _ (hJ.2 nofun)) nofun

/-- Both lines are low in that phase alone. -/
theorem lines_low_iff (p : Phase) : p.lines = (false, false) ↔ p = .rest false := by
  cases p with
  | rest used => cases used <;> decide
  | halfOpen used => exact iff_of_false nofun nofun
  | stage st k asleep => cases st <;> exact iff_of_false nofun nofun
  | halfClosed => exact iff_of_false nofun nofun

/-- The cycle has been half closed, and nothing has lowered the second line since. -/
def Phase.closedOnce : Phase → Bool
  | .rest used | .halfOpen used => used
  | .stage .closing _ _ | .halfClosed => true
  | .stage _ _ _ => false

theorem raise2_mem_of_closedOnce {ops : List Op} {p : Phase}
    (h : Monitor.track (next T) (.rest false) ops = some p) (hp : p.closedOnce = true) :
    Op.raise2 ∈ ops := by
  revert hp
  have hnever : (Phase.rest false).closedOnce = true → Op.raise2 ∈ [] := nofun
  refine track_induct (J := fun p ops => p.closedOnce = true → Op.raise2 ∈ ops) hnever ?_ h
  intro p op p' ops hJ hmove hp'
  cases hmove with
  | raise2 => exact List.mem_cons_self
  | raise1 => exact List.mem_cons_of_mem _ (hJ hp')
  | finish | drop1 => exact List.mem_cons_of_mem _ (hJ rfl)
  | sleep st k _ | wake st k => exact List.mem_cons_of_mem _ (hJ (by cases st <;> exact hp'))
  | drop2 | pumpOn | pumpOff => cases hp'

/-- Both lines are high in no other phases. -/
theorem closedOnce_of_lines {p : Phase} (h : p.lines = (true, true)) : p.closedOnce = true := by
  cases p with
  | rest => cases h
  | halfOpen used => exact (Prod.mk.inj h).2
  | stage st k asleep => cases st <;> cases h
  | halfClosed => rfl

/-! ## A whole cycle -/

/-- `k` delays of one second. -/
def rounds (k : ℕ) : List Op := (List.range k).flatMap fun _ => [.sleep, .wake]

/-- The operations of a cycle that waters for `n` seconds. -/
def cycle (T : Timing) (n : ℕ) : List Op :=
  [.raise1, .drop2] ++ rounds (T.seconds .opening) ++ [.pumpOn] ++ rounds n ++ [.pumpOff]
    ++ rounds (T.seconds .settling) ++ [.raise2, .drop1] ++ rounds (T.seconds .closing)

theorem run_rounds (st : Stage) (hst : st ≠ .closing) {n : ℕ} (hn : n ≤ T.seconds st) :
    Monitor.run (next T) (.stage st 0 false) (rounds n) = some (.stage st n false) := by
  refine Monitor.run_flatMap_range (fun k => Phase.stage st k false) _ n ?_
  intro k hk
  have hlt : k < T.seconds st := by omega
  cases st with
  | closing => exact absurd rfl hst
  | opening | watering | settling => simp [Monitor.run_cons, next, hlt]

theorem run_closing :
    Monitor.run (next T) (.stage .closing 0 false) (rounds (T.seconds .closing))
      = some (.rest true) := by
  have hpos := T.closing_pos
  obtain ⟨n, hn⟩ : ∃ n, T.seconds .closing = n + 1 := ⟨T.seconds .closing - 1, by omega⟩
  have hfirst : Monitor.run (next T) (.stage .closing 0 false) (rounds n)
      = some (.stage .closing n false) := by
    refine Monitor.run_flatMap_range (fun k => Phase.stage .closing k false) _ n ?_
    intro k hk
    have hlt : k < T.seconds .closing := by omega
    have hne : k + 1 ≠ T.seconds .closing := by omega
    simp [Monitor.run_cons, next, hlt, hne]
  have hlast : rounds (n + 1) = rounds n ++ [.sleep, .wake] := by
    simp [rounds, List.range_succ]
  rw [hn, hlast, Monitor.run_append_of_eq hfirst]
  simp [Monitor.run_cons, next, hn]

theorem filterMap_pump?_rounds (k : ℕ) : (rounds k).filterMap Op.pump? = [] := by
  refine List.filterMap_eq_nil_iff.2 fun op hop => ?_
  obtain ⟨-, -, hop⟩ := List.mem_flatMap.1 hop
  simp only [List.mem_cons, List.not_mem_nil, or_false] at hop
  rcases hop with rfl | rfl <;> rfl

/-- A cycle switches the pump on once, and then off once. -/
theorem filterMap_pump?_cycle (n : ℕ) : (cycle T n).filterMap Op.pump? = [true, false] := by
  simp only [cycle, List.filterMap_append, filterMap_pump?_rounds]
  rfl

theorem mem_filterMap_pump? {ops : List Op} :
    (true ∈ ops.filterMap Op.pump? ↔ .pumpOn ∈ ops) ∧
    (false ∈ ops.filterMap Op.pump? ↔ .pumpOff ∈ ops) := by
  simp only [List.mem_filterMap]
  refine ⟨⟨?_, fun hop => ⟨_, hop, rfl⟩⟩, ⟨?_, fun hop => ⟨_, hop, rfl⟩⟩⟩
  · rintro ⟨op, hop, hpump⟩
    cases op <;> cases hpump
    exact hop
  · rintro ⟨op, hop, hpump⟩
    cases op <;> cases hpump
    exact hop

/-- **Between the two.** In the middle of a cycle the pump is to run exactly if it has been switched on
    and is still to be switched off. -/
theorem pumping_iff_between {done todo : List Op} {n : ℕ} (h : done.reverse ++ todo = cycle T n) :
    done.findSome? Op.pump? = some true ↔ .pumpOn ∈ done ∧ .pumpOff ∈ todo := by
  have hpumps := congrArg (List.filterMap Op.pump?) h
  rw [List.filterMap_append, List.filterMap_reverse, filterMap_pump?_cycle] at hpumps
  rw [← List.head?_filterMap, ← mem_filterMap_pump?.1, ← mem_filterMap_pump?.2]
  generalize done.filterMap Op.pump? = before at hpumps ⊢
  generalize todo.filterMap Op.pump? = after at hpumps ⊢
  match before with
  | [] => simp
  | [on] =>
      obtain ⟨rfl, rfl⟩ : on = true ∧ after = [false] := by simpa using hpumps
      simp
  | on :: on' :: before =>
      have hlength := congrArg List.length hpumps
      obtain rfl : before = [] := List.length_eq_zero_iff.1 (by simp at hlength; omega)
      obtain ⟨-, rfl, rfl⟩ : on' = true ∧ on = false ∧ after = [] := by simpa using hpumps
      simp

/-- **A cycle runs through** from rest to rest, if it does not water too long. -/
theorem run_cycle (used : Bool) {n : ℕ} (hn : n ≤ T.seconds .watering) :
    Monitor.run (next T) (.rest used) (cycle T n) = some (.rest true) := by
  have hstart : Monitor.run (next T) (.rest used) [.raise1, .drop2]
      = some (.stage .opening 0 false) := rfl
  have hon : Monitor.run (next T) (.stage .opening (T.seconds .opening) false) [.pumpOn]
      = some (.stage .watering 0 false) := by simp [Monitor.run_cons, next]
  have hoff : Monitor.run (next T) (.stage .watering n false) [.pumpOff]
      = some (.stage .settling 0 false) := rfl
  have hclose : Monitor.run (next T) (.stage .settling (T.seconds .settling) false)
      [.raise2, .drop1] = some (.stage .closing 0 false) := by simp [Monitor.run_cons, next]
  unfold cycle
  simp only [List.append_assoc]
  rw [Monitor.run_append_of_eq hstart,
    Monitor.run_append_of_eq (run_rounds .opening nofun (Nat.le_refl _)),
    Monitor.run_append_of_eq hon, Monitor.run_append_of_eq (run_rounds .watering nofun hn),
    Monitor.run_append_of_eq hoff, Monitor.run_append_of_eq (run_rounds .settling nofun (Nat.le_refl _)),
    Monitor.run_append_of_eq hclose]
  exact run_closing

end Automaton

end WateringCycle
