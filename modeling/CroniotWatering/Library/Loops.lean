import CroniotWatering.Library.Script

set_option autoImplicit false

/-! # Threads that repeat scripts

The threads of a `Lock.System`, where each repeats a script of its own and gives out what it comes to. Of
the value of a call a thread sees only a view. However the threads interleave, what a thread gives out is
what its script comes to alone, round after round, over what the device replied to its own calls. -/

namespace Lock

/-- What the threads repeat. -/
structure Loops (Tid Call α ν β : Type) where
  body : Tid → Script Call ν β
  view : α → ν

namespace Loops

open Lock.System (sections Section Held)

variable {Tid Call ω ρ α ν β σ δ : Type}

/-- Where a script stands after one more value. -/
def advance : Script Call ν β → ν → Script Call ν β
  | .done b, _ => .done b
  | .call _ k, v => k v

/-- What it gives out there. -/
def output : Script Call ν β → List β
  | .done b => [b]
  | .call _ _ => []

/-- Where the loop goes on. -/
def restart (body : Script Call ν β) : Script Call ν β → Script Call ν β
  | .done _ => body
  | .call c k => .call c k

variable [DecidableEq Tid] (L : Loops Tid Call α ν β)

/-- What a thread has still to do in its round. -/
def position (t : Tid) : List (Event Tid Call ω ρ α) → Script Call ν β
  | [] => L.body t
  | .release t' _ a :: h =>
      if t' = t then restart (L.body t) (advance (position t h) (L.view a)) else position t h
  | _ :: h => position t h

/-- What a thread has given out, in order. -/
def outputs (t : Tid) : List (Event Tid Call ω ρ α) → List β
  | [] => []
  | .release t' _ a :: h =>
      if t' = t then outputs t h ++ output (advance (L.position t h) (L.view a)) else outputs t h
  | _ :: h => outputs t h

/-- A thread makes the call its script makes. -/
def Allows (h : List (Event Tid Call ω ρ α)) : Event Tid Call ω ρ α → Prop
  | .acquire t c => ∃ k, L.position t h = .call c k
  | _ => True

/-- In this history, the threads repeat their scripts. -/
def Obeys : List (Event Tid Call ω ρ α) → Prop
  | [] => True
  | e :: h => L.Allows h e ∧ Obeys h

variable {L} {S : System Call ω ρ α σ δ} {d₀ : δ} {h : List (Event Tid Call ω ρ α)}
  {s : State Tid Call σ δ} {t : Tid}

/-- A loop is always at a call. -/
theorem position_of_body (h : List (Event Tid Call ω ρ α)) (hbody : ∀ b, L.body t ≠ .done b) :
    ∃ c k, L.position t h = .call c k := by
  have hcall : ∃ c k, L.body t = .call c k := by
    cases hx : L.body t with
    | done b => exact absurd hx (hbody b)
    | call c k => exact ⟨c, k, rfl⟩
  induction h with
  | nil => exact hcall
  | cons e h ih =>
      cases e with
      | acquire | exchange => exact ih
      | release t' c a =>
          by_cases htt : t' = t
          · simp only [position, htt, if_true]
            cases advance (L.position t h) (L.view a) with
            | done b => exact hcall
            | call c k => exact ⟨c, k, rfl⟩
          · simp only [position, htt, if_false]
            exact ih

/-! ## The rounds of a thread -/

/-- The thread whose call is under way is at that call. -/
theorem Obeys.holder (hobeys : L.Obeys h) (hrun : S.Run d₀ h s) :
    ∃ holder, Held s holder ∧ ∀ t c p, holder = some (t, c, p) → ∃ k, L.position t h = .call c k := by
  induction hrun with
  | init => exact ⟨none, ⟨fun _ _ _ => by simp, rfl⟩, nofun⟩
  | snoc _ hstep ih =>
      obtain ⟨hallows, hobeys⟩ := hobeys
      obtain ⟨holder, hheld, hcall⟩ := ih hobeys
      rcases hstep.cases_of_held hheld with ⟨t, c, rfl, rfl, -, hheld'⟩
        | ⟨t, c, p, q, r, rfl, rfl, -, -, hheld'⟩ | ⟨t, c, p, a, rfl, rfl, -, -, hheld'⟩
      · refine ⟨_, hheld', ?_⟩
        rintro _ _ _ ⟨⟩
        exact hallows
      · refine ⟨_, hheld', ?_⟩
        rintro _ _ _ ⟨⟩
        exact hcall t c p rfl
      · exact ⟨none, hheld', nofun⟩

/-- A call that returns is the one the thread was at. -/
theorem Obeys.at_call {s' : State Tid Call σ δ} {c : Call} {a : α} (hobeys : L.Obeys h)
    (hrun : S.Run d₀ h s) (hstep : S.Step s (.release t c a) s') :
    ∃ k, L.position t h = .call c k := by
  obtain ⟨holder, hheld, hcall⟩ := hobeys.holder hrun
  cases hstep with
  | release hin _ => exact hcall t c _ ((hheld.inside_iff t c _).1 hin)

variable (L) in
/-- What a thread sees of a call. -/
def seen (x : Section Tid Call ω ρ α) : Call × ν := (x.call, L.view x.value)

/-- The calls of one thread. -/
def sectionsOf (t : Tid) (h : List (Event Tid Call ω ρ α)) : List (Section Tid Call ω ρ α) :=
  (sections h).filter fun x => x.thread = t

theorem sectionsOf_release (t' : Tid) (c : Call) (a : α) (h : List (Event Tid Call ω ρ α)) :
    sectionsOf t (.release t' c a :: h)
      = sectionsOf t h ++ if t' = t then [⟨t', c, System.current h, a⟩] else [] := by
  by_cases htt : t' = t <;> simp [sectionsOf, sections, htt]

/-- **Round after round.** The calls of a thread are those of whole rounds of its script, each of which came
    to what the thread gave out, and then those of the round it is in. -/
theorem Obeys.rounds (hobeys : L.Obeys h) (hrun : S.Run d₀ h s) (t : Tid) :
    ∃ (rounds : List (List (Section Tid Call ω ρ α) × β)) (begun : List (Section Tid Call ω ρ α)),
      sectionsOf t h = rounds.flatMap Prod.fst ++ begun ∧ L.outputs t h = rounds.map Prod.snd ∧
      (∀ r ∈ rounds, Script.Path L.seen (L.body t) r.1 (.done r.2)) ∧
      Script.Path L.seen (L.body t) begun (L.position t h) := by
  induction hrun with
  | init => exact ⟨[], [], rfl, rfl, nofun, .refl _⟩
  | @snoc h s s' e hrun hstep ih =>
      obtain ⟨-, hobeys⟩ := hobeys
      obtain ⟨rounds, begun, hsections, houtputs, hrounds, hbegun⟩ := ih hobeys
      cases e with
      | acquire | exchange => exact ⟨rounds, begun, hsections, houtputs, hrounds, hbegun⟩
      | release t' c a =>
          rw [sectionsOf_release, hsections]
          by_cases htt : t' = t
          · subst htt
            obtain ⟨k, hposition⟩ := hobeys.at_call hrun hstep
            rw [hposition] at hbegun
            have hnext := hbegun.snoc (e := ⟨t', c, System.current h, a⟩) (v := L.view a) rfl
            simp only [outputs, position, if_true, hposition, advance, houtputs]
            -- the round is over, or it goes on
            cases hk : k (L.view a) with
            | done b =>
                rw [hk] at hnext
                refine ⟨rounds ++ [(begun ++ [⟨t', c, System.current h, a⟩], b)], [], by simp,
                  by simp [output], ?_, .refl _⟩
                intro r hr
                rcases List.mem_append.1 hr with hr | hr
                · exact hrounds r hr
                · rw [List.mem_singleton.1 hr]
                  exact hnext
            | call c' k' =>
                rw [hk] at hnext
                exact ⟨rounds, _, by simp, by simp [output], hrounds, hnext⟩
          · refine ⟨rounds, begun, by simp [htt], ?_, hrounds, ?_⟩
            · simp only [outputs, htt, if_false, houtputs]
            · simp only [position, htt, if_false]
              exact hbegun

/-- **Interleaving leaves no trace.** If a call alone, on what the device replies to a call, comes to what
    the thread sees of it, then each output of a thread is what its script comes to alone, on the replies
    to the calls of one round. -/
theorem Obeys.outputs_alone {f : Call → Dialogue ω ρ ν}
    (hf : ∀ x : Section Tid Call ω ρ α, S.Complete x → ∀ rest,
      (f x.call).run (x.replies ++ rest) = ⟨x.requests, some (L.view x.value, rest)⟩)
    (hasks : ∀ c, ((f c).run []).result = none) (hbody : ∀ t b, L.body t ≠ .done b)
    (hobeys : L.Obeys h) (hrun : S.Run d₀ h s) (t : Tid) :
    ∃ (rounds : List (List (Section Tid Call ω ρ α) × β)) (begun : List (Section Tid Call ω ρ α)),
      sectionsOf t h = rounds.flatMap Prod.fst ++ begun ∧ L.outputs t h = rounds.map Prod.snd ∧
      (∀ r ∈ rounds, ∀ rest, ((L.body t).interpret f).run (r.1.flatMap Section.replies ++ rest)
        = ⟨r.1.flatMap Section.requests, some (r.2, rest)⟩) ∧
      (((L.body t).interpret f).run (begun.flatMap Section.replies)).result = none := by
  obtain ⟨rounds, begun, hsections, houtputs, hrounds, hbegun⟩ := hobeys.rounds hrun t
  obtain ⟨holder, hserial, -⟩ := hrun.serial
  obtain ⟨-, hcomplete, -⟩ := hserial.sections
  have hof : ∀ x ∈ sectionsOf t h, ∀ rest, (f (L.seen x).1).run (x.replies ++ rest)
      = ⟨x.requests, some ((L.seen x).2, rest)⟩ :=
    fun x hx => hf x (hcomplete x (List.mem_of_mem_filter hx))
  rw [hsections] at hof
  refine ⟨rounds, begun, hsections, houtputs, fun r hr rest => ?_, ?_⟩
  · have halone := (hrounds r hr).run_interpret (fun x hx => hof x (by
      exact List.mem_append_left _ (List.mem_flatMap.2 ⟨r, hr, hx⟩))) rest
    rw [halone]
    simp [Script.interpret, Progress.after]
  · have halone := hbegun.run_interpret (fun x hx => hof x (List.mem_append_right _ hx)) []
    rw [List.append_nil] at halone
    obtain ⟨c, k, hposition⟩ := position_of_body h (hbody t)
    rw [halone, Progress.result_after, hposition, Script.interpret]
    rcases hc : (f c).run [] with ⟨qs, result⟩
    have hnone := hasks c
    rw [hc] at hnone
    obtain rfl : result = none := hnone
    rw [Dialogue.run_bind_of_none hc]

/-- **The rule for outputs.** What holds of the outputs of a script, whenever `P` holds of the values of its
    calls, holds of the outputs of a thread in every run in which `P` holds of the values of all calls. -/
theorem Obeys.outputs_ensure {P : Call → ν → Prop} {Q : β → Prop} (hobeys : L.Obeys h)
    (hrun : S.Run d₀ h s) (hbody : (L.body t).Ensures P Q)
    (hcalls : ∀ x ∈ sections h, P x.call (L.view x.value)) : ∀ b ∈ L.outputs t h, Q b := by
  obtain ⟨rounds, begun, hsections, houtputs, hrounds, -⟩ := hobeys.rounds hrun t
  intro b hb
  rw [houtputs] at hb
  obtain ⟨r, hr, rfl⟩ := List.mem_map.1 hb
  have hmem : ∀ x ∈ r.1, x ∈ sectionsOf t h := by
    intro x hx
    rw [hsections]
    exact List.mem_append_left _ (List.mem_flatMap.2 ⟨r, hr, hx⟩)
  have hdone := (hrounds r hr).ensures hbody fun x hx => hcalls x (List.mem_of_mem_filter (hmem x hx))
  cases hdone with
  | done hQ => exact hQ

/-! ## Calls one after the other -/

/-- Exchanges alone move no script. -/
theorem exchanges_append (t' : Tid) (es : List (ω × ρ)) (h : List (Event Tid Call ω ρ α)) :
    L.position t (System.exchanges t' es ++ h) = L.position t h ∧
      L.outputs t (System.exchanges t' es ++ h) = L.outputs t h ∧
      sections (System.exchanges t' es ++ h) = sections h ∧
      (L.Obeys h → L.Obeys (System.exchanges t' es ++ h)) := by
  unfold System.exchanges
  rw [← List.map_reverse]
  induction es.reverse with
  | nil => exact ⟨rfl, rfl, rfl, id⟩
  | cons e es ih =>
      obtain ⟨hposition, houtputs, hsections, hobeys⟩ := ih
      exact ⟨hposition, houtputs, hsections, fun h => ⟨trivial, hobeys h⟩⟩

/-- The device, in a good state, serves each call with a value for that call, and is in one again. -/
def Serves (S : System Call ω ρ α σ δ) (good : δ → Prop) (value : Call → α) : Prop :=
  ∀ c d, good d → ∃ es p d', (S.machine c).Path (S.start c) es p ∧
    (S.machine c).move p = .done (value c) ∧ Served S.reacts d es d' ∧ good d'

/-- A run in which each call has had its value, at a point where no call is under way. -/
structure Ready (L : Loops Tid Call α ν β) (S : System Call ω ρ α σ δ) (good : δ → Prop)
    (value : Call → α) (d₀ : δ) (h : List (Event Tid Call ω ρ α)) (s : State Tid Call σ δ) : Prop where
  run : S.Run d₀ h s
  obeys : L.Obeys h
  free : s.lock = none
  good : good s.device
  values : ∀ x ∈ sections h, x.value = value x.call

/-- What only the one thread did. -/
def Spares (L : Loops Tid Call α ν β) (t : Tid) (h h' : List (Event Tid Call ω ρ α)) : Prop :=
  ∀ t', t' ≠ t → L.position t' h' = L.position t' h ∧ L.outputs t' h' = L.outputs t' h

variable {good : δ → Prop} {value : Call → α}

theorem Ready.init (hgood : good d₀) : L.Ready S good value d₀ [] ⟨fun _ => .idle, none, d₀⟩ :=
  ⟨.init, trivial, rfl, hgood, nofun⟩

/-- Any thread can make its next call to the end. -/
theorem Ready.exists_call (hserves : Serves S good value) (hready : L.Ready S good value d₀ h s) {c : Call}
    {k : ν → Script Call ν β} (hposition : L.position t h = .call c k) :
    ∃ h' s', L.Ready S good value d₀ h' s' ∧
      L.position t h' = restart (L.body t) (advance (L.position t h) (L.view (value c))) ∧
      L.outputs t h' = L.outputs t h ++ output (advance (L.position t h) (L.view (value c))) ∧
      L.Spares t h h' := by
  obtain ⟨es, p, d, hpath, hdone, hserved, hd⟩ := hserves c s.device hready.good
  obtain ⟨s', hrun', hfree', rfl⟩ := hready.run.call (t := t) hpath hdone hready.free hserved
  have hquiet := fun t' => exchanges_append (L := L) (t := t') t es (.acquire t c :: h)
  refine ⟨_, s', ⟨hrun', ?_, hfree', hd, ?_⟩, ?_, ?_, fun t' ht' => ⟨?_, ?_⟩⟩
  · exact ⟨trivial, (hquiet t).2.2.2 ⟨⟨k, hposition⟩, hready.obeys⟩⟩
  · intro x hx
    rw [sections, (hquiet t).2.2.1] at hx
    rcases List.mem_append.1 hx with hx | hx
    · exact hready.values x hx
    · rw [List.mem_singleton.1 hx]
  · simp only [position, if_true, (hquiet t).1]
  · simp only [outputs, if_true, (hquiet t).1, (hquiet t).2.1, position]
  · simp only [position, Ne.symm ht', if_false, (hquiet t').1]
  · simp only [outputs, Ne.symm ht', if_false, (hquiet t').2.1]

/-- And then finish its round, while no other does anything. -/
theorem Ready.exists_round (hserves : Serves S good value) (hbody : ∀ b, L.body t ≠ .done b)
    (hready : L.Ready S good value d₀ h s) :
    ∃ h' s', L.Ready S good value d₀ h' s' ∧
      L.outputs t h' = L.outputs t h ++ [(L.position t h).eval fun c => L.view (value c)] ∧
      L.Spares t h h' := by
  generalize hx : L.position t h = x
  induction x generalizing h s with
  | done b =>
      obtain ⟨c, k, hcall⟩ := position_of_body h hbody
      rw [hx] at hcall
      cases hcall
  | call c k ih =>
      obtain ⟨h₁, s₁, hready₁, hposition, houtputs, hspares⟩ := hready.exists_call hserves hx
      rw [hx, advance] at hposition houtputs
      rw [Script.eval]
      cases hk : k (L.view (value c)) with
      | done b =>
          rw [hk] at houtputs
          exact ⟨h₁, s₁, hready₁, houtputs, hspares⟩
      | call c' k' =>
          rw [hk] at hposition houtputs
          obtain ⟨h', s', hready', houtputs', hspares'⟩ :=
            ih (L.view (value c)) hready₁ (hposition.trans hk.symm)
          refine ⟨h', s', hready', ?_, fun t' ht' => ?_⟩
          · rw [houtputs', houtputs, hk]
            simp [output]
          · exact ⟨(hspares' t' ht').1.trans (hspares t' ht').1,
              (hspares' t' ht').2.trans (hspares t' ht').2⟩

end Loops

end Lock
