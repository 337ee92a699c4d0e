import Mathlib.Data.List.Basic

set_option autoImplicit false

/-! # Computations that ask and wait for the reply

Code that talks to a device: it makes a request, waits for the reply, and decides what to do next from
the replies so far. A computation is given by what it comes to on a list of replies, so that a loop that
waits for the device needs no bound: it recurses on the replies that are left.

`Machine` is the same thing as an automaton with one request a state. Computations are compared with
machines by `Follows`, which counts the replies, so that a loop is followed by induction on them. -/

/-- How far a computation gets on some replies: what it has requested, and, if the replies were enough,
    its value with the replies it has not used. Otherwise it awaits the reply to its last request. -/
@[ext] structure Progress (ω ρ α : Type) where
  requests : List ω
  result : Option (α × List ρ)

/-- A computation that makes requests `ω`, gets replies `ρ` and ends with an `α`. -/
@[ext] structure Dialogue (ω ρ α : Type) where
  run : List ρ → Progress ω ρ α

namespace Progress

variable {ω ρ α : Type}

/-- The same, after some earlier requests. -/
def after (qs : List ω) (p : Progress ω ρ α) : Progress ω ρ α := ⟨qs ++ p.requests, p.result⟩

@[simp] theorem after_nil (p : Progress ω ρ α) : p.after [] = p := rfl

@[simp] theorem after_after (qs qs' : List ω) (p : Progress ω ρ α) :
    (p.after qs').after qs = p.after (qs ++ qs') := by
  simp [after]

@[simp] theorem requests_after (qs : List ω) (p : Progress ω ρ α) :
    (p.after qs).requests = qs ++ p.requests := rfl

@[simp] theorem result_after (qs : List ω) (p : Progress ω ρ α) : (p.after qs).result = p.result := rfl

/-- The same, with another value. -/
def map {β : Type} (g : α → β) (p : Progress ω ρ α) : Progress ω ρ β :=
  ⟨p.requests, p.result.map fun ar => (g ar.1, ar.2)⟩

theorem map_map {β γ : Type} (g : α → β) (f : β → γ) (p : Progress ω ρ α) :
    (p.map g).map f = p.map (f ∘ g) := by
  simp only [map, Option.map_map, Function.comp_def]

theorem eq_of_map {β : Type} {g : α → β} {p : Progress ω ρ α} {qs : List ω} {b : β} {rest : List ρ}
    (h : p.map g = ⟨qs, some (b, rest)⟩) : ∃ a, p = ⟨qs, some (a, rest)⟩ ∧ b = g a := by
  obtain ⟨qs', _ | ⟨a, rest'⟩⟩ := p
  · cases h
  · cases h
    exact ⟨a, rfl, rfl⟩

theorem map_after {β : Type} (g : α → β) (qs : List ω) (p : Progress ω ρ α) :
    (p.after qs).map g = (p.map g).after qs := rfl

end Progress

namespace Dialogue

variable {ω ρ α β σ : Type}

/-- Make one request; the value is the reply. -/
def ask (q : ω) : Dialogue ω ρ ρ where
  run
    | [] => ⟨[q], none⟩
    | r :: rs => ⟨[q], some (r, rs)⟩

instance : Monad (Dialogue ω ρ) where
  pure a := ⟨fun rs => ⟨[], some (a, rs)⟩⟩
  bind x f := ⟨fun rs =>
    match x.run rs with
    | ⟨qs, none⟩ => ⟨qs, none⟩
    | ⟨qs, some (a, rest)⟩ => ((f a).run rest).after qs⟩

@[simp] theorem run_pure (a : α) (rs : List ρ) :
    (pure a : Dialogue ω ρ α).run rs = ⟨[], some (a, rs)⟩ := rfl

theorem run_bind_of_none {x : Dialogue ω ρ α} {f : α → Dialogue ω ρ β} {rs : List ρ} {qs : List ω}
    (h : x.run rs = ⟨qs, none⟩) : (x >>= f).run rs = ⟨qs, none⟩ := by
  simp only [bind, h]

theorem run_bind_of_some {x : Dialogue ω ρ α} {f : α → Dialogue ω ρ β} {rs rest : List ρ} {qs : List ω}
    {a : α} (h : x.run rs = ⟨qs, some (a, rest)⟩) :
    (x >>= f).run rs = ((f a).run rest).after qs := by
  simp only [bind, h]

theorem run_pure_inv {a b : α} {rs rest : List ρ} {qs : List ω}
    (h : (pure a : Dialogue ω ρ α).run rs = ⟨qs, some (b, rest)⟩) : qs = [] ∧ b = a ∧ rest = rs := by
  cases h
  exact ⟨rfl, rfl, rfl⟩

/-- A sequence that returned: its first part returned, and then its second. -/
theorem run_bind_inv {x : Dialogue ω ρ α} {f : α → Dialogue ω ρ β} {rs rest : List ρ} {qs : List ω}
    {b : β} (h : (x >>= f).run rs = ⟨qs, some (b, rest)⟩) :
    ∃ qs₁ a mid qs₂, x.run rs = ⟨qs₁, some (a, mid)⟩ ∧ (f a).run mid = ⟨qs₂, some (b, rest)⟩ ∧
      qs = qs₁ ++ qs₂ := by
  rcases hx : x.run rs with ⟨qs₁, _ | ⟨a, mid⟩⟩
  · rw [run_bind_of_none hx] at h
    cases h
  · rw [run_bind_of_some hx] at h
    rcases hf : (f a).run mid with ⟨qs₂, result⟩
    rw [hf] at h
    cases h
    exact ⟨qs₁, a, mid, qs₂, rfl, hf, rfl⟩

@[simp] theorem run_ask_bind_nil (q : ω) (f : ρ → Dialogue ω ρ β) :
    (ask q >>= f).run [] = ⟨[q], none⟩ := rfl

@[simp] theorem run_ask_bind_cons (q : ω) (f : ρ → Dialogue ω ρ β) (r : ρ) (rs : List ρ) :
    (ask q >>= f).run (r :: rs) = ((f r).run rs).after [q] := rfl

theorem bind_pure_self (x : Dialogue ω ρ α) : (x >>= fun a => pure (id a)) = x := by
  ext1
  funext rs
  rcases h : x.run rs with ⟨qs, _ | ⟨a, rest⟩⟩
  · rw [run_bind_of_none h]
  · rw [run_bind_of_some h]
    simp [Progress.after]

theorem bind_bind {γ : Type} (x : Dialogue ω ρ α) (f : α → Dialogue ω ρ β) (g : β → Dialogue ω ρ γ) :
    x >>= f >>= g = x >>= fun a => f a >>= g := by
  ext1
  funext rs
  rcases h : x.run rs with ⟨qs, _ | ⟨a, rest⟩⟩
  · rw [run_bind_of_none h, run_bind_of_none (run_bind_of_none h)]
  · rcases h' : (f a).run rest with ⟨qs', _ | ⟨b, rest'⟩⟩
    · have hxf : (x >>= f).run rs = ⟨qs ++ qs', none⟩ := by
        rw [run_bind_of_some h, h']
        rfl
      rw [run_bind_of_none hxf, run_bind_of_some h, run_bind_of_none h']
      rfl
    · have hxf : (x >>= f).run rs = ⟨qs ++ qs', some (b, rest')⟩ := by
        rw [run_bind_of_some h, h']
        rfl
      rw [run_bind_of_some hxf, run_bind_of_some h, run_bind_of_some h', Progress.after_after]

instance : LawfulMonad (Dialogue ω ρ) :=
  LawfulMonad.mk' _ bind_pure_self (fun _ _ => rfl) bind_bind

theorem run_bind_pure (x : Dialogue ω ρ α) (g : α → β) (rs : List ρ) :
    (x >>= fun a => pure (g a)).run rs = (x.run rs).map g := by
  rcases h : x.run rs with ⟨qs, _ | ⟨a, rest⟩⟩
  · rw [run_bind_of_none h]
    rfl
  · rw [run_bind_of_some h]
    simp [Progress.after, Progress.map]

/-! ## Loops -/

/-- `body` again and again, until it gives a value. A repetition that uses no reply would repeat for
    ever without a request; it is not entered. -/
def iterateRun (body : σ → Dialogue ω ρ (σ ⊕ α)) (s : σ) (rs : List ρ) : Progress ω ρ α :=
  match (body s).run rs with
  | ⟨qs, none⟩ => ⟨qs, none⟩
  | ⟨qs, some (.inr a, rest)⟩ => ⟨qs, some (a, rest)⟩
  | ⟨qs, some (.inl s', rest)⟩ =>
      if rest.length < rs.length then (iterateRun body s' rest).after qs else ⟨qs, none⟩
termination_by rs.length

def iterate (body : σ → Dialogue ω ρ (σ ⊕ α)) (s : σ) : Dialogue ω ρ α := ⟨iterateRun body s⟩

/-- A computation that uses a reply whenever it asks for a repetition. -/
def Waits (x : Dialogue ω ρ (σ ⊕ α)) : Prop :=
  ∀ rs qs s rest, x.run rs = ⟨qs, some (.inl s, rest)⟩ → rest.length < rs.length

/-- A computation uses replies from the front. -/
def Consumes (x : Dialogue ω ρ α) : Prop :=
  ∀ rs qs a rest, x.run rs = ⟨qs, some (a, rest)⟩ → rest.length ≤ rs.length

theorem consumes_pure (a : α) : Consumes (pure a : Dialogue ω ρ α) := by
  intro rs qs a' rest h
  cases h
  exact Nat.le_refl _

theorem Consumes.ask_bind {q : ω} {f : ρ → Dialogue ω ρ α} (hf : ∀ r, Consumes (f r)) :
    ∀ rs qs a rest, (ask q >>= f).run rs = ⟨qs, some (a, rest)⟩ → rest.length < rs.length := by
  intro rs qs a rest h
  cases rs with
  | nil => cases h
  | cons r rs =>
      rw [run_ask_bind_cons] at h
      rcases hr : (f r).run rs with ⟨qs', _ | ⟨a', rest'⟩⟩
      · rw [hr] at h
        cases h
      · rw [hr] at h
        cases h
        exact Nat.lt_succ_of_le (hf r rs qs' a rest hr)

/-- **The loop, unrolled once.** -/
theorem iterate_eq {body : σ → Dialogue ω ρ (σ ⊕ α)} {s : σ} (hbody : Waits (body s)) :
    iterate body s
      = body s >>= fun
          | .inl s' => iterate body s'
          | .inr a => pure a := by
  ext1
  funext rs
  show iterateRun body s rs = _
  rw [iterateRun]
  rcases h : (body s).run rs with ⟨qs, _ | ⟨s' | a, rest⟩⟩
  · rw [run_bind_of_none h]
  · rw [run_bind_of_some h]
    exact if_pos (hbody rs qs s' rest h)
  · rw [run_bind_of_some h]
    simp [Progress.after]

end Dialogue

/-! ## Machines -/

/-- What a state of a machine does: make a request, or end. -/
inductive Move (ω α : Type) where
  | ask (q : ω)
  | done (a : α)

/-- An automaton that makes one request a state. -/
structure Machine (ω ρ α σ : Type) where
  move : σ → Move ω α
  next : σ → ρ → σ

namespace Machine

variable {ω ρ α β σ : Type}

/-- What the machine comes to from a state. -/
def run (M : Machine ω ρ α σ) (s : σ) (rs : List ρ) : Progress ω ρ α :=
  match M.move s with
  | .done a => ⟨[], some (a, rs)⟩
  | .ask q =>
      match rs with
      | [] => ⟨[q], none⟩
      | r :: rs => (M.run (M.next s r) rs).after [q]

variable {M : Machine ω ρ α σ}

theorem run_of_done {s : σ} {a : α} (h : M.move s = .done a) (rs : List ρ) :
    M.run s rs = ⟨[], some (a, rs)⟩ := by
  unfold run
  rw [h]

theorem run_nil_of_ask {s : σ} {q : ω} (h : M.move s = .ask q) : M.run s [] = ⟨[q], none⟩ := by
  unfold run
  rw [h]

theorem run_cons_of_ask {s : σ} {q : ω} (h : M.move s = .ask q) (r : ρ) (rs : List ρ) :
    M.run s (r :: rs) = (M.run (M.next s r) rs).after [q] := by
  rw [run, h]

/-- What a machine and a device exchange between two states. -/
inductive Path (M : Machine ω ρ α σ) : σ → List (ω × ρ) → σ → Prop
  | refl (s : σ) : Path M s [] s
  | step {s s' : σ} {q : ω} {r : ρ} {es : List (ω × ρ)} :
      M.move s = .ask q → Path M (M.next s r) es s' → Path M s ((q, r) :: es) s'

/-- A run is a path: to a state that ends, or to one that still awaits its reply. -/
theorem run_cases (M : Machine ω ρ α σ) (s : σ) (rs : List ρ) :
    ∃ es s', M.Path s es s' ∧
      ((∃ q, M.move s' = .ask q ∧ rs = es.map Prod.snd ∧
          M.run s rs = ⟨es.map Prod.fst ++ [q], none⟩) ∨
        ∃ a rest, M.move s' = .done a ∧ rs = es.map Prod.snd ++ rest ∧
          M.run s rs = ⟨es.map Prod.fst, some (a, rest)⟩) := by
  induction rs generalizing s with
  | nil =>
      cases hmove : M.move s with
      | ask q => exact ⟨[], s, .refl s, Or.inl ⟨q, hmove, rfl, run_nil_of_ask hmove⟩⟩
      | done a => exact ⟨[], s, .refl s, Or.inr ⟨a, [], hmove, rfl, run_of_done hmove []⟩⟩
  | cons r rs ih =>
      cases hmove : M.move s with
      | done a => exact ⟨[], s, .refl s, Or.inr ⟨a, r :: rs, hmove, rfl, run_of_done hmove _⟩⟩
      | ask q =>
          obtain ⟨es, s', hpath, hends⟩ := ih (M.next s r)
          refine ⟨(q, r) :: es, s', .step hmove hpath, ?_⟩
          rcases hends with ⟨q', hq', hrs, hrun⟩ | ⟨a, rest, ha, hrs, hrun⟩
          · exact Or.inl ⟨q', hq', by rw [hrs]; rfl, by rw [run_cons_of_ask hmove, hrun]; rfl⟩
          · exact Or.inr ⟨a, rest, ha, by rw [hrs]; rfl, by rw [run_cons_of_ask hmove, hrun]; rfl⟩

/-- The path of a run that ended. -/
theorem path_of_run {s : σ} {rs rest : List ρ} {qs : List ω} {a : α}
    (h : M.run s rs = ⟨qs, some (a, rest)⟩) :
    ∃ es s', M.Path s es s' ∧ M.move s' = .done a ∧ qs = es.map Prod.fst ∧
      rs = es.map Prod.snd ++ rest := by
  obtain ⟨es, s', hpath, ⟨q, -, -, hrun⟩ | ⟨a', rest', hdone, hrs, hrun⟩⟩ := M.run_cases s rs
  · rw [h] at hrun
    cases hrun
  · rw [h] at hrun
    cases hrun
    exact ⟨es, s', hpath, hdone, rfl, hrs⟩

/-- Along a path, the machine asks what it asked and gets to where it got, whatever comes after. -/
theorem Path.run_eq {s s' : σ} {es : List (ω × ρ)} (hpath : M.Path s es s') (rs : List ρ) :
    M.run s (es.map Prod.snd ++ rs) = (M.run s' rs).after (es.map Prod.fst) := by
  induction hpath with
  | refl s => rfl
  | step hmove _ ih =>
      rw [List.map_cons, List.cons_append, run_cons_of_ask hmove, ih, Progress.after_after]
      rfl

theorem Path.trans {s s' s'' : σ} {es es' : List (ω × ρ)} (h : M.Path s es s')
    (h' : M.Path s' es' s'') : M.Path s (es ++ es') s'' := by
  induction h with
  | refl s => exact h'
  | step hmove _ ih => exact .step hmove (ih h')

theorem Path.snoc {s s' : σ} {es : List (ω × ρ)} {q : ω} (h : M.Path s es s') (hq : M.move s' = .ask q)
    (r : ρ) : M.Path s (es ++ [(q, r)]) (M.next s' r) :=
  h.trans (.step hq (.refl _))

/-- No path leaves a state that ends. -/
theorem Path.eq_of_done {s s' : σ} {es : List (ω × ρ)} {a : α} (hpath : M.Path s es s')
    (h : M.move s = .done a) : es = [] ∧ s' = s := by
  cases hpath with
  | refl => exact ⟨rfl, rfl⟩
  | step hmove _ =>
      rw [h] at hmove
      cases hmove

/-- A run that has not ended has used all its replies, and awaits one more. -/
theorem length_requests_of_none {s : σ} {rs : List ρ} (h : (M.run s rs).result = none) :
    (M.run s rs).requests.length = rs.length + 1 := by
  obtain ⟨es, s', -, ⟨q, -, hrs, hrun⟩ | ⟨a, rest, -, -, hrun⟩⟩ := M.run_cases s rs
  · rw [hrun, hrs]
    simp
  · rw [hrun] at h
    cases h

/-- The machine that ends with another value. -/
def map (g : α → β) (M : Machine ω ρ α σ) : Machine ω ρ β σ where
  move s :=
    match M.move s with
    | .ask q => .ask q
    | .done a => .done (g a)
  next := M.next

theorem move_map_of_ask (g : α → β) {s : σ} {q : ω} (h : M.move s = .ask q) :
    (M.map g).move s = .ask q := by
  simp only [map, h]

theorem move_map_of_done (g : α → β) {s : σ} {a : α} (h : M.move s = .done a) :
    (M.map g).move s = .done (g a) := by
  simp only [map, h]

theorem run_map (g : α → β) (s : σ) (rs : List ρ) : (M.map g).run s rs = (M.run s rs).map g := by
  induction rs generalizing s with
  | nil =>
      cases hmove : M.move s with
      | ask q => rw [run_nil_of_ask hmove, run_nil_of_ask (move_map_of_ask g hmove)]; rfl
      | done a => rw [run_of_done hmove, run_of_done (move_map_of_done g hmove)]; rfl
  | cons r rs ih =>
      cases hmove : M.move s with
      | done a => rw [run_of_done hmove, run_of_done (move_map_of_done g hmove)]; rfl
      | ask q =>
          rw [run_cons_of_ask hmove, run_cons_of_ask (move_map_of_ask g hmove),
            Progress.map_after]
          exact congrArg (Progress.after [q]) (ih (M.next s r))

end Machine

/-! ## Following a machine -/

namespace Dialogue

variable {ω ρ α σ : Type} {M : Machine ω ρ α σ}

/-- On up to `n` replies, the computation does what the machine does from `s`. -/
def Follows (n : ℕ) (x : Dialogue ω ρ α) (M : Machine ω ρ α σ) (s : σ) : Prop :=
  ∀ rs, rs.length ≤ n → x.run rs = M.run s rs

theorem Follows.pure {n : ℕ} {s : σ} {a : α} (h : M.move s = .done a) :
    Follows n (Pure.pure a) M s :=
  fun rs _ => (Machine.run_of_done h rs).symm

/-- A request is the machine's, and what follows each reply has one reply fewer to go by. -/
theorem Follows.ask {n : ℕ} {s : σ} {q : ω} {f : ρ → Dialogue ω ρ α} (h : M.move s = .ask q)
    (hf : ∀ r, ∀ m < n, Follows m (f r) M (M.next s r)) :
    Follows n (Dialogue.ask q >>= f) M s := by
  intro rs hrs
  cases rs with
  | nil => rw [run_ask_bind_nil, Machine.run_nil_of_ask h]
  | cons r rs =>
      rw [run_ask_bind_cons, Machine.run_cons_of_ask h]
      exact congrArg (Progress.after [q]) (hf r rs.length hrs rs (Nat.le_refl _))

theorem Follows.run_eq {x : Dialogue ω ρ α} {s : σ} (h : ∀ n, Follows n x M s) (rs : List ρ) :
    x.run rs = M.run s rs :=
  h rs.length rs (Nat.le_refl _)

end Dialogue

/-! ## Against a device -/

section Device

variable {ω ρ α β δ : Type} {reacts : δ → ω → ρ → δ → Prop}

/-- A device that `reacts` replies to a list of requests. -/
inductive Served (reacts : δ → ω → ρ → δ → Prop) : δ → List (ω × ρ) → δ → Prop
  | refl (d : δ) : Served reacts d [] d
  | step {d d' d'' : δ} {q : ω} {r : ρ} {es : List (ω × ρ)} :
      reacts d q r d' → Served reacts d' es d'' → Served reacts d ((q, r) :: es) d''

theorem Served.mono {reacts' : δ → ω → ρ → δ → Prop} {d d' : δ} {es : List (ω × ρ)}
    (h : Served reacts d es d') (hle : ∀ d q r d', reacts d q r d' → reacts' d q r d') :
    Served reacts' d es d' := by
  induction h with
  | refl => exact .refl _
  | step hreact _ ih => exact .step (hle _ _ _ _ hreact) ih

namespace Dialogue

/-- Against the device, from `d`, the computation may return `a` and leave the device in `d'`. -/
def Yields (reacts : δ → ω → ρ → δ → Prop) (x : Dialogue ω ρ α) (d : δ) (a : α) (d' : δ) : Prop :=
  ∃ es, x.run (es.map Prod.snd) = ⟨es.map Prod.fst, some (a, [])⟩ ∧ Served reacts d es d'

theorem Yields.pure_inv {a b : α} {d d' : δ} (h : Yields reacts (Pure.pure a) d b d') :
    b = a ∧ d' = d := by
  obtain ⟨es, hrun, hserved⟩ := h
  obtain ⟨hes, rfl, -⟩ := run_pure_inv hrun
  obtain rfl := List.map_eq_nil_iff.1 hes
  cases hserved
  exact ⟨rfl, rfl⟩

theorem Yields.ask_bind_inv {q : ω} {f : ρ → Dialogue ω ρ β} {d d' : δ} {b : β}
    (h : Yields reacts (ask q >>= f) d b d') :
    ∃ r d₁, reacts d q r d₁ ∧ Yields reacts (f r) d₁ b d' := by
  obtain ⟨es, hrun, hserved⟩ := h
  cases hserved with
  | refl => cases hrun
  | @step _ d₁ _ q' r es hreact hserved =>
      rw [List.map_cons, run_ask_bind_cons] at hrun
      rcases hf : (f r).run (es.map Prod.snd) with ⟨qs, result⟩
      rw [hf] at hrun
      cases hrun
      exact ⟨r, d₁, hreact, es, hf, hserved⟩

end Dialogue

end Device
