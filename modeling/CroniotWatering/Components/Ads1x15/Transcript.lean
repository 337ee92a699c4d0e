import CroniotWatering.Components.Ads1x15.Sample

set_option autoImplicit false

/-! # What a sample puts on the bus

The requests of the automaton, by the replies to them: which transfers it can make and in what order,
that a failed transfer is its last, that it fetches a result only after the converter has said that it
is not busy, and when it ends. -/

namespace CroniotWatering.Espp.Ads1x15

variable (ads : Ads1x15) (channel : Fin 4)

/-- The transfers that configure a conversion and start it. -/
def setupTransfers : List Transfer :=
  [.write ads.base.address (pointerConfig :: BasePeripheral.bigEndian (ads.configWord channel)),
    .write ads.base.address (pointerHithresh :: BasePeripheral.bigEndian 0x8000),
    .write ads.base.address (pointerLowthresh :: BasePeripheral.bigEndian 0x0000)]

/-- The transfers that ask whether the conversion is complete. -/
def pollTransfers : List Transfer :=
  [.write ads.base.address [pointerConfig], .read ads.base.address 2]

/-- The transfers that read the result. -/
def fetchTransfers : List Transfer :=
  [.write ads.base.address [pointerConvert], .read ads.base.address 2]

/-- The transfers of a sample that has to ask `polls` times. -/
def script (polls : ℕ) : List Transfer :=
  ads.setupTransfers channel
    ++ ((List.replicate polls ads.pollTransfers).flatten ++ ads.fetchTransfers)

/-- What is left of the script in a state, with `polls` more polls to begin. -/
def remaining (polls : ℕ) : Phase → List Transfer
  | .configure => ads.script channel polls
  | .setHithresh => (ads.script channel polls).drop 1
  | .setLowthresh => (ads.script channel polls).drop 2
  | .selectConfig => (List.replicate polls ads.pollTransfers).flatten ++ ads.fetchTransfers
  | .readConfig =>
      .read ads.base.address 2
        :: ((List.replicate polls ads.pollTransfers).flatten ++ ads.fetchTransfers)
  | .selectConvert => ads.fetchTransfers
  | .readConvert => [.read ads.base.address 2]
  | .finished _ => []

variable {ads channel}

theorem run_finished (outcome : Ads1x15.Outcome) (rs : List Reply) :
    (ads.sample channel).run (.finished outcome) rs = ⟨[], some (outcome, rs)⟩ :=
  Machine.run_of_done rfl rs

/-! ## The order of the transfers -/

/-- What is left of the script in a state is its request, and what is left in the next state. -/
theorem exists_remaining {phase : Phase} {q : Transfer} (hq : phase.move ads channel = .ask q)
    (byte : ℕ → UInt8) (polls : ℕ) :
    ∃ polls', ads.remaining channel polls' phase
      = q :: ads.remaining channel polls (phase.advance ads byte) := by
  cases phase with
  | finished outcome => cases hq
  | selectConfig =>
      cases hq
      exact ⟨polls + 1, by rw [remaining, List.replicate_succ]; rfl⟩
  | readConfig =>
      cases hq
      by_cases hbusy : notBusy byte
      · exact ⟨0, by simp [Phase.advance, hbusy, remaining]⟩
      · exact ⟨polls, by simp [Phase.advance, hbusy, remaining]⟩
  | _ =>
      cases hq
      exact ⟨polls, rfl⟩

theorem exists_prefix_singleton {phase : Phase} {q : Transfer} (hq : phase.move ads channel = .ask q) :
    ∃ polls, [q] <+: ads.remaining channel polls phase := by
  obtain ⟨polls, hpolls⟩ := exists_remaining hq (fun _ => 0) 0
  exact ⟨polls, _, hpolls.symm⟩

/-- A sample makes the requests of the script, with some number of polls, up to some point. -/
theorem requests_prefix (phase : Phase) (rs : List Reply) :
    ∃ polls, ((ads.sample channel).run phase rs).requests <+: ads.remaining channel polls phase := by
  induction rs generalizing phase with
  | nil =>
      cases hmove : phase.move ads channel with
      | done outcome =>
          rw [Machine.run_of_done (M := ads.sample channel) hmove]
          exact ⟨0, List.nil_prefix⟩
      | ask q =>
          rw [Machine.run_nil_of_ask (M := ads.sample channel) hmove]
          exact exists_prefix_singleton hmove
  | cons reply rs ih =>
      cases hmove : phase.move ads channel with
      | done outcome =>
          rw [Machine.run_of_done (M := ads.sample channel) hmove]
          exact ⟨0, List.nil_prefix⟩
      | ask q =>
          rw [Machine.run_cons_of_ask (M := ads.sample channel) hmove, Progress.requests_after]
          cases reply with
          | error =>
              obtain ⟨polls, hpolls⟩ := exists_prefix_singleton hmove
              refine ⟨polls, ?_⟩
              show [q] ++ ((ads.sample channel).run (.finished none) rs).requests <+: _
              rwa [run_finished]
          | ok byte =>
              obtain ⟨polls, hpolls⟩ := ih (phase.advance ads byte)
              obtain ⟨polls', hpolls'⟩ := exists_remaining hmove byte polls
              refine ⟨polls', ?_⟩
              rw [hpolls']
              exact List.cons_prefix_cons.2 ⟨rfl, hpolls⟩

/-! ## What the last replies must have been -/

/-- After a transfer that failed there is no other. -/
theorem length_requests_of_error {phase : Phase} {rs : List Reply} {i : ℕ} (h : rs[i]? = some .error) :
    ((ads.sample channel).run phase rs).requests.length ≤ i + 1 := by
  induction rs generalizing phase i with
  | nil => cases h
  | cons reply rs ih =>
      cases hmove : phase.move ads channel with
      | done outcome =>
          rw [Machine.run_of_done (M := ads.sample channel) hmove]
          exact Nat.zero_le _
      | ask q =>
          rw [Machine.run_cons_of_ask (M := ads.sample channel) hmove, Progress.requests_after]
          cases i with
          | zero =>
              cases h
              show ([q] ++ ((ads.sample channel).run (.finished none) rs).requests).length ≤ 1
              rw [run_finished]
              exact le_refl _
          | succ i =>
              have hle := @ih ((ads.sample channel).next phase reply) i h
              simp only [List.length_append, List.length_singleton]
              omega

/-- The state that asks for the result comes after a reply that says "not busy". -/
theorem notBusy_of_selectConvert {phase : Phase} {q : Transfer} {byte : ℕ → UInt8}
    (hq : phase.move ads channel = .ask q) (h : phase.advance ads byte = .selectConvert) :
    notBusy byte := by
  cases phase with
  | readConfig =>
      by_contra hbusy
      simp [Phase.advance, hbusy] at h
  | finished outcome => cases hq
  | _ => cases h

/-- Only one state makes that request. -/
theorem eq_selectConvert_of_move {phase : Phase}
    (h : phase.move ads channel = .ask (.write ads.base.address [pointerConvert])) :
    phase = .selectConvert := by
  cases phase <;>
    simp [Phase.move, BasePeripheral.bigEndian, pointerConfig, pointerConvert] at h ⊢

/-- **The result is asked for right after the converter has said that it is not busy.** -/
theorem notBusy_of_fetch {phase : Phase} {rs : List Reply} {i : ℕ}
    (h : ((ads.sample channel).run phase rs).requests[i]?
      = some (.write ads.base.address [pointerConvert])) :
    (i = 0 ∧ phase = .selectConvert) ∨
      ∃ j byte, i = j + 1 ∧ rs[j]? = some (.ok byte) ∧ notBusy byte := by
  induction rs generalizing phase i with
  | nil =>
      cases hmove : phase.move ads channel with
      | done outcome =>
          rw [Machine.run_of_done (M := ads.sample channel) hmove] at h
          cases h
      | ask q =>
          rw [Machine.run_nil_of_ask (M := ads.sample channel) hmove] at h
          cases i with
          | succ i => cases h
          | zero =>
              cases h
              exact Or.inl ⟨rfl, eq_selectConvert_of_move hmove⟩
  | cons reply rs ih =>
      cases hmove : phase.move ads channel with
      | done outcome =>
          rw [Machine.run_of_done (M := ads.sample channel) hmove] at h
          cases h
      | ask q =>
          rw [Machine.run_cons_of_ask (M := ads.sample channel) hmove, Progress.requests_after] at h
          cases i with
          | zero =>
              cases h
              exact Or.inl ⟨rfl, eq_selectConvert_of_move hmove⟩
          | succ i =>
              right
              rcases ih h with ⟨rfl, hnext⟩ | ⟨j, byte, rfl, hj, hbusy⟩
              · cases reply with
                | error => cases hnext
                | ok byte => exact ⟨0, byte, rfl, rfl, notBusy_of_selectConvert hmove hnext⟩
              · exact ⟨j + 1, byte, rfl, hj, hbusy⟩

/-! ## What it comes to -/

/-- The outcome that the replies of a complete sample stand for: the last one carries the result. -/
def outcomeOf (ads : Ads1x15) (used : List Reply) : Ads1x15.Outcome :=
  if used.all Reply.isOk then
    match used.getLast? with
    | some (.ok byte) => some (ads.decode (BasePeripheral.ofBigEndian (byte 0) (byte 1)))
    | _ => none
  else none

theorem outcomeOf_cons_ok (byte : ℕ → UInt8) {used : List Reply} (hne : used ≠ []) :
    ads.outcomeOf (.ok byte :: used) = ads.outcomeOf used := by
  simp only [outcomeOf, List.all_cons, Reply.isOk, Bool.true_and, List.getLast?_cons,
    List.getLast?_eq_some_getLast hne, Option.getD_some]

/-- A transfer that succeeds ends the sample only if it brought the result. -/
theorem outcome_of_advance {phase : Phase} {q : Transfer} {byte : ℕ → UInt8}
    {outcome : Ads1x15.Outcome} (hq : phase.move ads channel = .ask q)
    (h : phase.advance ads byte = .finished outcome) :
    outcome = some (ads.decode (BasePeripheral.ofBigEndian (byte 0) (byte 1))) := by
  cases phase with
  | readConvert =>
      cases h
      rfl
  | readConfig => by_cases hbusy : notBusy byte <;> simp [Phase.advance, hbusy] at h
  | finished outcome => cases hq
  | _ => cases h

/-- Along a path to its end, a sample comes to the outcome of its replies. -/
theorem outcome_of_path {phase : Phase} {es : List (Transfer × Reply)} {outcome : Ads1x15.Outcome}
    (hpath : (ads.sample channel).Path phase es (.finished outcome)) (hne : es ≠ []) :
    outcome = ads.outcomeOf (es.map Prod.snd) := by
  generalize hend : Phase.finished outcome = phase' at hpath
  induction hpath with
  | refl s => exact absurd rfl hne
  | @step phase phase' q reply es hmove hpath ih =>
      subst hend
      cases reply with
      | error =>
          -- the next state has ended, so nothing follows
          obtain ⟨rfl, hend⟩ := hpath.eq_of_done (a := none) rfl
          cases hend
          rfl
      | ok byte =>
          by_cases hes : es = []
          · subst hes
            generalize hnext : (ads.sample channel).next phase (.ok byte) = phase' at hpath
            cases hpath
            rw [outcome_of_advance hmove hnext]
            rfl
          · rw [ih hes rfl, List.map_cons, outcomeOf_cons_ok byte (by simpa using hes)]

/-! ## When it ends -/

theorem isOk_of_awaiting {phase : Phase} {rs : List Reply}
    (h : ((ads.sample channel).run phase rs).result = none) (i : ℕ) : rs[i]? ≠ some .error := by
  intro hi
  have hlength : ((ads.sample channel).run phase rs).requests.length ≤ i + 1 :=
    length_requests_of_error hi
  have hlt : i < rs.length := (List.getElem?_eq_some_iff.1 hi).1
  rw [Machine.length_requests_of_none h] at hlength
  omega

theorem result_error {phase : Phase} {q : Transfer} (hq : phase.move ads channel = .ask q)
    (rs : List Reply) :
    ((ads.sample channel).run phase (.error :: rs)).result = some (none, rs) := by
  rw [Machine.run_cons_of_ask (M := ads.sample channel) hq, Progress.result_after]
  show ((ads.sample channel).run (.finished none) rs).result = _
  rw [run_finished]

theorem result_ok {phase : Phase} {q : Transfer} (hq : phase.move ads channel = .ask q)
    (byte : ℕ → UInt8) (rs : List Reply) :
    ((ads.sample channel).run phase (.ok byte :: rs)).result
      = ((ads.sample channel).run (phase.advance ads byte) rs).result := by
  rw [Machine.run_cons_of_ask (M := ads.sample channel) hq]
  rfl

/-- Two replies end the reading of the result. -/
theorem length_le_of_fetching {rs : List Reply}
    (h : ((ads.sample channel).run .selectConvert rs).result = none) : rs.length ≤ 1 := by
  match rs, h with
  | [], _ => exact Nat.zero_le 1
  | [_], _ => exact Nat.le_refl 1
  | .error :: _ :: rs, h =>
      rw [result_error rfl] at h
      cases h
  | .ok _ :: .error :: rs, h =>
      rw [result_ok rfl, Phase.advance, result_error rfl] at h
      cases h
  | .ok _ :: .ok byte :: rs, h =>
      rw [result_ok rfl, Phase.advance, result_ok rfl, Phase.advance, run_finished] at h
      cases h

/-- Two replies are one round of the waiting loop. -/
theorem result_poll (b₀ b₁ : ℕ → UInt8) (rs : List Reply) :
    ((ads.sample channel).run .selectConfig (.ok b₀ :: .ok b₁ :: rs)).result
      = if notBusy b₁ then ((ads.sample channel).run .selectConvert rs).result
        else ((ads.sample channel).run .selectConfig rs).result := by
  rw [result_ok rfl, Phase.advance, result_ok rfl, Phase.advance]
  split <;> rfl

/-- Once the converter has said in round `k` that it is not busy, two more replies end the sample. -/
theorem length_le_of_notBusy {rs : List Reply} {k : ℕ} {byte : ℕ → UInt8}
    (h : ((ads.sample channel).run .selectConfig rs).result = none)
    (hk : rs[2 * k + 1]? = some (.ok byte)) (hbusy : notBusy byte) : rs.length ≤ 2 * k + 3 := by
  induction k generalizing rs with
  | zero =>
      match rs, h, hk with
      | .error :: _ :: rs, h, _ =>
          rw [result_error rfl] at h
          cases h
      | .ok _ :: .ok byte' :: rs, h, hk =>
          cases hk
          rw [result_poll, if_pos hbusy] at h
          have hle := length_le_of_fetching h
          simp only [List.length_cons]
          omega
  | succ k ih =>
      match rs, h, hk with
      | .error :: _ :: rs, h, _ =>
          rw [result_error rfl] at h
          cases h
      | .ok _ :: .error :: rs, h, _ =>
          rw [result_ok rfl, Phase.advance, result_error rfl] at h
          cases h
      | .ok _ :: .ok byte' :: rs, h, hk =>
          rw [result_poll] at h
          simp only [List.length_cons]
          split at h
          · have hle := length_le_of_fetching h
            omega
          · have hle := ih h hk
            omega

/-- The waiting loop ends only through a failed transfer or a converter that is not busy. -/
theorem exists_of_wait_ended {n : ℕ} {rs : List Reply} (hn : rs.length ≤ n)
    (h : ((ads.sample channel).run .selectConfig rs).result ≠ none) :
    (∃ i : ℕ, rs[i]? = some .error) ∨
      ∃ (k : ℕ) (byte : ℕ → UInt8), rs[2 * k + 1]? = some (.ok byte) ∧ notBusy byte := by
  induction n using Nat.strong_induction_on generalizing rs with
  | _ n ih =>
      match rs, h, hn with
      | [], h, _ => exact absurd rfl h
      | [.ok _], h, _ => exact absurd rfl h
      | .error :: rs, _, _ => exact Or.inl ⟨0, rfl⟩
      | .ok _ :: .error :: rs, _, _ => exact Or.inl ⟨1, rfl⟩
      | .ok _ :: .ok byte :: rs, h, hn =>
          rw [result_poll] at h
          split at h
          · next hbusy => exact Or.inr ⟨0, byte, rfl, hbusy⟩
          · simp only [List.length_cons] at hn
            rcases ih (n - 2) (by omega) (by omega) h with ⟨i, hi⟩ | ⟨k, byte', hk, hbusy⟩
            · exact Or.inl ⟨i + 2, hi⟩
            · exact Or.inr ⟨k + 1, byte', hk, hbusy⟩

theorem result_setup (b₀ b₁ b₂ : ℕ → UInt8) (rs : List Reply) :
    ((ads.sample channel).run .configure (.ok b₀ :: .ok b₁ :: .ok b₂ :: rs)).result
      = ((ads.sample channel).run .selectConfig rs).result := by
  rw [result_ok rfl, Phase.advance, result_ok rfl, Phase.advance, result_ok rfl, Phase.advance]

/-- A sample ends only through a failed transfer or a converter that is not busy. -/
theorem exists_of_ended {rs : List Reply}
    (h : ((ads.sample channel).run .configure rs).result ≠ none) :
    (∃ i : ℕ, rs[i]? = some .error) ∨
      ∃ (k : ℕ) (byte : ℕ → UInt8), rs[2 * k + 4]? = some (.ok byte) ∧ notBusy byte := by
  match rs, h with
  | [], h => exact absurd rfl h
  | [.ok _], h => exact absurd rfl h
  | [.ok _, .ok _], h => exact absurd rfl h
  | .error :: _, _ => exact Or.inl ⟨0, rfl⟩
  | .ok _ :: .error :: _, _ => exact Or.inl ⟨1, rfl⟩
  | .ok _ :: .ok _ :: .error :: _, _ => exact Or.inl ⟨2, rfl⟩
  | .ok _ :: .ok _ :: .ok _ :: rs, h =>
      rw [result_setup] at h
      rcases exists_of_wait_ended (Nat.le_refl _) h with ⟨i, hi⟩ | ⟨k, byte, hk, hbusy⟩
      · exact Or.inl ⟨i + 3, hi⟩
      · exact Or.inr ⟨k, byte, hk, hbusy⟩

/-- A sample that still awaits a reply long after the converter was not busy has met a failure. -/
theorem length_le_of_awaiting {rs : List Reply} {k : ℕ} {byte : ℕ → UInt8}
    (h : ((ads.sample channel).run .configure rs).result = none)
    (hk : rs[2 * k + 4]? = some (.ok byte)) (hbusy : notBusy byte) : rs.length ≤ 2 * k + 6 := by
  have hok : ∀ i : ℕ, rs[i]? ≠ some .error := isOk_of_awaiting h
  match rs, h, hk, hok with
  | .error :: _, _, _, hok => exact absurd rfl (hok 0)
  | .ok _ :: .error :: _, _, _, hok => exact absurd rfl (hok 1)
  | .ok _ :: .ok _ :: .error :: _, _, _, hok => exact absurd rfl (hok 2)
  | .ok _ :: .ok _ :: .ok _ :: rs, h, hk, _ =>
      rw [result_setup] at h
      have hle := length_le_of_notBusy h hk hbusy
      simp only [List.length_cons]
      omega

/-- **When a sample ends**, on an endless sequence of replies: one of them is a failure, or the
    converter says at some poll that it is not busy. -/
theorem ended_iff (replies : ℕ → Reply) :
    (∃ n, ((ads.sample channel).run .configure ((List.range n).map replies)).result ≠ none)
      ↔ (∃ i, replies i = .error) ∨ ∃ k byte, replies (2 * k + 4) = .ok byte ∧ notBusy byte := by
  have hget : ∀ n i : ℕ, i < n → ((List.range n).map replies)[i]? = some (replies i) := by
    intro n i hi
    simp [hi]
  have hsome : ∀ (n i : ℕ) (reply : Reply), ((List.range n).map replies)[i]? = some reply →
      replies i = reply := by
    intro n i reply h
    obtain ⟨hi, rfl⟩ := List.getElem?_eq_some_iff.1 h
    simp
  constructor
  · rintro ⟨n, hn⟩
    rcases exists_of_ended hn with ⟨i, hi⟩ | ⟨k, byte, hk, hbusy⟩
    · exact Or.inl ⟨i, hsome n i _ hi⟩
    · exact Or.inr ⟨k, byte, hsome n _ _ hk, hbusy⟩
  · rintro (⟨i, hi⟩ | ⟨k, byte, hk, hbusy⟩)
    · refine ⟨i + 1, fun h => ?_⟩
      exact isOk_of_awaiting h i (by rw [hget (i + 1) i (Nat.lt_succ_self i), hi])
    · refine ⟨2 * k + 7, fun h => ?_⟩
      have hle := length_le_of_awaiting h
        (by rw [hget (2 * k + 7) (2 * k + 4) (by omega), hk]) hbusy
      rw [List.length_map, List.length_range] at hle
      omega

end CroniotWatering.Espp.Ads1x15
