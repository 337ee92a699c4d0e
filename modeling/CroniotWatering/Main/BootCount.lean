import Mathlib.Data.List.Basic

set_option autoImplicit false

/-! # The boot counter

`incrementAndGetBootCount` of `main/main.cpp`: read the count from non-volatile storage, add one, write
it back. Any of the four calls may fail. A boot on which only the read fails writes 1 over whatever
count was stored. -/

namespace CroniotWatering.BootCount

/-- `esp_err_t`, as far as the code tells the errors apart. -/
inductive EspErr where
  | ok
  | nvsNotFound
  | fail
deriving DecidableEq

/-- How the four calls of one boot turn out. -/
structure NvsCalls where
  openErr : EspErr
  getErr : EspErr
  setErr : EspErr
  commitErr : EspErr
deriving DecidableEq

/-- `nvs_get_u32` into `count`: a call that fails leaves it unchanged, and one that works may find
    nothing. -/
def nvsGetU32 (stored : Option UInt32) (outcome : EspErr) (count : UInt32) : EspErr × UInt32 :=
  match outcome, stored with
  | .ok, some value => (.ok, value)
  | .ok, none => (.nvsNotFound, count)
  | err, _ => (err, count)

/-- What a boot leaves behind: the stored count, the one it returns, and the failed calls it logs. -/
structure BootResult where
  stored : Option UInt32
  returned : UInt32
  logged : List (String × EspErr)
deriving DecidableEq

def incrementAndGetBootCount (stored : Option UInt32) (calls : NvsCalls) : BootResult :=
  if calls.openErr ≠ .ok then ⟨stored, 0, [("nvs_open(croniot_boot)", calls.openErr)]⟩
  else
    let (err, count) := nvsGetU32 stored calls.getErr 0
    -- any other failure is logged, and the source goes on with the count it has: 0
    let getLog := if err ≠ .ok ∧ err ≠ .nvsNotFound then [("nvs_get_u32(count)", err)] else []
    let count := count + 1
    if calls.setErr ≠ .ok then
      ⟨stored, count, getLog ++ [("nvs_set_u32(count)", calls.setErr)]⟩
    else if calls.commitErr ≠ .ok then
      ⟨stored, count, getLog ++ [("nvs_commit", calls.commitErr)]⟩
    else ⟨some count, count, getLog⟩

/-! ## Histories of boots -/

/-- The stored count after some boots. -/
def storedAfter (start : Option UInt32) (boots : List NvsCalls) : Option UInt32 :=
  boots.foldl (fun stored calls => (incrementAndGetBootCount stored calls).stored) start

/-- The stored count as a number; nothing stored is 0. -/
def countOf : Option UInt32 → ℕ
  | none => 0
  | some count => count.toNat

/-- All calls succeed, but for a read that finds nothing because there is nothing. -/
def Succeeds (stored : Option UInt32) (calls : NvsCalls) : Prop :=
  calls.openErr = .ok ∧
    (calls.getErr = .ok ∨ (stored = none ∧ calls.getErr = .nvsNotFound)) ∧
    calls.setErr = .ok ∧ calls.commitErr = .ok

/-- What is asked of one boot. -/
structure Counts (stored : Option UInt32) (calls : NvsCalls) : Prop where
  keeps : countOf stored < UInt32.size - 1 →
    countOf stored ≤ countOf (incrementAndGetBootCount stored calls).stored
  increments : countOf stored < UInt32.size - 1 → Succeeds stored calls →
    countOf (incrementAndGetBootCount stored calls).stored = countOf stored + 1

/-- The counter does so on every boot of a history. -/
def NeverGoesBack (start : Option UInt32) (boots : List NvsCalls) : Prop :=
  ∀ before calls after, boots = before ++ calls :: after → Counts (storedAfter start before) calls

/-- The read of a count fails, and everything else works. -/
def Forgets (stored : Option UInt32) (calls : NvsCalls) : Prop :=
  (1 < countOf stored ∧ countOf stored < UInt32.size - 1) ∧
    calls.openErr = .ok ∧ calls.getErr ≠ .ok ∧ calls.setErr = .ok ∧ calls.commitErr = .ok

/-! ## One boot -/

/-- A boot writes exactly if the store opens and both writing calls work. -/
def Writes (calls : NvsCalls) : Prop :=
  calls.openErr = .ok ∧ calls.setErr = .ok ∧ calls.commitErr = .ok

theorem stored_of_not_writes (stored : Option UInt32) {calls : NvsCalls} (h : ¬ Writes calls) :
    (incrementAndGetBootCount stored calls).stored = stored := by
  unfold incrementAndGetBootCount
  split
  · rfl
  · next hopen =>
      by_cases hset : calls.setErr = .ok
      · have hcommit : calls.commitErr ≠ .ok := fun hcommit =>
          h ⟨not_not.1 hopen, hset, hcommit⟩
        simp [hset, hcommit]
      · simp [hset]

/-- What it writes is one more than what it has read, which is 0 after a failed read. -/
theorem stored_of_writes (stored : Option UInt32) {calls : NvsCalls} (h : Writes calls) :
    (incrementAndGetBootCount stored calls).stored
      = some ((nvsGetU32 stored calls.getErr 0).2 + 1) := by
  obtain ⟨hopen, hset, hcommit⟩ := h
  simp [incrementAndGetBootCount, hopen, hset, hcommit]

theorem countOf_add_one {count : UInt32} (h : count.toNat < UInt32.size - 1) :
    countOf (some (count + 1)) = count.toNat + 1 := by
  show (count + 1).toNat = _
  rw [UInt32.toNat_add]
  exact Nat.mod_eq_of_lt (Nat.add_lt_of_lt_sub h)

/-- A read that works yields the count, 0 for an empty store. -/
theorem nvsGetU32_ok (stored : Option UInt32) :
    (nvsGetU32 stored .ok 0).2.toNat = countOf stored := by
  cases stored <;> rfl

theorem nvsGetU32_of_ne_ok (stored : Option UInt32) {err : EspErr} (h : err ≠ .ok) :
    (nvsGetU32 stored err 0).2 = 0 := by
  cases err with
  | ok => exact absurd rfl h
  | nvsNotFound | fail => rfl

/-- One boot keeps the count if it does not forget it. -/
theorem counts_iff (stored : Option UInt32) (calls : NvsCalls) :
    Counts stored calls ↔ ¬ Forgets stored calls := by
  constructor
  · rintro ⟨hkeeps, -⟩ ⟨⟨hlo, hhi⟩, hopen, hget, hset, hcommit⟩
    -- the boot writes 1 over a count above 1
    have hle := hkeeps hhi
    rw [stored_of_writes stored ⟨hopen, hset, hcommit⟩, nvsGetU32_of_ne_ok stored hget,
      countOf_add_one (by decide)] at hle
    exact absurd hle (by simpa using hlo)
  · intro hforgets
    have hread : Writes calls → calls.getErr = .ok → countOf stored < UInt32.size - 1 →
        countOf (incrementAndGetBootCount stored calls).stored = countOf stored + 1 := by
      intro hwrites hget hhi
      rw [stored_of_writes stored hwrites, hget,
        countOf_add_one (by rw [nvsGetU32_ok]; exact hhi), nvsGetU32_ok]
    refine ⟨fun hhi => ?_, fun hhi hsucceeds => ?_⟩
    · by_cases hwrites : Writes calls
      · by_cases hget : calls.getErr = .ok
        · rw [hread hwrites hget hhi]
          exact Nat.le_succ _
        · -- the boot writes 1, and no more than 1 was stored
          have hlow : countOf stored ≤ 1 := by
            by_contra hhigh
            exact hforgets ⟨⟨Nat.lt_of_not_le hhigh, hhi⟩, hwrites.1, hget, hwrites.2⟩
          rw [stored_of_writes stored hwrites, nvsGetU32_of_ne_ok stored hget,
            countOf_add_one (by decide)]
          exact hlow
      · exact Nat.le_of_eq (congrArg countOf (stored_of_not_writes stored hwrites).symm)
    · obtain ⟨hopen, hget, hset, hcommit⟩ := hsucceeds
      rcases hget with hget | ⟨rfl, hget⟩
      · exact hread ⟨hopen, hset, hcommit⟩ hget hhi
      · rw [stored_of_writes none ⟨hopen, hset, hcommit⟩, hget]
        rfl

/-! ## Every boot -/

/-- The first boot of a history, and the history of the others. -/
theorem NeverGoesBack.cons {start : Option UInt32} {calls : NvsCalls} {boots : List NvsCalls}
    (h : NeverGoesBack start (calls :: boots)) :
    Counts start calls ∧ NeverGoesBack (incrementAndGetBootCount start calls).stored boots := by
  refine ⟨h [] calls boots rfl, ?_⟩
  rintro before calls' after rfl
  exact h (calls :: before) calls' after rfl

/-- Boot by boot, the count is kept over the whole history. -/
theorem NeverGoesBack.countOf_le {start : Option UInt32} {boots : List NvsCalls}
    (h : NeverGoesBack start boots)
    (hbelow : ∀ before, before <+: boots → countOf (storedAfter start before) < UInt32.size - 1) :
    countOf start ≤ countOf (storedAfter start boots) := by
  induction boots generalizing start with
  | nil => exact Nat.le_refl _
  | cons calls boots ih =>
      obtain ⟨hcounts, hrest⟩ := h.cons
      have hfirst := hcounts.keeps (hbelow [] List.nil_prefix)
      refine Nat.le_trans hfirst (ih hrest fun before hbefore => ?_)
      exact hbelow (calls :: before) (List.cons_prefix_cons.2 ⟨rfl, hbefore⟩)

/-- **The boot counter never goes back** precisely over histories in which no boot forgets a count; and
    the count at the end of such a history is at least the one at its start. -/
theorem neverGoesBack_iff (start : Option UInt32) (boots : List NvsCalls) :
    (NeverGoesBack start boots ↔ ∀ before calls after, boots = before ++ calls :: after →
      ¬ Forgets (storedAfter start before) calls) ∧
    (NeverGoesBack start boots →
      (∀ before, before <+: boots → countOf (storedAfter start before) < UInt32.size - 1) →
      countOf start ≤ countOf (storedAfter start boots)) := by
  refine ⟨?_, NeverGoesBack.countOf_le⟩
  unfold NeverGoesBack
  simp only [counts_iff]

/-- Five boots without a failure, and one that cannot read the count. -/
theorem not_neverGoesBack_read :
    ¬ ∀ (start : Option UInt32) (boots : List NvsCalls), NeverGoesBack start boots := by
  intro hclaim
  have hcounts := hclaim none (List.replicate 5 ⟨.ok, .ok, .ok, .ok⟩ ++ [⟨.ok, .fail, .ok, .ok⟩])
    (List.replicate 5 ⟨.ok, .ok, .ok, .ok⟩) ⟨.ok, .fail, .ok, .ok⟩ [] rfl
  have hkeeps := hcounts.keeps (by decide)
  exact absurd hkeeps (by decide)

end CroniotWatering.BootCount
