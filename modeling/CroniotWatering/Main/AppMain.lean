import CroniotWatering.Main.BootCount
import Mathlib.Data.List.DropRight

set_option autoImplicit false

/-! # The boots of a device

The start of `app_main` in `main/main.cpp`: bring up the non-volatile storage, erase it if that is asked
for, and count the boot. An erase that fails aborts the boot. The count of a device over all its boots is
the number of boots that wrote it since the storage last lost it, modulo 2^32; and as long as nothing
was logged, no boot is missing. -/

namespace CroniotWatering.AppMain

open BootCount

/-- The result of `nvs_flash_init`, as far as the code tells the errors apart. -/
inductive InitErr where
  | ok
  | noFreePages
  | newVersionFound
  | fail
deriving DecidableEq

def InitErr.needsErase : InitErr → Bool
  | .noFreePages | .newVersionFound => true
  | _ => false

/-- How the calls on the storage turn out in one boot. -/
structure BootCalls where
  initErr : InitErr
  eraseErr : EspErr
  /-- Whether an erase that fails erases the count all the same. -/
  eraseLosesCount : Bool
  /-- The second `nvs_flash_init`, after an erase. -/
  retryErr : InitErr
  counter : NvsCalls

/-- A line of the log: the warning before an erase, and the calls that failed. -/
inductive BootLog where
  | needsErase (err : InitErr)
  | initFailed (err : InitErr)
  | callFailed (call : String) (err : EspErr)
deriving DecidableEq

/-- What a boot leaves behind; `returned` is `none` if it aborts. -/
structure Boot where
  stored : Option UInt32
  returned : Option UInt32
  logged : List BootLog

/-- From the last `nvs_flash_init` on. -/
def countBoot (stored : Option UInt32) (nvsErr : InitErr) (counter : NvsCalls) : Boot :=
  let initLog := if nvsErr ≠ .ok then [.initFailed nvsErr] else []
  let result := incrementAndGetBootCount stored counter
  ⟨result.stored, some result.returned,
    initLog ++ result.logged.map fun failed => .callFailed failed.1 failed.2⟩

def appMain (stored : Option UInt32) (calls : BootCalls) : Boot :=
  if calls.initErr.needsErase then
    -- `ESP_ERROR_CHECK` aborts
    if calls.eraseErr ≠ .ok then
      ⟨if calls.eraseLosesCount then none else stored, none, [.needsErase calls.initErr]⟩
    else
      let boot := countBoot none calls.retryErr calls.counter
      { boot with logged := .needsErase calls.initErr :: boot.logged }
  else countBoot stored calls.initErr calls.counter

/-- The stored count after some boots. -/
def storedAfter (start : Option UInt32) (boots : List BootCalls) : Option UInt32 :=
  boots.foldl (fun stored calls => (appMain stored calls).stored) start

/-- All that some boots have logged. -/
def loggedBy (start : Option UInt32) : List BootCalls → List BootLog
  | [] => []
  | calls :: boots =>
      (appMain start calls).logged ++ loggedBy (appMain start calls).stored boots

/-! ## One boot -/

instance (calls : NvsCalls) : Decidable (Writes calls) := inferInstanceAs (Decidable (_ ∧ _))

namespace BootCalls

variable (calls : BootCalls)

/-- The boot aborts. -/
def aborts : Bool := calls.initErr.needsErase && decide (calls.eraseErr ≠ .ok)

/-- The count is erased. -/
def erases : Bool :=
  calls.initErr.needsErase && (decide (calls.eraseErr = .ok) || calls.eraseLosesCount)

/-- The boot writes a count. -/
def writes : Bool := !calls.aborts && decide (Writes calls.counter)

/-- The count starts again: it is erased, or written without having been read. -/
def restarts : Bool := calls.erases || (calls.writes && decide (calls.counter.getErr ≠ .ok))

end BootCalls

theorem countOf_lt (stored : Option UInt32) : countOf stored < UInt32.size := by
  cases stored with
  | none => decide
  | some count => exact count.toNat_lt

/-- The count that `incrementAndGetBootCount` leaves. -/
theorem countOf_increment (stored : Option UInt32) (calls : NvsCalls) :
    countOf (incrementAndGetBootCount stored calls).stored
      = if Writes calls then ((if calls.getErr = .ok then countOf stored else 0) + 1) % UInt32.size
        else countOf stored := by
  by_cases hwrites : Writes calls
  · have hread : (nvsGetU32 stored calls.getErr 0).2.toNat
        = if calls.getErr = .ok then countOf stored else 0 := by
      by_cases hget : calls.getErr = .ok
      · rw [if_pos hget, hget, nvsGetU32_ok]
      · rw [if_neg hget, nvsGetU32_of_ne_ok stored hget]
        rfl
    rw [if_pos hwrites, stored_of_writes stored hwrites, ← hread]
    exact UInt32.toNat_add _ _
  · rw [if_neg hwrites, stored_of_not_writes stored hwrites]

/-- **One boot.** A boot that writes adds one, to 0 if the count starts again. -/
theorem countOf_appMain (stored : Option UInt32) (calls : BootCalls) :
    countOf (appMain stored calls).stored
      = ((if calls.restarts then 0 else countOf stored) + if calls.writes then 1 else 0)
        % UInt32.size := by
  have hmod : countOf stored % UInt32.size = countOf stored := Nat.mod_eq_of_lt (countOf_lt stored)
  have hnone : countOf none = 0 := rfl
  unfold appMain
  cases herase : calls.initErr.needsErase with
  | false =>
      show countOf (incrementAndGetBootCount stored calls.counter).stored = _
      have haborts : calls.aborts = false := by simp [BootCalls.aborts, herase]
      have herases : calls.erases = false := by simp [BootCalls.erases, herase]
      rw [countOf_increment]
      by_cases hwrites : Writes calls.counter
      · by_cases hget : calls.counter.getErr = .ok <;>
          simp [BootCalls.restarts, BootCalls.writes, haborts, herases, hwrites, hget]
      · simp [BootCalls.restarts, BootCalls.writes, haborts, herases, hwrites, hmod]
  | true =>
      by_cases hok : calls.eraseErr = .ok
      · show countOf (if calls.eraseErr ≠ .ok then _ else _ : Boot).stored = _
        have haborts : calls.aborts = false := by simp [BootCalls.aborts, hok]
        have herases : calls.erases = true := by simp [BootCalls.erases, herase, hok]
        rw [if_neg (not_not_intro hok)]
        show countOf (incrementAndGetBootCount none calls.counter).stored = _
        rw [countOf_increment]
        by_cases hwrites : Writes calls.counter <;>
          simp [BootCalls.restarts, BootCalls.writes, haborts, herases, hwrites, hnone]
      · show countOf (if calls.eraseErr ≠ .ok then _ else _ : Boot).stored = _
        have haborts : calls.aborts = true := by simp [BootCalls.aborts, herase, hok]
        rw [if_pos hok]
        cases hloses : calls.eraseLosesCount <;>
          simp [BootCalls.restarts, BootCalls.writes, BootCalls.erases, haborts, herase, hok, hloses,
            hmod, hnone]

/-! ## The count of a device -/

/-- The boots since the count last started again. -/
def recent (boots : List BootCalls) : List BootCalls := boots.rtakeWhile fun calls => !calls.restarts

/-- The boots up to the one it started again with. -/
def earlier (boots : List BootCalls) : List BootCalls := boots.rdropWhile fun calls => !calls.restarts

/-- What the count started from: what was stored at first, or what the boot that lost it wrote. -/
def startCount (start : Option UInt32) (boots : List BootCalls) : ℕ :=
  match (earlier boots).getLast? with
  | none => countOf start
  | some calls => if calls.writes then 1 else 0

theorem storedAfter_concat (start : Option UInt32) (boots : List BootCalls) (calls : BootCalls) :
    storedAfter start (boots ++ [calls]) = (appMain (storedAfter start boots) calls).stored :=
  List.foldl_concat ..

/-- **The count of a device.** Over any number of boots with any failures, the stored count is the
    number of boots that wrote it since it last started again, modulo 2^32, on top of what it started
    from then. -/
theorem countOf_storedAfter (start : Option UInt32) (boots : List BootCalls) :
    countOf (storedAfter start boots)
      = (startCount start boots + (recent boots).countP BootCalls.writes) % UInt32.size := by
  induction boots using List.reverseRecOn with
  | nil => exact (Nat.mod_eq_of_lt (countOf_lt start)).symm
  | append_singleton boots calls ih =>
      rw [storedAfter_concat, countOf_appMain]
      cases hrestarts : calls.restarts with
      | true =>
          have hearlier : earlier (boots ++ [calls]) = boots ++ [calls] :=
            List.rdropWhile_concat_neg _ _ _ (by simp [hrestarts])
          have hrecent : recent (boots ++ [calls]) = [] :=
            List.rtakeWhile_concat_neg _ _ _ (by simp [hrestarts])
          simp [startCount, hearlier, hrecent]
      | false =>
          have hearlier : earlier (boots ++ [calls]) = earlier boots :=
            List.rdropWhile_concat_pos _ _ _ (by simp [hrestarts])
          have hrecent : recent (boots ++ [calls]) = recent boots ++ [calls] :=
            List.rtakeWhile_concat_pos _ _ _ (by simp [hrestarts])
          rw [ih]
          simp only [startCount, hearlier, hrecent, List.countP_append, List.countP_singleton,
            Bool.false_eq_true, if_false, Nat.mod_add_mod, Nat.add_assoc]

/-! ## What the log tells -/

theorem nvsGetU32_fail (stored : Option UInt32) (count : UInt32) :
    nvsGetU32 stored .fail count = (.fail, count) := by
  cases stored <;> rfl

/-- Counting without a failure. -/
theorem counter_of_silent {stored : Option UInt32} {calls : NvsCalls}
    (hfound : calls.getErr ≠ .nvsNotFound)
    (hsilent : (incrementAndGetBootCount stored calls).logged = []) :
    Writes calls ∧ calls.getErr = .ok := by
  have hopen : calls.openErr = .ok := by
    by_contra hopen
    simp [incrementAndGetBootCount, hopen] at hsilent
  have hset : calls.setErr = .ok := by
    by_contra hset
    simp [incrementAndGetBootCount, hopen, hset] at hsilent
  have hcommit : calls.commitErr = .ok := by
    by_contra hcommit
    simp [incrementAndGetBootCount, hopen, hset, hcommit] at hsilent
  refine ⟨⟨hopen, hset, hcommit⟩, ?_⟩
  cases hget : calls.getErr with
  | ok => rfl
  | nvsNotFound => exact absurd hget hfound
  | fail => simp [incrementAndGetBootCount, hopen, hset, hcommit, hget, nvsGetU32_fail] at hsilent

/-- A boot that logs nothing has written the count it read. -/
theorem writes_of_silent {stored : Option UInt32} {calls : BootCalls}
    (hfound : calls.counter.getErr ≠ .nvsNotFound) (hsilent : (appMain stored calls).logged = []) :
    calls.writes = true ∧ calls.restarts = false := by
  cases herase : calls.initErr.needsErase with
  | true =>
      -- the warning is logged before anything else
      unfold appMain at hsilent
      rw [if_pos herase] at hsilent
      split at hsilent <;> cases hsilent
  | false =>
      have haborts : calls.aborts = false := by simp [BootCalls.aborts, herase]
      have herases : calls.erases = false := by simp [BootCalls.erases, herase]
      have hcounter : (incrementAndGetBootCount stored calls.counter).logged = [] := by
        unfold appMain at hsilent
        rw [if_neg (by simp [herase])] at hsilent
        exact List.map_eq_nil_iff.1 (List.append_eq_nil_iff.1 hsilent).2
      obtain ⟨hwrites, hget⟩ := counter_of_silent hfound hcounter
      exact ⟨by simp [BootCalls.writes, haborts, hwrites],
        by simp [BootCalls.restarts, herases, hget]⟩

/-- **No boot is lost silently.** As long as the log is empty, and the storage finds what is there, the
    count is one more with every boot. -/
theorem countOf_of_silent {start : Option UInt32} {boots : List BootCalls}
    (hfound : ∀ calls ∈ boots, calls.counter.getErr ≠ .nvsNotFound)
    (hsilent : loggedBy start boots = []) :
    countOf (storedAfter start boots) = (countOf start + boots.length) % UInt32.size := by
  induction boots generalizing start with
  | nil => exact (Nat.mod_eq_of_lt (countOf_lt start)).symm
  | cons calls boots ih =>
      obtain ⟨hfirst, hothers⟩ := List.forall_mem_cons.1 hfound
      obtain ⟨hlog, hrest⟩ := List.append_eq_nil_iff.1 hsilent
      obtain ⟨hwrites, hrestarts⟩ := writes_of_silent hfirst hlog
      show countOf (storedAfter (appMain start calls).stored boots) = _
      rw [ih hothers hrest, countOf_appMain, hwrites, hrestarts]
      simp [Nat.add_assoc, Nat.add_comm]

/-- The first three boots of a device. -/
theorem countOf_of_silent_three :
    countOf (storedAfter none (List.replicate 3
      ⟨.ok, .ok, false, .ok, ⟨.ok, .ok, .ok, .ok⟩⟩)) = 3 := by
  have hfound : ∀ calls ∈ List.replicate 3 (⟨.ok, .ok, false, .ok, ⟨.ok, .ok, .ok, .ok⟩⟩ : BootCalls),
      calls.counter.getErr ≠ .nvsNotFound := by
    intro calls hcalls
    rw [List.eq_of_mem_replicate hcalls]
    decide
  rw [countOf_of_silent hfound (by decide)]
  rfl

end CroniotWatering.AppMain
