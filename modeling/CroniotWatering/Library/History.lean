import Mathlib.Data.List.Basic

set_option autoImplicit false

/-! # Reading lists of events backwards

Functions on lists of events with the newest first: what happened since the latest occurrence of an
event, and how this reads through a classification of the events. -/

namespace History

variable {α β : Type}

/-- How often `tick` has happened since the latest `w`; `none` if there was no `w`. -/
def elapsedSince [DecidableEq α] (tick w : α) : List α → Option ℕ
  | [] => none
  | a :: as =>
      if a = w then some 0
      else if a = tick then (elapsedSince tick w as).map (· + 1)
      else elapsedSince tick w as

section Elapsed

variable [DecidableEq α] {tick w a : α} {as : List α}

theorem elapsedSince_self : elapsedSince tick w (w :: as) = some 0 := if_pos rfl

theorem elapsedSince_tick (h : tick ≠ w) :
    elapsedSince tick w (tick :: as) = (elapsedSince tick w as).map (· + 1) := by
  rw [elapsedSince, if_neg h, if_pos rfl]

theorem elapsedSince_other (hw : a ≠ w) (htick : a ≠ tick) :
    elapsedSince tick w (a :: as) = elapsedSince tick w as := by
  rw [elapsedSince, if_neg hw, if_neg htick]

end Elapsed

/-! ## Through a classification

`f` recognises the events that stand for some `b`, each as the image `g b` of what it stands for. -/

/-- `f` inverts `g`. -/
def Classifies (f : α → Option β) (g : β → α) : Prop := ∀ a b, f a = some b ↔ a = g b

variable {f : α → Option β} {g : β → α}

theorem Classifies.apply (hfg : Classifies f g) (b : β) : f (g b) = some b := (hfg _ _).2 rfl

theorem Classifies.injective (hfg : Classifies f g) {b c : β} (h : g b = g c) : b = c := by
  have hb := hfg.apply b
  rw [h, hfg.apply c] at hb
  exact (Option.some.inj hb).symm

theorem elapsedSince_filterMap [DecidableEq α] [DecidableEq β] (hfg : Classifies f g) (tick w : β)
    (as : List α) :
    elapsedSince (g tick) (g w) as = elapsedSince tick w (as.filterMap f) := by
  induction as with
  | nil => rfl
  | cons a as ih =>
      cases hfa : f a with
      | none =>
          have hne : ∀ b, a ≠ g b := by
            rintro b rfl
            rw [hfg.apply b] at hfa
            cases hfa
          rw [List.filterMap_cons_none hfa, elapsedSince_other (hne w) (hne tick), ih]
      | some b =>
          have hab : a = g b := (hfg a b).1 hfa
          have hinj : ∀ c, g b = g c ↔ b = c := fun c => ⟨hfg.injective, congrArg g⟩
          rw [List.filterMap_cons_some hfa, hab]
          simp only [elapsedSince, hinj, ih]

/-- A sublist of what the events stand for is one of the events. -/
theorem Classifies.sublist (hfg : Classifies f g) {bs : List β} {as : List α}
    (h : bs.Sublist (as.filterMap f)) : (bs.map g).Sublist as := by
  induction as generalizing bs with
  | nil =>
      rw [List.filterMap_nil, List.sublist_nil] at h
      rw [h]
      exact List.nil_sublist _
  | cons a as ih =>
      cases hfa : f a with
      | none =>
          rw [List.filterMap_cons_none hfa] at h
          exact (ih h).cons a
      | some b =>
          rw [List.filterMap_cons_some hfa] at h
          have hab : a = g b := (hfg a b).1 hfa
          cases h with
          | cons _ h => exact (ih h).cons a
          | cons_cons _ h =>
              rw [List.map_cons, hab]
              exact (ih h).cons_cons (g b)

/-- The latest value a function finds, read through a classification. -/
theorem findSome?_filterMap {γ : Type} (v : β → Option γ) (as : List α) :
    (as.filterMap f).findSome? v = as.findSome? fun a => (f a).bind v := by
  induction as with
  | nil => rfl
  | cons a as ih =>
      cases hfa : f a with
      | none => simp [hfa, ih]
      | some b => simp [List.findSome?_cons, hfa, ih]

end History
