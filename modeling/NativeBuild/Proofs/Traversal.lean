import Mathlib.Data.List.Forall2

/-!
# Traversals that may fail

A function that may fail, applied to the elements of a list one after another.  The traversal
succeeds when the function does at every element, and its result has one value for each.

Main results:

- Theorem `mapM_eq_ok_iff`: a result has the value of each element, in order.
- Theorem `exists_mapM_eq_ok`: a function that succeeds everywhere can be applied to a list.
-/

namespace NativeBuild

variable {α β ε : Type} {f : α → Except ε β} {as : List α} {bs : List β}

/-- The traversal of a list starts with its first element. -/
theorem mapM_cons_eq_ok_iff {a : α} :
    (a :: as).mapM f = .ok bs ↔
      ∃ b rest, f a = .ok b ∧ as.mapM f = .ok rest ∧ bs = b :: rest := by
  rw [List.mapM_cons]
  cases hfirst : f a with
  | error e => simp [bind, Except.bind]
  | ok b =>
      cases hrest : as.mapM f with
      | error e => simp [bind, Except.bind]
      | ok rest => simp [bind, Except.bind, pure, Except.pure, eq_comm]

/-- The result of a traversal has the value of each element, in order. -/
theorem mapM_eq_ok_iff : as.mapM f = .ok bs ↔ List.Forall₂ (fun a b => f a = .ok b) as bs := by
  induction as generalizing bs with
  | nil =>
      rw [List.forall₂_nil_left_iff, List.mapM_nil]
      simp [pure, Except.pure, eq_comm]
  | cons a rest ih =>
      rw [mapM_cons_eq_ok_iff, List.forall₂_cons_left_iff]
      simp only [ih]

/-- What is in the result of a traversal is the value of one of the elements. -/
theorem exists_of_mem_mapM (h : as.mapM f = .ok bs) {b : β} (hb : b ∈ bs) :
    ∃ a ∈ as, f a = .ok b := by
  induction mapM_eq_ok_iff.1 h with
  | nil => cases hb
  | cons hfirst hrest ih =>
      rcases List.mem_cons.1 hb with rfl | hb
      · exact ⟨_, List.mem_cons_self, hfirst⟩
      · obtain ⟨a, ha, hvalue⟩ := ih (mapM_eq_ok_iff.2 hrest) hb
        exact ⟨a, List.mem_cons_of_mem _ ha, hvalue⟩

/-- The value of each element is in the result of a traversal. -/
theorem exists_mem_of_mapM (h : as.mapM f = .ok bs) {a : α} (ha : a ∈ as) :
    ∃ b ∈ bs, f a = .ok b := by
  induction mapM_eq_ok_iff.1 h with
  | nil => cases ha
  | cons hfirst hrest ih =>
      rcases List.mem_cons.1 ha with rfl | ha
      · exact ⟨_, List.mem_cons_self, hfirst⟩
      · obtain ⟨b, hb, hvalue⟩ := ih (mapM_eq_ok_iff.2 hrest) ha
        exact ⟨b, List.mem_cons_of_mem _ hb, hvalue⟩

/-- A function that succeeds at each element of a list can be applied to the list. -/
theorem exists_mapM_eq_ok (h : ∀ a ∈ as, ∃ b, f a = .ok b) : ∃ bs, as.mapM f = .ok bs := by
  induction as with
  | nil => exact ⟨[], rfl⟩
  | cons a rest ih =>
      obtain ⟨b, hb⟩ := h a List.mem_cons_self
      obtain ⟨bs, hbs⟩ := ih fun other hother => h other (List.mem_cons_of_mem _ hother)
      exact ⟨b :: bs, mapM_cons_eq_ok_iff.2 ⟨b, bs, hb, hbs, rfl⟩⟩

end NativeBuild
