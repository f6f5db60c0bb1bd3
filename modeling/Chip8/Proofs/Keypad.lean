import Mathlib.Order.Bounds.Basic
import Mathlib.Order.Fin.Basic
import Chip8.Keypad

/-!
The keys of the keypad: which are down after one was put up or down (`isDown_put`), which numbers
are keys (`press?_key`, `press?_of_not_key`), and the lowest key that is down
(`lowest?_eq_some_iff`).
-/

namespace Chip8.Keypad

variable {p : Keypad} {n : Int} {k : Fin 16}

theorem isDown_released (k : Fin 16) : released.isDown k = false :=
  Vector.getElem_replicate k.isLt

theorem isDown_put (p : Keypad) (j k : Fin 16) (isDown : Bool) :
    (p.put j isDown).isDown k = if j = k then isDown else p.isDown k := by
  simp only [Fin.ext_iff]
  exact Vector.getElem_set (key_lt j) k.isLt

/-! ### Key numbers -/

/-- A number is that of a key, or lies outside of the sixteen numbers of keys. -/
theorem key_cases (n : Int) : (∃ k : Fin 16, n = k.val) ∨ ¬ (0 ≤ n ∧ n < 16) := by
  by_cases inside : 0 ≤ n ∧ n < 16
  · exact .inl ⟨⟨n.toNat, keyNumber_lt inside⟩, (Int.toNat_of_nonneg inside.1).symm⟩
  · exact .inr inside

theorem key?_key (k : Fin 16) : key? k.val = .ok k := by
  have inside : 0 ≤ (k.val : Int) ∧ (k.val : Int) < 16 := by omega
  rw [key?, dif_pos inside]
  rfl

theorem key?_of_not_key (outside : ¬ (0 ≤ n ∧ n < 16)) : key? n = .error (.badKey n) :=
  dif_neg outside

theorem press?_key (p : Keypad) (k : Fin 16) : p.press? k.val = .ok (p.put k true) := by
  rw [press?, key?_key]

theorem release?_key (p : Keypad) (k : Fin 16) : p.release? k.val = .ok (p.put k false) := by
  rw [release?, key?_key]

theorem press?_of_not_key (outside : ¬ (0 ≤ n ∧ n < 16)) : p.press? n = .error (.badKey n) := by
  rw [press?, key?_of_not_key outside]

theorem release?_of_not_key (outside : ¬ (0 ≤ n ∧ n < 16)) : p.release? n = .error (.badKey n) := by
  rw [release?, key?_of_not_key outside]

/-! ### The lowest key -/

theorem lowest?_eq_none_iff : p.lowest? = none ↔ ∀ k, p.isDown k = false := by
  simp [lowest?]

/-- The key that is found is down, and no lower one is. -/
theorem isLeast_of_lowest? (h : p.lowest? = some k) : IsLeast {k | p.isDown k = true} k := by
  obtain ⟨down, place, inside, here, before⟩ := List.find?_eq_some_iff_getElem.mp h
  obtain rfl : place = k.val := by
    rw [← here, List.getElem_finRange]
    rfl
  refine ⟨down, fun j pressed => ?_⟩
  by_contra below
  have up := before j.val (Fin.not_le.mp below)
  rw [List.getElem_finRange] at up
  exact absurd pressed (by simpa using up)

theorem lowest?_eq_some_iff : p.lowest? = some k ↔ IsLeast {k | p.isDown k = true} k := by
  refine ⟨isLeast_of_lowest?, fun least => ?_⟩
  cases lowest : p.lowest? with
  | none =>
      have up := lowest?_eq_none_iff.mp lowest k
      rw [least.1] at up
      cases up
  | some j => rw [(isLeast_of_lowest? lowest).unique least]

end Chip8.Keypad
