import CounterPolling.Object.Id
import Mathlib.Logic.Function.Basic

/-!
# The text of an id tells the id

Hexadecimal digits tell the number, so the keys under which two objects are written differ if
the objects do. No digit is a colon.
-/

namespace CounterPolling

/-- Digits below sixteen are told apart by their characters. -/
theorem digitChar_injective_below :
    ∀ m < 16, ∀ n < 16, Nat.digitChar m = Nat.digitChar n → m = n := by
  decide

/-- Numbers with the same hexadecimal digits are the same. -/
theorem toDigits_sixteen_injective : Function.Injective (Nat.toDigits 16) := by
  intro m
  induction m using Nat.strongRecOn with
  | ind m ih =>
    intro n h
    rw [Nat.toDigits_eq_if (by omega), Nat.toDigits_eq_if (b := 16) (n := n) (by omega)] at h
    by_cases hm : m < 16 <;> by_cases hn : n < 16
    · rw [if_pos hm, if_pos hn] at h
      exact digitChar_injective_below m hm n hn (List.singleton_inj.mp h)
    · rw [if_pos hm, if_neg hn] at h
      have hlength := congrArg List.length h
      have hpos : 0 < (Nat.toDigits 16 (n / 16)).length := Nat.length_toDigits_pos
      simp only [List.length_singleton, List.length_append] at hlength
      omega
    · rw [if_neg hm, if_pos hn] at h
      have hlength := congrArg List.length h
      have hpos : 0 < (Nat.toDigits 16 (m / 16)).length := Nat.length_toDigits_pos
      simp only [List.length_singleton, List.length_append] at hlength
      omega
    · rw [if_neg hm, if_neg hn] at h
      obtain ⟨hfront, hlast⟩ := List.append_inj' h rfl
      have hdiv : m / 16 = n / 16 := ih (m / 16) (by omega) hfront
      have hmod : m % 16 = n % 16 :=
        digitChar_injective_below _ (by omega) _ (by omega) (List.singleton_inj.mp hlast)
      omega

/-- No hexadecimal digit is a colon. -/
theorem colon_notMem_toDigits_sixteen (n : Nat) : ':' ∉ Nat.toDigits 16 n := by
  have hdigit : ∀ d, ':' ≠ Nat.digitChar d := fun d => (Nat.digitChar_ne ':' (by decide)).symm
  induction n using Nat.strongRecOn with
  | ind n ih =>
    rw [Nat.toDigits_eq_if (by omega)]
    split
    · exact fun hmem => hdigit n (List.mem_singleton.mp hmem)
    · rw [List.mem_append, List.mem_singleton, not_or]
      exact ⟨ih (n / 16) (by omega), hdigit (n % 16)⟩

/-- Objects with the same text are the same. -/
theorem ObjectId.text_injective : Function.Injective ObjectId.text := by
  intro a b h
  have hlists := congrArg String.toList h
  simp only [text, Text.hexadecimal, String.toList_append, String.toList_ofList] at hlists
  have hdigits := List.append_cancel_left hlists
  exact UInt64.toNat_inj.mp (toDigits_sixteen_injective hdigits)

end CounterPolling
