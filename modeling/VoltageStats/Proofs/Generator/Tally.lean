import Mathlib
import VoltageStats.Generator.Counting

/-!
# Tallies

Counting numbers one after the other makes their tally (`getElem_tally`). A tally of the values of
a function says how many items have each value (`getElem_tally_map`). The counts over some values
sum to the number of items with one of these values (`sum_countP_eq`); so all counts together sum
to the number of items, joint counts sum to single ones, and counts times numbers sum to what the
items come to (`sum_countP_mul`).
-/

namespace VoltageStats

open Finset (range)

variable {α : Type} {xs : List α} {f : α → Nat} {n : Nat}

theorem getElem_increment (counts : Vector Nat n) (number : Nat) {i : Nat} (hi : i < n) :
    (increment counts number)[i] = counts[i] + if number = i then 1 else 0 := by
  simp only [increment, Vector.getElem_mk, Array.getElem_modify, Vector.getElem_toArray]
  split <;> rfl

/-- Each number is counted on top of what has been counted before. -/
theorem getElem_foldl_increment (counts : Vector Nat n) (numbers : List Nat) {i : Nat}
    (hi : i < n) : (numbers.foldl increment counts)[i] = counts[i] + numbers.count i := by
  induction numbers generalizing counts with
  | nil => rfl
  | cons number numbers ih =>
      rw [List.foldl_cons, ih, getElem_increment, List.count_cons, Nat.add_assoc, Nat.add_comm
        (numbers.count i)]
      simp only [beq_iff_eq]

/-- How often each number below `size` occurs among some numbers. -/
def tally (size : Nat) (numbers : List Nat) : Vector Nat size :=
  numbers.foldl increment (.replicate size 0)

theorem getElem_tally (numbers : List Nat) {i : Nat} (hi : i < n) :
    (tally n numbers)[i] = numbers.count i := by
  rw [tally, getElem_foldl_increment, Vector.getElem_replicate, Nat.zero_add]

/-- How many items have a value. -/
theorem getElem_tally_map {i : Nat} (hi : i < n) :
    (tally n (xs.map f))[i] = xs.countP (f · = i) := by
  rw [getElem_tally, List.count_eq_countP, List.countP_map]
  rfl

/-- The items with one of some values are counted value by value. -/
theorem sum_countP_eq (s : Finset Nat) (f : α → Nat) (xs : List α) :
    ∑ i ∈ s, xs.countP (f · = i) = xs.countP (f · ∈ s) := by
  induction xs with
  | nil => simp
  | cons x xs ih => simp [List.countP_cons, Finset.sum_add_distrib, ih]

/-- Every item is counted under its value. -/
theorem sum_countP_range (hlt : ∀ x ∈ xs, f x < n) :
    ∑ i ∈ range n, xs.countP (f · = i) = xs.length := by
  rw [sum_countP_eq, List.countP_eq_length]
  intro x hmem
  simpa using hlt x hmem

/-- Each value is taken as often as it is counted. -/
theorem sum_countP_mul (hlt : ∀ x ∈ xs, f x < n) (g : Nat → ℚ) :
    ∑ i ∈ range n, (xs.countP (f · = i) : ℚ) * g i = (xs.map fun x => g (f x)).sum := by
  induction xs with
  | nil => simp
  | cons x xs ih =>
      have hx : f x < n := hlt x List.mem_cons_self
      rw [List.map_cons, List.sum_cons, ← ih fun y hmem => hlt y (List.mem_cons_of_mem x hmem)]
      simp [List.countP_cons, add_mul, Finset.sum_add_distrib, ite_mul, hx, add_comm]

/-- Joint counts sum to the count of what they share. -/
theorem sum_countP_and (p : α → Prop) [DecidablePred p] (hlt : ∀ x ∈ xs, f x < n) :
    ∑ i ∈ range n, xs.countP (fun x => p x ∧ f x = i) = xs.countP (p ·) := by
  have hsplit : ∀ i, xs.countP (fun x => p x ∧ f x = i) =
      (xs.filter (p ·)).countP (f · = i) := by
    intro i
    rw [List.countP_filter]
    exact List.countP_congr fun x _ => by simp [and_comm]
  simp only [hsplit]
  rw [sum_countP_range fun x hmem => hlt x (List.mem_of_mem_filter hmem),
    List.countP_eq_length_filter]

end VoltageStats
