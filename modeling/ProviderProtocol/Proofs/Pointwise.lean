import Mathlib.Data.List.Forall2
import ProviderProtocol.Proofs.Table
/-!
# Lists that correspond item by item

Where each item of one list has its counterpart in the other, so has the item at a position (`getElem?_of_forall₂`), a
member (`exists_mem_left`, `exists_mem_right`) and, if the keys correspond as well, the last entry of a key
(`Table.last?_rel`).
-/
namespace ProviderProtocol

section

variable {R : α → β → Prop}

theorem getElem?_of_forall₂ : ∀ {xs : List α} {ys : List β}, List.Forall₂ R xs ys →
    ∀ {i : Nat} {y : β}, ys[i]? = some y → ∃ x, xs[i]? = some x ∧ R x y
  | _, _, .nil, i, y, hi           => by cases hi
  | _, _, .cons h hs, 0, y, hi     => by
    cases hi
    exact ⟨_, rfl, h⟩
  | _, _, .cons h hs, i + 1, y, hi => getElem?_of_forall₂ hs hi

theorem exists_mem_left {xs : List α} {ys : List β} (h : List.Forall₂ R xs ys) {y : β} (hy : y ∈ ys) :
    ∃ x ∈ xs, R x y := by
  obtain ⟨i, hi⟩ := List.mem_iff_getElem?.1 hy
  obtain ⟨x, hx, hR⟩ := getElem?_of_forall₂ h hi
  exact ⟨x, List.mem_of_getElem? hx, hR⟩

theorem exists_mem_right {xs : List α} {ys : List β} (h : List.Forall₂ R xs ys) {x : α} (hx : x ∈ xs) :
    ∃ y ∈ ys, R x y :=
  exists_mem_left (R := flip R) (List.Forall₂.flip h) hx

/-- A list has a counterpart if each of its items has one. -/
theorem exists_forall₂_iff : ∀ {xs : List α}, (∃ ys, List.Forall₂ R xs ys) ↔ ∀ x ∈ xs, ∃ y, R x y
  | []      => iff_of_true ⟨[], .nil⟩ (List.forall_mem_nil _)
  | x :: xs => by
    rw [List.forall_mem_cons, ← exists_forall₂_iff]
    constructor
    · rintro ⟨_, h⟩
      cases h with
      | cons h hs => exact ⟨⟨_, h⟩, _, hs⟩
    · rintro ⟨⟨y, h⟩, ys, hs⟩
      exact ⟨y :: ys, .cons h hs⟩

end

namespace Table

theorem names_eq_of_forall₂ {R : α → β → Prop} : ∀ {t : List (String × α)} {u : List (String × β)},
    List.Forall₂ (fun x y => x.1 = y.1 ∧ R x.2 y.2) t u → names t = names u
  | _, _, .nil            => rfl
  | _, _, .cons h hs => congrArg₂ List.cons h.1 (names_eq_of_forall₂ hs)

/-- The last entries of a key correspond, whether they are there or not. -/
theorem last?_rel [DecidableEq κ] [DecidableEq ι] {f : ι → κ} (hf : Function.Injective f) {R : ι → α → β → Prop}
    (key : ι) {t : List (κ × α)} {u : List (ι × β)}
    (h : List.Forall₂ (fun x y => x.1 = f y.1 ∧ R y.1 x.2 y.2) t u) :
    Option.Rel (R key) (last? (f key) t) (last? key u) := by
  induction h with
  | nil => exact .none
  | @cons x y t u hxy _ ih =>
    obtain ⟨i, a⟩ := x
    obtain ⟨j, b⟩ := y
    obtain ⟨rfl, hR⟩ := hxy
    rw [last?, last?]
    generalize last? (f key) t = last at ih
    generalize last? key u = last' at ih
    cases ih with
    | some h => exact .some h
    | none   =>
      by_cases hj : j = key
      · subst hj
        rw [if_pos rfl, if_pos rfl]
        exact .some hR
      · rw [if_neg (hf.ne hj), if_neg hj]
        exact .none

end Table

end ProviderProtocol
