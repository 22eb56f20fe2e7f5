import Mathlib.Data.List.Perm.Basic

/-!
# Binary heaps on a list

The array heap behind `std::push_heap` and `std::pop_heap`, over any type and any comparison:
position `i` has its children at `2 * i + 1` and `2 * i + 2`, and `cmp a b` says that `a` goes
below `b` (the `Compare` argument of the C++ algorithms, whose front is then a *largest* element).

* `siftUp`, `siftDown` : the two sifts, by exchanges of neighbours on one path.
* `pushHeap` : the last element of the list is sifted up into the heap before it.
* `popHeap` : the front is exchanged with the last element, and what came to the front is sifted
  down in the list without its last element.

What a client needs that never looks at the order: both operations permute the list
(`pushHeap_perm`, `popHeap_perm`), `popHeap` leaves the old front last (`popHeap_cons`), and `pushHeap`
keeps the front when the new element does not go above it (`pushHeap_concat_head?`).
-/

namespace CacheSystem.Lib.Heap

variable {α : Type}

/-! ## Exchanging two positions -/

/-- The list with positions `i` and `j` exchanged; unchanged when one of them is out of range. -/
def swap (l : List α) (i j : Nat) : List α :=
  match l[i]?, l[j]? with
  | some a, some b => (l.set i b).set j a
  | _, _ => l

/-- An exchange permutes the list. -/
theorem swap_perm (l : List α) (i j : Nat) : (swap l i j).Perm l := by
  unfold swap
  split
  · rename_i a b hi hj
    obtain ⟨hi', rfl⟩ := List.getElem?_eq_some_iff.mp hi
    obtain ⟨hj', rfl⟩ := List.getElem?_eq_some_iff.mp hj
    exact List.set_set_perm hi' hj'
  · exact List.Perm.refl l

/-- An exchange above the front leaves the front alone. -/
theorem swap_head? (l : List α) {i j : Nat} (hi : i ≠ 0) (hj : j ≠ 0) :
    (swap l i j).head? = l.head? := by
  unfold swap
  split
  · rw [List.head?_eq_getElem?, List.head?_eq_getElem?, List.getElem?_set_ne hj,
      List.getElem?_set_ne hi]
  · rfl

/-- After the exchange position `i` holds what position `j` held. -/
theorem swap_getElem?_left (l : List α) {i j : Nat} {a b : α} (hi : l[i]? = some a)
    (hj : l[j]? = some b) : (swap l i j)[i]? = some b := by
  obtain ⟨hi', rfl⟩ := List.getElem?_eq_some_iff.mp hi
  obtain ⟨hj', rfl⟩ := List.getElem?_eq_some_iff.mp hj
  simp only [swap, hi, hj]
  by_cases h : j = i
  · subst h
    simp [hj']
  · rw [List.getElem?_set_ne h, List.getElem?_set_self hi']

/-! ## The sifts -/

variable (cmp : α → α → Bool)

/-- Sift the element at `i` up: while its parent goes below it, exchange the two. The first
argument bounds the number of exchanges; a path up from `i` has fewer than `i + 1` of them. -/
def siftUp : Nat → List α → Nat → List α
  | 0, l, _ => l
  | fuel + 1, l, i =>
      if i = 0 then l
      else
        match l[(i - 1) / 2]?, l[i]? with
        | some parent, some child =>
            if cmp parent child then siftUp fuel (swap l ((i - 1) / 2) i) ((i - 1) / 2) else l
        | _, _ => l

/-- The child of `i` that the other one goes below: the left one, unless the right one is there
and the left one goes below it. -/
def topChild (l : List α) (i : Nat) : Nat :=
  match l[2 * i + 1]?, l[2 * i + 2]? with
  | some left, some right => if cmp left right then 2 * i + 2 else 2 * i + 1
  | _, _ => 2 * i + 1

/-- Sift the element at `i` down: while it goes below its `topChild`, exchange the two. -/
def siftDown : Nat → List α → Nat → List α
  | 0, l, _ => l
  | fuel + 1, l, i =>
      match l[i]?, l[topChild cmp l i]? with
      | some parent, some child =>
          if cmp parent child then siftDown fuel (swap l i (topChild cmp l i)) (topChild cmp l i)
          else l
      | _, _ => l

/-- `std::push_heap`: sift the last element up. -/
def pushHeap (l : List α) : List α := siftUp cmp l.length l (l.length - 1)

/-- `std::pop_heap`: the front goes to the end, the last element comes to the front and is sifted
down among the others. -/
def popHeap : List α → List α
  | [] => []
  | top :: rest =>
      match rest.getLast? with
      | none => [top]
      | some last => siftDown cmp rest.length (last :: rest.dropLast) 0 ++ [top]

/-! ## The operations permute -/

theorem siftUp_perm (fuel : Nat) (l : List α) (i : Nat) : (siftUp cmp fuel l i).Perm l := by
  induction fuel generalizing l i with
  | zero => exact List.Perm.refl l
  | succ fuel ih =>
      unfold siftUp
      split
      · exact List.Perm.refl l
      · split
        · split
          · exact (ih _ _).trans (swap_perm l _ _)
          · exact List.Perm.refl l
        · exact List.Perm.refl l

theorem siftDown_perm (fuel : Nat) (l : List α) (i : Nat) : (siftDown cmp fuel l i).Perm l := by
  induction fuel generalizing l i with
  | zero => exact List.Perm.refl l
  | succ fuel ih =>
      unfold siftDown
      split
      · split
        · exact (ih _ _).trans (swap_perm l _ _)
        · exact List.Perm.refl l
      · exact List.Perm.refl l

/-- `push_heap` permutes. -/
theorem pushHeap_perm (l : List α) : (pushHeap cmp l).Perm l := siftUp_perm cmp _ _ _

/-- `pop_heap` leaves the old front at the end of the list. -/
theorem popHeap_cons (top : α) (rest : List α) :
    ∃ l, popHeap cmp (top :: rest) = l ++ [top] ∧ l.Perm rest := by
  rcases h : rest.getLast? with _ | last
  · exact ⟨[], by simp [popHeap, h], by simp [List.getLast?_eq_none_iff.mp h]⟩
  · refine ⟨siftDown cmp rest.length (last :: rest.dropLast) 0, by simp only [popHeap, h],
      (siftDown_perm cmp _ _ _).trans ?_⟩
    obtain ⟨init, rfl⟩ := List.getLast?_eq_some_iff.mp h
    rw [List.dropLast_concat]
    exact (List.perm_append_singleton last init).symm

/-- What `pop_heap` and `pop_back` leave is the list without its front. -/
theorem popHeap_dropLast_perm (top : α) (rest : List α) :
    (popHeap cmp (top :: rest)).dropLast.Perm rest := by
  obtain ⟨l, hl, hperm⟩ := popHeap_cons cmp top rest
  rwa [hl, List.dropLast_concat]

/-- `pop_heap` permutes. -/
theorem popHeap_perm (l : List α) : (popHeap cmp l).Perm l := by
  cases l with
  | nil => exact List.Perm.refl []
  | cons top rest =>
      obtain ⟨l, hl, hperm⟩ := popHeap_cons cmp top rest
      rw [hl]
      exact (List.perm_append_singleton top l).trans (hperm.cons top)

/-! ## The front -/

/-- Sifting up leaves the front in place unless the front goes below the element sifted. -/
theorem siftUp_head? (fuel : Nat) (l : List α) (i : Nat) {top x : α} (htop : l.head? = some top)
    (hx : l[i]? = some x) (hcmp : cmp top x = false) :
    (siftUp cmp fuel l i).head? = some top := by
  induction fuel generalizing l i with
  | zero => exact htop
  | succ fuel ih =>
      unfold siftUp
      split
      · exact htop
      · rename_i hi
        split
        · rename_i parent child hp hc
          split
          · rename_i hlt
            obtain rfl : x = child := Option.some.inj (hx.symm.trans hc)
            -- the exchange is not with the front, which does not go below `x`
            have hp0 : (i - 1) / 2 ≠ 0 := by
              intro h0
              rw [h0, ← List.head?_eq_getElem?, htop] at hp
              cases hp
              rw [hcmp] at hlt
              cases hlt
            refine ih _ _ ?_ (swap_getElem?_left l hp hx)
            rw [swap_head? l hp0 hi]
            exact htop
          · exact htop
        · exact htop

/-- Pushing `x` leaves the front in place unless the front goes below `x`. -/
theorem pushHeap_concat_head? (l : List α) {top x : α} (htop : l.head? = some top)
    (hcmp : cmp top x = false) : (pushHeap cmp (l ++ [x])).head? = some top := by
  refine siftUp_head? cmp _ _ _ ?_ ?_ hcmp
  · rw [List.head?_append, htop]
    rfl
  · simp

end CacheSystem.Lib.Heap
