import CacheSystem.Lib.Heap
import Mathlib.Order.Nat

/-!
# The order of a binary heap

`IsHeap cmp l` says that no element of `l` goes above its parent, for a comparison that meets the
requirements of a C++ `Compare`.

* `UpOrder`, `DownOrder` : what is left of the order while one element is sifted, and what the two
  sifts need to restore it (`siftUp_isHeap`, `siftDown_isHeap`).
* `pushHeap_isHeap`, `popHeap_isHeap` : the operations. `pop_heap` never looks at the front it takes
  out, so a heap whose front was changed in place serves it as well (`IsHeap.downOrder_front`).
* `IsHeap.front` : nothing goes above the front; a front that was changed in place makes a heap
  exactly where this is so (`DownOrder.isHeap_iff`).
-/

namespace CacheSystem.Lib.Heap

variable {α : Type}

/-! ## Comparisons -/

/-- The requirements of a C++ `Compare`, a strict weak order: two elements do not go below each
other, and "does not go below" is transitive. -/
structure Compare (cmp : α → α → Bool) : Prop where
  asymm : ∀ {a b}, cmp a b = true → cmp b a = false
  trans : ∀ {a b c}, cmp a b = false → cmp b c = false → cmp a c = false

theorem Compare.irrefl {cmp : α → α → Bool} (hc : Compare cmp) (a : α) : cmp a a = false := by
  by_contra h
  have h' : cmp a a = true := by simpa using h
  rw [hc.asymm h'] at h'
  cases h'

/-! ## Order -/

section order

variable (cmp : α → α → Bool)

/-- The parent of position `i` does not go below what is at `i`. -/
def InPlace (l : List α) (i : Nat) : Prop :=
  ∀ parent child, l[(i - 1) / 2]? = some parent → l[i]? = some child → cmp parent child = false

/-- Every parent is in order with its children. -/
def IsHeap (l : List α) : Prop := ∀ i, 0 < i → InPlace cmp l i

/-- The parent of `k` is in order with the children of `k`. -/
def Grand (l : List α) (k : Nat) : Prop :=
  ∀ i, 0 < k → 0 < i → (i - 1) / 2 = k →
    ∀ parent child, l[(k - 1) / 2]? = some parent → l[i]? = some child → cmp parent child = false

/-- What is left of the order while the element at `k` is sifted up. -/
structure UpOrder (l : List α) (k : Nat) : Prop where
  except : ∀ i, 0 < i → i ≠ k → InPlace cmp l i
  grand : Grand cmp l k

/-- What is left of the order while the element at `k` is sifted down. -/
structure DownOrder (l : List α) (k : Nat) : Prop where
  except : ∀ i, 0 < i → (i - 1) / 2 ≠ k → InPlace cmp l i
  grand : Grand cmp l k

end order

variable {cmp : α → α → Bool} {l : List α}

/-- What the positions hold after an exchange. -/
theorem swap_getElem? {i j : Nat} {a b : α} (hi : l[i]? = some a) (hj : l[j]? = some b) (m : Nat) :
    (swap l i j)[m]? = if m = j then some a else if m = i then some b else l[m]? := by
  obtain ⟨hi', -⟩ := List.getElem?_eq_some_iff.mp hi
  obtain ⟨hj', -⟩ := List.getElem?_eq_some_iff.mp hj
  simp only [swap, hi, hj, List.getElem?_set, List.length_set]
  by_cases hmj : j = m
  · subst hmj
    simp [hj']
  · by_cases hmi : i = m
    · subst hmi
      simp [hmj, Ne.symm hmj, hi']
    · simp [hmj, hmi, Ne.symm hmj, Ne.symm hmi]

@[simp] theorem swap_length (i j : Nat) : (swap l i j).length = l.length :=
  (swap_perm l i j).length_eq

/-! ## Sifting up -/

/-- One exchange with the parent. -/
theorem UpOrder.move (hc : Compare cmp) {k : Nat} (h : UpOrder cmp l k) (hk : 0 < k) {p c : α}
    (hp : l[(k - 1) / 2]? = some p) (hl : l[k]? = some c) (hlt : cmp p c = true) :
    UpOrder cmp (swap l ((k - 1) / 2) k) ((k - 1) / 2) := by
  have hjk : (k - 1) / 2 < k := by omega
  constructor
  · intro i hi hij a b ha hb
    rw [swap_getElem? hp hl] at ha hb
    by_cases hik : i = k
    · subst hik
      rw [if_pos rfl] at hb
      rw [if_neg hjk.ne, if_pos rfl] at ha
      cases ha
      cases hb
      exact hc.asymm hlt
    · rw [if_neg hik, if_neg hij] at hb
      by_cases hpk : (i - 1) / 2 = k
      · rw [if_pos hpk] at ha
        cases ha
        exact h.grand i hk hi hpk p b hp hb
      · rw [if_neg hpk] at ha
        by_cases hpj : (i - 1) / 2 = (k - 1) / 2
        · -- the other child of the parent
          rw [if_pos hpj] at ha
          cases ha
          exact hc.trans (hc.asymm hlt) (h.except i hi hik p b (hpj ▸ hp) hb)
        · rw [if_neg hpj] at ha
          exact h.except i hi hik a b ha hb
  · intro i hj hi hpi a b ha hb
    rw [swap_getElem? hp hl] at ha hb
    rw [if_neg (by omega), if_neg (by omega)] at ha
    have habove : cmp a p = false := h.except _ hj hjk.ne a p ha hp
    by_cases hik : i = k
    · rw [if_pos hik] at hb
      cases hb
      exact habove
    · rw [if_neg hik, if_neg (by omega)] at hb
      exact hc.trans habove (h.except i hi hik p b (hpi ▸ hp) hb)

/-- **Sifting up restores the heap.** -/
theorem siftUp_isHeap (hc : Compare cmp) (fuel : Nat) (l : List α) (k : Nat) (hfuel : k < fuel)
    (h : UpOrder cmp l k) : IsHeap cmp (siftUp cmp fuel l k) := by
  induction fuel generalizing l k with
  | zero => omega
  | succ fuel ih =>
      have hstop (hk : InPlace cmp l k) : IsHeap cmp l := by
        intro i hi
        by_cases hik : i = k
        · rw [hik]
          exact hk
        · exact h.except i hi hik
      unfold siftUp
      split
      · rename_i hk
        exact fun i hi => h.except i hi (by omega)
      · rename_i hk
        have hk : 0 < k := Nat.pos_of_ne_zero hk
        split
        · rename_i p c hp hl
          split
          · rename_i hlt
            exact ih _ _ (by omega) (h.move hc hk hp hl hlt)
          · rename_i hle
            apply hstop
            intro a b ha hb
            rw [hp] at ha
            rw [hl] at hb
            cases ha
            cases hb
            simpa using hle
        · rename_i hnone
          exact hstop fun a b ha hb => absurd hb (hnone a b ha)

/-! ## Sifting down -/

/-- The child that is exchanged is in order with both children; where it is out of range both
are. -/
theorem topChild_spec (hc : Compare cmp) (l : List α) (k : Nat) :
    (topChild cmp l k - 1) / 2 = k ∧ 0 < topChild cmp l k ∧
      ∀ i, 0 < i → (i - 1) / 2 = k → ∀ d, l[i]? = some d →
        ∃ c, l[topChild cmp l k]? = some c ∧ cmp c d = false := by
  have hchild {i : Nat} (hi : 0 < i) (hp : (i - 1) / 2 = k) : i = 2 * k + 1 ∨ i = 2 * k + 2 := by
    omega
  unfold topChild
  split
  · rename_i left right hleft hright
    split
    · rename_i hlt
      refine ⟨by omega, by omega, fun i hi hp d hd => ⟨right, hright, ?_⟩⟩
      rcases hchild hi hp with rfl | rfl
      · rw [hleft] at hd
        cases hd
        exact hc.asymm hlt
      · rw [hright] at hd
        cases hd
        exact hc.irrefl right
    · rename_i hle
      refine ⟨by omega, by omega, fun i hi hp d hd => ⟨left, hleft, ?_⟩⟩
      rcases hchild hi hp with rfl | rfl
      · rw [hleft] at hd
        cases hd
        exact hc.irrefl left
      · rw [hright] at hd
        cases hd
        simpa using hle
  · rename_i hnone
    refine ⟨by omega, by omega, fun i hi hp d hd => ?_⟩
    rcases hchild hi hp with rfl | rfl
    · exact ⟨d, hd, hc.irrefl d⟩
    · -- a right child has a left sibling
      obtain ⟨hlt, -⟩ := List.getElem?_eq_some_iff.mp hd
      exact absurd hd (hnone l[2 * k + 1] d (List.getElem?_eq_getElem (by omega)))

/-- One exchange with the child that goes above the other. -/
theorem DownOrder.move (hc : Compare cmp) {k j : Nat} (h : DownOrder cmp l k) (hj : 0 < j)
    (hjk : (j - 1) / 2 = k) {p c : α} (hp : l[k]? = some p) (hl : l[j]? = some c)
    (hlt : cmp p c = true)
    (htop : ∀ i, 0 < i → (i - 1) / 2 = k → ∀ d, l[i]? = some d → cmp c d = false) :
    DownOrder cmp (swap l k j) j := by
  have hkj : k < j := by omega
  constructor
  · intro i hi hpj a b ha hb
    rw [swap_getElem? hp hl] at ha hb
    rw [if_neg hpj] at ha
    by_cases hij : i = j
    · rw [if_pos hij] at hb
      rw [if_pos (by omega)] at ha
      cases ha
      cases hb
      exact hc.asymm hlt
    · rw [if_neg hij] at hb
      by_cases hik : i = k
      · subst hik
        rw [if_pos rfl] at hb
        rw [if_neg (by omega)] at ha
        cases hb
        exact h.grand j hi hj hjk a c ha hl
      · rw [if_neg hik] at hb
        by_cases hpk : (i - 1) / 2 = k
        · rw [if_pos hpk] at ha
          cases ha
          exact htop i hi hpk b hb
        · rw [if_neg hpk] at ha
          exact h.except i hi hpk a b ha hb
  · intro i _ hi hpi a b ha hb
    rw [swap_getElem? hp hl] at ha hb
    rw [if_neg (by omega), if_pos hjk] at ha
    rw [if_neg (by omega), if_neg (by omega)] at hb
    cases ha
    exact h.except i hi (by omega) c b (hpi ▸ hl) hb

/-- **Sifting down restores the heap.** -/
theorem siftDown_isHeap (hc : Compare cmp) (fuel : Nat) (l : List α) (k : Nat)
    (hfuel : l.length ≤ k + fuel) (h : DownOrder cmp l k) : IsHeap cmp (siftDown cmp fuel l k) := by
  induction fuel generalizing l k with
  | zero =>
      unfold siftDown
      intro i hi
      by_cases hpk : (i - 1) / 2 = k
      · -- position `k` is out of range
        intro a b ha hb
        obtain ⟨hlt, -⟩ := List.getElem?_eq_some_iff.mp ha
        omega
      · exact h.except i hi hpk
  | succ fuel ih =>
      obtain ⟨hparent, hpos, htop⟩ := topChild_spec hc l k
      have hstop (hk : ∀ i, 0 < i → (i - 1) / 2 = k → InPlace cmp l i) : IsHeap cmp l := by
        intro i hi
        by_cases hpk : (i - 1) / 2 = k
        · exact hk i hi hpk
        · exact h.except i hi hpk
      unfold siftDown
      split
      · rename_i p c hp hl
        have htop' : ∀ i, 0 < i → (i - 1) / 2 = k → ∀ d, l[i]? = some d → cmp c d = false := by
          intro i hi hpi d hd
          obtain ⟨c', hc', hle⟩ := htop i hi hpi d hd
          rw [hl] at hc'
          cases hc'
          exact hle
        split
        · rename_i hlt
          refine ih _ _ ?_ (h.move hc hpos hparent hp hl hlt htop')
          rw [swap_length]
          omega
        · rename_i hle
          refine hstop fun i hi hpi a b ha hb => ?_
          rw [hpi, hp] at ha
          cases ha
          exact hc.trans (by simpa using hle) (htop' i hi hpi b hb)
      · rename_i hnone
        refine hstop fun i hi hpi a b ha hb => ?_
        obtain ⟨c, hl, -⟩ := htop i hi hpi b hb
        exact absurd hl (hnone a c (hpi ▸ ha))

/-! ## The operations -/

theorem isHeap_nil : IsHeap cmp ([] : List α) := by
  intro i _ a b ha
  cases ha

/-- **`push_heap` makes a heap** of a heap and one more element. -/
theorem pushHeap_isHeap (hc : Compare cmp) (h : IsHeap cmp l) (x : α) :
    IsHeap cmp (pushHeap cmp (l ++ [x])) := by
  unfold pushHeap
  have hlen : (l ++ [x]).length = l.length + 1 := by simp
  rw [hlen, Nat.add_sub_cancel]
  refine siftUp_isHeap hc _ _ _ (Nat.lt_succ_self _) ⟨fun i hi hne a b ha hb => ?_, ?_⟩
  · obtain ⟨hlt, -⟩ := List.getElem?_eq_some_iff.mp hb
    rw [List.getElem?_append_left (by omega)] at ha hb
    exact h i hi a b ha hb
  · intro i _ hi hp a b _ hb
    obtain ⟨hlt, -⟩ := List.getElem?_eq_some_iff.mp hb
    omega

/-- A heap whose front was changed in place is ready for `pop_heap`. -/
theorem IsHeap.downOrder_front {top : α} {rest : List α} (h : IsHeap cmp (top :: rest)) (top' : α) :
    DownOrder cmp (top' :: rest) 0 := by
  refine ⟨fun i hi hp a b ha hb => ?_, fun i h0 => absurd h0 (lt_irrefl 0)⟩
  refine h i hi a b ?_ ?_
  · rwa [List.getElem?_cons, if_neg hp] at ha ⊢
  · rwa [List.getElem?_cons, if_neg hi.ne'] at hb ⊢

/-- **`pop_heap` makes a heap** of what is behind the front, whatever the front is. -/
theorem popHeap_isHeap (hc : Compare cmp) {top : α} {rest : List α}
    (h : DownOrder cmp (top :: rest) 0) :
    ∃ l, popHeap cmp (top :: rest) = l ++ [top] ∧ l.Perm rest ∧ IsHeap cmp l := by
  rcases hlast : rest.getLast? with _ | last
  · refine ⟨[], by simp [popHeap, hlast], ?_, isHeap_nil⟩
    simp [List.getLast?_eq_none_iff.mp hlast]
  · obtain ⟨init, rfl⟩ := List.getLast?_eq_some_iff.mp hlast
    refine ⟨siftDown cmp (init ++ [last]).length (last :: init) 0, ?_, ?_, ?_⟩
    · simp only [popHeap, hlast, List.dropLast_concat]
    · exact (siftDown_perm cmp _ _ _).trans (List.perm_append_singleton last init).symm
    · refine siftDown_isHeap hc _ _ _ (by simp) ⟨fun i hi hp a b ha hb => ?_, ?_⟩
      · obtain ⟨hlt, -⟩ := List.getElem?_eq_some_iff.mp hb
        rw [List.length_cons] at hlt
        refine h.except i hi hp a b ?_ ?_
        · rw [List.getElem?_cons, if_neg hp] at ha ⊢
          rw [List.getElem?_append_left (by omega)]
          exact ha
        · rw [List.getElem?_cons, if_neg hi.ne'] at hb ⊢
          rw [List.getElem?_append_left (by omega)]
          exact hb
      · exact fun i h0 => absurd h0 (lt_irrefl 0)

/-- **Nothing goes above the front** of a heap. -/
theorem IsHeap.front (hc : Compare cmp) (h : IsHeap cmp l) {top : α} (htop : l.head? = some top) :
    ∀ x ∈ l, cmp top x = false := by
  rw [List.head?_eq_getElem?] at htop
  have hall : ∀ (i : Nat) x, l[i]? = some x → cmp top x = false := by
    intro i
    induction i using Nat.strongRecOn with
    | ind i ih =>
        intro x hx
        rcases Nat.eq_zero_or_pos i with rfl | hi
        · rw [htop] at hx
          cases hx
          exact hc.irrefl top
        · obtain ⟨hlt, -⟩ := List.getElem?_eq_some_iff.mp hx
          have hparent : l[(i - 1) / 2]? = some l[(i - 1) / 2] :=
            List.getElem?_eq_getElem (by omega)
          exact hc.trans (ih _ (by omega) _ hparent) (h i hi _ x hparent hx)
  intro x hx
  obtain ⟨i, hi⟩ := List.mem_iff_getElem?.mp hx
  exact hall i x hi

/-- A changed front makes a heap exactly where nothing goes above it. -/
theorem DownOrder.isHeap_iff (hc : Compare cmp) {top : α} {rest : List α}
    (h : DownOrder cmp (top :: rest) 0) :
    IsHeap cmp (top :: rest) ↔ ∀ x ∈ rest, cmp top x = false := by
  constructor
  · intro hheap x hx
    exact hheap.front hc rfl x (List.mem_cons_of_mem top hx)
  · intro hle i hi
    by_cases hp : (i - 1) / 2 = 0
    · intro a b ha hb
      rw [hp] at ha
      cases ha
      rw [List.getElem?_cons, if_neg hi.ne'] at hb
      exact hle b (List.mem_of_getElem? hb)
    · exact h.except i hi hp

end CacheSystem.Lib.Heap
