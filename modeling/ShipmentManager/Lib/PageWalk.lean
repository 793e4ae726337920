import Mathlib.Algebra.GroupWithZero.Nat
import ShipmentManager.Lib.Paging

/-!
# Walking the pages of a growing list

A client asks for one page of size `m` after the other, and stops at the first one that says that there is no next page
(`StopsAfter`).  The list may grow between two requests.

* `rank`: the number of elements whose keys come before that of an element.  Where no two elements have the same key,
  the rank of an element is its position in every arrangement (`Arrangement.getElem?_rank`), and it does not get less
  when the list grows (`rank_le_of_sublist`).
* `mem_page_of_walk`: an element that no page has shown has moved behind all of them, so the client cannot stop before
  it has seen it.
* `sum_page_lengths`: the lengths of the pages of a list that does not change.
-/

namespace Paging

/-- A client that goes on as long as there is a next page stops after `n` requests. -/
structure StopsAfter (next : Nat → Bool) (n : Nat) : Prop where
  pos : 0 < n
  last : next (n - 1) = false
  before : ∀ k, k + 1 < n → next k = true

theorem StopsAfter.unique {next : Nat → Bool} {m n : Nat} (hm : StopsAfter next m) (hn : StopsAfter next n) :
    m = n := by
  have key : ∀ a b, StopsAfter next a → StopsAfter next b → ¬ a < b := by
    intro a b ha hb hlt
    have hpos := ha.pos
    have hnext := hb.before (a - 1) (by omega)
    rw [ha.last] at hnext
    cases hnext
  have h₁ := key m n hm hn
  have h₂ := key n m hn hm
  omega

/-- The lengths of the first pages of a list of length `N` add up to its length, as far as they reach. -/
theorem sum_page_lengths (m N n : Nat) : ((List.range n).map fun k => min m (N - k * m)).sum = min (n * m) N := by
  induction n with
  | zero => simp
  | succ n ih =>
    rw [List.range_succ, List.map_append, List.sum_append, ih, List.map_singleton, List.sum_singleton, Nat.succ_mul]
    omega

variable {α κ : Type} (key : α → κ) (r : κ → κ → Prop) [DecidableRel r]

/-- The number of elements whose keys come before that of `x`. -/
def rank (l : List α) (x : α) : Nat := l.countP fun y => ¬ r (key x) (key y)

variable {key r}

theorem rank_le_of_sublist {l l' : List α} (h : l.Sublist l') (x : α) : rank key r l x ≤ rank key r l' x :=
  h.countP_le

private theorem rank_after {x : α} {l : List α} (h : ∀ y ∈ l, r (key x) (key y)) : rank key r l x = 0 :=
  List.countP_eq_zero.2 fun y hy => by simpa using h y hy

private theorem rank_before [Std.Antisymm r] {x : α} {l : List α} (h : ∀ y ∈ l, r (key y) (key x) ∧ key y ≠ key x) :
    rank key r l x = l.length := by
  refine List.countP_eq_length.2 fun y hy => ?_
  obtain ⟨hle, hne⟩ := h y hy
  simp only [decide_not, Bool.not_eq_true', decide_eq_false_iff_not]
  exact fun hge => hne (Std.Antisymm.antisymm (r := r) _ _ hle hge)

variable [Std.Total r] [Std.Antisymm r]

/-- Where no two elements have the same key, the rank of an element is its position. -/
theorem Arrangement.rank_getElem {l A : List α} (h : Arrangement key r l A) (hkeys : (l.map key).Nodup) {i : Nat}
    (hi : i < A.length) : rank key r l A[i] = i := by
  have hnodup : (A.map key).Nodup := (h.perm.map key).nodup_iff.2 hkeys
  have hsplit : A = A.take i ++ A.drop i := (List.take_append_drop i A).symm
  have hrank : rank key r l A[i] = rank key r (A.take i) A[i] + rank key r (A.drop i) A[i] := by
    unfold rank
    rw [← h.perm.countP_eq, ← List.countP_append, ← hsplit]
  have hbefore : rank key r (A.take i) A[i] = (A.take i).length := by
    refine rank_before fun y hy => ?_
    obtain ⟨j, hj, rfl⟩ := List.mem_take_iff_getElem.1 hy
    have hji : j < i := by omega
    refine ⟨List.pairwise_iff_getElem.1 h.sorted j i (by omega) hi hji, ?_⟩
    exact List.pairwise_iff_getElem.1 (List.pairwise_map.1 hnodup) j i (by omega) hi hji
  have hafter : rank key r (A.drop i) A[i] = 0 := by
    refine rank_after fun y hy => ?_
    obtain ⟨j, hj, rfl⟩ := List.mem_drop_iff_getElem.1 hy
    rcases Nat.eq_zero_or_pos j with rfl | hpos
    · exact (Std.Total.total (r := r) (key A[i]) (key A[i])).elim id id
    · exact List.pairwise_iff_getElem.1 h.sorted i (i + j) hi (by omega) (by omega)
  rw [hrank, hbefore, hafter, List.length_take]
  omega

theorem Arrangement.getElem?_rank {l A : List α} (h : Arrangement key r l A) (hkeys : (l.map key).Nodup) {x : α}
    (hx : x ∈ l) : A[rank key r l x]? = some x := by
  obtain ⟨i, hi, rfl⟩ := List.getElem_of_mem (h.perm.mem_iff.2 hx)
  rw [h.rank_getElem hkeys hi]
  exact List.getElem?_eq_getElem hi

theorem Arrangement.rank_lt {l A : List α} (h : Arrangement key r l A) (hkeys : (l.map key).Nodup) {x : α}
    (hx : x ∈ l) : rank key r l x < l.length := by
  rw [← h.length]
  exact (List.getElem?_eq_some_iff.1 (h.getElem?_rank hkeys hx)).1

section Walk

variable {l A : Nat → List α} {m n : Nat} {x : α}

/-- An element that the first pages have not shown is behind them. -/
private theorem rank_of_unseen (hA : ∀ k, k < n → Arrangement key r (l k) (A k))
    (hkeys : ∀ k, k < n → ((l k).map key).Nodup) (hgrow : ∀ k, k + 1 < n → (l k).Sublist (l (k + 1))) (hx : x ∈ l 0)
    {k : Nat} (hk : k < n) (hunseen : ∀ j, j ≤ k → x ∉ ((A j).drop (j * m)).take m) :
    x ∈ l k ∧ (k + 1) * m ≤ rank key r (l k) x := by
  have hpage : ∀ k, k < n → x ∈ l k → k * m ≤ rank key r (l k) x → x ∉ ((A k).drop (k * m)).take m →
      (k + 1) * m ≤ rank key r (l k) x := by
    intro k hk hmem hle hnot
    refine Nat.le_of_not_lt fun hlt => hnot ?_
    have hget := (hA k hk).getElem?_rank (hkeys k hk) hmem
    rw [Nat.succ_mul] at hlt
    refine List.mem_of_getElem? (i := rank key r (l k) x - k * m) ?_
    rw [List.getElem?_take, if_pos (by omega), List.getElem?_drop, Nat.add_sub_cancel' hle]
    exact hget
  induction k with
  | zero => exact ⟨hx, hpage 0 hk hx (by omega) (hunseen 0 le_rfl)⟩
  | succ k ih =>
    obtain ⟨hmem, hle⟩ := ih (by omega) fun j hj => hunseen j (by omega)
    have hmem' : x ∈ l (k + 1) := (hgrow k hk).subset hmem
    -- what comes before it in the smaller list comes before it in the larger one
    have hle' := hle.trans (rank_le_of_sublist (hgrow k hk) x)
    exact ⟨hmem', hpage (k + 1) hk hmem' hle' (hunseen (k + 1) le_rfl)⟩

/-- A client that stops when the pages reach to the end of the list has seen every element that was there at the first
request. -/
theorem mem_page_of_walk (hA : ∀ k, k < n → Arrangement key r (l k) (A k))
    (hkeys : ∀ k, k < n → ((l k).map key).Nodup) (hgrow : ∀ k, k + 1 < n → (l k).Sublist (l (k + 1))) (hn : 0 < n)
    (hend : (l (n - 1)).length ≤ n * m) (hx : x ∈ l 0) : ∃ k, k < n ∧ x ∈ ((A k).drop (k * m)).take m := by
  by_contra hunseen
  push Not at hunseen
  have hlast : n - 1 < n := by omega
  obtain ⟨hmem, hle⟩ := rank_of_unseen hA hkeys hgrow hx hlast fun j hj => hunseen j (by omega)
  have hlt := (hA (n - 1) hlast).rank_lt (hkeys (n - 1) hlast) hmem
  rw [Nat.sub_add_cancel hn] at hle
  omega

end Walk

end Paging
