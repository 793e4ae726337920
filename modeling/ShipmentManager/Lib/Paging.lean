import Mathlib.Data.List.Nodup
import Mathlib.Data.List.Sort

/-!
# Pages of a sorted list

A query that sorts by a key returns its elements in some order that the keys respect (`Arrangement`); elements with the
same key may come in a different order every time.  A page is a slice of such an order, and every page may be cut from
another one.

* `Arrangement.map_key`, `Arrangement.unique`: two arrangements have the same keys in the same places, and they are
  equal where the keys tell the elements apart;
* `Arrangement.take_perm`: where the keys differ on both sides of a position, the elements before the position are the
  same in every arrangement;
* `pages_perm_iff`: the pages of a list put together are a permutation of it, whatever the arrangements are, exactly
  when the keys differ at every boundary between two pages.
-/

namespace Paging

variable {α κ : Type} (key : α → κ) (r : κ → κ → Prop)

/-- An order of the elements of a list that their keys respect. -/
structure Arrangement (l A : List α) : Prop where
  perm : A.Perm l
  sorted : A.Pairwise fun a b => r (key a) (key b)

variable {key r} in
theorem Arrangement.length {l A : List α} (h : Arrangement key r l A) : A.length = l.length := h.perm.length_eq

/-- An arrangement stays one when two neighbours with the same key change places. -/
theorem Arrangement.swap {key : α → κ} {r : κ → κ → Prop} {l A : List α} (h : Arrangement key r l A) {c : Nat}
    (hc : c + 1 < A.length) (hkey : key A[c] = key A[c + 1]) :
    Arrangement key r l (A.take c ++ A[c + 1] :: A[c] :: A.drop (c + 2)) := by
  have hsplit : A = A.take c ++ A[c] :: A[c + 1] :: A.drop (c + 2) := by
    rw [← List.drop_eq_getElem_cons hc, ← List.drop_eq_getElem_cons (by omega : c < A.length), List.take_append_drop]
  have hmap : (A.take c ++ A[c + 1] :: A[c] :: A.drop (c + 2)).map key = A.map key := by
    conv_rhs => rw [hsplit]
    simp only [List.map_append, List.map_cons, hkey]
  constructor
  · have hperm := (List.Perm.swap A[c] A[c + 1] (A.drop (c + 2))).append_left (A.take c)
    rw [← hsplit] at hperm
    exact hperm.trans h.perm
  · rw [← List.pairwise_map (f := key) (R := r), hmap]
    exact List.pairwise_map.2 h.sorted

variable [DecidableRel r]

/-- The keys of a list in order. -/
def sortedKeys (l : List α) : List κ := (l.map key).insertionSort r

/-- The keys on both sides of a position differ. -/
def Untied (l : List α) (b : Nat) : Prop := (sortedKeys key r l)[b - 1]? ≠ (sortedKeys key r l)[b]?

/-- The first `n` pages of size `m`, the `k`th cut from the arrangement `A k`. -/
def pages (m : Nat) (A : Nat → List α) (n : Nat) : List α :=
  (List.range n).flatMap fun k => ((A k).drop (k * m)).take m

variable {key r} [Std.Total r] [IsTrans κ r] [Std.Antisymm r] {l : List α}

/-- The keys of an arrangement are the sorted keys. -/
theorem Arrangement.map_key {A : List α} (h : Arrangement key r l A) : A.map key = sortedKeys key r l := by
  have hs : (A.map key).Pairwise r := List.pairwise_map.2 h.sorted
  have hp : (A.map key).Perm ((l.map key).insertionSort r) :=
    (h.perm.map key).trans (List.perm_insertionSort r _).symm
  exact hp.eq_of_pairwise' hs (List.pairwise_insertionSort r _)

/-- Where the keys tell the elements apart there is only one arrangement. -/
theorem Arrangement.unique {A B : List α} (hA : Arrangement key r l A) (hB : Arrangement key r l B)
    (hinj : ∀ a ∈ l, ∀ b ∈ l, key a = key b → a = b) : A = B := by
  have hkeys : A.map key = B.map key := hA.map_key.trans hB.map_key.symm
  refine List.ext_getElem (hA.length.trans hB.length.symm) fun i hi hi' => ?_
  refine hinj _ (hA.perm.mem_iff.1 (List.getElem_mem hi)) _ (hB.perm.mem_iff.1 (List.getElem_mem hi')) ?_
  have hkey := congrArg (fun keys => keys[i]?) hkeys
  simpa [hi, hi'] using hkey

variable (key r) in
omit [Std.Antisymm r] in
/-- Any list has an arrangement. -/
theorem exists_arrangement (l : List α) : ∃ A, Arrangement key r l A := by
  let r' : α → α → Prop := fun a b => r (key a) (key b)
  have htotal : Std.Total r' := ⟨fun a b => Std.Total.total (r := r) (key a) (key b)⟩
  have htrans : IsTrans α r' := ⟨fun a b c hab hbc => IsTrans.trans (r := r) _ _ _ hab hbc⟩
  exact ⟨l.insertionSort r', List.perm_insertionSort r' l, List.pairwise_insertionSort r' l⟩

private theorem key_getElem {A : List α} (h : Arrangement key r l A) {i : Nat} (hi : i < A.length) :
    (sortedKeys key r l)[i]? = some (key A[i]) := by
  rw [← h.map_key, List.getElem?_map, List.getElem?_eq_getElem hi]
  rfl

omit [DecidableRel r] [IsTrans κ r] [Std.Antisymm r] in
private theorem key_le {A : List α} (h : Arrangement key r l A) {i j : Nat} (hij : i ≤ j) (hj : j < A.length) :
    r (key A[i]) (key A[j]) := by
  rcases Nat.lt_or_eq_of_le hij with hlt | rfl
  · exact List.pairwise_iff_getElem.1 h.sorted i j (by omega) hj hlt
  · exact (Std.Total.total (r := r) (key A[i]) (key A[i])).elim id id

/-- The elements before an untied position are those whose keys are at most the key before it. -/
private theorem take_eq_filter {A : List α} (h : Arrangement key r l A) {b : Nat} (hb : 0 < b) (hbl : b < l.length)
    (hu : Untied key r l b) (c : κ) (hc : (sortedKeys key r l)[b - 1]? = some c) :
    A.take b = A.filter fun a => r (key a) c := by
  have hlen := h.length
  have hkey : key A[b - 1] = c := by
    rw [key_getElem h (by omega)] at hc
    exact Option.some.inj hc
  have hbefore : (A.take b).filter (fun a => r (key a) c) = A.take b := by
    rw [List.filter_eq_self]
    intro a ha
    obtain ⟨i, hi, rfl⟩ := List.mem_take_iff_getElem.1 ha
    rw [decide_eq_true_eq, ← hkey]
    exact key_le h (by omega) (by omega)
  have hafter : (A.drop b).filter (fun a => r (key a) c) = [] := by
    rw [List.filter_eq_nil_iff]
    intro a ha hle
    obtain ⟨i, hi, rfl⟩ := List.mem_drop_iff_getElem.1 ha
    rw [decide_eq_true_eq] at hle
    refine hu ?_
    have h₁ : r (key A[b]) c := IsTrans.trans (r := r) _ _ _ (key_le h (by omega) (by omega)) hle
    have h₂ : r c (key A[b]) := hkey ▸ key_le h (by omega) (by omega)
    rw [key_getElem h (by omega), key_getElem h (by omega), hkey, Std.Antisymm.antisymm (r := r) _ _ h₁ h₂]
  calc A.take b = (A.take b).filter (fun a => r (key a) c) ++ (A.drop b).filter fun a => r (key a) c := by
        rw [hbefore, hafter, List.append_nil]
    _ = A.filter fun a => r (key a) c := by rw [← List.filter_append, List.take_append_drop]

/-- Before an untied position all arrangements have the same elements. -/
theorem Arrangement.take_perm {A B : List α} (hA : Arrangement key r l A) (hB : Arrangement key r l B) {b : Nat}
    (h : 0 < b → b < l.length → Untied key r l b) : (A.take b).Perm (B.take b) := by
  rcases Nat.eq_zero_or_pos b with rfl | hb
  · rw [List.take_zero, List.take_zero]
  rcases Nat.lt_or_ge b l.length with hlt | hge
  · have hlen := hA.length
    have hc := key_getElem hA (i := b - 1) (by omega)
    rw [take_eq_filter hA hb hlt (h hb hlt) _ hc, take_eq_filter hB hb hlt (h hb hlt) _ hc]
    exact (hA.perm.trans hB.perm.symm).filter _
  · rw [List.take_of_length_le (by rw [hA.length]; exact hge), List.take_of_length_le (by rw [hB.length]; exact hge)]
    exact hA.perm.trans hB.perm.symm

private theorem pages_succ (m : Nat) (A : Nat → List α) (n : Nat) :
    pages m A (n + 1) = pages m A n ++ ((A n).drop (n * m)).take m := by
  rw [pages, List.range_succ, List.flatMap_append, List.flatMap_singleton]
  rfl

/-- Where no boundary is tied, the first pages are the first elements of an arrangement. -/
private theorem pages_take {m : Nat} (h : ∀ k, 0 < k → k * m < l.length → Untied key r l (k * m)) {A : Nat → List α}
    (hA : ∀ k, Arrangement key r l (A k)) (n : Nat) :
    ∃ B, Arrangement key r l B ∧ (pages m A n).Perm (B.take (n * m)) := by
  -- the first `n` pages are those of the arrangement that the last of them is cut from
  induction n with
  | zero => exact ⟨A 0, hA 0, by rw [Nat.zero_mul, List.take_zero]; exact List.Perm.refl _⟩
  | succ n ih =>
    obtain ⟨B, hB, hperm⟩ := ih
    have hbound : 0 < n * m → n * m < l.length → Untied key r l (n * m) :=
      fun hpos hlt => h n (Nat.pos_of_mul_pos_right hpos) hlt
    refine ⟨A n, hA n, ?_⟩
    rw [pages_succ, Nat.succ_mul, List.take_add]
    exact (hperm.trans (hB.take_perm (hA n) hbound)).append_right _

private theorem mem_page {B : List α} {i m j : Nat} (hj : j < m) {x : α} (hx : B[i + j]? = some x) :
    x ∈ (B.drop i).take m := by
  refine List.mem_of_getElem? (i := j) ?_
  rw [List.getElem?_take, if_pos hj, List.getElem?_drop, hx]

/-- Where a boundary is tied, two arrangements put the same element on both sides of it. -/
private theorem exists_repetition (hl : l.Nodup) {m n k : Nat} (hm : 0 < m) (hn : l.length ≤ n * m) (hk : 0 < k)
    (hlt : k * m < l.length) (htie : ¬ Untied key r l (k * m)) :
    ∃ A : Nat → List α, (∀ j, Arrangement key r l (A j)) ∧ ¬ (pages m A n).Perm l := by
  obtain ⟨A, hA⟩ := exists_arrangement key r l
  have hlen := hA.length
  obtain ⟨c, hc⟩ : ∃ c, k * m = c + 1 := ⟨k * m - 1, by have := Nat.mul_pos hk hm; omega⟩
  have hkn : k < n := by
    refine Nat.lt_of_not_le fun hle => ?_
    have := Nat.mul_le_mul_right m hle
    omega
  have hkey : key A[c] = key A[c + 1] := by
    unfold Untied at htie
    rw [not_not, hc, Nat.add_sub_cancel, key_getElem hA (by omega), key_getElem hA (by omega)] at htie
    exact Option.some.inj htie
  -- from the page `k` on, the two elements at the boundary have changed places
  refine ⟨fun j => if j < k then A else A.take c ++ A[c + 1] :: A[c] :: A.drop (c + 2), fun j => ?_, fun hperm => ?_⟩
  · show Arrangement key r l (if j < k then _ else _)
    split
    · exact hA
    · exact hA.swap (by omega) hkey
  · have hnd := (List.nodup_flatMap.1 (hperm.nodup_iff.2 hl)).2
    have hdisj := List.pairwise_iff_getElem.1 hnd (k - 1) k (by simp; omega) (by simpa using hkn) (by omega)
    simp only [List.getElem_range, Function.onFun] at hdisj
    refine hdisj (a := A[c]) ?_ ?_
    · -- the last element of the page before the boundary
      rw [if_pos (by omega)]
      have hpred : (k - 1) * m + m = c + 1 := by rw [← Nat.succ_mul, Nat.succ_eq_add_one, Nat.sub_add_cancel hk, hc]
      refine mem_page (j := m - 1) (by omega) ?_
      rw [show (k - 1) * m + (m - 1) = c by omega, List.getElem?_eq_getElem]
    · -- the first element of the page after it
      rw [if_neg (by omega), hc]
      refine mem_page (j := 0) hm ?_
      have htake : (A.take c).length = c := by rw [List.length_take]; omega
      have hsub : c + 1 + 0 - c = 1 := by omega
      rw [List.getElem?_append_right (by omega), htake, hsub]
      rfl

/-- The pages are a permutation of the list, whatever arrangement each is cut from, exactly when no boundary is tied. -/
theorem pages_perm_iff (hl : l.Nodup) {m n : Nat} (hm : 0 < m) (hn : l.length ≤ n * m) :
    (∀ A : Nat → List α, (∀ k, Arrangement key r l (A k)) → (pages m A n).Perm l) ↔
      ∀ k, 0 < k → k * m < l.length → Untied key r l (k * m) := by
  constructor
  · intro h k hk hlt htie
    obtain ⟨A, hA, hperm⟩ := exists_repetition hl hm hn hk hlt fun hu : Untied key r l (k * m) => hu htie
    exact hperm (h A hA)
  · intro h A hA
    obtain ⟨B, hB, hperm⟩ := pages_take h hA n
    rw [List.take_of_length_le (by rw [hB.length]; exact hn)] at hperm
    exact hperm.trans hB.perm

end Paging
