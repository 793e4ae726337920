import Mathlib.Algebra.Order.BigOperators.Group.Finset
import Mathlib.Data.Finset.Max
import Mathlib.Order.Interval.Finset.Nat
import ShipmentManager.Lib.PageWalk

/-!
# Walking the pages of a changing list

A client that reads one page after the other reads each from the list of that moment.  Between two requests keys may
leave the list and others may join it, so a key may move from a page not yet read to one already read, or the other way.

* `crossing_card_le`: the keys that cross a position towards the front are at most as many as have left the list;
* `unseen_card_le`: the keys that are in the list all the time and are on no page are at most as many as have left, and
  those that the last page does not reach;
* `repeated_card_le`: those that are on two pages are at most as many as have joined.
-/

namespace Paging

variable {κ : Type} {r : κ → κ → Prop} [DecidableRel r] [Std.Total r] [Std.Antisymm r]

section Rank

variable [IsTrans κ r] {l : List κ} {x y : κ}

omit [Std.Antisymm r] in
private theorem rank_lt_rank (hy : y ∈ l) (h : ¬ r x y) : rank id r l y < rank id r l x := by
  have hyx : r y x := (Std.Total.total (r := r) x y).resolve_left h
  have hself : r y y := (Std.Total.total (r := r) y y).elim id id
  have hle : ∀ l' : List κ, rank id r l' y ≤ rank id r l' x := fun l' => List.countP_mono_left fun z _ hyz => by
    simp only [id, decide_not, Bool.not_eq_true', decide_eq_false_iff_not] at hyz ⊢
    exact fun hxz => hyz (IsTrans.trans (r := r) _ _ _ hyx hxz)
  obtain ⟨s, t, rfl⟩ := List.append_of_mem hy
  have hs := hle s
  have ht := hle t
  unfold rank at hs ht ⊢
  rw [List.countP_append, List.countP_append, List.countP_cons_of_neg (by simpa using hself),
    List.countP_cons_of_pos (by simpa using h)]
  omega

/-- What has a smaller rank than a key comes before it. -/
private theorem before_of_rank_lt (hx : x ∈ l) (h : rank id r l y < rank id r l x) : ¬ r x y := by
  intro hxy
  by_cases hyx : r y x
  · rw [Std.Antisymm.antisymm (r := r) _ _ hxy hyx] at h
    exact Nat.lt_irrefl _ h
  · have hlt := rank_lt_rank hx hyx
    omega

end Rank

/-- A key is on the page that its rank says. -/
theorem Arrangement.mem_page_iff {l A : List κ} (h : Arrangement id r l A) (hl : l.Nodup) {x : κ} (hx : x ∈ l)
    (k m : Nat) : x ∈ (A.drop (k * m)).take m ↔ k * m ≤ rank id r l x ∧ rank id r l x < (k + 1) * m := by
  have hkeys : (l.map id).Nodup := by rwa [List.map_id]
  rw [Nat.succ_mul]
  constructor
  · intro hmem
    obtain ⟨j, hj, rfl⟩ := List.mem_take_iff_getElem.1 hmem
    rw [List.length_drop] at hj
    rw [List.getElem_drop, h.rank_getElem hkeys]
    omega
  · rintro ⟨hle, hlt⟩
    refine List.mem_of_getElem? (i := rank id r l x - k * m) ?_
    rw [List.getElem?_take, if_pos (by omega), List.getElem?_drop, Nat.add_sub_cancel' hle]
    exact h.getElem?_rank hkeys hx

section Departures

variable [DecidableEq κ]

/-- The number of keys that leave when a list becomes another one. -/
def departures (l l' : List κ) : Nat := (l.toFinset \ l'.toFinset).card

theorem departures_self (l : List κ) : departures l l = 0 := by
  rw [departures, Finset.sdiff_self, Finset.card_empty]

theorem departures_triangle (l₁ l₂ l₃ : List κ) : departures l₁ l₃ ≤ departures l₁ l₂ + departures l₂ l₃ := by
  refine (Finset.card_le_card fun x hx => ?_).trans (Finset.card_union_le _ _)
  obtain ⟨hx₁, hx₃⟩ := Finset.mem_sdiff.1 hx
  by_cases hx₂ : x ∈ l₂.toFinset
  · exact Finset.mem_union_right _ (Finset.mem_sdiff.2 ⟨hx₂, hx₃⟩)
  · exact Finset.mem_union_left _ (Finset.mem_sdiff.2 ⟨hx₁, hx₂⟩)

theorem length_le_add_departures {l : List κ} (hl : l.Nodup) (l' : List κ) :
    l.length ≤ l'.length + departures l l' := by
  have hsplit : l.toFinset.card ≤ (l.toFinset \ l'.toFinset).card + l'.toFinset.card :=
    Finset.card_le_card_sdiff_add_card
  have hle := List.toFinset_card_le l'
  rw [List.toFinset_card_of_nodup hl] at hsplit
  unfold departures
  omega

end Departures

section Crossing

variable [IsTrans κ r] [DecidableEq κ]

/-- The keys that cross a position towards the front are at most as many as have left. -/
theorem crossing_card_le {l l' A : List κ} (hA : Arrangement id r l A) (hl : l.Nodup) {b : Nat} {C : Finset κ}
    (h : ∀ x ∈ C, x ∈ l ∧ x ∈ l' ∧ b ≤ rank id r l x ∧ rank id r l' x < b) : C.card ≤ departures l l' := by
  rcases C.eq_empty_or_nonempty with rfl | hne
  · exact Nat.zero_le _
  obtain ⟨z, hz, hmax⟩ := C.exists_max_image (rank id r l') hne
  obtain ⟨hzl, hzl', hzb, hzb'⟩ := h z hz
  have hkeys : (l.map id).Nodup := by rwa [List.map_id]
  -- the keys that were in front of the position, and those of them that have stayed
  let front : Finset κ := (A.take b).toFinset
  let stayed : Finset κ := front.filter (· ∈ l')
  have hfront : ∀ y ∈ front, y ∈ l ∧ rank id r l y < b := by
    intro y hy
    obtain ⟨j, hj, rfl⟩ := List.mem_take_iff_getElem.1 (List.mem_toFinset.1 hy)
    exact ⟨hA.perm.mem_iff.1 (List.getElem_mem _), by rw [hA.rank_getElem hkeys]; omega⟩
  have hcard : front.card = b := by
    have hlt := hA.rank_lt hkeys hzl
    rw [List.toFinset_card_of_nodup ((hA.perm.nodup_iff.2 hl).sublist (List.take_sublist _ _)), List.length_take,
      hA.length]
    omega
  have hleft : front.card - stayed.card ≤ departures l l' := by
    rw [← Finset.card_sdiff_of_subset (Finset.filter_subset _ _)]
    refine Finset.card_le_card fun y hy => ?_
    obtain ⟨hyf, hys⟩ := Finset.mem_sdiff.1 hy
    refine Finset.mem_sdiff.2 ⟨List.mem_toFinset.2 (hfront y hyf).1, fun hyl' => hys ?_⟩
    exact Finset.mem_filter.2 ⟨hyf, List.mem_toFinset.1 hyl'⟩
  -- in the new list they are in front of the last key that has crossed, with all the other ones
  have hdisjoint : Disjoint stayed (C.erase z) := by
    refine Finset.disjoint_left.2 fun y hy hyC => ?_
    have hlt := (hfront y (Finset.mem_of_mem_filter _ hy)).2
    have hle := (h y (Finset.mem_of_mem_erase hyC)).2.2.1
    omega
  have hbefore : stayed ∪ C.erase z ⊆ (l'.filter fun y => ¬ r z y).toFinset := by
    intro y hy
    simp only [List.mem_toFinset, List.mem_filter, decide_eq_true_eq]
    rcases Finset.mem_union.1 hy with hy | hy
    · obtain ⟨hyf, hyl'⟩ := Finset.mem_filter.1 hy
      have hlt := (hfront y hyf).2
      exact ⟨hyl', before_of_rank_lt hzl (by omega)⟩
    · obtain ⟨hne, hyC⟩ := Finset.mem_erase.1 hy
      refine ⟨(h y hyC).2.1, fun hzy => ?_⟩
      have hnot : ¬ r y z := fun hyz => hne (Std.Antisymm.antisymm (r := r) _ _ hyz hzy)
      have hlt := rank_lt_rank hzl' hnot
      have hle := hmax y hyC
      omega
  have hrank : (stayed ∪ C.erase z).card ≤ rank id r l' z := by
    refine (Finset.card_le_card hbefore).trans ((List.toFinset_card_le _).trans ?_)
    rw [rank, List.countP_eq_length_filter]
    exact le_rfl
  rw [Finset.card_union_of_disjoint hdisjoint, Finset.card_erase_of_mem hz] at hrank
  have hpos := Finset.card_pos.2 hne
  omega

end Crossing

section Walk

variable {l A : Nat → List κ} {m n : Nat} {x : κ}

/-- A key that no page shows crosses the end of a page that has been read, or it is behind the last page. -/
private theorem crosses_or_behind (hA : ∀ k, k < n → Arrangement id r (l k) (A k))
    (hl : ∀ k, k < n → (l k).Nodup) (hn : 0 < n) (hx : ∀ k, k < n → x ∈ l k)
    (hunseen : ∀ k, k < n → x ∉ ((A k).drop (k * m)).take m) :
    (∃ k, k + 1 < n ∧ (k + 1) * m ≤ rank id r (l k) x ∧ rank id r (l (k + 1)) x < (k + 1) * m) ∨
      n * m ≤ rank id r (l (n - 1)) x := by
  refine or_iff_not_imp_left.2 fun hnone => ?_
  push Not at hnone
  have hpage : ∀ k, k < n → k * m ≤ rank id r (l k) x → (k + 1) * m ≤ rank id r (l k) x := fun k hk hle =>
    Nat.le_of_not_lt fun hlt => hunseen k hk (((hA k hk).mem_page_iff (hl k hk) (hx k hk) k m).2 ⟨hle, hlt⟩)
  have hbehind : ∀ k, k < n → (k + 1) * m ≤ rank id r (l k) x := by
    intro k
    induction k with
    | zero =>
      intro hk
      exact hpage 0 hk (by omega)
    | succ k ih =>
      intro hk
      exact hpage (k + 1) hk (hnone k hk (ih (by omega)))
  have hle := hbehind (n - 1) (by omega)
  rwa [Nat.sub_add_cancel hn] at hle

/-- A key that two pages show crosses the end of a page in between towards the back. -/
private theorem exists_crossing_of_repeated (hA : ∀ k, k < n → Arrangement id r (l k) (A k))
    (hl : ∀ k, k < n → (l k).Nodup) (hx : ∀ k, k < n → x ∈ l k) {j k : Nat} (hjk : j < k) (hk : k < n)
    (hj : x ∈ ((A j).drop (j * m)).take m) (hk' : x ∈ ((A k).drop (k * m)).take m) :
    ∃ i, i + 1 < n ∧ rank id r (l i) x < (i + 1) * m ∧ (i + 1) * m ≤ rank id r (l (i + 1)) x := by
  by_contra hnone
  push Not at hnone
  have hfront : ∀ i, j + i < n → rank id r (l (j + i)) x < (j + i + 1) * m := by
    intro i
    induction i with
    | zero => exact fun hi => (((hA j hi).mem_page_iff (hl j hi) (hx j hi) j m).1 hj).2
    | succ i ih =>
      intro hi
      have hlt := hnone (j + i) hi (ih (by omega))
      have hle : (j + i + 1) * m ≤ (j + (i + 1) + 1) * m := Nat.mul_le_mul_right m (by omega)
      exact hlt.trans_le hle
  obtain ⟨i, rfl⟩ : ∃ i, k = j + i + 1 := ⟨k - j - 1, by omega⟩
  have hlt := hnone (j + i) hk (hfront i (by omega))
  have hle := (((hA _ hk).mem_page_iff (hl _ hk) (hx _ hk) _ m).1 hk').1
  omega

variable [DecidableEq κ] {M : Finset κ} {f : Nat → Nat}

/-- Keys of which each crosses at some step are at most as many as the crossings of all steps. -/
private theorem card_le_of_crossings {p : Nat → κ → Prop} [∀ k, DecidablePred (p k)] (hn : 0 < n)
    (hM : ∀ x ∈ M, ∃ k, k + 1 < n ∧ p k x) (hp : ∀ k, k + 1 < n → (M.filter (p k)).card + f k ≤ f (k + 1)) :
    M.card + f 0 ≤ f (n - 1) := by
  have hcover : M ⊆ (Finset.range (n - 1)).biUnion fun k => M.filter (p k) := by
    intro x hx
    obtain ⟨k, hk, hpx⟩ := hM x hx
    exact Finset.mem_biUnion.2 ⟨k, Finset.mem_range.2 (by omega), Finset.mem_filter.2 ⟨hx, hpx⟩⟩
  have hsum : ∀ N, N < n → (∑ k ∈ Finset.range N, (M.filter (p k)).card) + f 0 ≤ f N := by
    intro N
    induction N with
    | zero => simp
    | succ N ih =>
      intro hN
      have hprefix := ih (by omega)
      have hstep := hp N hN
      rw [Finset.sum_range_succ]
      omega
  have hcard := (Finset.card_le_card hcover).trans Finset.card_biUnion_le
  have htotal := hsum (n - 1) (by omega)
  omega

variable [IsTrans κ r]

omit [DecidableEq κ] [IsTrans κ r] in
/-- The keys behind a position are at most as many as the list is longer. -/
private theorem behind_card_le {l A : List κ} (hA : Arrangement id r l A) (hl : l.Nodup) {b d : Nat}
    (hlength : l.length ≤ b + d) (hM : ∀ x ∈ M, x ∈ l ∧ b ≤ rank id r l x) : M.card ≤ d := by
  have hkeys : (l.map id).Nodup := by rwa [List.map_id]
  have hinj : Set.InjOn (rank id r l) M := by
    intro x hx y hy hxy
    have hgetx := hA.getElem?_rank hkeys (hM x hx).1
    have hgety := hA.getElem?_rank hkeys (hM y hy).1
    rw [hxy, hgety] at hgetx
    exact (Option.some.inj hgetx).symm
  have hmaps : Set.MapsTo (rank id r l) M (Finset.Ico b (b + d)) := by
    intro x hx
    have hlt := hA.rank_lt hkeys (hM x hx).1
    rw [Finset.mem_coe, Finset.mem_Ico]
    exact ⟨(hM x hx).2, by omega⟩
  have hcard := Finset.card_le_card_of_injOn _ hmaps hinj
  rwa [Nat.card_Ico, Nat.add_sub_cancel_left] at hcard

/-- The keys that are in the list at every request and on no page are at most as many as leave it on the way, and as
many as the last page does not reach. -/
theorem unseen_card_le (hA : ∀ k, k < n → Arrangement id r (l k) (A k)) (hl : ∀ k, k < n → (l k).Nodup) (hn : 0 < n)
    {d : Nat} (hend : (l (n - 1)).length ≤ n * m + d)
    (hf : ∀ k, k + 1 < n → departures (l k) (l (k + 1)) + f k ≤ f (k + 1))
    (hM : ∀ x ∈ M, ∀ k, k < n → x ∈ l k) (hunseen : ∀ x ∈ M, ∀ k, k < n → x ∉ ((A k).drop (k * m)).take m) :
    M.card + f 0 ≤ f (n - 1) + d := by
  have hlast : n - 1 < n := by omega
  -- the keys that the last page does not reach, and the ones that have crossed
  have hbehind : (M.filter fun x => n * m ≤ rank id r (l (n - 1)) x).card ≤ d := by
    refine behind_card_le (hA (n - 1) hlast) (hl (n - 1) hlast) hend fun x hx => ?_
    obtain ⟨hxM, hle⟩ := Finset.mem_filter.1 hx
    exact ⟨hM x hxM (n - 1) hlast, hle⟩
  have hcrossed : (M.filter fun x => ¬ n * m ≤ rank id r (l (n - 1)) x).card + f 0 ≤ f (n - 1) := by
    refine card_le_of_crossings
      (p := fun k x => (k + 1) * m ≤ rank id r (l k) x ∧ rank id r (l (k + 1)) x < (k + 1) * m) hn
      (fun x hx => ?_) fun k hk => ?_
    · obtain ⟨hxM, hle⟩ := Finset.mem_filter.1 hx
      exact (crosses_or_behind hA hl hn (hM x hxM) (hunseen x hxM)).resolve_right hle
    · refine (Nat.add_le_add_right ?_ _).trans (hf k hk)
      refine crossing_card_le (hA k (by omega)) (hl k (by omega)) (b := (k + 1) * m) fun x hx => ?_
      obtain ⟨hx, hcrosses⟩ := Finset.mem_filter.1 hx
      have hxM := Finset.mem_of_mem_filter x hx
      exact ⟨hM x hxM k (by omega), hM x hxM (k + 1) hk, hcrosses⟩
  have hsplit := Finset.card_filter_add_card_filter_not (s := M) fun x => n * m ≤ rank id r (l (n - 1)) x
  omega

/-- The keys that are in the list at every request and on two pages are at most as many as join it on the way. -/
theorem repeated_card_le (hA : ∀ k, k < n → Arrangement id r (l k) (A k)) (hl : ∀ k, k < n → (l k).Nodup) (hn : 0 < n)
    (hf : ∀ k, k + 1 < n → departures (l (k + 1)) (l k) + f k ≤ f (k + 1)) (hM : ∀ x ∈ M, ∀ k, k < n → x ∈ l k)
    (hrepeated : ∀ x ∈ M, ∃ j k, j < k ∧ k < n ∧ x ∈ ((A j).drop (j * m)).take m ∧ x ∈ ((A k).drop (k * m)).take m) :
    M.card + f 0 ≤ f (n - 1) := by
  refine card_le_of_crossings (p := fun k x => rank id r (l k) x < (k + 1) * m ∧ (k + 1) * m ≤ rank id r (l (k + 1)) x)
    hn (fun x hx => ?_) fun k hk => ?_
  · obtain ⟨j, k, hjk, hk, hj, hk'⟩ := hrepeated x hx
    exact exists_crossing_of_repeated hA hl (hM x hx) hjk hk hj hk'
  -- read backwards, these keys cross towards the front
  · have hcross : (M.filter fun x => rank id r (l k) x < (k + 1) * m ∧ (k + 1) * m ≤ rank id r (l (k + 1)) x).card ≤
        departures (l (k + 1)) (l k) := by
      refine crossing_card_le (hA (k + 1) hk) (hl (k + 1) hk) (b := (k + 1) * m) fun x hx => ?_
      obtain ⟨hxM, hlt, hle⟩ := Finset.mem_filter.1 hx
      exact ⟨hM x hxM (k + 1) hk, hM x hxM k (by omega), hle, hlt⟩
    have hstep := hf k hk
    omega

end Walk

end Paging
