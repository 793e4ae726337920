import Mathlib.Data.List.Basic

/-!
# Partial writes

A write gives values to some of the fields of a record (`get a f` is the value that the write `a` gives to the field
`f`).  After a sequence of writes a field has the value of the last one that names it.

* `last_of_exclusive`: where no two writes name a field, the one that does is found at the end;
* `last_perm`: where no two writes name a field, their order does not matter.
-/

namespace LastWrite

variable {α φ V : Type} (get : α → φ → Option V)

/-- The value of the last write that names a field. -/
def last (writes : List α) (f : φ) : Option V := (writes.filterMap fun a => get a f).getLast?

/-- No two of the writes name the field. -/
def Exclusive (writes : List α) (f : φ) : Prop := writes.Pairwise fun a b => get a f = none ∨ get b f = none

variable {get}

/-- A write that names a field is the only one that does. -/
private theorem filterMap_of_exclusive {writes : List α} {f : φ} (h : Exclusive get writes f) {a : α} (ha : a ∈ writes)
    {v : V} (hv : get a f = some v) : writes.filterMap (fun a => get a f) = [v] := by
  induction writes with
  | nil => cases ha
  | cons b writes ih =>
    obtain ⟨hb, hrest⟩ := List.pairwise_cons.1 h
    rcases List.mem_cons.1 ha with rfl | ha
    · have hnone : writes.filterMap (fun a => get a f) = [] := by
        rw [List.filterMap_eq_nil_iff]
        intro c hc
        refine (hb c hc).resolve_left ?_
        rw [hv]
        exact Option.some_ne_none v
      simp only [List.filterMap_cons, hv, hnone]
    · have hnone : get b f = none := by
        refine (hb a ha).resolve_right ?_
        rw [hv]
        exact Option.some_ne_none v
      simp only [List.filterMap_cons, hnone]
      exact ih hrest ha

theorem last_of_exclusive {writes : List α} {f : φ} (h : Exclusive get writes f) {a : α} (ha : a ∈ writes) {v : V}
    (hv : get a f = some v) : last get writes f = some v := by
  unfold last
  rw [filterMap_of_exclusive h ha hv]
  rfl

theorem last_eq_none {writes : List α} {f : φ} : last get writes f = none ↔ ∀ a ∈ writes, get a f = none := by
  unfold last
  rw [List.getLast?_eq_none_iff, List.filterMap_eq_nil_iff]

theorem last_perm {writes writes' : List α} {f : φ} (h : Exclusive get writes f) (hperm : writes.Perm writes') :
    last get writes f = last get writes' f := by
  cases hlast : last get writes' f with
  | none =>
    rw [last_eq_none] at hlast ⊢
    exact fun a ha => hlast a (hperm.mem_iff.1 ha)
  | some v =>
    -- some write gives the field its value, and it is among the others too
    obtain ⟨a, ha, hv⟩ := List.mem_filterMap.1 (List.mem_of_getLast? hlast)
    exact last_of_exclusive h (hperm.mem_iff.2 ha) hv

end LastWrite
