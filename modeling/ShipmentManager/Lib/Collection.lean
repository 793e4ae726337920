import Mathlib.Data.List.Nodup

/-!
# Collections with a unique key

A collection is a list of documents, in insertion order, in which no key occurs twice.  The three ways to change one
(`insert`, `modify`, `erase`) keep the keys unique, and a lookup after each of them is computed by `get?_insert`,
`get?_modify` and `get?_erase`; every other fact about a document of a collection follows from these three.
-/

/-- Documents of type `α` in insertion order, no two with the same key. -/
@[ext] structure Collection {κ α : Type} (key : α → κ) where
  docs : List α
  nodup : (docs.map key).Nodup

namespace Collection

variable {κ α : Type} {key : α → κ}

/-- The collection without documents. -/
def empty : Collection key := ⟨[], List.nodup_nil⟩

theorem eq_of_key {c : Collection key} {a b : α} (ha : a ∈ c.docs) (hb : b ∈ c.docs) (h : key a = key b) : a = b :=
  List.inj_on_of_nodup_map c.nodup ha hb h

variable [DecidableEq κ]

/-- The document with key `k`. -/
def get? (c : Collection key) (k : κ) : Option α := c.docs.find? fun a => key a = k

theorem get?_eq_none {c : Collection key} {k : κ} : c.get? k = none ↔ ∀ a ∈ c.docs, key a ≠ k := by
  simp [get?]

theorem mem_of_get? {c : Collection key} {k : κ} {a : α} (h : c.get? k = some a) : a ∈ c.docs :=
  List.mem_of_find?_eq_some h

theorem key_of_get? {c : Collection key} {k : κ} {a : α} (h : c.get? k = some a) : key a = k := by
  simpa using List.find?_some h

theorem get?_of_mem {c : Collection key} {a : α} (h : a ∈ c.docs) : c.get? (key a) = some a := by
  cases hg : c.get? (key a) with
  | none => exact absurd rfl (get?_eq_none.1 hg a h)
  | some b => rw [eq_of_key (mem_of_get? hg) h (key_of_get? hg)]

theorem get?_eq_some {c : Collection key} {k : κ} {a : α} : c.get? k = some a ↔ a ∈ c.docs ∧ key a = k := by
  constructor
  · intro h
    exact ⟨mem_of_get? h, key_of_get? h⟩
  · rintro ⟨h, rfl⟩
    exact get?_of_mem h

/-- Appends a document whose key is not used. -/
def insert (c : Collection key) (a : α) (h : c.get? (key a) = none) : Collection key where
  docs := c.docs ++ [a]
  nodup := by
    rw [List.map_append, List.nodup_append]
    refine ⟨c.nodup, List.nodup_singleton _, ?_⟩
    intro x hx y hy hxy
    obtain ⟨b, hb, rfl⟩ := List.mem_map.1 hx
    simp only [List.map_cons, List.map_nil, List.mem_singleton] at hy
    exact get?_eq_none.1 h b hb (hxy.trans hy)

/-- Applies a key-preserving change to the document with key `k`. -/
def modify (c : Collection key) (k : κ) (f : α → α) (hf : ∀ a, key (f a) = key a) : Collection key where
  docs := c.docs.map fun a => if key a = k then f a else a
  nodup := by
    rw [List.map_map]
    have e : (key ∘ fun a => if key a = k then f a else a) = key := by
      funext a
      by_cases h : key a = k <;> simp [h, hf]
    rw [e]
    exact c.nodup

/-- Removes the document with key `k`. -/
def erase (c : Collection key) (k : κ) : Collection key where
  docs := c.docs.filter fun a => key a ≠ k
  nodup := c.nodup.sublist (List.filter_sublist.map key)

theorem mem_insert {c : Collection key} {a b : α} {h : c.get? (key a) = none} :
    b ∈ (c.insert a h).docs ↔ b ∈ c.docs ∨ b = a := by
  simp [insert]

theorem mem_erase {c : Collection key} {k : κ} {b : α} : b ∈ (c.erase k).docs ↔ b ∈ c.docs ∧ key b ≠ k := by
  simp [erase]

theorem mem_modify {c : Collection key} {k : κ} {f : α → α} {hf : ∀ a, key (f a) = key a} {b : α} :
    b ∈ (c.modify k f hf).docs ↔ (b ∈ c.docs ∧ key b ≠ k) ∨ ∃ a ∈ c.docs, key a = k ∧ b = f a := by
  simp only [modify, List.mem_map]
  constructor
  · rintro ⟨a, ha, rfl⟩
    by_cases h : key a = k
    · exact Or.inr ⟨a, ha, h, by simp [h]⟩
    · exact Or.inl (by simp [h, ha])
  · rintro (⟨hb, hk⟩ | ⟨a, ha, hk, rfl⟩)
    · exact ⟨b, hb, by simp [hk]⟩
    · exact ⟨a, ha, by simp [hk]⟩

theorem get?_insert (c : Collection key) (a : α) (h : c.get? (key a) = none) (k : κ) :
    (c.insert a h).get? k = if key a = k then some a else c.get? k := by
  by_cases hk : key a = k
  · subst hk
    rw [if_pos rfl]
    exact get?_of_mem (mem_insert.2 (Or.inr rfl))
  · rw [if_neg hk]
    simp only [get?, insert, List.find?_append, List.find?_singleton, hk, decide_false]
    cases c.docs.find? fun a => decide (key a = k) <;> rfl

theorem get?_erase (c : Collection key) (k k' : κ) :
    (c.erase k).get? k' = if k = k' then none else c.get? k' := by
  by_cases hk : k = k'
  · subst hk
    rw [if_pos rfl, get?_eq_none]
    intro a ha
    exact (mem_erase.1 ha).2
  · rw [if_neg hk]
    cases hg : c.get? k' with
    | none =>
      rw [get?_eq_none] at hg ⊢
      intro a ha
      exact hg a (mem_erase.1 ha).1
    | some a =>
      have ha := get?_eq_some.1 hg
      exact get?_eq_some.2 ⟨mem_erase.2 ⟨ha.1, fun h => hk (h.symm.trans ha.2)⟩, ha.2⟩

theorem get?_modify (c : Collection key) (k : κ) (f : α → α) (hf : ∀ a, key (f a) = key a) (k' : κ) :
    (c.modify k f hf).get? k' = if k = k' then (c.get? k').map f else c.get? k' := by
  cases hg : c.get? k' with
  | none =>
    rw [Option.map_none, ite_self, get?_eq_none]
    rw [get?_eq_none] at hg
    intro b hb
    rcases mem_modify.1 hb with ⟨hb, -⟩ | ⟨a, ha, -, rfl⟩
    · exact hg b hb
    · rw [hf]
      exact hg a ha
  | some a =>
    obtain ⟨ha, rfl⟩ := get?_eq_some.1 hg
    by_cases hk : k = key a
    · rw [if_pos hk, Option.map_some, get?_eq_some]
      exact ⟨mem_modify.2 (Or.inr ⟨a, ha, hk.symm, rfl⟩), hf a⟩
    · rw [if_neg hk, get?_eq_some]
      exact ⟨mem_modify.2 (Or.inl ⟨ha, fun h => hk h.symm⟩), rfl⟩

/-- A document of a collection, before the others. -/
theorem docs_perm {c : Collection key} {k : κ} {a : α} (h : c.get? k = some a) :
    c.docs.Perm (a :: (c.erase k).docs) := by
  have ha := mem_of_get? h
  have hk := key_of_get? h
  have hnodup : c.docs.Nodup := List.Nodup.of_map key c.nodup
  have hnot : a ∉ (c.erase k).docs := fun hmem => (mem_erase.1 hmem).2 hk
  have hnodup' : (a :: (c.erase k).docs).Nodup := List.nodup_cons.2 ⟨hnot, List.Nodup.of_map key (c.erase k).nodup⟩
  rw [List.perm_ext_iff_of_nodup hnodup hnodup']
  intro b
  rw [List.mem_cons, mem_erase]
  constructor
  · intro hb
    by_cases hbk : key b = k
    · exact Or.inl (eq_of_key hb ha (hbk.trans hk.symm))
    · exact Or.inr ⟨hb, hbk⟩
  · rintro (rfl | ⟨hb, -⟩)
    · exact ha
    · exact hb

/-- The changed document, before the others. -/
theorem modify_docs_perm {c : Collection key} {k : κ} {f : α → α} (hf : ∀ a, key (f a) = key a) {a : α}
    (h : c.get? k = some a) : (c.modify k f hf).docs.Perm (f a :: (c.erase k).docs) := by
  let g : α → α := fun b => if key b = k then f b else b
  have hrest : (c.erase k).docs.map g = (c.erase k).docs := by
    have hsame : ∀ b ∈ (c.erase k).docs, g b = id b := fun b hb => if_neg (mem_erase.1 hb).2
    rw [List.map_congr_left hsame, List.map_id]
  have hperm : (c.docs.map g).Perm (g a :: (c.erase k).docs.map g) := (docs_perm h).map g
  rw [hrest] at hperm
  have hga : g a = f a := if_pos (key_of_get? h)
  rw [hga] at hperm
  exact hperm

end Collection
