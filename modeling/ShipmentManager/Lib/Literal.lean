import Mathlib.Data.List.Forall2

/-!
# Literal matching

A pattern that stands for itself, up to an equivalence of characters, matches exactly the strings that contain it
(`exists_matchAt_iff`).  Of the pattern language only the two rules by which a match is put together are used: the empty
pattern matches the empty part of a string, and an ordinary character in front of a pattern matches one character in
front of what the pattern matches.
-/

namespace Literal

variable {α : Type} (eq : α → α → Prop)

/-- Some part of the string `s` is `p`, up to `eq`. -/
def Contains (p s : List α) : Prop := ∃ before part after, s = before ++ part ++ after ∧ List.Forall₂ eq p part

variable {eq} {MatchAt : List α → List α → Nat → Nat → Prop} {Ordinary : List α → Prop}

section

variable (hnil : ∀ s i j, MatchAt [] s i j ↔ i = j ∧ i ≤ s.length)
  (hcons : ∀ c p s i j, Ordinary (c :: p) →
    (MatchAt (c :: p) s i j ↔ ∃ d, s[i]? = some d ∧ eq c d ∧ MatchAt p s (i + 1) j))
  (htail : ∀ c p, Ordinary (c :: p) → Ordinary p)

include hnil hcons htail

/-- Where an ordinary pattern matches. -/
theorem matchAt_iff {p s : List α} {i j : Nat} (hp : Ordinary p) :
    MatchAt p s i j ↔ ∃ before part after,
      s = before ++ part ++ after ∧ before.length = i ∧ j = i + part.length ∧ List.Forall₂ eq p part := by
  induction p generalizing i with
  | nil =>
    rw [hnil]
    constructor
    · rintro ⟨rfl, hi⟩
      refine ⟨s.take i, [], s.drop i, ?_, ?_, rfl, List.Forall₂.nil⟩
      · rw [List.append_nil, List.take_append_drop]
      · rw [List.length_take]
        omega
    · rintro ⟨before, part, after, rfl, rfl, rfl, hpart⟩
      cases hpart
      simp
  | cons c p ih =>
    rw [hcons c p s i j hp]
    constructor
    · rintro ⟨d, hd, hcd, hm⟩
      obtain ⟨before, part, after, hs, hlen, rfl, hpart⟩ := (ih (htail c p hp)).1 hm
      obtain ⟨hi, rfl⟩ := List.getElem?_eq_some_iff.1 hd
      have hbefore : before = s.take i ++ [s[i]] := by
        rw [← List.take_succ_eq_append_getElem hi, ← hlen, hs, List.append_assoc, List.take_left']
        rfl
      refine ⟨s.take i, s[i] :: part, after, ?_, ?_, ?_, List.Forall₂.cons hcd hpart⟩
      · conv_lhs => rw [hs, hbefore]
        simp only [List.append_assoc, List.cons_append, List.nil_append]
      · rw [List.length_take]
        omega
      · rw [List.length_cons]
        omega
    · rintro ⟨before, part, after, rfl, rfl, rfl, hpart⟩
      cases hpart with
      | @cons _ d _ part hcd hpart =>
        refine ⟨d, ?_, hcd, (ih (htail c p hp)).2 ⟨before ++ [d], part, after, ?_, ?_, ?_, hpart⟩⟩
        · rw [List.append_assoc, List.getElem?_append_right (Nat.le_refl _), Nat.sub_self]
          rfl
        · simp only [List.append_assoc, List.cons_append, List.nil_append]
        · rw [List.length_append, List.length_singleton]
        · rw [List.length_cons]
          omega

/-- An ordinary pattern is found in the strings that contain it. -/
theorem exists_matchAt_iff {p s : List α} (hp : Ordinary p) : (∃ i j, MatchAt p s i j) ↔ Contains eq p s := by
  constructor
  · rintro ⟨i, j, hm⟩
    obtain ⟨before, part, after, hs, -, -, hpart⟩ := (matchAt_iff hnil hcons htail hp).1 hm
    exact ⟨before, part, after, hs, hpart⟩
  · rintro ⟨before, part, after, hs, hpart⟩
    exact ⟨before.length, _, (matchAt_iff hnil hcons htail hp).2 ⟨before, part, after, hs, rfl, rfl, hpart⟩⟩

end

end Literal
