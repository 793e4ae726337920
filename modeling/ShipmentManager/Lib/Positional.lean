import Mathlib.Algebra.Group.Nat.Even
import Mathlib.Data.List.Induction

/-!
# Numbers of a fixed number of digits

`digits b k n` are the last `k` digits of `n` to the base `b`, the most significant one first, and `value b l` is the
number that a list of digits stands for.  The two are inverse to each other between the numbers below `b ^ k` and the
lists of `k` digits (`value_digits`, `digits_value`).  Texts of fields of one width are in the order of their fields
(`append_lt_append_iff`), and fields of digits are in the order of their numbers (`lt_iff_value_lt`).
-/

namespace Positional

def digits (b k n : Nat) : List Nat := (List.range k).reverse.map fun i => n / b ^ i % b

def value (b : Nat) (l : List Nat) : Nat := l.foldl (fun n d => b * n + d) 0

theorem digits_succ (b k n : Nat) : digits b (k + 1) n = digits b k (n / b) ++ [n % b] := by
  unfold digits
  rw [List.range_succ_eq_map, List.reverse_cons, List.map_append, List.map_reverse, List.map_reverse, List.map_map]
  simp only [Function.comp_def, Nat.pow_succ', Nat.div_div_eq_div_mul, Nat.pow_zero, Nat.div_one, List.map_cons,
    List.map_nil]

@[simp] theorem length_digits (b k n : Nat) : (digits b k n).length = k := by simp [digits]

theorem value_append_singleton (b : Nat) (l : List Nat) (d : Nat) : value b (l ++ [d]) = b * value b l + d := by
  rw [value, List.foldl_append]
  rfl

theorem lt_of_mem_digits {b k n d : Nat} (hb : 0 < b) (h : d ∈ digits b k n) : d < b := by
  obtain ⟨i, -, rfl⟩ := List.mem_map.1 h
  exact Nat.mod_lt _ hb

/-- The number that the last `k` digits of a number stand for. -/
theorem value_digits (b k n : Nat) : value b (digits b k n) = n % b ^ k := by
  induction k generalizing n with
  | zero => simp [digits, value, Nat.mod_one]
  | succ k ih =>
    rw [digits_succ, value_append_singleton, ih, Nat.pow_succ', Nat.mod_mul]
    omega

/-- A list of digits is given by its length and the number that it stands for. -/
theorem digits_value {b : Nat} {l : List Nat} (hl : ∀ d ∈ l, d < b) : digits b l.length (value b l) = l := by
  induction l using List.reverseRecOn with
  | nil => rfl
  | append_singleton l d ih =>
    have hd : d < b := hl d (by simp)
    have hb : 0 < b := by omega
    rw [List.length_append, List.length_singleton, digits_succ, value_append_singleton, Nat.mul_add_mod,
      Nat.mod_eq_of_lt hd, Nat.mul_add_div hb, Nat.div_eq_of_lt hd, Nat.add_zero,
      ih fun d' hd' => hl d' (List.mem_append_left _ hd')]

theorem value_lt {b : Nat} {l : List Nat} (hb : 0 < b) (hl : ∀ d ∈ l, d < b) : value b l < b ^ l.length := by
  have h := value_digits b l.length (value b l)
  rw [digits_value hl] at h
  exact h ▸ Nat.mod_lt _ (Nat.pow_pos hb)

private theorem mul_add_lt_mul_add {b n n' d : Nat} (hn : n < n') (hd : d < b) (d' : Nat) :
    b * n + d < b * n' + d' :=
  calc b * n + d
    _ < b * n + b := Nat.add_lt_add_left hd _
    _ = b * (n + 1) := (Nat.mul_succ b n).symm
    _ ≤ b * n' := Nat.mul_le_mul_left b hn
    _ ≤ b * n' + d' := Nat.le_add_right _ _

section Order

variable {α : Type*} [LT α]

/-- Two texts that begin with fields of one width are compared by these fields first. -/
theorem append_lt_append_iff {l l' : List α} (hlength : l.length = l'.length) (r r' : List α) :
    l ++ r < l' ++ r' ↔ l < l' ∨ l = l' ∧ r < r' := by
  induction l generalizing l' with
  | nil =>
    obtain rfl := List.length_eq_zero_iff.1 hlength.symm
    simp
  | cons x l ih =>
    cases l' with
    | nil => simp at hlength
    | cons y l' =>
      have hrest : l ++ r < l' ++ r' ↔ l < l' ∨ l = l' ∧ r < r' := ih (by simpa using hlength)
      rw [List.cons_append, List.cons_append, List.cons_lt_cons_iff, List.cons_lt_cons_iff, hrest, List.cons.injEq]
      tauto

/-- The digits of an ordered alphabet, in the order of their values. -/
structure IsAlphabet (b : Nat) (p : α → Prop) (f : α → Nat) : Prop where
  lt : ∀ x, p x → f x < b
  lt_iff : ∀ x y, p x → p y → (x < y ↔ f x < f y)
  injective : ∀ x y, p x → p y → f x = f y → x = y

variable {b : Nat} {p : α → Prop} {f : α → Nat}

private theorem foldl_lt_iff (h : IsAlphabet b p f) {l l' : List α} (hlength : l.length = l'.length)
    (hl : ∀ x ∈ l, p x) (hl' : ∀ x ∈ l', p x) (n n' : Nat) :
    (l.map f).foldl (fun n d => b * n + d) n < (l'.map f).foldl (fun n d => b * n + d) n' ↔
      n < n' ∨ n = n' ∧ l < l' := by
  induction l generalizing l' n n' with
  | nil =>
    obtain rfl := List.length_eq_zero_iff.1 hlength.symm
    simp
  | cons x l ih =>
    cases l' with
    | nil => simp at hlength
    | cons y l' =>
      obtain ⟨hx, hl⟩ := List.forall_mem_cons.1 hl
      obtain ⟨hy, hl'⟩ := List.forall_mem_cons.1 hl'
      have hxb := h.lt x hx
      have hyb := h.lt y hy
      have hstep : b * n + f x < b * n' + f y ↔ n < n' ∨ n = n' ∧ f x < f y := by
        rcases Nat.lt_trichotomy n n' with hn | hn | hn
        · have hlt := mul_add_lt_mul_add hn hxb (f y)
          omega
        · subst hn
          omega
        · have hlt := mul_add_lt_mul_add hn hyb (f x)
          omega
      have hsame : b * n + f x = b * n' + f y ↔ n = n' ∧ x = y := by
        constructor
        · intro heq
          rcases Nat.lt_trichotomy n n' with hn | hn | hn
          · have hlt := mul_add_lt_mul_add hn hxb (f y)
            omega
          · subst hn
            exact ⟨rfl, h.injective x y hx hy (by omega)⟩
          · have hlt := mul_add_lt_mul_add hn hyb (f x)
            omega
        · rintro ⟨rfl, rfl⟩
          rfl
      rw [List.map_cons, List.map_cons, List.foldl_cons, List.foldl_cons,
        ih (by simpa using hlength) hl hl', hstep, hsame, List.cons_lt_cons_iff, h.lt_iff x y hx hy]
      tauto

/-- Lists of digits of one length are in the order of the numbers that they stand for. -/
theorem lt_iff_value_lt (h : IsAlphabet b p f) {l l' : List α} (hlength : l.length = l'.length)
    (hl : ∀ x ∈ l, p x) (hl' : ∀ x ∈ l', p x) : l < l' ↔ value b (l.map f) < value b (l'.map f) := by
  unfold value
  rw [foldl_lt_iff h hlength hl hl']
  simp

end Order

end Positional
