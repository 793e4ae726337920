import Mathlib.Data.Set.Insert
import Mathlib.Logic.Function.Basic

/-!
# Registries

A registry stores one value for each key.  Values are made from data and get keys that were never given out before; they
can be read, changed and removed by their keys, and queried.  What values are made from, which changes are admitted and
what a query may be answered with is left open (`Kind`).

* `Step`: what one call may do to a registry and how it may be answered;
* `Step.failed_again`, `Step.read_again`, `Step.query_again`, `Step.change_again`, `Step.remove_again`,
  `Step.create_again`, `Step.taken_again`: what the outcome of a call says about the outcome of the same call, made
  again;
* `Run.shown`: along a run, a relation that every admitted change is in relates any value that is shown for a key to any
  value that is shown for it later.
-/

namespace Registry

/-- What a registry is about: its values, and what calls may make of them. -/
structure Kind (K V D U F A : Type) where
  key : V → K
  /-- The value may be made from the data. -/
  Makes : D → V → Prop
  /-- The data asks for something that the value has already. -/
  Taken : D → V → Prop
  /-- The change is admitted for the value. -/
  Admits : V → U → Prop
  /-- What a change may make of a value. -/
  Changes : V → U → V → Prop
  changes_key : ∀ {v u v'}, Changes v u v' → key v' = key v
  /-- What a query may be answered with, where the stored values are those of a set. -/
  Answers : Set V → F → A → Prop

/-- The stored values, and every key that was given out. -/
@[ext] structure State (K V : Type) where
  stored : K → Option V
  issued : Set K

inductive Call (K D U F : Type) where
  | create (d : D)
  | read (k : K)
  | change (k : K) (u : U)
  | remove (k : K)
  | query (f : F)

/-- The key that a call names. -/
def Call.key? {K D U F : Type} : Call K D U F → Option K
  | create _ => none
  | read k => some k
  | change k _ => some k
  | remove k => some k
  | query _ => none

inductive Result (V A : Type) where
  | created (v : V)
  | taken
  | found (v : V)
  | changed (v : V)
  | refused (v : V)
  | removed (v : V)
  | missing
  | answered (a : A)

/-- The values that an outcome shows, where the answer to a query shows those that it lists. -/
def Result.Shows {V A : Type} (lists : A → V → Prop) : Result V A → V → Prop
  | created v, x => v = x
  | taken, _ => False
  | found v, x => v = x
  | changed v, x => v = x
  | refused v, x => v = x
  | removed v, x => v = x
  | missing, _ => False
  | answered a, x => lists a x

variable {K V D U F A : Type} [DecidableEq K]

/-- The registry with another value for a key, or none. -/
def State.put (st : State K V) (k : K) (v : Option V) : State K V := { st with stored := Function.update st.stored k v }

theorem State.put_stored (st : State K V) (k k' : K) (v : Option V) :
    (st.put k v).stored k' = if k' = k then v else st.stored k' := by
  simp only [put, Function.update_apply]

/-- The stored values. -/
def State.values (kind : Kind K V D U F A) (st : State K V) : Set V := {v | st.stored (kind.key v) = some v}

variable (kind : Kind K V D U F A)

/-- What a call may do. -/
inductive Step : State K V → Call K D U F → Result V A → State K V → Prop where
  | created {st : State K V} {d : D} {v : V} (made : kind.Makes d v) (fresh : kind.key v ∉ st.issued)
      (free : ∀ k v', st.stored k = some v' → ¬ kind.Taken d v') :
      Step st (.create d) (.created v)
        { stored := Function.update st.stored (kind.key v) (some v), issued := insert (kind.key v) st.issued }
  | taken {st : State K V} {d : D} {k : K} {v : V} (present : st.stored k = some v) (h : kind.Taken d v) :
      Step st (.create d) .taken st
  | found {st : State K V} {k : K} {v : V} (present : st.stored k = some v) : Step st (.read k) (.found v) st
  | changed {st : State K V} {k : K} {u : U} {v v' : V} (present : st.stored k = some v) (admitted : kind.Admits v u)
      (h : kind.Changes v u v') : Step st (.change k u) (.changed v') (st.put k (some v'))
  | refused {st : State K V} {k : K} {u : U} {v : V} (present : st.stored k = some v) (h : ¬ kind.Admits v u) :
      Step st (.change k u) (.refused v) st
  | removed {st : State K V} {k : K} {v : V} (present : st.stored k = some v) :
      Step st (.remove k) (.removed v) (st.put k none)
  | missing {st : State K V} {c : Call K D U F} {k : K} (named : c.key? = some k) (absent : st.stored k = none) :
      Step st c .missing st
  | answered {st : State K V} {f : F} {a : A} (h : kind.Answers (st.values kind) f a) :
      Step st (.query f) (.answered a) st

/-- Calls with their outcomes, one after the other. -/
inductive Run : State K V → List (Call K D U F × Result V A) → State K V → Prop where
  | nil (st : State K V) : Run st [] st
  | cons {st st₁ st' : State K V} {c : Call K D U F} {o : Result V A} {l : List (Call K D U F × Result V A)} :
      Step kind st c o st₁ → Run st₁ l st' → Run st ((c, o) :: l) st'

variable {kind} {st st' : State K V}

theorem Run.snoc {st'' : State K V} {l : List (Call K D U F × Result V A)} {c : Call K D U F} {o : Result V A}
    (h : Run kind st l st') (hs : Step kind st' c o st'') : Run kind st (l ++ [(c, o)]) st'' := by
  induction h with
  | nil st => exact Run.cons hs (Run.nil _)
  | cons h₁ _ ih => exact Run.cons h₁ (ih hs)

variable (kind) in
/-- Every value is stored under its key, which was given out. -/
structure Wf (st : State K V) : Prop where
  key : ∀ k v, st.stored k = some v → kind.key v = k
  issued : ∀ k v, st.stored k = some v → k ∈ st.issued

theorem Step.wf {c : Call K D U F} {o : Result V A} (h : Step kind st c o st') (hw : Wf kind st) : Wf kind st' := by
  cases h with
  | @created d v made fresh free =>
    refine ⟨fun k v' hk => ?_, fun k v' hk => ?_⟩
    · simp only [Function.update_apply] at hk
      split at hk
      · cases hk
        exact (by assumption : k = _).symm
      · exact hw.key k v' hk
    · simp only [Function.update_apply] at hk
      split at hk
      · exact Or.inl (by assumption)
      · exact Or.inr (hw.issued k v' hk)
  | @changed k u v v' present admitted hc =>
    refine ⟨fun k' x hk => ?_, fun k' x hk => ?_⟩
    · rw [State.put_stored] at hk
      split at hk
      · rename_i heq
        cases hk
        rw [heq, kind.changes_key hc, hw.key k v present]
      · exact hw.key k' x hk
    · rw [State.put_stored] at hk
      split at hk
      · rename_i heq
        rw [heq]
        exact hw.issued k v present
      · exact hw.issued k' x hk
  | removed present =>
    refine ⟨fun k' x hk => ?_, fun k' x hk => ?_⟩
    · rw [State.put_stored] at hk
      split at hk
      · cases hk
      · exact hw.key k' x hk
    · rw [State.put_stored] at hk
      split at hk
      · cases hk
      · exact hw.issued k' x hk
  | _ => exact hw

section Shown

variable {R : V → V → Prop}

/-- From `v₀` on the key has only moved along the relation, or is gone. -/
private def Follows (R : V → V → Prop) (v₀ : V) (k : K) (st : State K V) : Prop :=
  k ∈ st.issued ∧ ∀ v, st.stored k = some v → R v₀ v

private theorem Follows.step (htrans : ∀ a b c, R a b → R b c → R a c)
    (hchange : ∀ v u v', kind.Admits v u → kind.Changes v u v' → R v v') {v₀ : V} {k : K} {c : Call K D U F}
    {o : Result V A} (hs : Step kind st c o st') (h : Follows R v₀ k st) : Follows R v₀ k st' := by
  cases hs with
  | @created d v made fresh free =>
    -- a new value has a new key
    have hne : k ≠ kind.key v := by
      rintro rfl
      exact fresh h.1
    refine ⟨Or.inr h.1, fun x hx => h.2 x ?_⟩
    simpa only [Function.update_apply, if_neg hne] using hx
  | @changed k' u v v' present admitted hc =>
    refine ⟨h.1, fun x hx => ?_⟩
    rw [State.put_stored] at hx
    split at hx
    · rename_i heq
      cases hx
      subst heq
      exact htrans _ _ _ (h.2 v present) (hchange v u _ admitted hc)
    · exact h.2 x hx
  | removed present =>
    refine ⟨h.1, fun x hx => ?_⟩
    rw [State.put_stored] at hx
    split at hx
    · cases hx
    · exact h.2 x hx
  | _ => exact h

variable {lists : A → V → Prop} (hlists : ∀ stored f a v, kind.Answers stored f a → lists a v → v ∈ stored)

include hlists

/-- What a step shows is stored before it or after it. -/
private theorem Step.shows {c : Call K D U F} {o : Result V A} (hs : Step kind st c o st') (hw : Wf kind st) {v : V}
    (hv : o.Shows lists v) :
    (st.stored (kind.key v) = some v ∧ (o = .removed v ∨ st' = st)) ∨ st'.stored (kind.key v) = some v := by
  cases hs with
  | created made fresh free =>
    cases hv
    exact Or.inr (Function.update_self ..)
  | changed present admitted hc =>
    cases hv
    refine Or.inr ?_
    rw [kind.changes_key hc, hw.key _ _ present, State.put_stored, if_pos rfl]
  | found present =>
    cases hv
    exact Or.inl ⟨by rw [hw.key _ _ present]; exact present, Or.inr rfl⟩
  | refused present =>
    cases hv
    exact Or.inl ⟨by rw [hw.key _ _ present]; exact present, Or.inr rfl⟩
  | removed present =>
    cases hv
    exact Or.inl ⟨by rw [hw.key _ _ present]; exact present, Or.inl rfl⟩
  | taken => cases hv
  | missing => cases hv
  | answered h => exact Or.inl ⟨hlists _ _ _ v h hv, Or.inr rfl⟩

private theorem Run.shown_of_follows (htrans : ∀ a b c, R a b → R b c → R a c)
    (hchange : ∀ v u v', kind.Admits v u → kind.Changes v u v' → R v v') {v₀ : V} {k : K}
    {l : List (Call K D U F × Result V A)} (hr : Run kind st l st') (hw : Wf kind st) (h : Follows R v₀ k st) :
    ∀ x ∈ l, ∀ v, x.2.Shows lists v → kind.key v = k → R v₀ v := by
  induction hr with
  | nil st => simp
  | cons hs _ ih =>
    have hnext := h.step htrans hchange hs
    intro x hx v hv hk
    rcases List.mem_cons.1 hx with rfl | hx
    · subst hk
      rcases hs.shows hlists hw hv with ⟨hstored, -⟩ | hstored
      · exact h.2 v hstored
      · exact hnext.2 v hstored
    · exact ih (hs.wf hw) hnext x hx v hv hk

/-- The values that a run shows for one key are related in the order in which they are shown. -/
theorem Run.shown (hrefl : ∀ v, R v v) (htrans : ∀ a b c, R a b → R b c → R a c)
    (hchange : ∀ v u v', kind.Admits v u → kind.Changes v u v' → R v v') {l : List (Call K D U F × Result V A)}
    (hr : Run kind st l st') (hw : Wf kind st) :
    l.Pairwise fun x y => ∀ v v', x.2.Shows lists v → y.2.Shows lists v' → kind.key v' = kind.key v → R v v' := by
  induction hr with
  | nil st => exact List.Pairwise.nil
  | @cons st st₁ st' c o l hs hr ih =>
    refine List.pairwise_cons.2 ⟨fun y hy v v' hv hv' hk => ?_, ih (hs.wf hw)⟩
    refine hr.shown_of_follows hlists htrans hchange (hs.wf hw) ?_ y hy v' hv' hk
    -- the value is stored after the step, or it is the one that the step removes
    have hafter := (hs.wf hw).issued (kind.key v)
    rcases hs.shows hlists hw hv with ⟨hstored, rfl | rfl⟩ | hstored
    · cases hs with
      | removed present =>
        have hkey := hw.key _ _ present
        refine ⟨hw.issued _ _ hstored, fun x hx => ?_⟩
        rw [State.put_stored, if_pos hkey] at hx
        cases hx
    · refine ⟨hafter v hstored, fun x hx => ?_⟩
      rw [hstored] at hx
      cases hx
      exact hrefl v
    · refine ⟨hafter v hstored, fun x hx => ?_⟩
      rw [hstored] at hx
      cases hx
      exact hrefl v

end Shown

/-! ### A call that is made again -/

section Again

variable {st'' : State K V} {c : Call K D U F} {o' : Result V A}

/-- A change that is refused, and a call on a key that is not there, fail again in the same way. -/
theorem Step.failed_again {o : Result V A} (h : Step kind st c o st') (ho : o = .missing ∨ ∃ v, o = .refused v)
    (h' : Step kind st' c o' st'') : o' = o ∧ st'' = st' := by
  cases h with
  | @refused k u v present hrefused =>
    cases h' with
    | changed present' admitted =>
      obtain rfl := Option.some.inj (present'.symm.trans present)
      exact absurd admitted hrefused
    | refused present' =>
      obtain rfl := Option.some.inj (present'.symm.trans present)
      exact ⟨rfl, rfl⟩
    | missing named absent =>
      cases named
      rw [absent] at present
      cases present
  | @missing _ k named absent =>
    cases h' with
    | created => cases named
    | taken => cases named
    | answered => cases named
    | missing => exact ⟨rfl, rfl⟩
    | _ present =>
      cases named
      rw [absent] at present
      cases present
  | _ =>
    rcases ho with ho | ⟨v, ho⟩
    · cases ho
    · cases ho

/-- What was found is found again. -/
theorem Step.read_again {k : K} {v : V} (h : Step kind st (.read k) (.found v) st')
    (h' : Step kind st' (.read k) o' st'') : o' = .found v ∧ st'' = st' := by
  cases h with
  | found present =>
    cases h' with
    | found present' =>
      obtain rfl := Option.some.inj (present'.symm.trans present)
      exact ⟨rfl, rfl⟩
    | missing named absent =>
      cases named
      rw [absent] at present
      cases present

/-- A query is answered again from the same values. -/
theorem Step.query_again {f : F} {a : A} (h : Step kind st (.query f) (.answered a) st')
    (h' : Step kind st' (.query f) o' st'') : ∃ a', o' = .answered a' ∧ kind.Answers (st'.values kind) f a ∧
      kind.Answers (st'.values kind) f a' ∧ st'' = st' := by
  cases h with
  | answered ha =>
    cases h' with
    | @answered _ a' ha' => exact ⟨a', rfl, ha, ha', rfl⟩
    | missing named => cases named

/-- A change is made again, if what it made admits it. -/
theorem Step.change_again {k : K} {u : U} {v : V} (h : Step kind st (.change k u) (.changed v) st')
    (hadmits : kind.Admits v u) (h' : Step kind st' (.change k u) o' st'') :
    ∃ v', o' = .changed v' ∧ kind.Changes v u v' ∧ st'' = st'.put k (some v') := by
  cases h with
  | @changed _ _ v₀ _ present admitted hc =>
    have hstored : (st.put k (some v)).stored k = some v := by rw [State.put_stored, if_pos rfl]
    cases h' with
    | @changed _ _ x v' present' admitted' hc' =>
      obtain rfl := Option.some.inj (present'.symm.trans hstored)
      exact ⟨v', rfl, hc', rfl⟩
    | refused present' hrefused =>
      obtain rfl := Option.some.inj (present'.symm.trans hstored)
      exact absurd hadmits hrefused
    | missing named absent =>
      cases named
      rw [hstored] at absent
      cases absent

/-- What was removed is not there. -/
theorem Step.remove_again {k : K} {v : V} (h : Step kind st (.remove k) (.removed v) st')
    (h' : Step kind st' (.remove k) o' st'') : o' = .missing ∧ st'' = st' := by
  cases h with
  | removed present =>
    have hstored : (st.put k none).stored k = none := by rw [State.put_stored, if_pos rfl]
    cases h' with
    | removed present' =>
      rw [hstored] at present'
      cases present'
    | missing => exact ⟨rfl, rfl⟩

/-- A second creation makes another value, or it asks for something that is taken. -/
theorem Step.create_again {d d' : D} {v : V} (h : Step kind st (.create d) (.created v) st')
    (h' : Step kind st' (.create d') o' st'') :
    (o' = .taken ∧ st'' = st') ∨ ∃ v', o' = .created v' ∧ kind.Makes d' v' ∧ kind.key v' ≠ kind.key v ∧
      ¬ kind.Taken d' v := by
  cases h with
  | created made fresh free =>
    cases h' with
    | @created _ v' made' fresh' free' =>
      refine Or.inr ⟨v', rfl, made', fun heq => fresh' (heq ▸ Or.inl rfl), ?_⟩
      exact free' _ v (Function.update_self ..)
    | taken => exact Or.inl ⟨rfl, rfl⟩
    | missing named => cases named

/-- A creation after one that asked for something taken is not about the same value. -/
theorem Step.taken_again {d d' : D} (h : Step kind st (.create d) .taken st')
    (h' : Step kind st' (.create d') o' st'') :
    (o' = .taken ∧ st'' = st') ∨
      ∃ v v', o' = .created v' ∧ kind.Makes d' v' ∧ kind.Taken d v ∧ ¬ kind.Taken d' v := by
  cases h with
  | @taken _ _ v present htaken =>
    cases h' with
    | created made fresh free => exact Or.inr ⟨v, _, rfl, made, htaken, free _ v present⟩
    | taken => exact Or.inl ⟨rfl, rfl⟩
    | missing named => cases named

end Again

end Registry
