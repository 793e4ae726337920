import ShipmentManager.Deletion

/-!
# Status transitions in a run

An update checks the transition on the status that its read returned, and its write carries no condition.  The write is
safe when the stored status is still the one that was read; when another write came in between, it is safe exactly when
the transition is also allowed from the status that is stored then (`statusSafe_iff`).
-/

namespace ShipmentManager

open Interleaving

/-- `t` is in `STATUS_TRANSITIONS[s]`. -/
def LegalChange (s t : Text) : Prop :=
  ∃ a b : ShipmentStatus, a.value = s ∧ b.value = t ∧ b ∈ statusTransitions a

/-- A status that no shipment leaves. -/
def FinalStatus (s : Text) : Prop := s = ShipmentStatus.delivered.value ∨ s = ShipmentStatus.cancelled.value

/-- How far a shipment is on its way. -/
def ShipmentStatus.rank : ShipmentStatus → Nat
  | pending => 0
  | inTransit => 1
  | delivered => 2
  | cancelled => 2

/-- A status and a later one. -/
def Forward (s t : Text) : Prop := ∃ a b : ShipmentStatus, a.value = s ∧ b.value = t ∧ a.rank < b.rank

theorem LegalChange.forward {s t : Text} (h : LegalChange s t) : Forward s t := by
  obtain ⟨a, b, ha, hb, hab⟩ := h
  refine ⟨a, b, ha, hb, ?_⟩
  cases a <;> cases b <;> first | decide | exact absurd hab (by decide)

theorem Forward.trans {s t u : Text} (h : Forward s t) (h' : Forward t u) : Forward s u := by
  obtain ⟨a, b, ha, hb, hab⟩ := h
  obtain ⟨b', c, hb', hc, hbc⟩ := h'
  have hbb : b = b' := ShipmentStatus.value_injective (hb.trans hb'.symm)
  subst hbb
  exact ⟨a, c, ha, hc, by omega⟩

theorem FinalStatus.not_forward {s t : Text} (hs : FinalStatus s) : ¬ Forward s t := by
  rintro ⟨a, b, ha, -, hab⟩
  have hrank : a.rank = 2 := by
    rcases hs with hs | hs
    · rw [ShipmentStatus.value_injective (ha.trans hs)]
      rfl
    · rw [ShipmentStatus.value_injective (ha.trans hs)]
      rfl
  have hle : b.rank ≤ 2 := by cases b <;> decide
  omega

/-- What the transition check accepts. -/
theorem isValidStatusTransition_iff {s t : Text} :
    isValidStatusTransition s (.str t) = some true ↔ t = s ∨ LegalChange s t := by
  unfold isValidStatusTransition
  by_cases hts : t = s
  · simp [hts]
  · have hfalse : (JsValue.str t).isText s = false := by simpa using hts
    rw [hfalse, if_neg (by decide), or_iff_right hts]
    unfold transitionsOf? LegalChange
    cases ho : ShipmentStatus.ofText? s with
    | none =>
      simp only [Option.map_none, reduceCtorEq, false_iff]
      rintro ⟨a, b, ha, -⟩
      rw [← ha, ShipmentStatus.ofText?_value] at ho
      cases ho
    | some a =>
      have ha := ShipmentStatus.value_of_ofText? ho
      simp only [Option.map_some, Option.some.injEq, List.any_map, List.any_eq_true, Function.comp_apply,
        JsValue.isText_str, decide_eq_true_eq]
      constructor
      · rintro ⟨b, hb, hbt⟩
        exact ⟨a, b, ha, hbt.symm, hb⟩
      · rintro ⟨a', b, ha', hbt, hb⟩
        have haa : a' = a := ShipmentStatus.value_injective (ha'.trans ha.symm)
        subst haa
        exact ⟨b, hb, hbt.symm⟩

variable {P : Platform}

/-- A status that a validator let through passes the check of an update when the transition is allowed. -/
theorem checkTransition_ok {s t : Text} (ht : t ∈ statusValues)
    (h : ShipmentService.checkTransition P s (some (.str t)) = .ok ()) :
    isValidStatusTransition s (.str t) = some true := by
  simp only [ShipmentService.checkTransition, truthy_status ht, Bool.true_and] at h
  split at h
  · unfold ShipmentService.validateStatusTransition at h
    split at h
    · cases h
    · assumption
    · cases h
  · rename_i hne
    have hts : t = s := by simpa using hne
    exact isValidStatusTransition_iff.2 (Or.inl hts)

/-- A write of an update in a run comes after the read of the same request, whose status passed the check. -/
theorem Reachable.write_of_update {db : Db} {w : ServerWorld P} (hw : Reachable P db w) {i : Nat} {text : Text}
    {data : JsObject} {r : (Command.findByIdAndUpdate text data).Answer} {s s' : Db}
    (he : (i, (⟨.findByIdAndUpdate text data, r, s, s'⟩ : DbEvent)) ∈ w.log) :
    ∃ existing db₁ db₁', w.own i = [⟨.findById text, .ok (some existing), db₁, db₁'⟩,
      ⟨.findByIdAndUpdate text data, r, s, s'⟩] ∧
        ShipmentService.checkTransition P existing.status (Obj.get? data "status") = .ok () := by
  obtain ⟨t, p, -, -, -, hruns, hstep⟩ := Reachable.task_step hw he
  have hmem := World.mem_own.2 he
  have hp : p = .update text data := by
    generalize t.prog = q at hstep
    cases hstep
    rfl
  subst hp
  generalize t.prog = q at hruns
  generalize w.own i = es at hruns hmem
  cases runs_update hruns with
  | started => cases hmem
  | failed => cases List.mem_singleton.1 hmem
  | missing => cases List.mem_singleton.1 hmem
  | read => cases List.mem_singleton.1 hmem
  | written existing db₁ db₁' db₂ db₂' r' hok =>
    rcases List.mem_cons.1 hmem with hmem | hmem
    · cases hmem
    · rw [List.mem_singleton] at hmem
      cases hmem
      exact ⟨existing, db₁, db₁', rfl, hok⟩

/-! ### Safety along a run -/

/-- Every write that changes a status makes an allowed transition, a final status is kept, and no status moves back. -/
structure StatusSafe (db : Db) (w : ServerWorld P) : Prop where
  legal : ∀ e ∈ w.events, ∀ id s s', e.before.get? id = some s → e.after.get? id = some s' →
    s'.status = s.status ∨ LegalChange s.status s'.status
  final : ∀ m n, m ≤ n → ∀ id s s', (stateAt db w.events m).get? id = some s →
    (stateAt db w.events n).get? id = some s' → FinalStatus s.status → s'.status = s.status
  forward : ∀ m n, m ≤ n → ∀ id s s', (stateAt db w.events m).get? id = some s →
    (stateAt db w.events n).get? id = some s' → s'.status = s.status ∨ Forward s.status s'.status

/-- The write of the request `i`, which committed: the shipment that its read returned, the one that is stored when the
write is performed, and the status that its body names. -/
def CommittedPut (w : ServerWorld P) (i : Nat) (read stored : Shipment) (status : JsValue) : Prop :=
  ∃ text data db₁ db₁' s db₂ db₂', w.own i = [⟨.findById text, .ok (some read), db₁, db₁'⟩,
      ⟨.findByIdAndUpdate text data, .ok (some s), db₂, db₂'⟩] ∧
    db₂.get? (hexValue text) = some stored ∧ Obj.get? data "status" = some status

/-- Every committed write that names a status and meets another status than the one its request read passes the
transition check from the status it meets. -/
def StaleWritesPass (w : ServerWorld P) : Prop :=
  ∀ i read stored status, CommittedPut w i read stored status → stored.status ≠ read.status →
    isValidStatusTransition stored.status status = some true

/-- What an update makes of a status: what the validated body names, or what was there. -/
theorem status_of_body {o data : JsObject} {u : Update} (hout : UpdateOutput o data) (hb : BodyUpdate o u)
    (s : Shipment) : (Obj.get? data "status" = none ∧ (u.apply s).status = s.status) ∨
      ∃ t ∈ statusValues, Obj.get? data "status" = some (.str t) ∧ (u.apply s).status = t := by
  have hstatus : (u.apply s).status = (u.set "status").getD s.status := rfl
  have hset : Obj.get? data "status" = (u.set "status").map .str := hb.set_eq hout (by decide)
  rw [hstatus]
  rcases hout.status with ⟨-, hd⟩ | ⟨t, ht, -, hd⟩
  · have hnone : u.set "status" = none := Option.map_eq_none_iff.1 (hset.symm.trans hd)
    exact Or.inl ⟨hd, by rw [hnone]; rfl⟩
  · obtain ⟨t', hsome, heq⟩ := Option.map_eq_some_iff.1 (hset.symm.trans hd)
    cases heq
    exact Or.inr ⟨t, ht, hd, by rw [hsome]; rfl⟩

/-- A step that changes a shipment is a committed update of it. -/
theorem Effect.changes {c : Command} {r : c.Answer} {db db' : Db} (h : Effect c r db db') {id : ObjectId}
    {s s' : Shipment} (hs : db.get? id = some s) (hs' : db'.get? id = some s') :
    s' = s ∨ ∃ text data u o, (⟨c, r, db, db'⟩ : DbEvent) = ⟨.findByIdAndUpdate text data, .ok (some s'), db, db'⟩ ∧
      hexValue text = id ∧ s' = u.apply s ∧ UpdateOutput o data ∧ BodyUpdate o u := by
  have same : db' = db → s' = s := by
    rintro rfl
    rw [hs] at hs'
    cases hs'
    rfl
  cases h with
  | inserted data x _ _ fresh times sent body hi =>
    rw [hi.get?, if_neg] at hs'
    · rw [hs] at hs'
      cases hs'
      exact Or.inl rfl
    · rintro rfl
      exact fresh (Db.issued_of_get? hs)
  | updated text data u x _ _ sent body hu =>
    rw [hu.get?] at hs'
    split at hs'
    · rename_i hid
      obtain ⟨o, ho⟩ := sent
      rw [← hid, hu.present] at hs
      cases hs
      cases hs'
      exact Or.inr ⟨text, data, u, o, rfl, hid, rfl, ho, body o ho⟩
    · rw [hs] at hs'
      cases hs'
      exact Or.inl rfl
  | deleted text x _ _ hd =>
    rw [hd.get?] at hs'
    split at hs'
    · cases hs'
    · rw [hs] at hs'
      cases hs'
      exact Or.inl rfl
  | _ => exact Or.inl (same rfl)

section Run

variable {db : Db} {w : ServerWorld P}

/-- A step of a run whose stale writes pass changes a status as the table allows. -/
theorem legal_of_stale (hw : Reachable P db w) (hstale : StaleWritesPass w) {e : DbEvent} (he : e ∈ w.events)
    {id : ObjectId} {s s' : Shipment} (hs : e.before.get? id = some s) (hs' : e.after.get? id = some s') :
    s'.status = s.status ∨ LegalChange s.status s'.status := by
  obtain ⟨⟨i, e⟩, hlog, rfl⟩ := List.mem_map.1 he
  rcases (Reachable.effect hw he).changes hs hs' with rfl | ⟨text, data, u, o, heq, hid, hu, hout, hb⟩
  · exact Or.inl rfl
  rcases status_of_body hout hb s with ⟨-, hst⟩ | ⟨t, ht, hdata, hst⟩
  · exact Or.inl (hu ▸ hst)
  have heq' : e = ⟨.findByIdAndUpdate text data, .ok (some s'), e.before, e.after⟩ := heq
  rw [heq'] at hlog
  obtain ⟨existing, db₁, db₁', hown, hok⟩ := Reachable.write_of_update hw hlog
  have hpass : isValidStatusTransition s.status (.str t) = some true := by
    -- either the request's own check was made on this status, or another write came in between
    by_cases hread : s.status = existing.status
    · rw [hdata] at hok
      rw [hread]
      exact checkTransition_ok ht hok
    · exact hstale i existing s (.str t) ⟨text, data, db₁, db₁', s', e.before, e.after, hown, hid ▸ hs, hdata⟩ hread
  rw [hu, hst]
  exact isValidStatusTransition_iff.1 hpass

private theorem forward_of_legal (hw : Reachable P db w)
    (hlegal : ∀ e ∈ w.events, ∀ id s s', e.before.get? id = some s → e.after.get? id = some s' →
      s'.status = s.status ∨ LegalChange s.status s'.status) {m n : Nat} (hmn : m ≤ n) {id : ObjectId}
    {s s' : Shipment} (hs : (stateAt db w.events m).get? id = some s)
    (hs' : (stateAt db w.events n).get? id = some s') : s'.status = s.status ∨ Forward s.status s'.status := by
  -- with `Evolves`, since a shipment that is there in both stores has been there in between
  let rel : Db → Db → Prop := fun a b => Evolves a b ∧ ∀ id s s', a.get? id = some s → b.get? id = some s' →
    s'.status = s.status ∨ Forward s.status s'.status
  have hrefl : ∀ a, rel a a := by
    refine fun a => ⟨Evolves.refl a, fun id s s' hs hs' => ?_⟩
    rw [hs] at hs'
    cases hs'
    exact Or.inl rfl
  have htrans : ∀ a b c, rel a b → rel b c → rel a c := by
    intro a b c hab hbc
    refine ⟨hab.1.trans hbc.1, fun id s s' hs hs' => ?_⟩
    cases hm : b.get? id with
    | none =>
      have hgone := hbc.1.gone id (hab.1.issued id (Db.issued_of_get? hs)) hm
      rw [hgone] at hs'
      cases hs'
    | some x =>
      have h₁ := hab.2 id s x hs hm
      have h₂ := hbc.2 id x s' hm hs'
      rcases h₁ with h₁ | h₁
      · rw [← h₁]
        exact h₂
      · rcases h₂ with h₂ | h₂
        · rw [h₂]
          exact Or.inr h₁
        · exact Or.inr (h₁.trans h₂)
  have hstep : ∀ e ∈ w.events, rel e.before e.after := by
    refine fun e he => ⟨(Reachable.effect hw he).evolves, fun id s s' hs hs' => ?_⟩
    exact (hlegal e he id s s' hs hs').imp_right LegalChange.forward
  exact ((Interleaving.Reachable.sound hw).chained.rel rel hrefl htrans hstep hmn).2 id s s' hs hs'

/-- The status transitions of a run are safe exactly when every write that meets another status than its request read
passes the check from the status that it meets. -/
theorem statusSafe_iff (hw : Reachable P db w) : StatusSafe db w ↔ StaleWritesPass w := by
  constructor
  · rintro ⟨hlegal, -, -⟩ i read stored status ⟨text, data, db₁, db₁', s, db₂, db₂', hown, hstored, hstatus⟩ -
    have hlog : (i, (⟨.findByIdAndUpdate text data, .ok (some s), db₂, db₂'⟩ : DbEvent)) ∈ w.log := by
      rw [← World.mem_own, hown]
      exact List.mem_cons_of_mem _ (List.mem_singleton_self _)
    have he := World.mem_events hlog
    have heff := Reachable.effect hw he
    generalize hans : (Except.ok (some s) : (Command.findByIdAndUpdate text data).Answer) = r at heff
    cases heff with
    | updateMissing => cases hans
    | updateFailed => cases hans
    | updated _ _ u x _ _ sent body hu =>
      cases hans
      obtain ⟨o, ho⟩ := sent
      have hx : x = stored := by
        have := hu.present
        change db₂.get? (hexValue text) = some x at this
        rw [hstored] at this
        exact (Option.some.inj this).symm
      subst hx
      have hafter : db₂'.get? (hexValue text) = some (u.apply x) := by rw [hu.get?, if_pos rfl]
      have hl := hlegal _ he (hexValue text) x (u.apply x) hstored hafter
      rcases status_of_body ho (body o ho) x with ⟨hd, -⟩ | ⟨t, -, hd, hst⟩
      · rw [hd] at hstatus
        cases hstatus
      · rw [hd] at hstatus
        cases hstatus
        rw [hst] at hl
        exact isValidStatusTransition_iff.2 hl
  · intro hstale
    have hlegal : ∀ e ∈ w.events, ∀ id s s', e.before.get? id = some s → e.after.get? id = some s' →
        s'.status = s.status ∨ LegalChange s.status s'.status := fun e he id s s' => legal_of_stale hw hstale he
    have hforward : ∀ m n, m ≤ n → ∀ id s s', (stateAt db w.events m).get? id = some s →
        (stateAt db w.events n).get? id = some s' → s'.status = s.status ∨ Forward s.status s'.status :=
      fun m n hmn id s s' => forward_of_legal hw hlegal hmn
    refine ⟨hlegal, fun m n hmn id s s' hs hs' hfinal => ?_, hforward⟩
    exact (hforward m n hmn id s s' hs hs').resolve_right hfinal.not_forward

end Run

/-- Two updates that both read a pending shipment, and write one after the other. -/
def racingUpdates : List (Move (Arrival referencePlatform) Choice) :=
  [.arrive (putStatus 1 .cancelled), .arrive (putStatus 1 .inTransit), .perform 0 false {}, .perform 1 false {},
    .perform 0 false {}, .perform 1 false {}]

/-- The status of the shipment 1 after some events of a run. -/
def statusAt (db : Db) (w : ServerWorld referencePlatform) (n : Nat) : Option Text :=
  ((stateAt db w.events n).get? 1).map Shipment.status

set_option maxRecDepth 4000 in
theorem exists_racingUpdates : ∃ w, Reachable referencePlatform (sampleStore .pending) w ∧
    (statusAt (sampleStore .pending) w 3 = some ShipmentStatus.cancelled.value ∧
      statusAt (sampleStore .pending) w 4 = some ShipmentStatus.inTransit.value) := by
  obtain ⟨w, hw, hq⟩ := exists_run (sampleStore .pending) racingUpdates (fun w =>
    statusAt (sampleStore .pending) w 3 = some ShipmentStatus.cancelled.value ∧
      statusAt (sampleStore .pending) w 4 = some ShipmentStatus.inTransit.value) (by decide)
  exact ⟨w, hw, by simpa using hq⟩

/-- A cancelled shipment can be put in transit: the second update read it before it was cancelled. -/
theorem statusSafe_fails :
    ¬ ∀ (P : Platform) (db : Db) (w : ServerWorld P), Reachable P db w → StatusSafe db w := by
  intro h
  obtain ⟨w, hw, h₃, h₄⟩ := exists_racingUpdates
  obtain ⟨s, hs, hst⟩ := Option.map_eq_some_iff.1 h₃
  obtain ⟨s', hs', hst'⟩ := Option.map_eq_some_iff.1 h₄
  have hfinal := (h referencePlatform _ w hw).final 3 4 (by omega) 1 s s' hs hs' (Or.inr hst)
  rw [hst, hst'] at hfinal
  exact absurd hfinal (by decide)

theorem statusSafe_iff_racingUpdates : ∃ w, Reachable referencePlatform (sampleStore .pending) w ∧
    (StatusSafe (sampleStore .pending) w ↔ StaleWritesPass w) := by
  obtain ⟨w, hw, -⟩ := exists_racingUpdates
  exact ⟨w, hw, statusSafe_iff hw⟩

end ShipmentManager
