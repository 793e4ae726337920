import ShipmentManager.Linearizability

/-!
# How often a status changes

A shipment that has been given out moves from `pending` over `in_transit` to one of the final statuses, or is deleted on
its way.  In a run whose stale writes pass no status changes more than twice, however many updates there are
(`status_changes_le`); without this condition it may change any number of times (`status_changes_unbounded`).
-/

namespace ShipmentManager

open Interleaving

/-- How far a stored status is on its way; a string that is no status is at its beginning. -/
def statusRank (t : Text) : Nat := ((ShipmentStatus.ofText? t).map ShipmentStatus.rank).getD 0

/-- How far a shipment is on its way: one that is gone has come to the end of it, and one that was never given out is at
the beginning. -/
def Db.progress (db : Db) (id : ObjectId) : Nat :=
  match db.get? id with
  | some s => statusRank s.status
  | none => if id ∈ db.issued then 2 else 0

/-- The step changes the status of the shipment. -/
def changesStatus (id : ObjectId) (e : DbEvent) : Bool :=
  match e.before.get? id, e.after.get? id with
  | some s, some s' => s'.status ≠ s.status
  | _, _ => false

theorem statusRank_le (t : Text) : statusRank t ≤ 2 := by
  unfold statusRank
  cases ShipmentStatus.ofText? t with
  | none => exact Nat.zero_le _
  | some s => cases s <;> decide

theorem Db.progress_le (db : Db) (id : ObjectId) : db.progress id ≤ 2 := by
  unfold progress
  split
  · exact statusRank_le _
  · split <;> omega

theorem Forward.statusRank_lt {s t : Text} (h : Forward s t) : statusRank s < statusRank t := by
  obtain ⟨a, b, rfl, rfl, hab⟩ := h
  simpa only [statusRank, ShipmentStatus.ofText?_value, Option.map_some, Option.getD_some] using hab

section Run

variable {P : Platform} {db : Db} {w : ServerWorld P}

/-- A step of a run moves a shipment forward when it changes its status, and never back. -/
private theorem progress_step (hw : Reachable P db w) (hstale : StaleWritesPass w) (id : ObjectId) {e : DbEvent}
    (he : e ∈ w.events) :
    e.before.progress id + (if changesStatus id e then 1 else 0) ≤ e.after.progress id := by
  have hevolves := (Reachable.effect hw he).evolves
  unfold changesStatus
  cases hb : e.before.get? id with
  | none =>
    simp only [Db.progress, hb]
    by_cases hissued : id ∈ e.before.issued
    -- what was given out and is gone stays gone
    · simp [hissued, hevolves.gone id hissued hb, hevolves.issued id hissued]
    · simp [hissued]
  | some s =>
    have hissued := hevolves.issued id (Db.issued_of_get? hb)
    cases ha : e.after.get? id with
    | none =>
      have hle := statusRank_le s.status
      simpa [Db.progress, hb, ha, hissued] using hle
    | some s' =>
      simp only [Db.progress, hb, ha, decide_eq_true_eq]
      rcases legal_of_stale hw hstale he hb ha with heq | hlegal
      · simp [heq]
      · have hlt := hlegal.forward.statusRank_lt
        split <;> omega

/-- In a run whose stale writes pass the status of a shipment changes at most as often as it can still move forward. -/
theorem status_changes_le (hw : Reachable P db w) (hstale : StaleWritesPass w) (id : ObjectId) :
    db.progress id + w.events.countP (changesStatus id) ≤ w.store.progress id ∧ w.store.progress id ≤ 2 :=
  ⟨(Interleaving.Reachable.sound hw).chained.countP_le (fun db => db.progress id) (changesStatus id) fun _ he =>
    progress_step hw hstale id he, w.store.progress_le id⟩

end Run

/-- A shipment on its way to its receiver. -/
def deliveringUpdates : List (Move (Arrival referencePlatform) Choice) :=
  [.arrive (putStatus 1 .inTransit), .perform 0 false {}, .perform 0 false {}, .arrive (putStatus 1 .delivered),
    .perform 1 false {}, .perform 1 false {}]

set_option maxRecDepth 4000 in
theorem status_changes_le_delivering : ∃ w, Reachable referencePlatform (sampleStore .pending) w ∧
    w.events.countP (changesStatus 1) = 2 ∧
      (sampleStore .pending).progress 1 + w.events.countP (changesStatus 1) ≤ w.store.progress 1 ∧
        w.store.progress 1 ≤ 2 := by
  let status (i : Nat) : Text := if i = 0 then ShipmentStatus.pending.value else ShipmentStatus.inTransit.value
  obtain ⟨w, hw, hq⟩ := exists_run (sampleStore .pending) deliveringUpdates (fun w =>
    w.events.countP (changesStatus 1) = 2 &&
      w.log.all fun p => p.2.before.docs.all fun s => s.status = status p.1) (by decide)
  simp only [Bool.and_eq_true, decide_eq_true_eq, List.all_eq_true] at hq
  have hstale := staleWritesPass_of_own hw status fun i e he => hq.2 (i, e) (World.mem_own.1 he)
  exact ⟨w, hw, hq.1, status_changes_le hw hstale 1⟩

/-! ### Runs without a bound -/

/-- Updates of one shipment that race: `n` of them have read it, all before the first one writes, and the first `j` of
them have written since and are answered. -/
structure Race {P : Platform} (w : ServerWorld P) (id : ObjectId) (n j : Nat) : Prop where
  requests : w.tasks.length = n
  updates : ∀ t ∈ w.tasks, ∃ text data, plan P t.origin = .ok (.update text data) ∧ hexValue text = id
  steps : ∃ reads writes, w.log = reads ++ writes ∧ reads.map Prod.fst = List.range n ∧
    writes.map Prod.fst = List.range j ∧ (∀ x ∈ reads, x.2.cmd.reads = true) ∧ ∀ x ∈ writes, x.2.cmd.reads = false
  answered : ∀ i < j, ∃ s, (w.tasks[i]?).map Task.prog = some (.done (answer 200 "Shipment updated successfully" s))

section Unbounded

/-- The status that the `j`-th of several racing updates asks for. -/
def racingStatus (j : Nat) : ShipmentStatus := if j % 2 = 0 then .inTransit else .cancelled

def racingData (j : Nat) : JsObject := [("status", .str (racingStatus j).value)]

private theorem racingStatus_cases (j : Nat) : racingStatus j = .inTransit ∨ racingStatus j = .cancelled := by
  unfold racingStatus
  split
  · exact Or.inl rfl
  · exact Or.inr rfl

private theorem plan_racing (j : Nat) : plan referencePlatform (putStatus 1 (racingStatus j)) =
    .ok (.update (objectIdToText 1) (racingData j)) := by
  rcases racingStatus_cases j with h | h <;> rw [racingData, h] <;> rfl

/-- What is left of an update after it has read the pending shipment. -/
def racingWrite (j : Nat) : Prog Command Command.Answer HttpResponse :=
  .call (.findByIdAndUpdate (objectIdToText 1) (racingData j)) fun r =>
    .done (finish referencePlatform 200 "Shipment updated successfully" r)

private theorem serveWrite_racing (j : Nat) :
    serveWrite referencePlatform (objectIdToText 1) (racingData j) (sampleShipment 1 .pending) = racingWrite j := by
  have hvalid :
      isValidStatusTransition (sampleShipment 1 .pending).status (.str (racingStatus j).value) = some true := by
    rcases racingStatus_cases j with h | h <;> rw [h] <;> decide
  have hcheck : ShipmentService.checkTransition referencePlatform (sampleShipment 1 .pending).status
      (Obj.get? (racingData j) "status") = .ok () := checkTransition_of_valid hvalid
  unfold serveWrite
  rw [hcheck]
  rfl

/-- Updates that have all read the pending shipment. -/
private theorem exists_readers (n : Nat) : ∃ w, Reachable referencePlatform (sampleStore .pending) w ∧ Race w 1 n 0 ∧
    w.store = sampleStore .pending ∧ w.events.countP (changesStatus 1) = 0 ∧
      ∀ j < n, (w.tasks[j]?).map Task.prog = some (racingWrite j) := by
  induction n with
  | zero =>
    refine ⟨World.init _, Relation.ReflTransGen.refl, ⟨rfl, by simp [World.init], ⟨[], [], ?_⟩, ?_⟩, rfl, rfl, ?_⟩
    · simp [World.init]
    · exact fun i hi => absurd hi (Nat.not_lt_zero i)
    · exact fun j hj => absurd hj (Nat.not_lt_zero j)
  | succ n ih =>
    obtain ⟨w, hw, hrace, hstore, hcount, htasks⟩ := ih
    obtain ⟨reads, writes, hlog, hreaders, hwriters, hreads, hwrites⟩ := hrace.steps
    obtain rfl : writes = [] := List.map_eq_nil_iff.1 hwriters
    rw [List.append_nil] at hlog
    have hlength := hrace.requests
    let a := putStatus 1 (racingStatus n)
    let t : Task Command Command.Answer (Arrival referencePlatform) HttpResponse := ⟨a, app referencePlatform a⟩
    let e : DbEvent := ⟨.findById (objectIdToText 1), .ok (some (sampleShipment 1 .pending)), sampleStore .pending,
      sampleStore .pending⟩
    have ht : (w.tasks ++ [t])[n]? = some t := by
      rw [List.getElem?_append_right (by omega), hlength, Nat.sub_self]
      rfl
    have hnext : Prog.Next t.prog e.cmd e.answer (racingWrite n) := by
      rw [← serveWrite_racing]
      show Prog.Next (app referencePlatform a) _ _ _
      rw [app_eq, plan_racing]
      exact Prog.Next.call _ _ _
    have hexec : Db.Executes referencePlatform.mongo referencePlatform.model e.cmd e.before e.answer e.after :=
      Choice.executes {} (.findById (objectIdToText 1)) (sampleStore .pending)
    refine ⟨_, (hw.tail (Step.arrive w a)).tail (Step.perform _ n t e _ ht hnext hstore.symm hexec),
      ⟨?_, fun x hx => ?_, ⟨reads ++ [(n, e)], [], ?_, ?_, rfl, fun x hx => ?_, fun x hx => ?_⟩, fun i hi => ?_⟩,
      rfl, ?_, ?_⟩
    · show ((w.tasks ++ [t]).set n _).length = n + 1
      rw [List.length_set, List.length_append, hlength]
      rfl
    · have hplan : ∃ text data, plan referencePlatform a = .ok (.update text data) ∧ hexValue text = 1 :=
        ⟨_, _, plan_racing n, by decide⟩
      rcases List.mem_or_eq_of_mem_set hx with hx | rfl
      · rcases List.mem_append.1 hx with hx | hx
        · exact hrace.updates x hx
        · obtain rfl := List.mem_singleton.1 hx
          exact hplan
      · exact hplan
    · show w.log ++ [(n, e)] = _
      rw [hlog, List.append_nil]
    · rw [List.map_append, hreaders, List.range_succ]
      rfl
    · rcases List.mem_append.1 hx with hx | hx
      · exact hreads x hx
      · obtain rfl := List.mem_singleton.1 hx
        rfl
    · cases hx
    · exact absurd hi (Nat.not_lt_zero i)
    · show ((w.log ++ [(n, e)]).map Prod.snd).countP (changesStatus 1) = 0
      have hread : changesStatus 1 e = false := by decide
      rw [List.map_append, List.countP_append]
      show w.events.countP (changesStatus 1) + _ = 0
      rw [hcount, List.map_singleton, List.countP_singleton, hread]
      rfl
    · intro j hj
      show (((w.tasks ++ [t]).set n { t with prog := racingWrite n })[j]?).map Task.prog = some (racingWrite j)
      by_cases hjn : j = n
      · subst hjn
        rw [List.getElem?_set_self (List.getElem?_eq_some_iff.1 ht).1]
        rfl
      · rw [List.getElem?_set_ne (by omega), List.getElem?_append_left (by omega)]
        exact htasks j (by omega)

/-- The status before the `j`-th of the racing writes. -/
def racedStatus : Nat → ShipmentStatus
  | 0 => .pending
  | j + 1 => racingStatus j

private theorem racedStatus_ne (j : Nat) : (racingStatus j).value ≠ (racedStatus j).value := by
  intro h
  have heq := ShipmentStatus.value_injective h
  cases j with
  | zero => cases heq
  | succ j =>
    change racingStatus (j + 1) = racingStatus j at heq
    unfold racingStatus at heq
    rcases Nat.mod_two_eq_zero_or_one j with h | h
    · rw [if_neg (by omega), if_pos h] at heq
      cases heq
    · rw [if_pos (by omega), if_neg (by omega)] at heq
      cases heq

/-- The update of the pending shipment that the `j`-th request asks for. -/
private theorem updateOutput_racing (j : Nat) : isObjectIdText (objectIdToText 1) = true ∧
    ∃ o, UpdateOutput o (racingData j) := by
  have hchecked := plan_checked (plan_racing j)
  cases hchecked with
  | update raw id o out route decoded valid_id parsed valid => exact ⟨valid_id, o, valid⟩

/-- The write of a racing update sets its status, whatever the status is. -/
private theorem exists_racingWrite (j : Nat) {db : Db} (hdb : StoreInvariant db) {s : Shipment}
    (hs : db.get? 1 = some s) : ∃ s' db', Db.Executes referencePlatform.mongo referencePlatform.model
      (.findByIdAndUpdate (objectIdToText 1) (racingData j)) db (.ok (some s')) db' ∧ db'.get? 1 = some s' ∧
        s'.status = (racingStatus j).value := by
  obtain ⟨hid, o, hdata⟩ := updateOutput_racing j
  have hvalue : hexValue (objectIdToText 1) = 1 := by decide
  have hexec : ∃ r db', Db.Executes referencePlatform.mongo referencePlatform.model
      (.findByIdAndUpdate (objectIdToText 1) (racingData j)) db r db' := ⟨_, _, Choice.executes {} _ db⟩
  obtain ⟨r, db', hexec⟩ := hexec
  rcases executes_update hid ⟨o, hdata⟩ hexec with ⟨-, hnone, -⟩ | ⟨x, d, _, hx, hd, hne, htn, -⟩ |
    ⟨u, x, hbody, rfl, hup⟩
  · rw [hvalue, hs] at hnone
    cases hnone
  · exact absurd (congrArg _ (hdb.eq_of_trackingNumber (Db.mem_of_get? hx) hd htn)) hne
  · refine ⟨u.apply x, db', hexec, by rw [hup.get?, if_pos hvalue], ?_⟩
    rcases status_of_body hdata (hbody o hdata) x with ⟨hnone, -⟩ | ⟨t, -, hsome, hst⟩
    · cases hnone
    · cases hsome
      exact hst

/-- Of the updates that have read the pending shipment, the first `j` have written, each another status. -/
private theorem exists_writers (n : Nat) : ∀ j ≤ n, ∃ w, Reachable referencePlatform (sampleStore .pending) w ∧
    Race w 1 n j ∧ (w.store.get? 1).map Shipment.status = some (racedStatus j).value ∧
      w.events.countP (changesStatus 1) = j ∧
        ∀ i, j ≤ i → i < n → (w.tasks[i]?).map Task.prog = some (racingWrite i) := by
  intro j
  induction j with
  | zero =>
    intro _
    obtain ⟨w, hw, hrace, hstore, hcount, htasks⟩ := exists_readers n
    exact ⟨w, hw, hrace, by rw [hstore]; rfl, hcount, fun i _ hi => htasks i hi⟩
  | succ j ih =>
    intro hj
    obtain ⟨w, hw, hrace, hstatus, hcount, htasks⟩ := ih (by omega)
    obtain ⟨reads, writes, hlog, hreaders, hwriters, hreads, hwrites⟩ := hrace.steps
    obtain ⟨t, ht, hprog⟩ := Option.map_eq_some_iff.1 (htasks j (Nat.le_refl j) hj)
    obtain ⟨s, hs, hst⟩ := Option.map_eq_some_iff.1 hstatus
    have hinv := Reachable.storeInvariant hw storeInvariant_sample w.events.length
    rw [(Interleaving.Reachable.sound hw).chained.stateAt_end le_rfl] at hinv
    obtain ⟨s', db', hexec, hs', hst'⟩ := exists_racingWrite j hinv hs
    let e : DbEvent := ⟨.findByIdAndUpdate (objectIdToText 1) (racingData j), .ok (some s'), w.store, db'⟩
    have hnext : Prog.Next t.prog e.cmd e.answer
        (.done (finish referencePlatform 200 "Shipment updated successfully" (.ok (some s')))) := by
      rw [hprog]
      exact Prog.Next.call _ _ _
    refine ⟨_, hw.tail (Step.perform w j t e _ ht hnext rfl hexec), ⟨?_, fun x hx => ?_,
      ⟨reads, writes ++ [(j, e)], ?_, hreaders, ?_, hreads, fun x hx => ?_⟩, fun i hi => ?_⟩, ?_, ?_,
        fun i hi hin => ?_⟩
    · show (w.tasks.set j _).length = n
      rw [List.length_set, hrace.requests]
    · rcases List.mem_or_eq_of_mem_set hx with hx | rfl
      · exact hrace.updates x hx
      · exact hrace.updates t (List.mem_of_getElem? ht)
    · show w.log ++ [(j, e)] = _
      rw [hlog, List.append_assoc]
    · rw [List.map_append, hwriters, List.range_succ]
      rfl
    · rcases List.mem_append.1 hx with hx | hx
      · exact hwrites x hx
      · obtain rfl := List.mem_singleton.1 hx
        rfl
    · show ∃ s, ((w.tasks.set j _)[i]?).map Task.prog = _
      by_cases hij : i = j
      · subst hij
        rw [List.getElem?_set_self (List.getElem?_eq_some_iff.1 ht).1]
        exact ⟨s', rfl⟩
      · rw [List.getElem?_set_ne (by omega)]
        exact hrace.answered i (by omega)
    · show (db'.get? 1).map Shipment.status = _
      rw [hs', Option.map_some, hst']
      rfl
    · have hchanges : changesStatus 1 e = true := by
        simp only [changesStatus, e, hs, hs', hst, hst', ne_eq, decide_eq_true_eq]
        exact racedStatus_ne j
      show ((w.log ++ [(j, e)]).map Prod.snd).countP (changesStatus 1) = j + 1
      rw [List.map_append, List.countP_append]
      show w.events.countP (changesStatus 1) + _ = j + 1
      rw [hcount, List.map_singleton, List.countP_singleton, hchanges]
      rfl
    · show ((w.tasks.set j _)[i]?).map Task.prog = some (racingWrite i)
      rw [List.getElem?_set_ne (by omega)]
      exact htasks i (by omega) hin

/-- Without the condition on stale writes there is no bound: racing updates of one shipment, each of which is answered
with success, may change its status any number of times. -/
theorem status_changes_unbounded (n : Nat) : ∃ w, Reachable referencePlatform (sampleStore .pending) w ∧
    Race w 1 n n ∧ w.events.countP (changesStatus 1) = n := by
  obtain ⟨w, hw, hrace, -, hcount, -⟩ := exists_writers n n (Nat.le_refl n)
  exact ⟨w, hw, hrace, hcount⟩

end Unbounded

end ShipmentManager
