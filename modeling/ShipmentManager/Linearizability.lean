import ShipmentManager.Lib.Linearization
import ShipmentManager.FieldUpdates
import ShipmentManager.Responses

/-!
# Linearizability

Creations, reads and deletions are one step each, so they work at once.  An update reads and then writes; it works at
once when its write meets a status from which its check passes too, since then the read may be moved to the write.  So a
run in which every stale write passes is linearizable (`linearizable`): the finished requests, in the order in which
they finish, could have been served one after the other.  Only a listing whose two reads saw different stores is left
out.
-/

namespace ShipmentManager

open Interleaving

variable {P : Platform}

theorem Effect.silent_of_reads {c : Command} {r : c.Answer} {db db' : Db} (h : Effect c r db db')
    (hc : c.reads = true) : db' = db := by
  cases h with
  | inserted => cases hc
  | updated => cases hc
  | deleted => cases hc
  | _ => rfl

/-- The store invariant holds at every moment of a run that starts with it. -/
theorem Reachable.storeInvariant {db : Db} {w : ServerWorld P} (hw : Reachable P db w) (hdb : StoreInvariant db)
    (n : Nat) : StoreInvariant (stateAt db w.events n) :=
  (Interleaving.Reachable.sound hw).chained.invariant StoreInvariant
    (fun _ he => (Reachable.effect hw he).storeInvariant) hdb n

theorem StoreInvariant.eq_of_trackingNumber {db : Db} (h : StoreInvariant db) {s d : Shipment} (hs : s ∈ db.docs)
    (hd : d ∈ db.docs) (heq : d.trackingNumber = s.trackingNumber) : d = s :=
  List.inj_on_of_nodup_map h.unique hd hs heq

/-- A read of one shipment can be executed wherever another command can. -/
theorem executes_findById_of {M : Mongo} {model : ShipmentModel} {c : Command} {db db' : Db} {r : c.Answer}
    (h : Db.Executes M model c db r db') {id : Text} (hid : isObjectIdText id = true) :
    Db.Executes M model (.findById id) db (.ok (db.get? (hexValue id))) db := by
  obtain ⟨o, -⟩ := h
  refine ⟨o, ?_⟩
  simp only [Db.exec, model.castObjectId_hex id hid]
  rfl

theorem checkTransition_of_valid {s : Text} {v : JsValue} (h : isValidStatusTransition s v = some true) :
    ShipmentService.checkTransition P s (some v) = .ok () := by
  unfold ShipmentService.checkTransition ShipmentService.validateStatusTransition
  simp only [h, ite_self]

/-! ### How the requests work -/

variable (P) in
/-- The two reads of the listing saw different stores. -/
def TornListing (a : Arrival P) (es : List DbEvent) : Prop :=
  (∃ params, plan P a = .ok (.list params)) ∧ ∃ e₁ e₂, es = [e₁, e₂] ∧ e₁.before ≠ e₂.before

variable (P) in
abbrev WorksAtOnce (p : Prog Command Command.Answer HttpResponse) (es : List DbEvent)
    (q : Prog Command Command.Answer HttpResponse) : Prop :=
  AtOnce (Db.Executes P.mongo P.model) p es q

/-- The events were executed by the database. -/
def Executed (P : Platform) (es : List DbEvent) : Prop :=
  ∀ e ∈ es, Db.Executes P.mongo P.model e.cmd e.before e.answer e.after

private theorem silent_nil : Silent ([] : List DbEvent) := by simp [Silent]

private theorem silent_singleton {e : DbEvent} (h : e.after = e.before) : Silent [e] := by
  intro e' he
  rw [List.mem_singleton] at he
  rw [he, h]

/-- A request that ends with its only command. -/
private theorem atOnce_call {c : Command} {f : c.Answer → HttpResponse} {es : List DbEvent}
    {q : Prog Command Command.Answer HttpResponse} (hr : Prog.Runs (.call c fun r => .done (f r)) es q)
    (hx : Executed P es) : WorksAtOnce P (.call c fun r => .done (f r)) es q := by
  rcases Prog.runs_call_done hr with ⟨rfl, rfl⟩ | ⟨r, db, db', rfl, rfl⟩
  · exact AtOnce.waiting _ _ silent_nil nofun
  · refine AtOnce.finished [] ⟨c, r, db, db'⟩ _ silent_nil ?_
    exact (serves_call _).2 ⟨r, db', hx _ (List.mem_singleton_self _), (serves_done _).2 ⟨rfl, rfl⟩⟩

private theorem list_silent {params : QueryParams} {es : List DbEvent} {q : Prog Command Command.Answer HttpResponse}
    (hr : Prog.Runs (serve P (.list params)) es q) (hx : Executed P es) : Silent es := by
  rintro ⟨c, r, db, db'⟩ he
  have hstep := own_step hr he
  have hexec := hx _ he
  cases hstep with
  | find => exact executes_read rfl hexec
  | count => exact executes_read rfl hexec

/-- A listing works at once when its two reads see the same store. -/
private theorem list_atOnce {params : QueryParams} {es : List DbEvent} {q : Prog Command Command.Answer HttpResponse}
    (hr : Prog.Runs (serve P (.list params)) es q) (hx : Executed P es) :
    (∃ e₁ e₂, es = [e₁, e₂] ∧ e₁.before ≠ e₂.before) ∨ WorksAtOnce P (serve P (.list params)) es q := by
  have hsilent := list_silent hr hx
  by_cases hq : ∃ a, q = .done a
  · obtain ⟨a, rfl⟩ := hq
    obtain ⟨r₁, r₂, s₁, s₁', s₂, s₂', rest, hes, hrest⟩ := Prog.runs_both hr
    obtain ⟨rfl, ha⟩ := Prog.runs_done hrest
    -- the two reads, in whichever order they came
    rcases hes with rfl | rfl
    · by_cases hs : s₁ = s₂
      · subst hs
        refine Or.inr (AtOnce.finished [_] _ a (silent_singleton (hsilent _ (List.mem_cons_self ..))) ?_)
        have h₁ := hx _ (List.mem_cons_self ..)
        have h₂ := hx _ (List.mem_cons_of_mem _ (List.mem_singleton_self _))
        rw [show s₁' = s₁ from executes_read rfl h₁] at h₁
        exact (serves_both _).2 (Or.inl ⟨r₁, s₁, r₂, s₂', h₁, h₂, ha ▸ (serves_done _).2 ⟨rfl, rfl⟩⟩)
      · exact Or.inl ⟨_, _, rfl, hs⟩
    · by_cases hs : s₂ = s₁
      · subst hs
        refine Or.inr (AtOnce.finished [_] _ a (silent_singleton (hsilent _ (List.mem_cons_self ..))) ?_)
        have h₂ := hx _ (List.mem_cons_self ..)
        have h₁ := hx _ (List.mem_cons_of_mem _ (List.mem_singleton_self _))
        rw [show s₂' = s₂ from executes_read rfl h₂] at h₂
        exact (serves_both _).2 (Or.inr ⟨r₂, s₂, r₁, s₁', h₂, h₁, ha ▸ (serves_done _).2 ⟨rfl, rfl⟩⟩)
      · exact Or.inl ⟨_, _, rfl, hs⟩
  · exact Or.inr (AtOnce.waiting _ _ hsilent fun a ha => hq ⟨a, ha⟩)

/-- The update passes its check on whatever shipment its write meets. -/
def CheckHolds (P : Platform) (data : JsObject) (es : List DbEvent) : Prop :=
  ∀ e ∈ es, ∀ text, e.cmd = .findByIdAndUpdate text data → ∀ s, e.before.get? (hexValue text) = some s →
    ShipmentService.checkTransition P s.status (Obj.get? data "status") = .ok ()

/-- An update works at once when its check passes on the shipment that its write meets: its read may be repeated at its
write. -/
private theorem update_atOnce {id : Text} (hid : isObjectIdText id = true) {data : JsObject} {es : List DbEvent}
    (hdata : ∃ o, UpdateOutput o data) {q : Prog Command Command.Answer HttpResponse}
    (hr : Prog.Runs (serve P (.update id data)) es q) (hx : Executed P es) (hcheck : CheckHolds P data es) :
    WorksAtOnce P (serve P (.update id data)) es q := by
  have hread : ∀ (r : (Command.findById id).Answer) (db db' : Db), ⟨.findById id, r, db, db'⟩ ∈ es →
      r = .ok (db.get? (hexValue id)) ∧ db' = db := fun r db db' he => executes_findById hid (hx _ he)
  cases runs_update hr with
  | started => exact AtOnce.waiting _ _ silent_nil nofun
  | failed e db db' =>
    obtain ⟨he, -⟩ := hread _ _ _ (List.mem_singleton_self _)
    cases he
  | missing db db' =>
    refine AtOnce.finished [] _ _ silent_nil ?_
    exact (serves_call _).2 ⟨.ok none, db', hx _ (List.mem_singleton_self _), (serves_done _).2 ⟨rfl, rfl⟩⟩
  | read existing db db' =>
    obtain ⟨-, hsame⟩ := hread _ _ _ (List.mem_singleton_self _)
    cases hc : ShipmentService.checkTransition P existing.status (Obj.get? data "status") with
    | error e =>
      have hq : serveWrite P id data existing = refuse P e := by
        unfold serveWrite
        rw [hc]
      rw [hq]
      refine AtOnce.finished [] _ _ silent_nil ?_
      refine (serves_call _).2 ⟨.ok (some existing), db', hx _ (List.mem_singleton_self _), ?_⟩
      show Responds P (serveWrite P id data existing) _ _ _
      rw [hq]
      exact (serves_done _).2 ⟨rfl, rfl⟩
    | ok u =>
      refine AtOnce.waiting _ _ (silent_singleton hsame) fun a ha => ?_
      unfold serveWrite at ha
      rw [hc] at ha
      cases ha
  | written existing db₁ db₁' db₂ db₂' r hok =>
    obtain ⟨-, hsame⟩ := hread _ _ _ (List.mem_cons_self ..)
    have hwrite := hx _ (List.mem_cons_of_mem _ (List.mem_singleton_self _))
    refine AtOnce.finished [_] _ _ (silent_singleton hsame) ?_
    refine (serves_call _).2 ⟨_, _, executes_findById_of hwrite hid, ?_⟩
    cases hg : db₂.get? (hexValue id) with
    | none =>
      have hmissing : r = .ok none ∧ db₂' = db₂ := by
        rcases executes_update hid hdata hwrite with ⟨hr, -, hs⟩ | ⟨s, d, v, hs, -⟩ | ⟨u, s, -, -, hu⟩
        · exact ⟨hr, hs⟩
        · rw [hg] at hs
          cases hs
        · rw [hu.present] at hg
          cases hg
      obtain ⟨rfl, rfl⟩ := hmissing
      exact (serves_done _).2 ⟨rfl, rfl⟩
    | some stored =>
      have hpass := hcheck _ (List.mem_cons_of_mem _ (List.mem_singleton_self _)) id rfl stored hg
      show Responds P (serveWrite P id data stored) _ _ _
      unfold serveWrite
      rw [hpass]
      exact (serves_call _).2 ⟨r, db₂', hwrite, (serves_done _).2 ⟨rfl, rfl⟩⟩

section Run

variable {db : Db} {w w' : ServerWorld P}

/-- In a run whose stale writes pass, every update passes its check on the shipment that its write meets. -/
private theorem checkHolds (hdb : StoreInvariant db) (hw : Reachable P db w) (hstale : StaleWritesPass w) (i : Nat)
    (data : JsObject) : CheckHolds P data (w.own i) := by
  rintro ⟨c, r, before, after⟩ he text rfl stored hstored
  have hlog := World.mem_own.1 he
  obtain ⟨existing, db₁, db₁', hown, hok⟩ := Reachable.write_of_update hw hlog
  have hevents := World.mem_events hlog
  have heff := Reachable.effect hw hevents
  by_cases hsame : stored.status = existing.status
  · rw [hsame]
    exact hok
  cases hv : Obj.get? data "status" with
  | none => rfl
  | some v =>
    -- another write came in between, and the run's assumption is about this one
    generalize hr : r = answer at heff
    cases heff with
    | updateMissing _ _ _ absent => exact absurd (absent.symm.trans hstored) nofun
    | updateFailed _ _ value s d _ present hd distinct clash =>
      obtain ⟨n, hn, hn'⟩ := List.getElem_of_mem hevents
      have hstate := (Interleaving.Reachable.sound hw).chained.stateAt_getElem (List.getElem?_eq_getElem hn)
      rw [hn'] at hstate
      have hinv := Reachable.storeInvariant hw hdb n
      rw [hstate.1] at hinv
      exact absurd (congrArg _ (hinv.eq_of_trackingNumber (Db.mem_of_get? present) hd clash)) distinct
    | updated _ _ u s _ _ sent body hu =>
      subst hr
      refine checkTransition_of_valid (hstale i existing stored v ?_ hsame)
      exact ⟨text, data, db₁, db₁', _, before, after, hown, hstored, hv⟩

private theorem atomic (hdb : StoreInvariant db) (hw : Reachable P db w) (hstale : StaleWritesPass w) :
    Atomic (Db.Executes P.mongo P.model) (app P) (TornListing P) w := by
  intro i t ht
  have hruns := (Interleaving.Reachable.sound hw).runs i t ht
  have hx : Executed P (w.own i) := fun e he =>
    (Interleaving.Reachable.sound hw).executed e (World.mem_events (World.mem_own.1 he))
  rw [app_eq] at hruns ⊢
  cases hp : plan P t.origin with
  | error e =>
    rw [hp] at hruns
    obtain ⟨hown, hq⟩ := Prog.runs_done hruns
    rw [hown, hq]
    exact Or.inr (AtOnce.immediate _)
  | ok p =>
    rw [hp] at hruns
    replace hruns : Prog.Runs (serve P p) (w.own i) t.prog := hruns
    cases plan_checked hp with
    | list text query params route valid parsed =>
      rcases list_atOnce hruns hx with htorn | h
      · exact Or.inl ⟨⟨⟨params, hp⟩, htorn⟩, list_silent hruns hx⟩
      · exact Or.inr h
    | get raw id route decoded valid => exact Or.inr (atOnce_call hruns hx)
    | create o data route parsed valid => exact Or.inr (atOnce_call hruns hx)
    | update raw id o data route decoded valid_id parsed valid =>
      exact Or.inr (update_atOnce valid_id ⟨o, valid⟩ hruns hx (checkHolds hdb hw hstale i data))
    | delete raw id route decoded valid => exact Or.inr (atOnce_call hruns hx)

variable (P) in
/-- The finished requests of a run but the torn listings, in an order in which they could have been served one after the
other, each alone. -/
abbrev ServerLinearizes (db : Db) (w : ServerWorld P) (l : List (Served (Arrival P) HttpResponse)) : Prop :=
  Linearizes (Db.Executes P.mongo P.model) (app P) (TornListing P) db w l

section Continued

variable {w₀ : ServerWorld P} (hdb : StoreInvariant db) (hw₀ : Reachable P db w₀)
  (hrun : Relation.ReflTransGen (Step (Db.Executes P.mongo P.model) (app P)) w₀ w) (hstale : StaleWritesPass w)

include hdb hw₀ hrun hstale

/-- Each moment of a run whose stale writes pass has a linearization. -/
theorem exists_linearization : ∃ l₀, ServerLinearizes P db w₀ l₀ := by
  have hat := atomic hdb (Relation.ReflTransGen.trans hw₀ hrun) hstale
  obtain ⟨l, hl⟩ := (linearizes_init _ _ _ db).extend hw₀ (hat.of_run hrun)
  exact ⟨[] ++ l, hl⟩

/-- A linearization of one moment is continued to one of a later moment. -/
theorem ServerLinearizes.continued {l₀ : List (Served (Arrival P) HttpResponse)} (h₀ : ServerLinearizes P db w₀ l₀) :
    ∃ l, ServerLinearizes P db w (l₀ ++ l) :=
  h₀.extend hrun (atomic hdb (Relation.ReflTransGen.trans hw₀ hrun) hstale)

end Continued

/-- A run whose stale writes pass is linearizable, in the order in which the requests finish: a linearization of one
moment is continued to one of any later moment. -/
theorem linearizable {w₀ : ServerWorld P} (hdb : StoreInvariant db) (hw₀ : Reachable P db w₀)
    (hrun : Relation.ReflTransGen (Step (Db.Executes P.mongo P.model) (app P)) w₀ w) (hstale : StaleWritesPass w) :
    (∃ l₀, ServerLinearizes P db w₀ l₀) ∧
      ∀ l₀, ServerLinearizes P db w₀ l₀ → ∃ l, ServerLinearizes P db w (l₀ ++ l) :=
  ⟨exists_linearization hdb hw₀ hrun hstale, fun _ h₀ => ServerLinearizes.continued hdb hw₀ hrun hstale h₀⟩

/-- Where all steps of one request meet the same status everywhere, no write is stale. -/
theorem staleWritesPass_of_own (hw : Reachable P db w) (status : Nat → Text)
    (h : ∀ i, ∀ e ∈ w.own i, ∀ s ∈ e.before.docs, s.status = status i) : StaleWritesPass w := by
  rintro i read stored v ⟨text, data, db₁, db₁', s, db₂, db₂', hown, hstored, -⟩ hne
  have hstatus := h i
  have hmem : ∀ e ∈ w.own i, e ∈ w.events := fun e he => World.mem_events (World.mem_own.1 he)
  rw [hown] at hstatus hmem
  have h₁ := hstatus _ (List.mem_cons_self ..)
  have h₂ := hstatus _ (List.mem_cons_of_mem _ (List.mem_singleton_self _))
  have hread : db₁.get? (hexValue text) = some read := by
    have heff : Effect (.findById text) (.ok (some read)) db₁ db₁' :=
      Reachable.effect hw (hmem _ (List.mem_cons_self ..))
    generalize hr : (Except.ok (some read) : (Command.findById text).Answer) = r at heff
    cases heff with
    | found => exact (Except.ok.inj hr).symm
  have heq := (h₁ read (Db.mem_of_get? hread)).trans (h₂ stored (Db.mem_of_get? hstored)).symm
  exact absurd heq.symm hne

theorem staleWritesPass_of_status (hw : Reachable P db w) {status : Text}
    (h : ∀ e ∈ w.events, ∀ s ∈ e.before.docs, s.status = status) : StaleWritesPass w :=
  staleWritesPass_of_own hw (fun _ => status) fun _ e he => h e (World.mem_events (World.mem_own.1 he))

end Run

theorem validShipment_sample (id : ObjectId) (status : ShipmentStatus) : ValidShipment (sampleShipment id status) := by
  refine ⟨fun f max hf => ?_, mem_statusValues.2 ⟨status, rfl⟩⟩
  simp only [textFields, List.mem_cons, Prod.mk.injEq, List.not_mem_nil, or_false] at hf
  rcases hf with ⟨rfl, rfl⟩ | ⟨rfl, rfl⟩ | ⟨rfl, rfl⟩ | ⟨rfl, rfl⟩
  · exact ⟨js "Ann", rfl, by decide, by decide, by decide⟩
  · exact ⟨js "Bob", rfl, by decide, by decide, by decide⟩
  · exact ⟨js "Rome", rfl, by decide, by decide, by decide⟩
  · exact ⟨js "Oslo", rfl, by decide, by decide, by decide⟩

theorem storeInvariant_sample : StoreInvariant (sampleStore .pending) := by
  refine ⟨fun s hs => ?_, List.nodup_singleton _⟩
  obtain rfl := List.mem_singleton.1 hs
  exact validShipment_sample 1 .pending

set_option maxRecDepth 4000 in
theorem linearizable_crossing : ∃ w, Reachable referencePlatform (sampleStore .pending) w ∧ w.events.length = 4 ∧
    (∃ l₀, ServerLinearizes referencePlatform (sampleStore .pending) (World.init (sampleStore .pending)) l₀) ∧
      ∀ l₀, ServerLinearizes referencePlatform (sampleStore .pending) (World.init (sampleStore .pending)) l₀ →
        ∃ l, ServerLinearizes referencePlatform (sampleStore .pending) w (l₀ ++ l) := by
  obtain ⟨w, hw, hq⟩ := exists_run (sampleStore .pending) crossingUpdates (fun w => w.events.length = 4 &&
    w.events.all fun e => e.before.docs.all fun s => s.status = ShipmentStatus.pending.value) (by decide)
  simp only [Bool.and_eq_true, decide_eq_true_eq, List.all_eq_true] at hq
  have hstale := staleWritesPass_of_status hw hq.2
  exact ⟨w, hw, hq.1, linearizable storeInvariant_sample Relation.ReflTransGen.refl hw hstale⟩

end ShipmentManager
