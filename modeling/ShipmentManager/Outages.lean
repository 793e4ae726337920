import ShipmentManager.Lib.Unreliable
import ShipmentManager.ResponseTable

/-!
# A database that may fail to answer

Any command of a request may end with an error of the driver, and whether the database has executed the command is then
not known.  The service never sends a command again, and the error handler answers such an error with 500.

The store keeps its invariant all the same, and each request changes it at most once.  What a client is told is true: a
response below 400 to a writing request means that the write has been done as it is shown, and a 4xx that the request
has changed nothing; only a 500 leaves this open (`outages`).
-/

namespace ShipmentManager

open Interleaving

/-- The answer is an error of the driver: one that the error handler does not recognise. -/
def DriverFailed (c : Command) (r : c.Answer) : Prop := ∃ e : JsError, ¬ e.Recognised ∧ r = .error e

variable (P : Platform)

/-- The worlds that a run can reach in which any command may be lost, or its answer. -/
abbrev OutageReachable (lost : (c : Command) → c.Answer → Prop) (db : Db) (w : ServerWorld P) : Prop :=
  Interleaving.Reachable (Unreliable (Db.Executes P.mongo P.model) lost) (app P) db w

/-- The step did what the request asks for, and the response shows it. -/
inductive Did (a : Arrival P) (e : DbEvent) : HttpResponse → Prop where
  | created (o : JsObject) (s : Shipment) (route : a.request.route = .create)
      (parsed : parseBody P a.request.body = .ok (.obj o)) (body : FromBody a.draws o s)
      (h : Db.Inserted e.before s e.after) : Did a e (answer 201 "Shipment created successfully" s)
  | updated (raw id : Text) (o : JsObject) (u : Update) (s : Shipment) (route : a.request.route = .update raw)
      (decoded : P.express.decodeParam raw = .ok id) (parsed : parseBody P a.request.body = .ok (.obj o))
      (body : BodyUpdate o u) (h : Db.Updated e.before (hexValue id) u s e.after) :
      Did a e (answer 200 "Shipment updated successfully" (u.apply s))
  | deleted (raw id : Text) (s : Shipment) (route : a.request.route = .delete raw)
      (decoded : P.express.decodeParam raw = .ok id) (h : Db.Deleted e.before (hexValue id) s e.after) :
      Did a e (answer 200 "Shipment deleted successfully" s)

/-- What the own steps `es` of the request `a` have done to the store, and what its response says of them. -/
structure Truthful (a : Arrival P) (es : List DbEvent) (q : Prog Command Command.Answer HttpResponse) : Prop where
  once : es.Pairwise fun e e' => e.after = e.before ∨ e'.after = e'.before
  reads : ¬ a.request.route.Writes → ∀ e ∈ es, e.after = e.before
  refused : ∀ response, q = .done response → 400 ≤ response.status → response.status < 500 →
    ∀ e ∈ es, e.after = e.before
  done : ∀ response, q = .done response → response.status < 400 → a.request.route.Writes →
    ∃ e ∈ es, Did P a e response

variable {P} {lost : (c : Command) → c.Answer → Prop} {db : Db} {w : ServerWorld P}

/-! ### One step -/

/-- What one step does when the database may fail to answer. -/
abbrev Attempt (lost : (c : Command) → c.Answer → Prop) (c : Command) (db : Db) (r : c.Answer) (db' : Db) : Prop :=
  Unreliable (fun c db r db' => Effect c r db db') lost c db r db'

theorem OutageReachable.attempt (hw : OutageReachable P lost db w) {e : DbEvent} (he : e ∈ w.events) :
    Attempt lost e.cmd e.before e.answer e.after := by
  obtain ⟨⟨i, e⟩, hmem, rfl⟩ := List.mem_map.1 he
  obtain ⟨t, -, hruns, hown⟩ := Interleaving.Reachable.task_of_mem hw hmem
  have hsent := (app_only t.origin).runs hruns e hown
  exact ((Interleaving.Reachable.sound hw).executed e he).mono fun _ _ h => hsent.effect h

/-- A command that reads changes nothing, answered or not. -/
private theorem Attempt.unchanged {c : Command} {db db' : Db} {r : c.Answer} (h : Attempt lost c db r db')
    (hread : c.reads = true) : db' = db :=
  h.rel (fun db db' => db' = db) rfl fun _ _ heff => heff.silent_of_reads hread

/-! ### The own steps of one request -/

private theorem finish_failed (c : Command) {r : c.Answer} (f : c.Answer → HttpResponse)
    (hf : ∀ e, f (.error e) = errorHandler P.isProduction e) (h : DriverFailed c r) : 500 ≤ (f r).status := by
  obtain ⟨e, he, rfl⟩ := h
  rw [hf]
  exact Nat.le_of_not_lt fun hlt => he (errorHandler_status_lt.1 hlt)

private theorem truthful_reads {a : Arrival P} {es : List DbEvent} {q : Prog Command Command.Answer HttpResponse}
    (hes : ∀ e ∈ es, e.after = e.before)
    (hq : ∀ response, q = .done response → a.request.route.Writes → 400 ≤ response.status) : Truthful P a es q := by
  refine ⟨List.pairwise_of_forall_mem_list fun e he _ _ => Or.inl (hes e he), fun _ => hes, fun _ _ _ _ => hes, ?_⟩
  intro response hdone hlt hwrites
  have hge := hq response hdone hwrites
  omega

private theorem truthful_open {a : Arrival P} {q : Prog Command Command.Answer HttpResponse}
    (hq : ∀ response, q ≠ .done response) : Truthful P a [] q :=
  truthful_reads (fun e he => by cases he) fun response hdone => absurd hdone (hq response)

private theorem notFound_ge : 400 ≤ (errorHandler P.isProduction ShipmentService.notFound).status := by
  rw [errorHandler_notFound]
  decide

/-- A finished request whose last step may write, after steps that do not. -/
private theorem truthful_write {a : Arrival P} (es : List DbEvent) {c : Command} {r : c.Answer} {s s' : Db}
    {response : HttpResponse} (hwrites : a.request.route.Writes) (hes : ∀ e ∈ es, e.after = e.before)
    (hx : Attempt DriverFailed c s r s') (hfailed : DriverFailed c r → 500 ≤ response.status)
    (heff : Effect c r s s' →
      (400 ≤ response.status ∧ s' = s) ∨ response.status < 400 ∧ Did P a ⟨c, r, s, s'⟩ response) :
    Truthful P a (es ++ [⟨c, r, s, s'⟩]) (.done response) := by
  have heffect : response.status < 500 → Effect c r s s' := fun hlt =>
    hx.of_answered fun h => by
      have hge := hfailed h
      omega
  refine ⟨?_, fun h => absurd hwrites h, fun response' hdone hge hlt => ?_, fun response' hdone hlt _ => ?_⟩
  · refine List.pairwise_append.2 ⟨?_, List.pairwise_singleton _ _, fun e he _ _ => Or.inl (hes e he)⟩
    exact List.pairwise_of_forall_mem_list fun e he _ _ => Or.inl (hes e he)
  · cases hdone
    rcases heff (heffect hlt) with ⟨-, rfl⟩ | ⟨hok, -⟩
    · intro e he
      rcases List.mem_append.1 he with he | he
      · exact hes e he
      · rw [List.mem_singleton.1 he]
    · omega
  · cases hdone
    rcases heff (heffect (by omega)) with ⟨hge, -⟩ | ⟨-, hdid⟩
    · omega
    · exact ⟨_, List.mem_append_right _ (List.mem_singleton_self _), hdid⟩

private theorem truthful_create {a : Arrival P} {o data : JsObject} (route : a.request.route = .create)
    (parsed : parseBody P a.request.body = .ok (.obj o)) (valid : CreateData a.draws o data) {es : List DbEvent}
    {q : Prog Command Command.Answer HttpResponse} (hr : Prog.Runs (serve P (.create data)) es q)
    (hes : ∀ e ∈ es, Attempt DriverFailed e.cmd e.before e.answer e.after) : Truthful P a es q := by
  rcases runs_create hr with ⟨rfl, rfl⟩ | ⟨r, s, s', rfl, rfl⟩
  · exact truthful_open fun response hdone => by cases hdone
  have hwrites : a.request.route.Writes := by
    rw [route]
    trivial
  refine truthful_write [] hwrites (fun e he => by cases he) (hes _ (List.mem_singleton_self _))
    (finish_failed (.save data) (finishCreate P) fun e => rfl) fun heff => ?_
  cases heff with
  | insertFailed _ field value =>
    refine Or.inl ⟨?_, rfl⟩
    show 400 ≤ (errorHandler P.isProduction (duplicateKey field value)).status
    rw [errorHandler_duplicateKey]
    omega
  | inserted _ x _ _ fresh times sent body hi =>
    refine Or.inr ⟨?_, Did.created o x route parsed (body a.draws o valid) hi⟩
    show 201 < 400
    omega

private theorem truthful_delete {a : Arrival P} {raw id : Text} (route : a.request.route = .delete raw)
    (decoded : P.express.decodeParam raw = .ok id) {es : List DbEvent}
    {q : Prog Command Command.Answer HttpResponse} (hr : Prog.Runs (serve P (.delete id)) es q)
    (hes : ∀ e ∈ es, Attempt DriverFailed e.cmd e.before e.answer e.after) : Truthful P a es q := by
  rcases runs_delete hr with ⟨rfl, rfl⟩ | ⟨r, s, s', rfl, rfl⟩
  · exact truthful_open fun response hdone => by cases hdone
  have hwrites : a.request.route.Writes := by
    rw [route]
    trivial
  refine truthful_write [] hwrites (fun e he => by cases he) (hes _ (List.mem_singleton_self _))
    (finish_failed (.findByIdAndDelete id) (finish P 200 "Shipment deleted successfully") fun e => rfl) fun heff => ?_
  cases heff with
  | deleteMissing => exact Or.inl ⟨notFound_ge, rfl⟩
  | deleted _ x _ _ hd =>
    refine Or.inr ⟨?_, Did.deleted raw id x route decoded hd⟩
    show 200 < 400
    omega

private theorem truthful_update {a : Arrival P} {raw id : Text} {o data : JsObject}
    (route : a.request.route = .update raw) (decoded : P.express.decodeParam raw = .ok id)
    (parsed : parseBody P a.request.body = .ok (.obj o)) (valid : UpdateOutput o data) {es : List DbEvent}
    {q : Prog Command Command.Answer HttpResponse} (hr : Prog.Runs (serve P (.update id data)) es q)
    (hes : ∀ e ∈ es, Attempt DriverFailed e.cmd e.before e.answer e.after) : Truthful P a es q := by
  -- the first step only reads
  have hread : ∀ r s s', (⟨.findById id, r, s, s'⟩ : DbEvent) ∈ es →
      ∀ e ∈ [(⟨.findById id, r, s, s'⟩ : DbEvent)], e.after = e.before := by
    intro r s s' hmem e he
    rw [List.mem_singleton.1 he]
    exact Attempt.unchanged (hes _ hmem) rfl
  cases runs_update hr with
  | started => exact truthful_open fun response hdone => by cases hdone
  | failed e s s' =>
    refine truthful_reads (hread _ s s' (List.mem_singleton_self _)) fun response hdone _ => ?_
    cases hdone
    by_contra hlt
    have heff := (hes _ (List.mem_singleton_self _)).of_answered fun hfailed => by
      have hge := finish_failed (P := P) (.findById id) (finish P 200 "") (fun e => rfl) hfailed
      change 500 ≤ (errorHandler P.isProduction e).status at hge
      omega
    cases heff
  | missing s s' =>
    refine truthful_reads (hread _ s s' (List.mem_singleton_self _)) fun response hdone _ => ?_
    cases hdone
    exact notFound_ge
  -- the transition check refuses the request before its write
  | read existing s s' =>
    refine truthful_reads (hread _ s s' (List.mem_singleton_self _)) fun response hdone _ => ?_
    unfold serveWrite at hdone
    split at hdone
    · rename_i e hc
      cases hdone
      exact errorHandler_ge (checkTransition_raised hc)
    · cases hdone
  | written existing s₁ s₁' s₂ s₂' r hok =>
    have hwrites : a.request.route.Writes := by
      rw [route]
      trivial
    have hfirst := hread _ s₁ s₁' (List.mem_cons_self ..)
    refine truthful_write _ hwrites hfirst (hes _ (List.mem_cons_of_mem _ (List.mem_singleton_self _)))
      (finish_failed (.findByIdAndUpdate id data) (finish P 200 "Shipment updated successfully") fun e => rfl)
      fun heff => ?_
    cases heff with
    | updateMissing => exact Or.inl ⟨notFound_ge, rfl⟩
    | updateFailed _ _ value =>
      refine Or.inl ⟨?_, rfl⟩
      show 400 ≤ (errorHandler P.isProduction (duplicateKey "trackingNumber" value)).status
      rw [errorHandler_duplicateKey]
      omega
    | updated _ _ u x _ _ sent body hu =>
      refine Or.inr ⟨?_, Did.updated raw id o u x route decoded parsed (body o valid) hu⟩
      show 200 < 400
      omega

/-- What a request has done and what it is told, by the events that its program has had. -/
private theorem truthful_of_runs {a : Arrival P} {es : List DbEvent} {q : Prog Command Command.Answer HttpResponse}
    (hr : Prog.Runs (app P a) es q) (hes : ∀ e ∈ es, Attempt DriverFailed e.cmd e.before e.answer e.after) :
    Truthful P a es q := by
  rw [app_eq] at hr
  cases hp : plan P a with
  | error e =>
    rw [hp] at hr
    obtain ⟨rfl, rfl⟩ := Prog.runs_done hr
    refine truthful_reads (fun e he => by cases he) fun response hdone _ => ?_
    cases hdone
    exact errorHandler_ge (plan_refused hp).raised
  | ok p =>
    rw [hp] at hr
    replace hr : Prog.Runs (serve P p) es q := hr
    have hchecked := plan_checked hp
    cases hchecked with
    | list text query params route valid parsed =>
      have hread : ∀ e ∈ es, e.after = e.before := by
        rintro ⟨c, r, s, s'⟩ he
        have hx := hes _ he
        cases own_step hr he <;> exact Attempt.unchanged hx rfl
      refine truthful_reads hread fun _ _ hwrites => ?_
      rw [route] at hwrites
      exact hwrites.elim
    | get raw id route decoded valid =>
      have hread : ∀ e ∈ es, e.after = e.before := by
        rintro ⟨c, r, s, s'⟩ he
        have hx := hes _ he
        have hstep := own_step hr he
        generalize q = q' at hstep
        cases hstep
        exact Attempt.unchanged hx rfl
      refine truthful_reads hread fun _ _ hwrites => ?_
      rw [route] at hwrites
      exact hwrites.elim
    | create o data route parsed valid => exact truthful_create route parsed valid hr hes
    | update raw id o out route decoded valid_id parsed valid => exact truthful_update route decoded parsed valid hr hes
    | delete raw id route decoded valid => exact truthful_delete route decoded hr hes

/-! ### Runs -/

theorem OutageReachable.storeInvariant (hdb : StoreInvariant db) (hw : OutageReachable P lost db w) (n : Nat) :
    StoreInvariant (stateAt db w.events n) := by
  refine (Interleaving.Reachable.sound hw).chained.invariant StoreInvariant (fun e he => ?_) hdb n
  exact (OutageReachable.attempt hw he).rel (fun db db' => StoreInvariant db → StoreInvariant db') id
    fun _ _ heff => heff.storeInvariant

theorem OutageReachable.evolves (hw : OutageReachable P lost db w) {m n : Nat} (h : m ≤ n) :
    Evolves (stateAt db w.events m) (stateAt db w.events n) := by
  refine (Interleaving.Reachable.sound hw).chained.rel Evolves Evolves.refl (fun _ _ _ => Evolves.trans)
    (fun e he => ?_) h
  exact (OutageReachable.attempt hw he).rel Evolves (Evolves.refl _) fun _ _ heff => heff.evolves

/-- Whatever commands the database fails to answer, the store stays well formed, each request changes it at most once,
and every response below 500 is true: below 400 the write that it shows has been done, from 400 on nothing has. -/
theorem outages (hdb : StoreInvariant db) (hw : OutageReachable P DriverFailed db w) :
    (∀ n, StoreInvariant (stateAt db w.events n)) ∧
      (∀ m n, m ≤ n → Evolves (stateAt db w.events m) (stateAt db w.events n)) ∧
      ∀ i t, w.tasks[i]? = some t → Truthful P t.origin (w.own i) t.prog := by
  refine ⟨OutageReachable.storeInvariant hdb hw, fun m n => OutageReachable.evolves hw, fun i t ht => ?_⟩
  refine truthful_of_runs ((Interleaving.Reachable.sound hw).runs i t ht) fun e he => ?_
  exact OutageReachable.attempt hw (World.mem_events (World.mem_own.1 he))

/-- The error of a command whose connection broke. -/
def connectionBroken : JsError := .mongoServerError none none (js "connection closed")

/-- Executes a command with a choice, and loses its answer where told to. -/
def Choice.runBroken (x : Choice × Bool) (c : Command) (db : Db) : c.Answer × Db :=
  (if x.2 then .error connectionBroken else (x.1.run c db).1, (x.1.run c db).2)

theorem Choice.runBroken_executes (x : Choice × Bool) (c : Command) (db : Db) :
    Unreliable (Db.Executes referenceMongo referenceModel) DriverFailed c db (Choice.runBroken x c db).1
      (Choice.runBroken x c db).2 := by
  obtain ⟨x, broken⟩ := x
  cases broken with
  | false => exact Unreliable.answered _ _ (x.executes c db)
  | true =>
    have hfailed : ¬ connectionBroken.Recognised := fun h => Option.some_ne_none 11000 h.symm
    exact Unreliable.unanswered _ _ _ ⟨connectionBroken, hfailed, rfl⟩ (x.executes c db)

/-- A run with broken connections that is replayed and checked exists. -/
theorem exists_broken_run (db : Db) (moves : List (Move (Arrival referencePlatform) (Choice × Bool)))
    (q : ServerWorld referencePlatform → Bool)
    (h : ((World.init db).replay Choice.runBroken (app referencePlatform) moves).any q = true) :
    ∃ w, OutageReachable referencePlatform DriverFailed db w ∧ q w = true :=
  exists_of_replay Choice.runBroken_executes db moves q h

/-- An update is done and its answer is lost: it is answered with 500, and done all the same. -/
theorem outages_lost_answer : ∃ w, OutageReachable referencePlatform DriverFailed (sampleStore .pending) w ∧
    (∃ t response, w.tasks[0]? = some t ∧ t.prog = .done response ∧ response.status = 500) ∧
      w.store ≠ sampleStore .pending ∧
      (∀ n, StoreInvariant (stateAt (sampleStore .pending) w.events n)) ∧
      (∀ m n, m ≤ n → Evolves (stateAt (sampleStore .pending) w.events m) (stateAt (sampleStore .pending) w.events n)) ∧
      ∀ i t, w.tasks[i]? = some t → Truthful referencePlatform t.origin (w.own i) t.prog := by
  obtain ⟨w, hw, hq⟩ := exists_broken_run (sampleStore .pending)
    [.arrive (putStatus 1 .inTransit), .perform 0 false ({}, false), .perform 0 false ({}, true)] (fun w =>
      (w.tasks[0]?.bind finishedResponse?).map HttpResponse.status = some 500 ∧
        w.store.docs.map Shipment.status = [js "in_transit"]) (by decide)
  obtain ⟨hresponse, hstatus⟩ := of_decide_eq_true hq
  obtain ⟨response, hfinished, hcode⟩ := Option.map_eq_some_iff.1 hresponse
  obtain ⟨t, ht, hfinished⟩ := Option.bind_eq_some_iff.1 hfinished
  refine ⟨w, hw, ⟨t, response, ht, of_finishedResponse? hfinished, hcode⟩, fun heq => ?_,
    outages storeInvariant_sample hw⟩
  rw [heq] at hstatus
  revert hstatus
  decide

end ShipmentManager
