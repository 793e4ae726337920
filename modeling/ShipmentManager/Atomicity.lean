import ShipmentManager.Deletion

/-!
# All or nothing

The own steps of one request, whatever other requests do in between: at most one of them is a write, an error response
means that none is, and a writing request succeeds exactly when one is.  What the write does is read off the step
(`Effect`) with what the request was checked for (`Checked`).
-/

namespace ShipmentManager

open Interleaving

/-- The command has written to the collection. -/
def isWrite : (c : Command) → c.Answer → Bool
  | .save _, .ok _ => true
  | .findByIdAndUpdate _ _, .ok (some _) => true
  | .findByIdAndDelete _, .ok (some _) => true
  | _, _ => false

/-- The number of writes among some steps. -/
def writeCount (es : List DbEvent) : Nat := es.countP fun e => isWrite e.cmd e.answer

/-- A step that is no write leaves the store as it was. -/
theorem Effect.unchanged {c : Command} {r : c.Answer} {db db' : Db} (h : Effect c r db db')
    (hw : isWrite c r = false) : db' = db := by
  cases h with
  | inserted => cases hw
  | updated => cases hw
  | deleted => cases hw
  | _ => rfl

/-- The route asks for a change. -/
def Route.Writes : Route → Prop
  | .getAll _ => False
  | .getById _ => False
  | .create => True
  | .update _ => True
  | .delete _ => True

variable {P : Platform}

variable (P) in
/-- What the own steps `es` of the request `a` and its response, once it has one, have to do with each other. -/
structure AllOrNothing (a : Arrival P) (es : List DbEvent) (q : Prog Command Command.Answer HttpResponse) : Prop where
  once : writeCount es ≤ 1
  unchanged : ∀ e ∈ es, isWrite e.cmd e.answer = false → e.after = e.before
  failed : ∀ response, q = .done response → 400 ≤ response.status → ∀ e ∈ es, e.after = e.before
  succeeded : ∀ response, q = .done response → a.request.route.Writes → (response.status < 400 ↔ writeCount es = 1)
  created : a.request.route = .create → ∀ e ∈ es, isWrite e.cmd e.answer = true →
    ∃ o s, parseBody P a.request.body = .ok (.obj o) ∧ FromBody a.draws o s ∧ Db.Inserted e.before s e.after
  updated : ∀ raw, a.request.route = .update raw → ∀ e ∈ es, isWrite e.cmd e.answer = true →
    ∃ id o u s, P.express.decodeParam raw = .ok id ∧ parseBody P a.request.body = .ok (.obj o) ∧ BodyUpdate o u ∧
      Db.Updated e.before (hexValue id) u s e.after
  deleted : ∀ raw, a.request.route = .delete raw → ∀ e ∈ es, isWrite e.cmd e.answer = true →
    ∃ id s, P.express.decodeParam raw = .ok id ∧ Db.Deleted e.before (hexValue id) s e.after

/-- The steps of a request are executed one by one, each with its effect. -/
def Effects (es : List DbEvent) : Prop := ∀ e ∈ es, Effect e.cmd e.answer e.before e.after

private theorem unchanged_of_effects {es : List DbEvent} (h : Effects es) :
    ∀ e ∈ es, isWrite e.cmd e.answer = false → e.after = e.before := fun e he hw => (h e he).unchanged hw

private theorem noWrites {a : Arrival P} {es : List DbEvent} {q : Prog Command Command.Answer HttpResponse}
    (h : Effects es) (hzero : ∀ e ∈ es, isWrite e.cmd e.answer = false)
    (hq : ∀ response, q = .done response → a.request.route.Writes → 400 ≤ response.status) :
    AllOrNothing P a es q := by
  have hcount : writeCount es = 0 := List.countP_eq_zero.2 fun e he => by simp [hzero e he]
  have none : ∀ e ∈ es, isWrite e.cmd e.answer = true → False := fun e he hw => by simp [hzero e he] at hw
  refine ⟨by omega, unchanged_of_effects h, fun _ _ _ e he => unchanged_of_effects h e he (hzero e he),
    fun response hr hw => ?_, ?_, ?_, ?_⟩
  · have := hq response hr hw
    omega
  · exact fun _ e he hw => (none e he hw).elim
  · exact fun _ _ e he hw => (none e he hw).elim
  · exact fun _ _ e he hw => (none e he hw).elim

private theorem noSteps {a : Arrival P} {q : Prog Command Command.Answer HttpResponse}
    (hq : ∀ response, q = .done response → a.request.route.Writes → 400 ≤ response.status) : AllOrNothing P a [] q := by
  have h : Effects [] := by simp [Effects]
  exact noWrites h (by simp) hq

theorem errorHandler_duplicateKey (b : Bool) (field : String) (value : Text) :
    (errorHandler b (duplicateKey field value)).status = 409 := rfl

private theorem finish_error {status : Nat} {message : String} {field : String} {value : Text} :
    400 ≤ (finish P status message (.error (duplicateKey field value))).status := by
  show 400 ≤ (errorHandler P.isProduction (duplicateKey field value)).status
  rw [errorHandler_duplicateKey]
  omega

private theorem finish_none {status : Nat} {message : String} : 400 ≤ (finish P status message (.ok none)).status := by
  show 400 ≤ (errorHandler P.isProduction ShipmentService.notFound).status
  rw [errorHandler_notFound]
  decide

/-- A finished request with one write, which succeeded. -/
private theorem oneWrite {a : Arrival P} {es : List DbEvent} {response : HttpResponse} (h : Effects es)
    (hone : writeCount es = 1) (hok : response.status < 400)
    (hw : ∀ e ∈ es, isWrite e.cmd e.answer = true →
      (a.request.route = .create →
        ∃ o s, parseBody P a.request.body = .ok (.obj o) ∧ FromBody a.draws o s ∧ Db.Inserted e.before s e.after) ∧
      (∀ raw, a.request.route = .update raw → ∃ id o u s, P.express.decodeParam raw = .ok id ∧
        parseBody P a.request.body = .ok (.obj o) ∧ BodyUpdate o u ∧ Db.Updated e.before (hexValue id) u s e.after) ∧
      ∀ raw, a.request.route = .delete raw →
        ∃ id s, P.express.decodeParam raw = .ok id ∧ Db.Deleted e.before (hexValue id) s e.after) :
    AllOrNothing P a es (.done response) := by
  have hsame : ∀ r, (Prog.done response : Prog Command Command.Answer HttpResponse) = .done r → r = response := by
    rintro r hr
    cases hr
    rfl
  refine ⟨by omega, unchanged_of_effects h, fun r hr hge => ?_, fun r hr _ => ?_, ?_, ?_, ?_⟩
  · rw [hsame r hr] at hge
    omega
  · rw [hsame r hr]
    omega
  · exact fun hroute e he hwr => (hw e he hwr).1 hroute
  · exact fun raw hroute e he hwr => (hw e he hwr).2.1 raw hroute
  · exact fun raw hroute e he hwr => (hw e he hwr).2.2 raw hroute

private theorem create_steps {a : Arrival P} {o data : JsObject} (route : a.request.route = .create)
    (parsed : parseBody P a.request.body = .ok (.obj o)) (valid : CreateData a.draws o data) {es : List DbEvent}
    {q : Prog Command Command.Answer HttpResponse} (hr : Prog.Runs (serve P (.create data)) es q) (h : Effects es) :
    AllOrNothing P a es q := by
  rcases runs_create hr with ⟨rfl, rfl⟩ | ⟨r, db, db', rfl, rfl⟩
  · exact noSteps fun response hq => by cases hq
  have heff := h _ (List.mem_singleton_self _)
  cases heff with
  | insertFailed _ field value =>
    refine noWrites h (by simp [isWrite]) fun response hq _ => ?_
    cases hq
    show 400 ≤ (errorHandler P.isProduction (duplicateKey field value)).status
    rw [errorHandler_duplicateKey]
    omega
  | inserted _ s _ _ fresh times sent body hi =>
    refine oneWrite h rfl (by show 201 < 400; omega) fun e he _ => ⟨fun _ => ?_, fun raw hraw => ?_, fun raw hraw => ?_⟩
    · rw [List.mem_singleton] at he
      subst he
      exact ⟨o, s, parsed, body a.draws o valid, hi⟩
    · rw [route] at hraw
      cases hraw
    · rw [route] at hraw
      cases hraw

private theorem delete_steps {a : Arrival P} {raw id : Text} (route : a.request.route = .delete raw)
    (decoded : P.express.decodeParam raw = .ok id) {es : List DbEvent}
    {q : Prog Command Command.Answer HttpResponse} (hr : Prog.Runs (serve P (.delete id)) es q) (h : Effects es) :
    AllOrNothing P a es q := by
  rcases runs_delete hr with ⟨rfl, rfl⟩ | ⟨r, db, db', rfl, rfl⟩
  · exact noSteps fun response hq => by cases hq
  have heff := h _ (List.mem_singleton_self _)
  cases heff with
  | deleteMissing =>
    refine noWrites h (by simp [isWrite]) fun response hq _ => ?_
    cases hq
    exact finish_none
  | deleted _ s _ _ hd =>
    refine oneWrite h rfl (by show 200 < 400; omega) fun e he _ =>
      ⟨fun hc => ?_, fun raw' hraw => ?_, fun raw' hraw => ?_⟩
    · rw [route] at hc
      cases hc
    · rw [route] at hraw
      cases hraw
    · rw [route] at hraw
      cases hraw
      rw [List.mem_singleton] at he
      subst he
      exact ⟨id, s, decoded, hd⟩

theorem update_steps {a : Arrival P} {raw id : Text} {o data : JsObject} (route : a.request.route = .update raw)
    (decoded : P.express.decodeParam raw = .ok id) (parsed : parseBody P a.request.body = .ok (.obj o))
    (valid : UpdateOutput o data) {es : List DbEvent} {q : Prog Command Command.Answer HttpResponse}
    (hr : Prog.Runs (serve P (.update id data)) es q) (h : Effects es) : AllOrNothing P a es q := by
  cases runs_update hr with
  | started => exact noSteps fun response hq => by cases hq
  | failed e db db' =>
    have heff := h _ (List.mem_singleton_self _)
    cases heff
  | missing db db' =>
    refine noWrites h (by simp [isWrite]) fun response hq _ => ?_
    cases hq
    show 400 ≤ (finish P 200 "" (.ok none)).status
    exact finish_none
  -- the transition check refuses the request before its write
  | read existing db db' =>
    refine noWrites h (by simp [isWrite]) fun response hq _ => ?_
    unfold serveWrite at hq
    split at hq
    · rename_i e hc
      cases hq
      exact errorHandler_ge (checkTransition_raised hc)
    · cases hq
  | written existing db₁ db₁' db₂ db₂' r hok =>
    have heff := h _ (List.mem_cons_of_mem _ (List.mem_singleton_self _))
    have hread : ∀ (x : (Command.findById id).Answer), isWrite (.findById id) x = false := fun _ => rfl
    cases heff with
    | updateMissing =>
      refine noWrites h (by simp [isWrite]) fun response hq _ => ?_
      cases hq
      exact finish_none
    | updateFailed _ _ value =>
      refine noWrites h (by simp [isWrite]) fun response hq _ => ?_
      cases hq
      exact finish_error
    | updated _ _ u s _ _ sent body hu =>
      refine oneWrite h rfl (by show 200 < 400; omega) fun e he hw =>
        ⟨fun hc => ?_, fun raw' hraw => ?_, fun raw' hraw => ?_⟩
      · rw [route] at hc
        cases hc
      · rw [route] at hraw
        cases hraw
        -- of the two steps only the second one writes
        rcases List.mem_cons.1 he with rfl | he
        · cases hw
        · rw [List.mem_singleton] at he
          subst he
          exact ⟨id, o, u, s, decoded, parsed, body o valid, hu⟩
      · rw [route] at hraw
        cases hraw

theorem Reachable.effects {db : Db} {w : ServerWorld P} (hw : Reachable P db w) (i : Nat) : Effects (w.own i) :=
  fun _ he => Reachable.effect hw (World.mem_events (World.mem_own.1 he))

/-- Whatever other requests do, a request writes at most once, an error means that it wrote nothing, and a writing
request succeeds exactly when it wrote what it asked for. -/
theorem all_or_nothing {db : Db} {w : ServerWorld P} (hw : Reachable P db w) {i : Nat}
    {t : Task Command Command.Answer (Arrival P) HttpResponse} (ht : w.tasks[i]? = some t) :
    AllOrNothing P t.origin (w.own i) t.prog := by
  have heffects := Reachable.effects hw i
  have hruns := (Interleaving.Reachable.sound hw).runs i t ht
  rw [app_eq] at hruns
  cases hp : plan P t.origin with
  | error e =>
    rw [hp] at hruns
    obtain ⟨hown, hq⟩ := Prog.runs_done hruns
    rw [hown, hq]
    refine noSteps fun response hr _ => ?_
    cases hr
    exact errorHandler_ge (plan_refused hp).raised
  | ok p =>
    rw [hp] at hruns
    replace hruns : Prog.Runs (serve P p) (w.own i) t.prog := hruns
    have hchecked := plan_checked hp
    cases hchecked with
    | list text query params route valid parsed =>
      have hread : ∀ e ∈ w.own i, isWrite e.cmd e.answer = false := by
        rintro ⟨c, r, s, s'⟩ he
        cases own_step hruns he <;> rfl
      refine noWrites heffects hread fun response _ hwrites => ?_
      rw [route] at hwrites
      exact hwrites.elim
    | get raw id route decoded valid =>
      have hread : ∀ e ∈ w.own i, isWrite e.cmd e.answer = false := by
        rintro ⟨c, r, s, s'⟩ he
        have hstep := own_step hruns he
        generalize t.prog = q at hstep
        cases hstep
        rfl
      refine noWrites heffects hread fun response _ hwrites => ?_
      rw [route] at hwrites
      exact hwrites.elim
    | create o data route parsed valid => exact create_steps route parsed valid hruns heffects
    | update raw id o out route decoded valid_id parsed valid =>
      exact update_steps route decoded parsed valid hruns heffects
    | delete raw id route decoded valid => exact delete_steps route decoded hruns heffects

theorem all_or_nothing_racing : ∃ w t, Reachable referencePlatform (sampleStore .pending) w ∧
    w.tasks[0]? = some t ∧ (w.own 0).length = 2 ∧ AllOrNothing referencePlatform t.origin (w.own 0) t.prog := by
  obtain ⟨w, hw, hq⟩ := exists_run (sampleStore .pending) racingDeletions (fun w =>
    w.tasks[0]?.isSome && (w.own 0).length = 2) (by decide)
  rw [Bool.and_eq_true] at hq
  obtain ⟨t, ht⟩ := Option.isSome_iff_exists.1 hq.1
  exact ⟨w, t, hw, ht, by simpa using hq.2, all_or_nothing hw ht⟩

end ShipmentManager
