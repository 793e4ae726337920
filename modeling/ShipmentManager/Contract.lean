import ShipmentManager.Lib.Registry
import ShipmentManager.Linearizability
import ShipmentManager.ListMoments

/-!
# The contract of the API

What the API is for, without its layers: a registry of shipments, with their identifiers as keys.  A body makes a
shipment or changes the fields it names, a change of status must be an allowed transition, and a listing is answered
with a page of the matching shipments (`shipmentKind`).  `reply` is the response to each outcome.

On a store with the invariant the program of a request may end in a response and a store exactly when the registry
permits it (`contract`): every behaviour of the code is one of the registry's, and each of the registry's can occur.
-/

namespace ShipmentManager

open Interleaving Registry

/-- What a new shipment is made from. -/
structure NewShipment where
  trackingNumber : Text
  field : String → Option Text

/-- A page with the number of all matches, or the error that the database raises for a pattern. -/
abbrev ListAnswer : Type := Except JsError (List Shipment × Nat)

section Kind

variable (P : Platform)

/-- A listing is answered with a slice of the matching shipments, in some order that the sort field respects. -/
def AnswersList (stored : Set Shipment) (params : QueryParams) : ListAnswer → Prop
  | .error e => (listQuery P params).error? P.mongo = some e
  | .ok (page, total) => (listQuery P params).error? P.mongo = none ∧ ∃ found arranged : List Shipment, found.Nodup ∧
      (∀ s, s ∈ found ↔ s ∈ stored ∧ (listQuery P params).matches P.mongo s = true) ∧
      Arranged P.mongo params.sortBy params.order found arranged ∧
      page = slice arranged ((params.page - 1) * params.limit) params.limit ∧ total = found.length

def shipmentKind : Kind ObjectId Shipment NewShipment (String → Option Text) QueryParams ListAnswer where
  key := Shipment._id
  Makes new s := s.trackingNumber = new.trackingNumber ∧ s.createdAt = s.updatedAt ∧
    ∀ f ∈ bodyKeys, s.text? f = new.field f
  Taken new s := s.trackingNumber = new.trackingNumber
  Admits s change := ∀ t, change "status" = some t → t = s.status ∨ LegalChange s.status t
  Changes s change s' := SameIdentity s s' ∧ ∀ f ∈ bodyKeys, s'.text? f = (change f).or (s.text? f)
  changes_key h := h.1._id
  Answers := AnswersList P

abbrev ShipmentCall : Type := Call ObjectId NewShipment (String → Option Text) QueryParams

/-- What an accepted request asks of the registry. -/
def Plan.call : Plan → ShipmentCall
  | .list params => .query params
  | .get id => .read (hexValue id)
  | .create data => .create ⟨trim ((givenText data "trackingNumber").getD []), givenText data⟩
  | .update id data => .change (hexValue id) (givenText data)
  | .delete id => .remove (hexValue id)

def takenResponse (trackingNumber : Text) : HttpResponse :=
  ⟨409, .error (js "Duplicate value for trackingNumber: " ++ trackingNumber) .duplicateEntry none⟩

def refusedTransition (current next : Text) : JsError :=
  .apiError (.invalidStatusTransition current next ((getAllowedTransitions current).getD []))

/-- The response to an outcome. -/
def reply : ShipmentCall → Result Shipment ListAnswer → HttpResponse
  | _, .created s => answer 201 "Shipment created successfully" s
  | .create new, .taken => takenResponse new.trackingNumber
  | _, .found s => answer 200 "Shipment retrieved successfully" s
  | _, .changed s => answer 200 "Shipment updated successfully" s
  | .change _ change, .refused s =>
    errorHandler P.isProduction (refusedTransition s.status ((change "status").getD []))
  | _, .removed s => answer 200 "Shipment deleted successfully" s
  | .query params, .answered (.ok (page, total)) =>
    ⟨200, .shipments (js "Shipments retrieved successfully") (page.map ShipmentService.toResponse)
      (ShipmentRepository.paginationOf params.page params.limit total)⟩
  | .query _, .answered (.error e) => errorHandler P.isProduction e
  -- a shipment that is not there; the other calls do not have the other outcomes
  | _, _ => notFoundResponse

/-- The registry that a store stands for. -/
def Db.registry (db : Db) : State ObjectId Shipment := ⟨db.get?, {id | id ∈ db.issued}⟩

/-- What the registry permits a request to be answered with: a refused request changes nothing. -/
inductive Permits (st : State ObjectId Shipment) (a : Arrival P) : HttpResponse → State ObjectId Shipment → Prop where
  | refused (e : JsError) (h : plan P a = .error e) : Permits st a (errorHandler P.isProduction e) st
  | accepted (p : Plan) (o : Result Shipment ListAnswer) (st' : State ObjectId Shipment) (h : plan P a = .ok p)
      (step : Step (shipmentKind P) st p.call o st') : Permits st a (reply P p.call o) st'

end Kind

/-! ### Stores as registries -/

theorem Db.wf_registry (P : Platform) (db : Db) : Wf (shipmentKind P) db.registry where
  key _ _ h := Db.id_of_get? h
  issued _ _ h := Db.issued_of_get? h

theorem Db.mem_values (P : Platform) {db : Db} {s : Shipment} :
    s ∈ db.registry.values (shipmentKind P) ↔ s ∈ db.docs := Db.mem_docs.symm

theorem registry_inserted {db db' : Db} {s : Shipment} (h : Db.Inserted db s db') : db'.registry =
    { stored := Function.update db.registry.stored s._id (some s), issued := insert s._id db.registry.issued } := by
  refine State.ext (funext fun id => ?_) (Set.ext fun id => ?_)
  · show db'.get? id = Function.update db.get? s._id (some s) id
    rw [h.get?, Function.update_apply]
    simp only [eq_comm]
  · show id ∈ db'.issued ↔ _
    rw [h.issued, List.mem_cons]
    rfl

theorem registry_updated {db db' : Db} {id : ObjectId} {u : Update} {s : Shipment} (h : Db.Updated db id u s db') :
    db'.registry = db.registry.put id (some (u.apply s)) := by
  refine State.ext (funext fun id' => ?_) (Set.ext fun id' => ?_)
  · show db'.get? id' = _
    rw [h.get?, State.put_stored]
    simp only [eq_comm]
    rfl
  · show id' ∈ db'.issued ↔ id' ∈ db.issued
    rw [h.issued]

theorem registry_deleted {db db' : Db} {id : ObjectId} {s : Shipment} (h : Db.Deleted db id s db') :
    db'.registry = db.registry.put id none := by
  refine State.ext (funext fun id' => ?_) (Set.ext fun id' => ?_)
  · show db'.get? id' = _
    rw [h.get?, State.put_stored]
    simp only [eq_comm]
    rfl
  · show id' ∈ db'.issued ↔ id' ∈ db.issued
    rw [h.issued]

/-! ### Validated data -/

theorem trackingNumber_saveData (draws : Draws) (body : JsObject) :
    (givenText (saveData draws body) "trackingNumber").getD [] = generateTrackingNumber draws.today draws.random := by
  unfold givenText
  rw [get?_saveData, if_pos rfl]
  rfl

/-- The fields that a validated body is saved with are those of the shipment it asks for. -/
theorem FromBody.text?_saveData {draws : Draws} {o out : JsObject} {s : Shipment} (h : FromBody draws o s)
    (hout : CreateOutput o out) {f : String} (hf : f ∈ bodyKeys) : s.text? f = givenText (saveData draws out) f := by
  have heq := h.text?_eq hout hf
  have hne : f ≠ "trackingNumber" := by
    rintro rfl
    exact absurd hf (by decide)
  unfold givenText
  rw [get?_saveData, if_neg hne]
  by_cases hstatus : f = "status"
  · subst hstatus
    obtain ⟨t, ht, hs⟩ : ∃ t ∈ statusValues, Obj.get? out "status" = some (.str t) := by
      rcases hout.status with ⟨-, hs⟩ | ⟨t, ht, -, hs⟩
      · exact ⟨_, by decide, hs⟩
      · exact ⟨t, ht, hs⟩
    rw [hs] at heq ⊢
    rw [if_pos rfl, orElse, if_pos (truthy_status ht)]
    cases hs' : s.text? "status" with
    | none =>
      rw [hs'] at heq
      cases heq
    | some t' =>
      rw [hs'] at heq
      cases heq
      rfl
  · rw [if_neg hstatus, heq]
    cases s.text? f <;> rfl

/-- The status that a validated body names. -/
theorem UpdateOutput.status_cases {o data : JsObject} (h : UpdateOutput o data) :
    (Obj.get? data "status" = none ∧ givenText data "status" = none) ∨
      ∃ t ∈ statusValues, Obj.get? data "status" = some (.str t) ∧ givenText data "status" = some t := by
  rcases h.status with ⟨-, hs⟩ | ⟨t, ht, -, hs⟩
  · exact Or.inl ⟨hs, by unfold givenText; rw [hs]⟩
  · exact Or.inr ⟨t, ht, hs, by unfold givenText; rw [hs]⟩

section Check

variable {P : Platform}

/-- The check of an update, on a stored status: the transition is admitted, or the update is refused. -/
theorem checkTransition_cases {o data : JsObject} (hdata : UpdateOutput o data) {s : Shipment}
    (hs : s.status ∈ statusValues) :
    ((shipmentKind P).Admits s (givenText data) ∧
        ShipmentService.checkTransition P s.status (Obj.get? data "status") = .ok ()) ∨
      (¬ (shipmentKind P).Admits s (givenText data) ∧
        ShipmentService.checkTransition P s.status (Obj.get? data "status") =
          .error (refusedTransition s.status ((givenText data "status").getD []))) := by
  rcases hdata.status_cases with ⟨hget, hgiven⟩ | ⟨t, ht, hget, hgiven⟩
  · refine Or.inl ⟨fun t ht => ?_, by rw [hget]; rfl⟩
    rw [hgiven] at ht
    cases ht
  rw [hget]
  have hadmits : (shipmentKind P).Admits s (givenText data) ↔ t = s.status ∨ LegalChange s.status t := by
    constructor
    · exact fun h => h t hgiven
    · intro h t' ht'
      rw [hgiven, Option.some.injEq] at ht'
      exact ht' ▸ h
  cases hcheck : ShipmentService.checkTransition P s.status (some (.str t)) with
  | ok u => exact Or.inl ⟨hadmits.2 (isValidStatusTransition_iff.1 (checkTransition_ok ht hcheck)), rfl⟩
  | error e =>
    obtain ⟨hne, -⟩ := checkTransition_error ht hcheck
    have hcheck' := hcheck
    have hfalse : (JsValue.str t).isText s.status = false := by simpa using hne
    simp only [ShipmentService.checkTransition, truthy_status ht, hfalse, Bool.not_false, Bool.and_self, ↓reduceIte,
      ShipmentService.validateStatusTransition] at hcheck'
    obtain ⟨status, hvalue⟩ := mem_statusValues.1 hs
    cases hv : isValidStatusTransition s.status (.str t) with
    -- the table has an entry for each of the four statuses
    | none =>
      simp only [isValidStatusTransition, transitionsOf?, ← hvalue, ShipmentStatus.ofText?_value,
        Option.map_some] at hv
      split at hv <;> cases hv
    | some valid =>
      cases valid with
      | true =>
        rw [hv] at hcheck'
        cases hcheck'
      | false =>
        rw [hv] at hcheck'
        refine Or.inr ⟨fun h => ?_, ?_⟩
        · rw [isValidStatusTransition_iff.2 (hadmits.1 h)] at hv
          cases hv
        · rw [← hcheck', P.engine.stringOf_str, hgiven]
          rfl

end Check

/-! ### From the code to the registry -/

section Sound

variable {M : Mongo} {model : ShipmentModel} {db db' : Db}

/-- A document with a new identifier is inserted, or its tracking number is taken. -/
theorem insert_fresh {s : Shipment} (hfresh : s._id ∉ db.issued) {r : Except JsError Shipment}
    (h : db.insert s = (r, db')) :
    (∃ d ∈ db.docs, d.trackingNumber = s.trackingNumber ∧
        r = .error (duplicateKey "trackingNumber" s.trackingNumber) ∧ db' = db) ∨
      (r = .ok s ∧ Db.Inserted db s db') := by
  rcases Db.insert_cases h with ⟨field, value, rfl, rfl⟩ | hins
  · have habsent : db'.shipments.get? s._id = none := by
      by_contra hne
      obtain ⟨d, hd⟩ := Option.ne_none_iff_exists'.1 hne
      exact hfresh (Db.issued_of_get? hd)
    unfold Db.insert at h
    split at h
    · rename_i hany
      obtain ⟨d, hd, he⟩ := List.any_eq_true.1 hany
      rw [decide_eq_true_eq] at he
      exact Or.inl ⟨d, hd, he, (congrArg Prod.fst h).symm, rfl⟩
    -- where neither is there already, the insertion does not fail
    · cases h
  · exact Or.inr hins

theorem errorHandler_trackingNumber (b : Bool) (t : Text) :
    errorHandler b (duplicateKey "trackingNumber" t) = takenResponse t := by
  have htext : js "Duplicate value for " ++ js "trackingNumber" ++ js ": " =
      js "Duplicate value for trackingNumber: " := by decide
  show (⟨409, .error (js "Duplicate value for " ++ js "trackingNumber" ++ js ": " ++ t) _ _⟩ : HttpResponse) = _
  rw [htext]
  rfl

/-- Saving the data of an accepted body inserts the shipment it asks for, or its tracking number is taken. -/
theorem executes_save_cases {draws : Draws} {o data : JsObject} (h : CreateData draws o data)
    {r : (Command.save data).Answer} (hx : Db.Executes M model (.save data) db r db') :
    (∃ d ∈ db.docs, d.trackingNumber = trim (generateTrackingNumber draws.today draws.random) ∧
        r = .error (duplicateKey "trackingNumber" (trim (generateTrackingNumber draws.today draws.random))) ∧
          db' = db) ∨
      ∃ s, r = .ok s ∧ s._id ∉ db.issued ∧ s.createdAt = s.updatedAt ∧ FromBody draws o s ∧ Db.Inserted db s db' := by
  obtain ⟨x, hx⟩ := hx
  obtain ⟨out, hout, rfl⟩ := h
  obtain ⟨s, hok, hid, hc, hu, hs⟩ := build_saveData model draws hout x.newId x.now
  simp only [Db.exec, hok] at hx
  have hfresh : s._id ∉ db.issued := hid ▸ x.newId_fresh
  rcases insert_fresh hfresh hx with ⟨d, hd, he, hr, hdb⟩ | ⟨hr, hins⟩
  · rw [hs.trackingNumber] at he hr
    exact Or.inl ⟨d, hd, he, hr, hdb⟩
  · exact Or.inr ⟨s, hr, hfresh, hc.trans hu.symm, hs, hins⟩

end Sound

section Contract

variable {P : Platform} {db db' : Db} {response : HttpResponse}

private theorem list_sound {q : ListQuery} (h : Responds P (serve P (.list q.params)) db response db') :
    ∃ a, AnswersList P (db.registry.values (shipmentKind P)) q.params a ∧ db' = db ∧
      response = reply P (.query q.params) (.answered a) := by
  obtain ⟨r₁, r₂, hf, hc, hd⟩ :=
    (serves_both_reads _ (fun _ _ _ => executes_read rfl) (fun _ _ _ => executes_read rfl)).1 h
  obtain ⟨hresponse, hdb⟩ := (serves_done _).1 hd
  rcases (executes_find q.skip_bounds.1 hf).2 with ⟨e, he, rfl⟩ | ⟨he, o, rfl⟩
  · exact ⟨.error e, he, hdb, hresponse⟩
  · rcases (executes_count hc).2 with ⟨e, he', -⟩ | ⟨-, rfl⟩
    · change (listQuery P q.params).error? P.mongo = some e at he'
      change (listQuery P q.params).error? P.mongo = none at he
      rw [he] at he'
      cases he'
    · refine ⟨.ok (_, (matching P db q.params).length), ⟨he, matching P db q.params, _, matching_nodup _,
        fun s => ?_, o.arranged _, rfl, rfl⟩, hdb, ?_⟩
      · rw [Db.mem_values]
        exact List.mem_filter
      · have hcount : (db.docs.countP fun s => (listQuery P q.params).matches P.mongo s) =
            (matching P db q.params).length := List.countP_eq_length_filter
        rw [hresponse, ← hcount]
        rfl

private theorem get_sound {id : Text} (hid : isObjectIdText id = true)
    (h : Responds P (serve P (.get id)) db response db') :
    ∃ o, Step (shipmentKind P) db.registry (Plan.get id).call o db'.registry ∧
      response = reply P (Plan.get id).call o := by
  obtain ⟨r, s₁, hx, hd⟩ := (serves_call _).1 h
  obtain ⟨rfl, rfl⟩ := executes_findById hid hx
  obtain ⟨rfl, rfl⟩ := (serves_done _).1 hd
  cases hg : db'.get? (hexValue id) with
  | none => exact ⟨.missing, Step.missing rfl hg, errorHandler_notFound _⟩
  | some s => exact ⟨.found s, Step.found hg, rfl⟩

private theorem create_sound {draws : Draws} {o data : JsObject} (valid : CreateData draws o data)
    (h : Responds P (serve P (.create data)) db response db') :
    ∃ o, Step (shipmentKind P) db.registry (Plan.create data).call o db'.registry ∧
      response = reply P (Plan.create data).call o := by
  obtain ⟨r, s₁, hx, hd⟩ := (serves_call _).1 h
  obtain ⟨rfl, rfl⟩ := (serves_done _).1 hd
  obtain ⟨out, hout, rfl⟩ := id valid
  have htracking := trackingNumber_saveData draws out
  rcases executes_save_cases valid hx with ⟨d, hd, htaken, rfl, rfl⟩ | ⟨s, rfl, hfresh, htimes, hs, hins⟩
  · refine ⟨.taken, Step.taken (Db.mem_docs.1 hd) ?_, ?_⟩
    · show d.trackingNumber = trim _
      rw [htracking]
      exact htaken
    · show errorHandler _ _ = takenResponse (trim _)
      rw [htracking, errorHandler_trackingNumber]
  · refine ⟨.created s, ?_, rfl⟩
    rw [registry_inserted hins]
    refine Step.created ⟨?_, htimes, fun f hf => hs.text?_saveData hout hf⟩ hfresh fun k d hd htaken => ?_
    · show s.trackingNumber = trim _
      rw [htracking]
      exact hs.trackingNumber
    · refine hins.unique d (Db.mem_of_get? hd) (htaken.trans ?_)
      show trim _ = _
      rw [htracking]
      exact hs.trackingNumber.symm

/-- A field after the update of an accepted body. -/
private theorem text?_changed {o data : JsObject} {u : Update} (valid : UpdateOutput o data) (hb : BodyUpdate o u)
    (s : Shipment) {f : String} (hf : f ∈ bodyKeys) : (u.apply s).text? f = (givenText data f).or (s.text? f) := by
  rw [Update.text?_apply, set_of_body valid hb hf]
  obtain ⟨t, ht⟩ := text?_isSome s hf
  rw [ht]
  cases givenText data f <;> rfl

/-- The update of an accepted body is applied to the shipment that the request has found. -/
private theorem changed_sound (hdb : StoreInvariant db) {id : Text} (hid : isObjectIdText id = true) {o data : JsObject}
    (valid : UpdateOutput o data) {s : Shipment} (hg : db.get? (hexValue id) = some s)
    (hadmits : (shipmentKind P).Admits s (givenText data)) {r : (Command.findByIdAndUpdate id data).Answer}
    (hx : Db.Executes P.mongo P.model (.findByIdAndUpdate id data) db r db') :
    ∃ s', Step (shipmentKind P) db.registry (Plan.update id data).call (.changed s') db'.registry ∧
      finish P 200 "Shipment updated successfully" r = answer 200 "Shipment updated successfully" s' := by
  rcases executes_update hid ⟨o, valid⟩ hx with ⟨-, hn, -⟩ | ⟨x, d, _, hp, hm, hne, heq, -⟩ | ⟨u, x, hbody, rfl, hup⟩
  · rw [hg] at hn
    cases hn
  · exact absurd (congrArg _ (hdb.eq_of_trackingNumber (Db.mem_of_get? hp) hm heq)) hne
  · have hx : x = s := Option.some.inj (hup.present.symm.trans hg)
    subst hx
    have hb := hbody o valid
    refine ⟨u.apply x, ?_, rfl⟩
    rw [registry_updated hup]
    exact Step.changed hg hadmits ⟨hb.identity x, fun f hf => text?_changed valid hb x hf⟩

private theorem update_sound (hdb : StoreInvariant db) {id : Text} (hid : isObjectIdText id = true) {o data : JsObject}
    (valid : UpdateOutput o data) (h : Responds P (serve P (.update id data)) db response db') :
    ∃ o, Step (shipmentKind P) db.registry (Plan.update id data).call o db'.registry ∧
      response = reply P (Plan.update id data).call o := by
  obtain ⟨r, s₁, hx, hd⟩ := (serves_call _).1 h
  obtain ⟨rfl, rfl⟩ := executes_findById hid hx
  cases hg : s₁.get? (hexValue id) with
  | none =>
    rw [hg] at hd
    obtain ⟨rfl, rfl⟩ := (serves_done _).1 hd
    exact ⟨.missing, Step.missing rfl hg, errorHandler_notFound _⟩
  | some s =>
    rw [hg] at hd
    replace hd : Responds P (serveWrite P id data s) s₁ response db' := hd
    unfold serveWrite at hd
    rcases checkTransition_cases (P := P) valid (hdb.valid s (Db.mem_of_get? hg)).status with
      ⟨hadmits, hc⟩ | ⟨hrefused, hc⟩
    · rw [hc] at hd
      obtain ⟨r, s₂, hx, hd⟩ := (serves_call _).1 hd
      obtain ⟨rfl, rfl⟩ := (serves_done _).1 hd
      obtain ⟨s', hstep, hresponse⟩ := changed_sound hdb hid valid hg hadmits hx
      exact ⟨.changed s', hstep, hresponse⟩
    · rw [hc] at hd
      obtain ⟨rfl, rfl⟩ := (serves_done _).1 hd
      exact ⟨.refused s, Step.refused hg hrefused, rfl⟩

private theorem delete_sound {id : Text} (hid : isObjectIdText id = true)
    (h : Responds P (serve P (.delete id)) db response db') :
    ∃ o, Step (shipmentKind P) db.registry (Plan.delete id).call o db'.registry ∧
      response = reply P (Plan.delete id).call o := by
  obtain ⟨r, s₁, hx, hd⟩ := (serves_call _).1 h
  obtain ⟨rfl, rfl⟩ := (serves_done _).1 hd
  rcases executes_delete hid hx with ⟨rfl, hg, rfl⟩ | ⟨s, rfl, hdel⟩
  · exact ⟨.missing, Step.missing rfl hg, errorHandler_notFound _⟩
  · refine ⟨.removed s, ?_, rfl⟩
    rw [registry_deleted hdel]
    exact Step.removed hdel.present

theorem responds_step (hdb : StoreInvariant db) {a : Arrival P} {p : Plan} (hplan : plan P a = .ok p)
    (h : Responds P (serve P p) db response db') :
    ∃ o, Step (shipmentKind P) db.registry p.call o db'.registry ∧ response = reply P p.call o := by
  cases plan_checked hplan with
  | list text query params route valid parsed =>
    obtain ⟨q, rfl⟩ := plan_list_query hplan
    obtain ⟨a, hanswer, rfl, rfl⟩ := list_sound h
    exact ⟨.answered a, Step.answered hanswer, rfl⟩
  | get raw id route decoded valid => exact get_sound valid h
  | create o data route parsed valid => exact create_sound valid h
  | update raw id o data route decoded valid_id parsed valid => exact update_sound hdb valid_id valid h
  | delete raw id route decoded valid => exact delete_sound valid h

/-! ### From the registry to the code -/

/-- The environment may choose any new identifier and any time. -/
theorem exists_oracle_new (M : Mongo) (db : Db) {id : ObjectId} (hid : id ∉ db.issued) (now : Int) :
    ∃ o : Oracle M db, o.newId = id ∧ o.now = now := by
  obtain ⟨o⟩ := exists_oracle_any M db
  exact ⟨{ o with newId := id, newId_fresh := hid, now := now }, rfl, rfl⟩

/-- A shipment is given by its identifier, its texts and its times. -/
theorem Shipment.ext_text {s s' : Shipment} (hid : s._id = s'._id) (ht : s.trackingNumber = s'.trackingNumber)
    (hf : ∀ f ∈ bodyKeys, s.text? f = s'.text? f) (hc : s.createdAt = s'.createdAt)
    (hu : s.updatedAt = s'.updatedAt) : s = s' := by
  obtain ⟨_, _, _, _, _, _, _, _, _⟩ := s
  obtain ⟨_, _, _, _, _, _, _, _, _⟩ := s'
  have hsender := hf "senderName" (by decide)
  have hreceiver := hf "receiverName" (by decide)
  have horigin := hf "origin" (by decide)
  have hdestination := hf "destination" (by decide)
  have hstatus := hf "status" (by decide)
  simp only [Shipment.text?, Option.some.injEq] at hid ht hc hu hsender hreceiver horigin hdestination hstatus
  simp only [hid, ht, hc, hu, hsender, hreceiver, horigin, hdestination, hstatus]

private theorem list_complete {q : ListQuery} {a : ListAnswer}
    (h : AnswersList P (db.registry.values (shipmentKind P)) q.params a) :
    Responds P (serve P (.list q.params)) db (reply P (.query q.params) (.answered a)) db := by
  rcases a with e | ⟨page, total⟩
  · exact responds_list_error h
  · obtain ⟨herr, found, arranged, hnodup, hmem, harr, rfl, rfl⟩ := h
    have hperm : found.Perm (matching P db q.params) := by
      refine (List.perm_ext_iff_of_nodup hnodup (matching_nodup _)).2 fun s => ?_
      rw [hmem, Db.mem_values]
      exact List.mem_filter.symm
    have harr' : Arranged P.mongo q.params.sortBy q.params.order (matching P db q.params) arranged :=
      ⟨harr.perm.trans hperm, harr.sorted⟩
    obtain ⟨o, ho⟩ := exists_oracle db harr'
    have hcount : (db.docs.countP fun s => (listQuery P q.params).matches P.mongo s) =
        (matching P db q.params).length := List.countP_eq_length_filter
    have hskip : ¬ (q.params.page - 1) * q.params.limit < 0 := by
      have := q.skip_bounds.1
      show ¬ (q.pageNumber - 1) * q.pageSize < 0
      omega
    have herr' : (ShipmentRepository.buildQuery P.engine q.params.filters).error? P.mongo = none := herr
    refine (serves_both _).2 (Or.inl ⟨.ok (slice arranged ((q.params.page - 1) * q.params.limit) q.params.limit), db,
      .ok (Int.ofNat (matching P db q.params).length), db, ⟨o, ?_⟩, ⟨o, ?_⟩, (serves_done _).2 ⟨?_, rfl⟩⟩)
    · simp only [Db.exec, herr']
      rw [if_neg hskip]
      exact congrArg (fun l => (Except.ok (slice l _ _), db)) ho
    · simp only [Db.exec, herr']
      rw [← hcount]
      rfl
    · rw [hperm.length_eq]
      rfl

private theorem create_complete {draws : Draws} {o data : JsObject} (valid : CreateData draws o data)
    {outcome : Result Shipment ListAnswer} {st' : State ObjectId Shipment}
    (h : Step (shipmentKind P) db.registry (Plan.create data).call outcome st') :
    ∃ db', Responds P (serve P (.create data)) db (reply P (Plan.create data).call outcome) db' ∧
      db'.registry = st' := by
  obtain ⟨out, hout, rfl⟩ := valid
  have htracking := trackingNumber_saveData draws out
  cases h with
  | @created _ s made fresh free =>
    obtain ⟨x, hid, hnow⟩ := exists_oracle_new P.mongo db fresh s.createdAt
    obtain ⟨s', hok, hid', hc', hu', hs'⟩ := build_saveData P.model draws hout x.newId x.now
    obtain ⟨hmade, htimes, hfields⟩ := made
    -- the document that Mongoose builds is the one that the registry makes
    have heq : s' = s := by
      refine Shipment.ext_text (hid'.trans hid) ?_ (fun f hf => ?_) (hc'.trans hnow) (hu'.trans (hnow.trans htimes))
      · rw [hs'.trackingNumber, hmade]
        show _ = trim _
        rw [htracking]
      · rw [hs'.text?_saveData hout hf, hfields f hf]
    subst heq
    rcases hins : db.insert s' with ⟨r, db'⟩
    rcases insert_fresh fresh hins with ⟨d, hd, he, -, -⟩ | ⟨rfl, hinserted⟩
    · exact absurd (he.trans hmade) (free _ d (Db.mem_docs.1 hd))
    · refine ⟨db', (serves_call _).2 ⟨.ok s', db', ⟨x, ?_⟩, (serves_done _).2 ⟨rfl, rfl⟩⟩, registry_inserted hinserted⟩
      simp only [Db.exec, hok]
      exact hins
  | @taken _ k d present htaken =>
    obtain ⟨x⟩ := exists_oracle_any P.mongo db
    rcases hx : Db.exec P.mongo P.model db x (.save (saveData draws out)) with ⟨r, db'⟩
    have hexec : Db.Executes P.mongo P.model (.save (saveData draws out)) db r db' := ⟨x, hx⟩
    rcases executes_save_cases ⟨out, hout, rfl⟩ hexec with ⟨d', -, -, rfl, rfl⟩ | ⟨s, -, -, -, hs, hins⟩
    · refine ⟨db', (serves_call _).2 ⟨_, db', hexec, (serves_done _).2 ⟨?_, rfl⟩⟩, rfl⟩
      show takenResponse (trim _) = errorHandler _ _
      rw [htracking, errorHandler_trackingNumber]
    · refine absurd ?_ (hins.unique d (Db.mem_of_get? present))
      rw [hs.trackingNumber, ← htracking]
      exact htaken
  | missing named => cases named

/-- A permitted change is one that some execution of the update makes. -/
private theorem changed_complete (hdb : StoreInvariant db) {id : Text} (hid : isObjectIdText id = true)
    {o data : JsObject} (valid : UpdateOutput o data) {s s' : Shipment} (present : db.get? (hexValue id) = some s)
    (hchange : (shipmentKind P).Changes s (givenText data) s') : ∃ u db', u.apply s = s' ∧
      Db.Executes P.mongo P.model (.findByIdAndUpdate id data) db (.ok (some (u.apply s))) db' ∧
        Db.Updated db (hexValue id) u s db' := by
  obtain ⟨y, -, hnow⟩ := exists_oracle_new P.mongo db db.freshId_fresh s'.updatedAt
  obtain ⟨u, hok, hu, hb⟩ := castUpdate_output P.model valid y.now
  obtain ⟨hsame, hfields⟩ := hchange
  have heq : u.apply s = s' := by
    have hsame' := hb.identity s
    refine Shipment.ext_text (hsame'._id.trans hsame._id.symm)
      (hsame'.trackingNumber.trans hsame.trackingNumber.symm) (fun f hf => ?_)
      (hsame'.createdAt.trans hsame.createdAt.symm) (hu.trans hnow)
    rw [hfields f hf, text?_changed valid hb s hf]
  rcases hx : Db.update db (hexValue id) u with ⟨r, db'⟩
  have hexec : Db.Executes P.mongo P.model (.findByIdAndUpdate id data) db r db' := by
    refine ⟨y, ?_⟩
    simp only [Db.exec, P.model.castObjectId_hex id hid, hok]
    exact hx
  rcases Db.update_cases hx with ⟨-, hn, -⟩ | ⟨s₁, d, hg, hd, hne, htn, -⟩ | ⟨s₁, rfl, hup⟩
  · exact absurd (hn.symm.trans present) (Option.some_ne_none _).symm
  · have hs₁ : s₁ = s := Option.some.inj (hg.symm.trans present)
    subst hs₁
    have hclash := hdb.eq_of_trackingNumber (Db.mem_of_get? hg) hd (htn.trans (hb.identity s₁).trackingNumber)
    exact absurd ((congrArg _ hclash).trans (Db.id_of_get? hg)) hne
  · have hs₁ : s₁ = s := Option.some.inj (hup.present.symm.trans present)
    subst hs₁
    exact ⟨u, db', heq, hexec, hup⟩

/-- An update whose read finds a shipment goes on with its second half. -/
private theorem responds_found {id : Text} (hid : isObjectIdText id = true) {data : JsObject} {s : Shipment}
    (present : db.get? (hexValue id) = some s) (h : Responds P (serveWrite P id data s) db response db') :
    Responds P (serve P (.update id data)) db response db' := by
  obtain ⟨x⟩ := exists_oracle_any P.mongo db
  refine (serves_call _).2 ⟨.ok (db.get? (hexValue id)), db, executes_findById_of (c := .findById id) ⟨x, rfl⟩ hid, ?_⟩
  rw [present]
  exact h

private theorem update_complete (hdb : StoreInvariant db) {id : Text} (hid : isObjectIdText id = true)
    {o data : JsObject} (valid : UpdateOutput o data) {outcome : Result Shipment ListAnswer}
    {st' : State ObjectId Shipment} (h : Step (shipmentKind P) db.registry (Plan.update id data).call outcome st') :
    ∃ db', Responds P (serve P (.update id data)) db (reply P (Plan.update id data).call outcome) db' ∧
      db'.registry = st' := by
  cases h with
  | @changed _ _ s s' present admitted hchange =>
    obtain ⟨u, db', rfl, hexec, hup⟩ := changed_complete hdb hid valid present hchange
    refine ⟨db', responds_found hid present ?_, registry_updated hup⟩
    unfold serveWrite
    rcases checkTransition_cases (P := P) valid (hdb.valid s (Db.mem_of_get? present)).status with
      ⟨-, hc⟩ | ⟨hrefused, -⟩
    · rw [hc]
      exact (serves_call _).2 ⟨_, db', hexec, (serves_done _).2 ⟨rfl, rfl⟩⟩
    · exact absurd admitted hrefused
  | @refused _ _ s present hrefused =>
    refine ⟨db, responds_found hid present ?_, rfl⟩
    unfold serveWrite
    rcases checkTransition_cases (P := P) valid (hdb.valid s (Db.mem_of_get? present)).status with
      ⟨hadmits, -⟩ | ⟨-, hc⟩
    · exact absurd hadmits hrefused
    · rw [hc]
      exact (serves_done _).2 ⟨rfl, rfl⟩
  | missing named absent =>
    cases named
    obtain ⟨x⟩ := exists_oracle_any P.mongo db
    refine ⟨db, (serves_call _).2 ⟨.ok (db.get? (hexValue id)), db,
      executes_findById_of (c := .findById id) ⟨x, rfl⟩ hid, ?_⟩, rfl⟩
    rw [show db.get? (hexValue id) = none from absent]
    exact (serves_done _).2 ⟨(errorHandler_notFound _).symm, rfl⟩

theorem step_responds (hdb : StoreInvariant db) {a : Arrival P} {p : Plan} (hplan : plan P a = .ok p)
    {o : Result Shipment ListAnswer} {st' : State ObjectId Shipment}
    (h : Step (shipmentKind P) db.registry p.call o st') :
    ∃ db', Responds P (serve P p) db (reply P p.call o) db' ∧ db'.registry = st' := by
  obtain ⟨x⟩ := exists_oracle_any P.mongo db
  cases plan_checked hplan with
  | list text query params route valid parsed =>
    obtain ⟨q, rfl⟩ := plan_list_query hplan
    cases h with
    | answered hanswer => exact ⟨db, list_complete hanswer, rfl⟩
    | missing named => cases named
  | get raw id route decoded valid =>
    have hread : Db.Executes P.mongo P.model (.findById id) db (.ok (db.get? (hexValue id))) db :=
      executes_findById_of (c := .findById id) ⟨x, rfl⟩ valid
    cases h with
    | @found _ s present =>
      refine ⟨db, (serves_call _).2 ⟨_, db, hread, (serves_done _).2 ⟨?_, rfl⟩⟩, rfl⟩
      rw [show db.get? (hexValue id) = some s from present]
      rfl
    | missing named absent =>
      cases named
      refine ⟨db, (serves_call _).2 ⟨_, db, hread, (serves_done _).2 ⟨?_, rfl⟩⟩, rfl⟩
      rw [show db.get? (hexValue id) = none from absent]
      exact (errorHandler_notFound _).symm
  | create o' data route parsed valid => exact create_complete valid h
  | update raw id o' data route decoded valid_id parsed valid => exact update_complete hdb valid_id valid h
  | delete raw id route decoded valid =>
    rcases hx : Db.delete db (hexValue id) with ⟨r, db'⟩
    have hexec : Db.Executes P.mongo P.model (.findByIdAndDelete id) db r db' := by
      refine ⟨x, ?_⟩
      simp only [Db.exec, P.model.castObjectId_hex id valid]
      exact hx
    cases h with
    | @removed _ s present =>
      rcases Db.delete_cases hx with ⟨-, hn, -⟩ | ⟨s', rfl, hdel⟩
      · exact absurd (hn.symm.trans present) (Option.some_ne_none _).symm
      · have hs' : s' = s := Option.some.inj (hdel.present.symm.trans present)
        subst hs'
        exact ⟨db', (serves_call _).2 ⟨_, db', hexec, (serves_done _).2 ⟨rfl, rfl⟩⟩, registry_deleted hdel⟩
    | missing named absent =>
      cases named
      rcases Db.delete_cases hx with ⟨rfl, -, rfl⟩ | ⟨s', -, hdel⟩
      · exact ⟨db', (serves_call _).2 ⟨_, db', hexec, (serves_done _).2 ⟨(errorHandler_notFound _).symm, rfl⟩⟩, rfl⟩
      · exact absurd (hdel.present.symm.trans absent) (Option.some_ne_none _)

/-- The code does what the registry permits. -/
theorem permits_of_responds (hdb : StoreInvariant db) {a : Arrival P} (h : Responds P (app P a) db response db') :
    Permits P db.registry a response db'.registry := by
  rw [app_eq] at h
  cases hplan : plan P a with
  | error e =>
    rw [hplan] at h
    obtain ⟨rfl, rfl⟩ := (serves_done _).1 h
    exact Permits.refused e hplan
  | ok p =>
    rw [hplan] at h
    obtain ⟨o, hstep, rfl⟩ := responds_step hdb hplan h
    exact Permits.accepted p o _ hplan hstep

/-- What the registry permits can occur. -/
theorem responds_of_permits (hdb : StoreInvariant db) {a : Arrival P} {st' : State ObjectId Shipment}
    (h : Permits P db.registry a response st') : ∃ db', Responds P (app P a) db response db' ∧ db'.registry = st' := by
  rw [app_eq]
  cases h with
  | refused e hplan =>
    rw [hplan]
    exact ⟨db, (serves_done _).2 ⟨rfl, rfl⟩, rfl⟩
  | accepted p o _ hplan hstep =>
    rw [hplan]
    exact step_responds hdb hplan hstep

/-- A request alone on a store may be answered with a response, leaving a store that stands for a registry, exactly when
the registry permits it. -/
theorem contract (hdb : StoreInvariant db) (a : Arrival P) (response : HttpResponse)
    (st' : State ObjectId Shipment) :
    (∃ db', Responds P (app P a) db response db' ∧ db'.registry = st') ↔ Permits P db.registry a response st' := by
  constructor
  · rintro ⟨db', h, rfl⟩
    exact permits_of_responds hdb h
  · exact responds_of_permits hdb

end Contract

theorem contract_deletion :
    (∃ db', Responds referencePlatform (app referencePlatform (deleteRequest 1)) (sampleStore .pending)
        (answer 200 "Shipment deleted successfully" (sampleShipment 1 .pending)) db' ∧
      db'.registry = (sampleStore .pending).registry.put 1 none) ∧
    Permits referencePlatform (sampleStore .pending).registry (deleteRequest 1)
      (answer 200 "Shipment deleted successfully" (sampleShipment 1 .pending))
      ((sampleStore .pending).registry.put 1 none) := by
  have hpermits : Permits referencePlatform (sampleStore .pending).registry (deleteRequest 1)
      (answer 200 "Shipment deleted successfully" (sampleShipment 1 .pending))
      ((sampleStore .pending).registry.put 1 none) :=
    Permits.accepted (.delete (objectIdToText 1)) (.removed (sampleShipment 1 .pending)) _ rfl
      (Step.removed (k := 1) rfl)
  exact ⟨(contract storeInvariant_sample (deleteRequest 1) _ _).2 hpermits, hpermits⟩

end ShipmentManager
