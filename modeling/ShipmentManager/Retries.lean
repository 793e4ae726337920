import ShipmentManager.ConcurrentContract

/-!
# Repeated requests

A client that does not know whether its request was served sends it again.  On a store with the invariant the second
answer follows from the first one (`retry`): a failure is repeated, unless it was a tracking number that was taken; a
repeated `GET` is answered alike, and a repeated listing but for an exchange of shipments that its sort field does not
tell apart; a repeated `PUT` changes nothing but the time of the update, a repeated `DELETE` finds nothing, and a
repeated `POST` never answers with the same shipment.
-/

namespace ShipmentManager

open Interleaving Registry

variable {P : Platform}

/-! ### The plan of a repeated request -/

/-- What a request draws from its surroundings matters to a creation only. -/
theorem plan_retry {a a' : Arrival P} (h : a'.request = a.request) (hroute : a.request.route ≠ .create) :
    plan P a' = plan P a := by
  unfold plan
  rw [h]
  cases hr : a.request.route with
  | create => exact absurd hr hroute
  | getAll query => rfl
  | getById id => rfl
  | update id => rfl
  | delete id => rfl

variable (P) in
/-- The validated body of a creation. -/
def createBody (body : P.express.Body) : Except JsError JsObject := do
  let body ← parseBody P body
  let body ← validateRequest P createShipmentSchema body
  ShipmentService.checkStatus P (Obj.get? body "status")
  return body

private theorem plan_create {a : Arrival P} (hroute : a.request.route = .create) :
    plan P a = (createBody P a.request.body).map fun body => .create (saveData a.draws body) := by
  unfold plan createBody
  rw [hroute]
  cases parseBody P a.request.body with
  | error e => rfl
  | ok body =>
    simp only [planRoute, Bind.bind, Except.bind]
    cases validateRequest P createShipmentSchema body with
    | error e => rfl
    | ok body =>
      simp only
      cases ShipmentService.checkStatus P (Obj.get? body "status") with
      | error e => rfl
      | ok u => rfl

/-- A repeated creation saves the same data with another tracking number. -/
theorem plan_retry_create {a a' : Arrival P} (h : a'.request = a.request) (hroute : a.request.route = .create)
    {p : Plan} (hplan : plan P a = .ok p) :
    ∃ body, p = .create (saveData a.draws body) ∧ plan P a' = .ok (.create (saveData a'.draws body)) := by
  rw [plan_create hroute] at hplan
  rw [plan_create (h ▸ hroute), h]
  cases hbody : createBody P a.request.body with
  | error e =>
    rw [hbody] at hplan
    cases hplan
  | ok body =>
    rw [hbody] at hplan
    cases hplan
    exact ⟨body, rfl, rfl⟩

/-- What refuses a request refuses it again. -/
theorem plan_retry_error {a a' : Arrival P} (h : a'.request = a.request) {e : JsError} (hplan : plan P a = .error e) :
    plan P a' = .error e := by
  by_cases hroute : a.request.route = .create
  · rw [plan_create hroute] at hplan
    rw [plan_create (h ▸ hroute), h]
    cases hbody : createBody P a.request.body with
    | error e' =>
      rw [hbody] at hplan
      cases hplan
      rfl
    | ok body =>
      rw [hbody] at hplan
      cases hplan
  · exact (plan_retry h hroute).trans hplan

/-! ### The two answers -/

section Listings

variable (P) (st : State ObjectId Shipment) (params : QueryParams)

/-- The stored shipments that a listing matches. -/
def matched : Set Shipment :=
  {s | s ∈ st.values (shipmentKind P) ∧ (listQuery P params).matches P.mongo s = true}

/-- The sort field of a listing tells the shipments that it matches apart. -/
def SortSeparates : Prop :=
  ∀ s ∈ matched P st params, ∀ s' ∈ matched P st params, s.sortKey params.sortBy = s'.sortKey params.sortBy → s = s'

/-- Two listings of one store: the same number of all matches, and pages with the same sort keys in the same places,
which are equal where the sort field tells the matches apart. -/
inductive ListedAlike : HttpResponse → HttpResponse → Prop where
  | intro (page page' : List Shipment) (total : Nat)
      (keys : page'.map (fun s => s.sortKey params.sortBy) = page.map fun s => s.sortKey params.sortBy)
      (same : SortSeparates P st params → page' = page) :
      ListedAlike (reply P (.query params) (.answered (.ok (page, total))))
        (reply P (.query params) (.answered (.ok (page', total))))

end Listings

variable (P) in
/-- What the answer to a request says about the answer to the same request, sent again. -/
structure Retried (a : Arrival P) (response response' : HttpResponse) (st' st'' : State ObjectId Shipment) : Prop where
  failed : a.request.route ≠ .create → 400 ≤ response.status → response' = response ∧ st'' = st'
  /-- A creation fails again in the same way, or its first tracking number was taken. -/
  notCreated : a.request.route = .create → 400 ≤ response.status → response' = response ∧ st'' = st' ∨
    ∃ t, response = takenResponse t ∧ ((∃ t', response' = takenResponse t' ∧ st'' = st') ∨
      ∃ s, response' = answer 201 "Shipment created successfully" s ∧ s.trackingNumber ≠ t)
  fetched : ∀ raw, a.request.route = .getById raw → response.status < 400 → response' = response ∧ st'' = st'
  listed : ∀ query, a.request.route = .getAll query → response.status < 400 → st'' = st' ∧
    ∃ params, plan P a = .ok (.list params) ∧ ListedAlike P st' params response response'
  updated : ∀ raw, a.request.route = .update raw → response.status < 400 → ∃ s s',
    response = answer 200 "Shipment updated successfully" s ∧
      response' = answer 200 "Shipment updated successfully" s' ∧ s' = { s with updatedAt := s'.updatedAt } ∧
      st'' = st'.put s._id (some s')
  deleted : ∀ raw, a.request.route = .delete raw → response.status < 400 →
    response' = notFoundResponse ∧ st'' = st'
  created : a.request.route = .create → response.status < 400 → ∃ s,
    response = answer 201 "Shipment created successfully" s ∧
      ((∃ t, response' = takenResponse t ∧ st'' = st') ∨
        ∃ s', response' = answer 201 "Shipment created successfully" s' ∧
          s'._id ≠ s._id ∧ s'.trackingNumber ≠ s.trackingNumber)

/-- A call that fails has met a shipment that is not there or refuses the change, a tracking number that is taken, or a
query that the database rejects. -/
private theorem reply_failed {st st' : State ObjectId Shipment} {c : ShipmentCall} {o : Result Shipment ListAnswer}
    (h : Step (shipmentKind P) st c o st') (hfail : 400 ≤ (reply P c o).status) :
    (o = .missing ∨ ∃ s, o = .refused s) ∨ o = .taken ∨ ∃ e, o = .answered (.error e) := by
  have success : ∀ status : Nat, status < 400 → ¬ 400 ≤ status := fun _ h => Nat.not_le_of_lt h
  cases h with
  | created => exact absurd hfail (success 201 (by omega))
  | found => exact absurd hfail (success 200 (by omega))
  | changed => exact absurd hfail (success 200 (by omega))
  | removed => exact absurd hfail (success 200 (by omega))
  | taken => exact Or.inr (Or.inl rfl)
  | refused => exact Or.inl (Or.inr ⟨_, rfl⟩)
  | missing => exact Or.inl (Or.inl rfl)
  | @answered f a h =>
    rcases a with e | ⟨page, total⟩
    · exact Or.inr (Or.inr ⟨e, rfl⟩)
    · exact absurd hfail (success 200 (by omega))

/-- The status that a change has set is kept by the same change. -/
private theorem admits_again {s s' : Shipment} {change : String → Option Text}
    (h : (shipmentKind P).Changes s change s') : (shipmentKind P).Admits s' change := by
  intro t ht
  have hstatus : some s'.status = (change "status").or (some s.status) := h.2 "status" (by decide)
  rw [ht] at hstatus
  exact Or.inl (Option.some.inj hstatus).symm

/-- A change that is made twice gives the same texts. -/
private theorem changes_again {s s' s'' : Shipment} {change : String → Option Text}
    (h : (shipmentKind P).Changes s change s') (h' : (shipmentKind P).Changes s' change s'') :
    s'' = { s' with updatedAt := s''.updatedAt } := by
  refine Shipment.ext_text h'.1._id h'.1.trackingNumber (fun f hf => ?_) h'.1.createdAt rfl
  have hfirst := h.2 f hf
  have hsecond := h'.2 f hf
  have hsame : Shipment.text? { s' with updatedAt := s''.updatedAt } f = s'.text? f := by
    unfold Shipment.text?
    split <;> rfl
  rw [hsame, hsecond]
  cases hc : change f with
  | none => rfl
  | some t =>
    rw [hc] at hfirst
    exact hfirst.symm

private theorem raised_of_error? {M : Mongo} {q : Query} {e : JsError} (h : q.error? M = some e) : e.Raised := by
  intro a ha
  subst ha
  unfold Query.error? at h
  split at h
  · cases h
  · split at h
    · cases h
    · cases h

private theorem map_slice {α β : Type} (f : α → β) (l : List α) (skip limit : Int) :
    (slice l skip limit).map f = slice (l.map f) skip limit := by
  unfold slice
  split
  · rw [List.map_drop]
  · rw [List.map_take, List.map_drop]

variable {st st' st'' : State ObjectId Shipment} {a a' : Arrival P} {response response' : HttpResponse}

/-- Two pages of one listing. -/
private theorem listedAlike {params : QueryParams} {page page' : List Shipment} {total total' : Nat}
    (h : AnswersList P (st.values (shipmentKind P)) params (.ok (page, total)))
    (h' : AnswersList P (st.values (shipmentKind P)) params (.ok (page', total'))) :
    ListedAlike P st params (reply P (.query params) (.answered (.ok (page, total))))
      (reply P (.query params) (.answered (.ok (page', total')))) := by
  obtain ⟨-, found, arranged, hnodup, hfound, harr, rfl, rfl⟩ := h
  obtain ⟨-, found', arranged', hnodup', hfound', harr', rfl, rfl⟩ := h'
  have hperm : found'.Perm found :=
    (List.perm_ext_iff_of_nodup hnodup' hnodup).2 fun s => (hfound' s).trans (hfound s).symm
  have hagain : Arranged P.mongo params.sortBy params.order found arranged' :=
    ⟨harr'.perm.trans hperm, harr'.sorted⟩
  rw [hperm.length_eq]
  refine ListedAlike.intro _ _ _ ?_ fun hseparates => ?_
  · rw [map_slice, map_slice, hagain.map_key, harr.map_key]
  · rw [hagain.unique harr fun s hs s' hs' => hseparates s ((hfound s).1 hs) s' ((hfound s').1 hs')]

/-- A call that failed, and is no creation, fails again with the same response. -/
private theorem failed_again {c : ShipmentCall} {o o' : Result Shipment ListAnswer}
    (h : Step (shipmentKind P) st c o st') (hc : ∀ new, c ≠ .create new) (hfail : 400 ≤ (reply P c o).status)
    (h' : Step (shipmentKind P) st' c o' st'') : reply P c o' = reply P c o ∧ st'' = st' := by
  rcases reply_failed h hfail with ho | rfl | ⟨e, rfl⟩
  · obtain ⟨rfl, rfl⟩ := h.failed_again ho h'
    exact ⟨rfl, rfl⟩
  · cases h with
    | taken => exact absurd rfl (hc _)
  · cases h with
    | @answered f _ hanswer =>
      cases h' with
      | @answered _ a' hanswer' =>
        have he : (listQuery P f).error? P.mongo = some e := hanswer
        rcases a' with e' | ⟨page, total⟩
        · have he' : (listQuery P f).error? P.mongo = some e' := hanswer'
          rw [he] at he'
          cases he'
          exact ⟨rfl, rfl⟩
        · rw [hanswer'.1] at he
          cases he
      | missing named => cases named

/-- What a response of an accepted request comes from. -/
private theorem permits_of_ok {p : Plan} (hplan : plan P a = .ok p) (h : Permits P st a response st') :
    ∃ o, Step (shipmentKind P) st p.call o st' ∧ response = reply P p.call o := by
  cases h with
  | refused e he =>
    rw [hplan] at he
    cases he
  | accepted p' o _ hp hstep =>
    rw [hplan] at hp
    cases hp
    exact ⟨o, hstep, rfl⟩

private theorem permits_of_error {e : JsError} (hplan : plan P a = .error e) (h : Permits P st a response st') :
    response = errorHandler P.isProduction e ∧ st' = st := by
  cases h with
  | refused e' he =>
    rw [hplan] at he
    cases he
    exact ⟨rfl, rfl⟩
  | accepted p o _ hp hstep =>
    rw [hplan] at hp
    cases hp

/-- An update that succeeded changes nothing but the time of the update when it is repeated. -/
private theorem updated_again (hw : Wf (shipmentKind P) st) {id : ObjectId} {change : String → Option Text}
    {o o' : Result Shipment ListAnswer} (h : Step (shipmentKind P) st (.change id change) o st')
    (hok : (reply P (.change id change) o).status < 400)
    (h' : Step (shipmentKind P) st' (.change id change) o' st'') : ∃ s s',
      reply P (.change id change) o = answer 200 "Shipment updated successfully" s ∧
        reply P (.change id change) o' = answer 200 "Shipment updated successfully" s' ∧
        s' = { s with updatedAt := s'.updatedAt } ∧ st'' = st'.put s._id (some s') := by
  cases o with
  | changed s =>
    have hchanges : ∃ s₀, s₀._id = id ∧ (shipmentKind P).Changes s₀ change s := by
      cases h with
      | changed present admitted hc => exact ⟨_, hw.key _ _ present, hc⟩
    obtain ⟨s₀, rfl, hc⟩ := hchanges
    obtain ⟨s', rfl, hc', hst⟩ := h.change_again (admits_again hc) h'
    exact ⟨s, s', rfl, rfl, changes_again hc hc', by rw [hc.1._id]; exact hst⟩
  | refused s =>
    have hraised : (refusedTransition s.status ((change "status").getD [])).Raised := by
      rintro x hx
      cases hx
      exact .of_400 rfl
    have hge : 400 ≤ (reply P (.change id change) (.refused s)).status := errorHandler_ge hraised
    omega
  | missing => exact absurd hok (show ¬ 404 < 400 by omega)
  | created s => cases h
  | taken => cases h
  | found s => cases h
  | removed s => cases h
  | answered a => cases h

/-- A deletion that succeeded finds nothing when it is repeated. -/
private theorem deleted_again {id : ObjectId} {o o' : Result Shipment ListAnswer}
    (h : Step (shipmentKind P) st (.remove id) o st') (hok : (reply P (.remove id) o).status < 400)
    (h' : Step (shipmentKind P) st' (.remove id) o' st'') :
    reply P (.remove id) o' = notFoundResponse ∧ st'' = st' := by
  cases o with
  | removed s =>
    obtain ⟨rfl, rfl⟩ := h.remove_again h'
    exact ⟨rfl, rfl⟩
  | missing => exact absurd hok (show ¬ 404 < 400 by omega)
  | created s => cases h
  | taken => cases h
  | found s => cases h
  | changed s => cases h
  | refused s => cases h
  | answered a => cases h

/-- A shipment that was found is found again. -/
private theorem fetched_again {id : ObjectId} {o o' : Result Shipment ListAnswer}
    (h : Step (shipmentKind P) st (.read id) o st') (hok : (reply P (.read id) o).status < 400)
    (h' : Step (shipmentKind P) st' (.read id) o' st'') :
    reply P (.read id) o' = reply P (.read id) o ∧ st'' = st' := by
  cases o with
  | found s =>
    obtain ⟨rfl, rfl⟩ := h.read_again h'
    exact ⟨rfl, rfl⟩
  | missing => exact absurd hok (show ¬ 404 < 400 by omega)
  | created s => cases h
  | taken => cases h
  | removed s => cases h
  | changed s => cases h
  | refused s => cases h
  | answered a => cases h

/-- A listing that succeeded succeeds again. -/
private theorem listed_again {params : QueryParams} {o o' : Result Shipment ListAnswer}
    (h : Step (shipmentKind P) st (.query params) o st') (hok : (reply P (.query params) o).status < 400)
    (h' : Step (shipmentKind P) st' (.query params) o' st'') :
    st'' = st' ∧ ListedAlike P st' params (reply P (.query params) o) (reply P (.query params) o') := by
  cases o with
  | answered x =>
    obtain ⟨x', rfl, hx, hx', rfl⟩ := h.query_again h'
    refine ⟨rfl, ?_⟩
    rcases x with e | ⟨page, total⟩
    · have hge : 400 ≤ (reply P (.query params) (.answered (.error e))).status := errorHandler_ge (raised_of_error? hx)
      omega
    · rcases x' with e | ⟨page', total'⟩
      · have herr : (listQuery P params).error? P.mongo = some e := hx'
        rw [hx.1] at herr
        cases herr
      · exact listedAlike hx hx'
  | missing =>
    cases h with
    | missing named => cases named
  | found s => cases h
  | created s => cases h
  | taken => cases h
  | removed s => cases h
  | changed s => cases h
  | refused s => cases h

/-- A creation whose tracking number was taken creates a shipment with another one, or fails in the same way. -/
private theorem notCreated_again {new new' : NewShipment} {o o' : Result Shipment ListAnswer}
    (h : Step (shipmentKind P) st (.create new) o st') (hfail : 400 ≤ (reply P (.create new) o).status)
    (h' : Step (shipmentKind P) st' (.create new') o' st'') : ∃ t, reply P (.create new) o = takenResponse t ∧
      ((∃ t', reply P (.create new') o' = takenResponse t' ∧ st'' = st') ∨
        ∃ s, reply P (.create new') o' = answer 201 "Shipment created successfully" s ∧ s.trackingNumber ≠ t) := by
  cases o with
  | taken =>
    refine ⟨new.trackingNumber, rfl, ?_⟩
    rcases h.taken_again h' with ⟨rfl, hst⟩ | ⟨s, s', rfl, hmakes, htaken, hfree⟩
    · exact Or.inl ⟨_, rfl, hst⟩
    · refine Or.inr ⟨s', rfl, fun heq => hfree ?_⟩
      exact (show s.trackingNumber = new.trackingNumber from htaken).trans (heq.symm.trans hmakes.1)
  | created s => exact absurd hfail (show ¬ 400 ≤ 201 by omega)
  | missing =>
    cases h with
    | missing named => cases named
  | found s => cases h
  | removed s => cases h
  | changed s => cases h
  | refused s => cases h
  | answered a => cases h

/-- A creation that succeeded creates another shipment when it is repeated, or its new tracking number is taken. -/
private theorem created_again {new new' : NewShipment} {o o' : Result Shipment ListAnswer}
    (h : Step (shipmentKind P) st (.create new) o st') (hok : (reply P (.create new) o).status < 400)
    (h' : Step (shipmentKind P) st' (.create new') o' st'') : ∃ s,
      reply P (.create new) o = answer 201 "Shipment created successfully" s ∧
        ((∃ t, reply P (.create new') o' = takenResponse t ∧ st'' = st') ∨
          ∃ s', reply P (.create new') o' = answer 201 "Shipment created successfully" s' ∧ s'._id ≠ s._id ∧
            s'.trackingNumber ≠ s.trackingNumber) := by
  cases o with
  | created s =>
    refine ⟨s, rfl, ?_⟩
    rcases h.create_again h' with ⟨rfl, hst⟩ | ⟨s', rfl, hmakes, hkey, htaken⟩
    · exact Or.inl ⟨_, rfl, hst⟩
    · exact Or.inr ⟨s', rfl, hkey, fun heq => htaken (heq.symm.trans hmakes.1)⟩
  | taken => exact absurd hok (show ¬ 409 < 400 by omega)
  | found s => cases h
  | changed s => cases h
  | refused s => cases h
  | removed s => cases h
  | answered a => cases h
  | missing =>
    cases h with
    | missing named => cases named

/-- The registry's answer to a repeated request. -/
theorem Permits.retried (hw : Wf (shipmentKind P) st) (h : Permits P st a response st') (hsame : a'.request = a.request)
    (h' : Permits P st' a' response' st'') : Retried P a response response' st' st'' := by
  cases hplan : plan P a with
  | error e =>
    obtain ⟨rfl, rfl⟩ := permits_of_error hplan h
    have hstatus := errorHandler_ge (b := P.isProduction) (plan_refused hplan).raised
    have hagain := permits_of_error (plan_retry_error hsame hplan) h'
    refine ⟨fun _ _ => hagain, fun _ _ => Or.inl hagain, fun _ _ hok => ?_, fun _ _ hok => ?_, fun _ _ hok => ?_,
      fun _ _ hok => ?_, fun _ hok => ?_⟩
    all_goals omega
  | ok p =>
    obtain ⟨o, hstep, rfl⟩ := permits_of_ok hplan h
    have again : a.request.route ≠ .create → ∃ o', Step (shipmentKind P) st' p.call o' st'' ∧
        response' = reply P p.call o' := fun hroute => permits_of_ok ((plan_retry hsame hroute).trans hplan) h'
    have created : a.request.route = .create → ∃ data data' o', p = .create data ∧
        Step (shipmentKind P) st' (Plan.create data').call o' st'' ∧
          response' = reply P (Plan.create data').call o' := by
      intro hroute
      obtain ⟨body, rfl, hplan'⟩ := plan_retry_create hsame hroute hplan
      obtain ⟨o', hstep', rfl⟩ := permits_of_ok hplan' h'
      exact ⟨_, _, o', rfl, hstep', rfl⟩
    refine ⟨fun hroute hfail => ?_, fun hroute hfail => ?_, fun raw hroute hok => ?_, fun query hroute hok => ?_,
      fun raw hroute hok => ?_, fun raw hroute hok => ?_, fun hroute hok => ?_⟩
    · obtain ⟨o', hstep', rfl⟩ := again hroute
      refine failed_again hstep (fun new hnew => ?_) hfail hstep'
      cases plan_checked hplan with
      | create _ _ route => exact hroute route
      | _ => cases hnew
    · obtain ⟨data, data', o', rfl, hstep', rfl⟩ := created hroute
      exact Or.inr (notCreated_again hstep hfail hstep')
    · obtain ⟨o', hstep', rfl⟩ := again (by rw [hroute]; nofun)
      cases planOf hplan hroute with
      | get raw id => exact fetched_again hstep hok hstep'
    · obtain ⟨o', hstep', rfl⟩ := again (by rw [hroute]; nofun)
      cases planOf hplan hroute with
      | list query params =>
        obtain ⟨hst, halike⟩ := listed_again hstep hok hstep'
        exact ⟨hst, params, hplan, halike⟩
    · obtain ⟨o', hstep', rfl⟩ := again (by rw [hroute]; nofun)
      cases planOf hplan hroute with
      | update raw id data => exact updated_again hw hstep hok hstep'
    · obtain ⟨o', hstep', rfl⟩ := again (by rw [hroute]; nofun)
      cases planOf hplan hroute with
      | delete raw id => exact deleted_again hstep hok hstep'
    · obtain ⟨data, data', o', rfl, hstep', rfl⟩ := created hroute
      exact created_again hstep hok hstep'

/-- On a store with the invariant, a request that is sent again is answered as its first answer says, and leaves what
it left. -/
theorem retry {db db' db'' : Db} (hdb : StoreInvariant db) (hsame : a'.request = a.request)
    (h : Responds P (app P a) db response db') (h' : Responds P (app P a') db' response' db'') :
    Retried P a response response' db'.registry db''.registry := by
  have hdb' := storeInvariant_of_responds h hdb
  exact (permits_of_responds hdb h).retried (db.wf_registry P) hsame (permits_of_responds hdb' h')

theorem retry_deletion : ∃ (db' db'' : Db) (response response' : HttpResponse), response.status = 200 ∧
    Responds referencePlatform (app referencePlatform (deleteRequest 1)) (sampleStore .pending) response db' ∧
      Responds referencePlatform (app referencePlatform (deleteRequest 1)) db' response' db'' ∧
      Retried referencePlatform (deleteRequest 1) response response' db'.registry db''.registry := by
  have hpermits : Permits referencePlatform (sampleStore .pending).registry (deleteRequest 1)
      (answer 200 "Shipment deleted successfully" (sampleShipment 1 .pending))
      ((sampleStore .pending).registry.put 1 none) :=
    Permits.accepted (.delete (objectIdToText 1)) (.removed (sampleShipment 1 .pending)) _ rfl
      (Step.removed (k := 1) rfl)
  obtain ⟨db', h, -⟩ := responds_of_permits storeInvariant_sample hpermits
  obtain ⟨response', db'', h'⟩ := exists_serves (Db.Executes referencePlatform.mongo referencePlatform.model)
    (fun c db => ⟨_, _, Choice.executes {} c db⟩) (app referencePlatform (deleteRequest 1)) db'
  exact ⟨db', db'', _, response', rfl, h, h', retry storeInvariant_sample rfl h h'⟩

end ShipmentManager
