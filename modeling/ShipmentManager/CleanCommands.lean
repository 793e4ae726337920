import ShipmentManager.Queries
import ShipmentManager.Requests

/-!
# What reaches the database

Whatever a request carries (operators of the query language, nested objects, other keys than those of a shipment, texts
of any length) and whatever the database answers, a command is built from checked values only: an identifier is the 24
digits of the path, data is trimmed strings and one of the four statuses under the keys of a shipment, and a listing
asks by the known filters, sorts by an allowed field, and takes at most 100 documents (`commands_clean`).
-/

namespace ShipmentManager

open Interleaving ShipmentRepository

/-- A value that a body may give to a key of a shipment. -/
inductive CleanValue : String → JsValue → Prop where
  | text (f : String) (max : Nat) (t : Text) (hf : (f, max) ∈ textFields) (ht : FieldText max t) : CleanValue f (.str t)
  | status (t : Text) (ht : t ∈ statusValues) : CleanValue "status" (.str t)

/-- A condition that a listing may set. -/
inductive CleanCondition : String × Condition → Prop where
  | status (t : Text) (ht : t ∈ statusValues) : CleanCondition ("status", .eq t)
  | origin (t : Text) (ht : FilterText 200 t) : CleanCondition ("origin", .regex t)
  | destination (t : Text) (ht : FilterText 200 t) : CleanCondition ("destination", .regex t)
  | search (t : Text) (ht : FilterText 100 t) :
      CleanCondition ("$or", .or [("senderName", t), ("receiverName", t)])
  | createdAt (bounds : Obj JsDate) (hkeys : ∀ b ∈ bounds, b.1 = "$gte" ∨ b.1 = "$lte")
      (hvalid : ∀ b ∈ bounds, b.2.isSome = true) : CleanCondition ("createdAt", .range bounds)

/-- A query object with at most one condition of each kind. -/
structure CleanQuery (query : Query) : Prop where
  conditions : ∀ c ∈ query, CleanCondition c
  keys : (query.map Prod.fst).Nodup

variable (P : Platform)

/-- The identifier is the path parameter of the request, which is one. -/
structure FromPath (a : Arrival P) (id : Text) : Prop where
  param : ∃ raw, a.request.route.id? = some raw ∧ P.express.decodeParam raw = .ok id
  valid : isObjectIdText id = true

/-- The commands that a request may send. -/
inductive CleanCommand (a : Arrival P) : Command → Prop where
  | find (text : Text) (query : Query) (sortBy : Text) (order : SortOrder) (skip limit : Int)
      (route : a.request.route = .getAll text) (hquery : CleanQuery query) (hsort : sortBy ∈ sortFields)
      (hskip : 0 ≤ skip ∧ skip < 2 ^ 63) (hlimit : 1 ≤ limit ∧ limit ≤ 100) :
      CleanCommand a (.find query sortBy order skip limit)
  | count (text : Text) (query : Query) (route : a.request.route = .getAll text) (hquery : CleanQuery query) :
      CleanCommand a (.countDocuments query)
  | findById (id : Text) (hid : FromPath P a id) : CleanCommand a (.findById id)
  | save (data : JsObject) (route : a.request.route = .create)
      (hnumber : Obj.get? data "trackingNumber" = some (.str (generateTrackingNumber a.draws.today a.draws.random)))
      (hdata : ∀ k v, k ≠ "trackingNumber" → Obj.get? data k = some v → CleanValue k v) : CleanCommand a (.save data)
  | update (raw id : Text) (data : JsObject) (route : a.request.route = .update raw) (hid : FromPath P a id)
      (hdata : ∀ k v, Obj.get? data k = some v → CleanValue k v) : CleanCommand a (.findByIdAndUpdate id data)
  | delete (raw id : Text) (route : a.request.route = .delete raw) (hid : FromPath P a id) :
      CleanCommand a (.findByIdAndDelete id)

variable {P}

/-! ### Queries -/

private theorem of_mem_present {x : Option Text} {t : Text} (h : t ∈ (present x).toList) : t ∈ x := by
  rw [Option.mem_toList] at h
  exact (Option.filter_eq_some_iff.1 h).1

/-- An assignment adds at most its own entry. -/
private theorem mem_set {α : Type} {o : Obj α} {k : String} {v : α} {p : String × α} (h : p ∈ Obj.set o k v) :
    p = (k, v) ∨ p ∈ o := by
  induction o with
  | nil => exact Or.inl (List.mem_singleton.1 h)
  | cons q o ih =>
    rw [Obj.set] at h
    split at h
    · rcases List.mem_cons.1 h with rfl | h
      · exact Or.inl rfl
      · exact Or.inr (List.mem_cons_of_mem _ h)
    · rcases List.mem_cons.1 h with rfl | h
      · exact Or.inr (List.mem_cons_self ..)
      · rcases ih h with rfl | h
        · exact Or.inl rfl
        · exact Or.inr (List.mem_cons_of_mem _ h)

private theorem createdAtFilter_keys (E : Engine) (filters : ShipmentFilterParams) :
    ∀ b ∈ createdAtFilter E filters, b.1 = "$gte" ∨ b.1 = "$lte" := by
  have hnil : ∀ b ∈ ([] : Obj JsDate), b.1 = "$gte" ∨ b.1 = "$lte" := fun b hb => by cases hb
  -- each of the two dates makes one assignment, or none
  have hset : ∀ (set : Bool) (k : String) (d : JsDate) (bounds : Obj JsDate), (k = "$gte" ∨ k = "$lte") →
      (∀ b ∈ bounds, b.1 = "$gte" ∨ b.1 = "$lte") →
      ∀ b ∈ (if set then Obj.set bounds k d else bounds), b.1 = "$gte" ∨ b.1 = "$lte" := by
    intro set k d bounds hk hbounds b hb
    split at hb
    · rcases mem_set hb with rfl | hb
      · exact hk
      · exact hbounds b hb
    · exact hbounds b hb
  unfold createdAtFilter
  cases filters.startDate with
  | none =>
    cases filters.endDate with
    | none => exact hnil
    | some e => exact hset _ _ _ _ (Or.inr rfl) hnil
  | some s =>
    have hstart := hset s.truthy "$gte" (E.newDate s) [] (Or.inl rfl) hnil
    cases filters.endDate with
    | none => exact hstart
    | some e => exact hset _ _ _ _ (Or.inr rfl) hstart

private theorem filterConditions_keys (E : Engine) (filters : ShipmentFilterParams) :
    ((filterConditions E filters).map Prod.fst).Nodup := by
  have hone : ∀ (x : Option Text) (k : String) (f : Text → Condition),
      ((x.toList.map fun t => (k, f t)).map Prod.fst).Sublist [k] := by
    intro x k f
    cases x with
    | none => exact List.nil_sublist _
    | some t => exact List.Sublist.refl _
  have hdates : ∀ (b : Bool) (c : Condition),
      ((if b then [("createdAt", c)] else []).map Prod.fst).Sublist ["createdAt"] := by
    intro b c
    cases b with
    | false => exact List.nil_sublist _
    | true => exact List.Sublist.refl _
  -- each filter adds its own key
  have hkeys : ((filterConditions E filters).map Prod.fst).Sublist
      (["status"] ++ ["origin"] ++ ["destination"] ++ ["$or"] ++ ["createdAt"]) := by
    unfold filterConditions
    rw [List.map_append, List.map_append, List.map_append, List.map_append]
    exact ((((hone _ _ _).append (hone _ _ _)).append (hone _ _ _)).append (hone _ _ _)).append (hdates _ _)
  exact hkeys.nodup (by decide)

/-- The query of a validated listing. -/
theorem ListQuery.clean (q : ListQuery) : CleanQuery (listQuery P q.params) := by
  have heq : listQuery P q.params = filterConditions P.engine q.filters := buildQuery_eq P.engine q.filters
  refine ⟨fun c hc => ?_, ?_⟩
  · have hdates := q.datesValid (P := P)
    rw [Query.datesValid, List.all_eq_true] at hdates
    have hvalid := hdates c hc
    rw [heq, filterConditions, List.mem_append, List.mem_append, List.mem_append, List.mem_append] at hc
    rcases hc with (((hc | hc) | hc) | hc) | hc
    · obtain ⟨t, ht, rfl⟩ := List.mem_map.1 hc
      exact CleanCondition.status t (q.status_mem t (of_mem_present ht))
    · obtain ⟨t, ht, rfl⟩ := List.mem_map.1 hc
      exact CleanCondition.origin t (q.origin_text t (of_mem_present ht))
    · obtain ⟨t, ht, rfl⟩ := List.mem_map.1 hc
      exact CleanCondition.destination t (q.destination_text t (of_mem_present ht))
    · obtain ⟨t, ht, rfl⟩ := List.mem_map.1 hc
      exact CleanCondition.search t (q.search_text t (of_mem_present ht))
    · split at hc
      · rw [List.mem_singleton] at hc
        subst hc
        exact CleanCondition.createdAt _ (createdAtFilter_keys P.engine q.filters) (List.all_eq_true.1 hvalid)
      · cases hc
  · rw [heq]
    exact filterConditions_keys P.engine q.filters

/-! ### Data -/

/-- An object whose keys hold what a validator makes of them. -/
private theorem clean_of_keys {out : JsObject}
    (htext : ∀ f max, (f, max) ∈ textFields → ∀ v, Obj.get? out f = some v → ∃ t, v = .str t ∧ FieldText max t)
    (hstatus : ∀ v, Obj.get? out "status" = some v → ∃ t ∈ statusValues, v = .str t)
    (hother : ∀ k, k ∉ bodyKeys → Obj.get? out k = none) {k : String} {v : JsValue} (hv : Obj.get? out k = some v) :
    CleanValue k v := by
  by_cases hk : k ∈ bodyKeys
  · rcases mem_bodyKeys hk with ⟨max, hf⟩ | rfl
    · obtain ⟨t, rfl, ht⟩ := htext k max hf v hv
      exact CleanValue.text k max t hf ht
    · obtain ⟨t, ht, rfl⟩ := hstatus v hv
      exact CleanValue.status t ht
  · rw [hother k hk] at hv
    cases hv

private theorem clean_of_create {o out : JsObject} (h : CreateOutput o out) {k : String} {v : JsValue}
    (hv : Obj.get? out k = some v) : CleanValue k v := by
  refine clean_of_keys (fun f max hf v hv => ?_) (fun v hv => ?_) h.other hv
  · obtain ⟨s, -, hout, ht⟩ := h.text f max hf
    rw [hout] at hv
    cases hv
    exact ⟨_, rfl, ht⟩
  · rcases h.status with ⟨-, hout⟩ | ⟨t, ht, -, hout⟩
    all_goals
      rw [hout] at hv
      cases hv
    · exact ⟨_, by decide, rfl⟩
    · exact ⟨t, ht, rfl⟩

private theorem clean_of_update {o out : JsObject} (h : UpdateOutput o out) {k : String} {v : JsValue}
    (hv : Obj.get? out k = some v) : CleanValue k v := by
  refine clean_of_keys (fun f max hf v hv => ?_) (fun v hv => ?_) h.other hv
  · rcases h.text f max hf with ⟨-, hout⟩ | ⟨s, -, hout, ht⟩
    all_goals
      rw [hout] at hv
      cases hv
    exact ⟨_, rfl, ht⟩
  · rcases h.status with ⟨-, hout⟩ | ⟨t, ht, -, hout⟩
    all_goals
      rw [hout] at hv
      cases hv
    exact ⟨t, ht, rfl⟩

/-- The data of a creation is that of its body, with a status and the tracking number that was drawn. -/
private theorem clean_saveData {draws : Draws} {o out : JsObject} (h : CreateOutput o out) {k : String} {v : JsValue}
    (hk : k ≠ "trackingNumber") (hv : Obj.get? (saveData draws out) k = some v) : CleanValue k v := by
  rw [get?_saveData, if_neg hk] at hv
  split at hv
  · rename_i hstatus
    subst hstatus
    cases hv
    rcases h.status with ⟨-, hout⟩ | ⟨t, ht, -, hout⟩
    · rw [hout]
      exact CleanValue.status _ (by decide)
    · have htruthy : ∀ t ∈ statusValues, (JsValue.str t).truthy = true := by decide
      rw [hout, orElse, if_pos (htruthy t ht)]
      exact CleanValue.status t ht
  · exact clean_of_create h hv

/-! ### Requests -/

/-- Every command that a request sends is clean, whatever the database answers. -/
theorem app_clean (a : Arrival P) : (app P a).Only (CleanCommand P a) := by
  rw [app_eq]
  cases hp : plan P a with
  | error e => trivial
  | ok p =>
    have hchecked := plan_checked hp
    show (serve P p).Only (CleanCommand P a)
    cases hchecked with
    | list text query params route valid parsed =>
      obtain ⟨-, hrange, hreads⟩ := list_output valid
      rw [parseQueryParams_reads P.engine hreads] at parsed
      cases parsed
      have hquery := ListQuery.clean (P := P) (ListQuery.ofObject _ _ hrange)
      exact ⟨CleanCommand.find text _ _ _ _ _ route hquery (ListQuery.sortBy_mem_params _) (ListQuery.skip_bounds _)
        (ListQuery.pageSize_bounds _), CleanCommand.count text _ route hquery, fun _ _ => trivial⟩
    | get raw id route decoded valid =>
      exact ⟨CleanCommand.findById id ⟨⟨raw, by rw [route]; rfl, decoded⟩, valid⟩, fun _ => trivial⟩
    | create o data route parsed valid =>
      obtain ⟨out, hout, rfl⟩ := valid
      refine ⟨CleanCommand.save _ route ?_ fun k v hk hv => clean_saveData hout hk hv, fun _ => trivial⟩
      rw [get?_saveData, if_pos rfl]
    | update raw id o out route decoded valid_id parsed valid =>
      have hid : FromPath P a id := ⟨⟨raw, by rw [route]; rfl, decoded⟩, valid_id⟩
      refine ⟨CleanCommand.findById id hid, fun r => ?_⟩
      rcases r with e | _ | existing
      · trivial
      · trivial
      · show (serveWrite P id out existing).Only (CleanCommand P a)
        unfold serveWrite
        split
        · trivial
        · exact ⟨CleanCommand.update raw id out route hid fun k v hv => clean_of_update valid hv, fun _ => trivial⟩
    | delete raw id route decoded valid =>
      exact ⟨CleanCommand.delete raw id route ⟨⟨raw, by rw [route]; rfl, decoded⟩, valid⟩, fun _ => trivial⟩

/-- In every run, whatever executes the commands, every command that reaches the database is one that its request may
send: it holds nothing that has not been checked. -/
theorem commands_clean {S : Type} {exec : (c : Command) → S → c.Answer → S → Prop} {s : S}
    {w : World Command Command.Answer S (Arrival P) HttpResponse} (hw : Interleaving.Reachable exec (app P) s w)
    {i : Nat} {e : Event Command Command.Answer S} (he : (i, e) ∈ w.log) :
    ∃ t, w.tasks[i]? = some t ∧ CleanCommand P t.origin e.cmd := by
  obtain ⟨t, ht, hruns, hown⟩ := Interleaving.Reachable.task_of_mem hw he
  exact ⟨t, ht, (app_clean t.origin).runs hruns e hown⟩

/-- A `POST` whose body has a tracking number of its own. -/
theorem commands_clean_created : ∃ (w : ServerWorld referencePlatform) (e : DbEvent),
    Reachable referencePlatform Db.empty w ∧ (0, e) ∈ w.log ∧
      ∃ t, w.tasks[0]? = some t ∧ CleanCommand referencePlatform t.origin e.cmd := by
  obtain ⟨w, hw, hq⟩ := exists_run Db.empty [.arrive postRequest, .perform 0 false {}]
    (fun w => w.log[0]?.any fun p => p.1 = 0) (by decide +kernel)
  obtain ⟨⟨i, e⟩, hlog, hi⟩ := (Option.any_eq_true _ _).1 hq
  obtain rfl : i = 0 := of_decide_eq_true hi
  have he : (0, e) ∈ w.log := List.mem_of_getElem? hlog
  exact ⟨w, e, hw, he, commands_clean hw he⟩

end ShipmentManager
