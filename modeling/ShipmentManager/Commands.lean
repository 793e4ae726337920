import ShipmentManager.Plan

/-!
# What the commands do

One lemma for each command says everything its execution can do: which answers it can give and which store each of them
leaves.  Reads leave the store as it is (`executes_read`); an insertion adds one document, an update changes one, a
deletion removes one, and a command that fails or finds nothing changes nothing (`insert_cases`, `update_cases`,
`delete_cases`).  On data that a validator let through, Mongoose accepts the document and the update
(`build_saveData`, `castUpdate_output`).
-/

namespace ShipmentManager

namespace Db

/-- The document with an identifier. -/
def get? (db : Db) (id : ObjectId) : Option Shipment := db.shipments.get? id

theorem mem_docs {db : Db} {s : Shipment} : s ∈ db.docs ↔ db.get? s._id = some s := by
  constructor
  · exact fun h => Collection.get?_of_mem h
  · exact fun h => Collection.mem_of_get? h

theorem id_of_get? {db : Db} {id : ObjectId} {s : Shipment} (h : db.get? id = some s) : s._id = id :=
  Collection.key_of_get? h

theorem mem_of_get? {db : Db} {id : ObjectId} {s : Shipment} (h : db.get? id = some s) : s ∈ db.docs :=
  Collection.mem_of_get? h

theorem issued_of_get? {db : Db} {id : ObjectId} {s : Shipment} (h : db.get? id = some s) : id ∈ db.issued :=
  id_of_get? h ▸ db.issued_of_mem s (mem_of_get? h)

/-- The store after the insertion of a document. -/
structure Inserted (db : Db) (s : Shipment) (db' : Db) : Prop where
  absent : db.get? s._id = none
  unique : ∀ d ∈ db.docs, d.trackingNumber ≠ s.trackingNumber
  docs : db'.docs = db.docs ++ [s]
  issued : db'.issued = s._id :: db.issued

/-- The store after an update of the document with an identifier. -/
structure Updated (db : Db) (id : ObjectId) (u : Update) (s : Shipment) (db' : Db) : Prop where
  present : db.get? id = some s
  unique : ∀ d ∈ db.docs, d._id ≠ id → d.trackingNumber ≠ (u.apply s).trackingNumber
  docs : db'.docs = db.docs.map fun d => if d._id = id then u.apply d else d
  issued : db'.issued = db.issued

/-- The store after the deletion of the document with an identifier. -/
structure Deleted (db : Db) (id : ObjectId) (s : Shipment) (db' : Db) : Prop where
  present : db.get? id = some s
  docs : db'.docs = db.docs.filter fun d => d._id ≠ id
  issued : db'.issued = db.issued

theorem insert_cases {db db' : Db} {s : Shipment} {r : Except JsError Shipment} (h : db.insert s = (r, db')) :
    (∃ field value, r = .error (duplicateKey field value) ∧ db' = db) ∨ (r = .ok s ∧ Inserted db s db') := by
  unfold insert at h
  split at h
  · cases h
    exact Or.inl ⟨_, _, rfl, rfl⟩
  · rename_i hu
    split at h
    · rename_i ha
      cases h
      refine Or.inr ⟨rfl, ha, ?_, rfl, rfl⟩
      intro d hd he
      exact hu (List.any_eq_true.2 ⟨d, hd, by simpa using he⟩)
    · cases h
      exact Or.inl ⟨_, _, rfl, rfl⟩

theorem update_cases {db db' : Db} {id : ObjectId} {u : Update} {r : Except JsError (Option Shipment)}
    (h : db.update id u = (r, db')) :
    (r = .ok none ∧ db.get? id = none ∧ db' = db) ∨
      (∃ s d, db.get? id = some s ∧ d ∈ db.docs ∧ d._id ≠ id ∧ d.trackingNumber = (u.apply s).trackingNumber ∧
        r = .error (duplicateKey "trackingNumber" (u.apply s).trackingNumber) ∧ db' = db) ∨
      ∃ s, r = .ok (some (u.apply s)) ∧ Updated db id u s db' := by
  unfold update at h
  split at h
  · rename_i hg
    cases h
    exact Or.inl ⟨rfl, hg, rfl⟩
  · rename_i s hg
    split at h
    · rename_i hu
      cases h
      obtain ⟨d, hd, he⟩ := List.any_eq_true.1 hu
      simp only [decide_eq_true_eq] at he
      exact Or.inr (Or.inl ⟨s, d, hg, hd, he.1, he.2, rfl, rfl⟩)
    · rename_i hu
      cases h
      refine Or.inr (Or.inr ⟨s, rfl, hg, ?_, rfl, rfl⟩)
      intro d hd hne he
      exact hu (List.any_eq_true.2 ⟨d, hd, by simpa using ⟨hne, he⟩⟩)

theorem delete_cases {db db' : Db} {id : ObjectId} {r : Except JsError (Option Shipment)}
    (h : db.delete id = (r, db')) :
    (r = .ok none ∧ db.get? id = none ∧ db' = db) ∨ ∃ s, r = .ok (some s) ∧ Deleted db id s db' := by
  unfold delete at h
  split at h
  · rename_i hg
    cases h
    exact Or.inl ⟨rfl, hg, rfl⟩
  · rename_i s hg
    cases h
    exact Or.inr ⟨s, rfl, hg, rfl, rfl⟩

theorem Inserted.get? {db db' : Db} {s : Shipment} (h : Inserted db s db') (id : ObjectId) :
    db'.get? id = if s._id = id then some s else db.get? id := by
  have ha : db.shipments.get? s._id = none := h.absent
  have e : db'.shipments = db.shipments.insert s ha := Collection.ext h.docs
  unfold Db.get?
  rw [e, Collection.get?_insert]

theorem Inserted.nodup_trackingNumber {db db' : Db} {s : Shipment} (h : Inserted db s db')
    (hdb : (db.docs.map Shipment.trackingNumber).Nodup) : (db'.docs.map Shipment.trackingNumber).Nodup := by
  rw [h.docs, List.map_append, List.nodup_append]
  refine ⟨hdb, List.nodup_singleton _, ?_⟩
  intro t ht t' ht' he
  obtain ⟨d, hd, rfl⟩ := List.mem_map.1 ht
  rw [List.map_singleton, List.mem_singleton] at ht'
  exact h.unique d hd (he.trans ht')

theorem Updated.get? {db db' : Db} {id : ObjectId} {u : Update} {s : Shipment} (h : Updated db id u s db')
    (id' : ObjectId) : db'.get? id' = if id = id' then some (u.apply s) else db.get? id' := by
  have e : db'.shipments = db.shipments.modify id u.apply u.apply_id := Collection.ext h.docs
  have hs : db.shipments.get? id = some s := h.present
  unfold Db.get?
  rw [e, Collection.get?_modify]
  by_cases hid : id = id'
  · subst hid
    rw [if_pos rfl, if_pos rfl, hs]
    rfl
  · rw [if_neg hid, if_neg hid]

theorem Deleted.get? {db db' : Db} {id : ObjectId} {s : Shipment} (h : Deleted db id s db') (id' : ObjectId) :
    db'.get? id' = if id = id' then none else db.get? id' := by
  have e : db'.shipments = db.shipments.erase id := Collection.ext h.docs
  unfold Db.get?
  rw [e, Collection.get?_erase]

end Db

/-- The commands that only read. -/
def Command.reads : Command → Bool
  | .save _ => false
  | .findById _ => true
  | .findOne _ => true
  | .find _ _ _ _ _ => true
  | .countDocuments _ => true
  | .findByIdAndUpdate _ _ => false
  | .findByIdAndDelete _ => false

variable {M : Mongo} {model : ShipmentModel}

theorem executes_read {c : Command} (hc : c.reads = true) {db db' : Db} {r : c.Answer}
    (h : Db.Executes M model c db r db') : db' = db := by
  obtain ⟨o, h⟩ := h
  cases c with
  | save _ => cases hc
  | findByIdAndUpdate _ _ => cases hc
  | findByIdAndDelete _ => cases hc
  | findById id =>
    simp only [Db.exec] at h
    split at h <;> cases h <;> rfl
  | findOne t =>
    cases h
    rfl
  | find q sortBy order skip limit =>
    simp only [Db.exec] at h
    split at h
    · cases h
      rfl
    · split at h <;> cases h <;> rfl
  | countDocuments q =>
    simp only [Db.exec] at h
    split at h <;> cases h <;> rfl

theorem executes_findById {id : Text} (hid : isObjectIdText id = true) {db db' : Db}
    {r : (Command.findById id).Answer} (h : Db.Executes M model (.findById id) db r db') :
    r = .ok (db.get? (hexValue id)) ∧ db' = db := by
  obtain ⟨o, h⟩ := h
  simp only [Db.exec, model.castObjectId_hex id hid] at h
  cases h
  exact ⟨rfl, rfl⟩

theorem executes_delete {id : Text} (hid : isObjectIdText id = true) {db db' : Db}
    {r : (Command.findByIdAndDelete id).Answer} (h : Db.Executes M model (.findByIdAndDelete id) db r db') :
    (r = .ok none ∧ db.get? (hexValue id) = none ∧ db' = db) ∨
      ∃ s, r = .ok (some s) ∧ Db.Deleted db (hexValue id) s db' := by
  obtain ⟨o, h⟩ := h
  simp only [Db.exec, model.castObjectId_hex id hid] at h
  exact Db.delete_cases h

theorem executes_find {q : Query} {path : Text} {order : SortOrder} {skip limit : Int} (hskip : 0 ≤ skip) {db db' : Db}
    {r : (Command.find q path order skip limit).Answer}
    (h : Db.Executes M model (.find q path order skip limit) db r db') :
    db' = db ∧ ((∃ e, q.error? M = some e ∧ r = .error e) ∨
      (q.error? M = none ∧ ∃ o : Oracle M db,
        r = .ok (slice (o.arrange path order (db.docs.filter fun s => q.matches M s)) skip limit))) := by
  obtain ⟨o, h⟩ := h
  simp only [Db.exec] at h
  split at h
  · rename_i e he
    cases h
    exact ⟨rfl, Or.inl ⟨e, he, rfl⟩⟩
  · rename_i he
    rw [if_neg (by omega)] at h
    cases h
    exact ⟨rfl, Or.inr ⟨he, o, rfl⟩⟩

theorem executes_count {q : Query} {db db' : Db} {r : (Command.countDocuments q).Answer}
    (h : Db.Executes M model (.countDocuments q) db r db') :
    db' = db ∧ ((∃ e, q.error? M = some e ∧ r = .error e) ∨
      (q.error? M = none ∧ r = .ok (Int.ofNat (db.docs.countP fun s => q.matches M s)))) := by
  obtain ⟨o, h⟩ := h
  simp only [Db.exec] at h
  split at h
  · rename_i e he
    cases h
    exact ⟨rfl, Or.inl ⟨e, he, rfl⟩⟩
  · rename_i he
    cases h
    exact ⟨rfl, Or.inr ⟨he, rfl⟩⟩

/-! ### Data that a validator let through -/

theorem mem_schema {path : String} {p : PathSchema} (h : (path, p) ∈ shipmentSchema) :
    (path = "trackingNumber" ∧ p = trackingNumberPath) ∨
      (∃ required label max, (path, max) ∈ textFields ∧ p = textPath required label max) ∨
        (path = "status" ∧ p = statusPath) := by
  simp only [shipmentSchema, List.mem_cons, Prod.mk.injEq, List.not_mem_nil, or_false] at h
  rcases h with ⟨rfl, rfl⟩ | ⟨rfl, rfl⟩ | ⟨rfl, rfl⟩ | ⟨rfl, rfl⟩ | ⟨rfl, rfl⟩ | ⟨rfl, rfl⟩
  · exact Or.inl ⟨rfl, rfl⟩
  · exact Or.inr (Or.inl ⟨_, _, 100, by simp [textFields], rfl⟩)
  · exact Or.inr (Or.inl ⟨_, _, 100, by simp [textFields], rfl⟩)
  · exact Or.inr (Or.inl ⟨_, _, 200, by simp [textFields], rfl⟩)
  · exact Or.inr (Or.inl ⟨_, _, 200, by simp [textFields], rfl⟩)
  · exact Or.inr (Or.inr ⟨rfl, rfl⟩)

theorem mem_schema_text {path : String} {max : Nat} (h : (path, max) ∈ textFields) :
    ∃ required label, (path, textPath required label max) ∈ shipmentSchema := by
  simp only [textFields, List.mem_cons, Prod.mk.injEq, List.not_mem_nil, or_false] at h
  rcases h with ⟨rfl, rfl⟩ | ⟨rfl, rfl⟩ | ⟨rfl, rfl⟩ | ⟨rfl, rfl⟩
  · exact ⟨"Sender name is required", "Sender name", by simp [shipmentSchema]⟩
  · exact ⟨"Receiver name is required", "Receiver name", by simp [shipmentSchema]⟩
  · exact ⟨"Origin address is required", "Origin address", by simp [shipmentSchema]⟩
  · exact ⟨"Destination address is required", "Destination address", by simp [shipmentSchema]⟩

/-- A text that the schemas of a body let through is stored as it is. -/
theorem textPath_of_fieldText {required label : String} {max : Nat} {t : Text} (h : FieldText max t) :
    (textPath required label max).cast t = t ∧ (textPath required label max).valid (some t) = true := by
  obtain ⟨ht, hmin, hmax⟩ := h
  have hne : t ≠ [] := by
    rintro rfl
    exact absurd hmin (by simp)
  refine ⟨ht, ?_⟩
  simp [PathSchema.valid, textPath, hne, hmin, hmax]

theorem statusPath_valid {t : Text} (h : t ∈ statusValues) : statusPath.valid (some t) = true := by
  have hne : t ≠ [] := by
    rintro rfl
    exact absurd h (by decide)
  simp [PathSchema.valid, statusPath, hne, h]

theorem truthy_status {t : Text} (h : t ∈ statusValues) : (JsValue.str t).truthy = true := by
  have hne : t ≠ [] := by
    rintro rfl
    exact absurd h (by decide)
  simp [JsValue.truthy, hne]

theorem trim_ne_nil {u : UInt16} {t : Text} (h : isWhiteSpace u = false) : trim (u :: t) ≠ [] := by
  unfold trim
  rw [List.dropWhile_cons_of_neg (by simp [h]), Ne, List.rdropWhile_eq_nil_iff]
  intro hall
  have := hall u (List.mem_cons_self ..)
  rw [h] at this
  cases this

theorem trim_trackingNumber (now : LocalDate) (random : Nat → Rat) :
    trim (generateTrackingNumber now random) ≠ [] := by
  show trim (83 :: _) ≠ []
  exact trim_ne_nil (by decide)

theorem get?_saveData (draws : Draws) (body : JsObject) (k : String) :
    Obj.get? (saveData draws body) k =
      if k = "trackingNumber" then some (.str (generateTrackingNumber draws.today draws.random))
      else if k = "status" then some (orElse (Obj.get? body "status") (.str ShipmentStatus.pending.value))
      else Obj.get? body k := by
  simp only [saveData, Obj.get?_set, eq_comm]

/-- The shipment that an accepted body asks for, before the database gives it an identifier. -/
structure FromBody (draws : Draws) (o : JsObject) (s : Shipment) : Prop where
  trackingNumber : s.trackingNumber = trim (generateTrackingNumber draws.today draws.random)
  text : ∀ f max, (f, max) ∈ textFields →
    ∃ t, Obj.get? o f = some (.str t) ∧ s.text? f = some (trim t) ∧ FieldText max (trim t)
  status : (Obj.get? o "status" = none ∧ s.status = ShipmentStatus.pending.value) ∨
    ∃ t ∈ statusValues, Obj.get? o "status" = some (.str t) ∧ s.status = t

/-- What the update of an accepted body sets. -/
structure BodyUpdate (o : JsObject) (u : Update) : Prop where
  trackingNumber : u.set "trackingNumber" = none
  createdAt : u.createdAt = none
  text : ∀ f max, (f, max) ∈ textFields → (Obj.get? o f = none ∧ u.set f = none) ∨
    ∃ t, Obj.get? o f = some (.str t) ∧ u.set f = some (trim t) ∧ FieldText max (trim t)
  status : (Obj.get? o "status" = none ∧ u.set "status" = none) ∨
    ∃ t ∈ statusValues, Obj.get? o "status" = some (.str t) ∧ u.set "status" = some t

/-- A path that is not in the schema is neither the tracking number nor a key of a body. -/
theorem not_bodyKey {path : String} (h : Obj.get? shipmentSchema path = none) :
    path ≠ "trackingNumber" ∧ path ∉ bodyKeys := by
  constructor
  · rintro rfl
    cases h
  · intro hk
    simp only [bodyKeys, List.mem_cons, List.not_mem_nil, or_false] at hk
    rcases hk with rfl | rfl | rfl | rfl | rfl <;> cases h

section Create

variable {draws : Draws} {o out : JsObject}

private theorem status_output (h : CreateOutput o out) : ∃ t ∈ statusValues, Obj.get? out "status" = some (.str t) := by
  rcases h.status with ⟨-, hs⟩ | ⟨t, ht, -, hs⟩
  · exact ⟨_, by decide, hs⟩
  · exact ⟨t, ht, hs⟩

private theorem initial_trackingNumber :
    trackingNumberPath.initial (saveData draws out) "trackingNumber" =
      some (trim (generateTrackingNumber draws.today draws.random)) := by
  rw [PathSchema.initial, PathSchema.given, get?_saveData, if_pos rfl]
  rfl

private theorem initial_text {f required label : String} {max : Nat} {t : Text} (hf : (f, max) ∈ textFields)
    (ht : Obj.get? out f = some (.str t)) (hft : FieldText max t) :
    (textPath required label max).initial (saveData draws out) f = some t := by
  have hne : f ≠ "trackingNumber" ∧ f ≠ "status" := by
    simp only [textFields, List.mem_cons, Prod.mk.injEq, List.not_mem_nil, or_false] at hf
    rcases hf with ⟨rfl, -⟩ | ⟨rfl, -⟩ | ⟨rfl, -⟩ | ⟨rfl, -⟩ <;> decide
  rw [PathSchema.initial, PathSchema.given, get?_saveData, if_neg hne.1, if_neg hne.2, ht]
  simp only [(textPath_of_fieldText hft).1, Option.some_or]

private theorem initial_status {t : Text} (hs : Obj.get? out "status" = some (.str t)) (ht : t ∈ statusValues) :
    statusPath.initial (saveData draws out) "status" = some t := by
  rw [PathSchema.initial, PathSchema.given, get?_saveData, if_neg (by decide), if_pos rfl, hs, orElse, if_pos
    (truthy_status ht)]
  rfl

private theorem allText_saveData (h : CreateOutput o out) : AllText (saveData draws out) where
  text := by
    intro path p hp v hv
    rw [get?_saveData] at hv
    rcases mem_schema hp with ⟨rfl, -⟩ | ⟨_, _, max, hf, -⟩ | ⟨rfl, -⟩
    · rw [if_pos rfl] at hv
      exact ⟨_, (Option.some.inj hv).symm⟩
    · obtain ⟨t, -, ht, -⟩ := h.text path max hf
      split at hv
      · exact ⟨_, (Option.some.inj hv).symm⟩
      · split at hv
        · obtain ⟨t, hts, hs⟩ := status_output h
          rw [hs, orElse, if_pos (truthy_status hts)] at hv
          exact ⟨_, (Option.some.inj hv).symm⟩
        · rw [ht] at hv
          exact ⟨_, (Option.some.inj hv).symm⟩
    · obtain ⟨t, hts, hs⟩ := status_output h
      rw [if_neg (by decide), if_pos rfl, hs, orElse, if_pos (truthy_status hts)] at hv
      exact ⟨_, (Option.some.inj hv).symm⟩
  other := by
    intro path hpath
    obtain ⟨htracking, hbody⟩ := not_bodyKey hpath
    have hstatus : path ≠ "status" := by
      rintro rfl
      exact hbody (by decide)
    rw [get?_saveData, if_neg htracking, if_neg hstatus, h.other path hbody]

variable (model draws) in
/-- Mongoose builds the document of an accepted body. -/
theorem build_saveData (h : CreateOutput o out) (id : ObjectId) (now : Int) :
    ∃ s, model.build (saveData draws out) id now = .ok s ∧ s._id = id ∧ s.createdAt = now ∧ s.updatedAt = now ∧
      FromBody draws o s := by
  have hall : AllText (saveData draws out) := allText_saveData h
  obtain ⟨st, hst, hs⟩ := status_output h
  have hvalid : ∀ path p, (path, p) ∈ shipmentSchema → p.valid (p.initial (saveData draws out) path) = true := by
    intro path p hp
    rcases mem_schema hp with ⟨rfl, rfl⟩ | ⟨_, _, max, hf, rfl⟩ | ⟨rfl, rfl⟩
    · rw [initial_trackingNumber]
      simp [PathSchema.valid, trackingNumberPath, trim_trackingNumber]
    · obtain ⟨t, -, ht, hft⟩ := h.text path max hf
      rw [initial_text hf ht hft]
      exact (textPath_of_fieldText hft).2
    · rw [initial_status hs hst]
      exact statusPath_valid hst
  obtain ⟨s, hok⟩ := (model.build_accepts _ id now hall).2 hvalid
  have htext := model.build_text _ id now s hall hok
  refine ⟨s, hok, model.build_id _ id now s hall hok, model.build_createdAt _ id now s hall hok,
    model.build_updatedAt _ id now s hall hok, ?_, ?_, ?_⟩
  · have := htext "trackingNumber" trackingNumberPath (by simp [shipmentSchema])
    rw [initial_trackingNumber] at this
    exact Option.some.inj this
  · intro f max hf
    obtain ⟨t, hto, ht, hft⟩ := h.text f max hf
    obtain ⟨required, label, hmem⟩ := mem_schema_text hf
    have := htext f _ hmem
    rw [initial_text hf ht hft] at this
    exact ⟨t, hto, this, hft⟩
  · have := htext "status" statusPath (by simp [shipmentSchema])
    rw [initial_status hs hst] at this
    have hstatus : s.status = st := Option.some.inj this
    rcases h.status with ⟨hn, hp⟩ | ⟨t, ht, ho, hp⟩
    · rw [hs] at hp
      cases hp
      exact Or.inl ⟨hn, hstatus⟩
    · rw [hs] at hp
      cases hp
      exact Or.inr ⟨_, ht, ho, hstatus⟩

end Create

section Update

variable {o out : JsObject}

private theorem given_text {f required label : String} {max : Nat} {t : Text} (ht : Obj.get? out f = some (.str t))
    (hft : FieldText max t) : (textPath required label max).given out f = some t := by
  rw [PathSchema.given, ht]
  simp only [(textPath_of_fieldText hft).1]

theorem given_missing {p : PathSchema} {f : String} (h : Obj.get? out f = none) : p.given out f = none := by
  rw [PathSchema.given, h]

variable (model) in
/-- Mongoose accepts the update of an accepted body. -/
theorem castUpdate_output (h : UpdateOutput o out) (now : Int) :
    ∃ u, model.castUpdate out now = .ok u ∧ u.updatedAt = now ∧ BodyUpdate o u := by
  have htn : Obj.get? out "trackingNumber" = none := h.other _ (by decide)
  have hall : AllText out := by
    refine ⟨fun path p hp v hv => ?_, fun path hpath => h.other path (not_bodyKey hpath).2⟩
    rcases mem_schema hp with ⟨rfl, -⟩ | ⟨_, _, max, hf, -⟩ | ⟨rfl, -⟩
    · rw [htn] at hv
      cases hv
    · rcases h.text path max hf with ⟨-, hn⟩ | ⟨t, -, ht, -⟩
      · rw [hn] at hv
        cases hv
      · rw [ht] at hv
        exact ⟨_, (Option.some.inj hv).symm⟩
    · rcases h.status with ⟨-, hn⟩ | ⟨t, -, -, ht⟩
      · rw [hn] at hv
        cases hv
      · rw [ht] at hv
        exact ⟨_, (Option.some.inj hv).symm⟩
  have hvalid : ∀ path p, (path, p) ∈ shipmentSchema → ∀ t, p.given out path = some t → p.valid (some t) = true := by
    intro path p hp t hg
    rcases mem_schema hp with ⟨rfl, rfl⟩ | ⟨_, _, max, hf, rfl⟩ | ⟨rfl, rfl⟩
    · rw [given_missing htn] at hg
      cases hg
    · rcases h.text path max hf with ⟨-, hn⟩ | ⟨t', -, ht, hft⟩
      · rw [given_missing hn] at hg
        cases hg
      · rw [given_text ht hft] at hg
        cases hg
        exact (textPath_of_fieldText hft).2
    · rcases h.status with ⟨-, hn⟩ | ⟨t', hts, -, ht⟩
      · rw [given_missing hn] at hg
        cases hg
      · rw [PathSchema.given, ht] at hg
        cases hg
        exact statusPath_valid hts
  obtain ⟨u, hok⟩ := (model.castUpdate_accepts out now hall).2 hvalid
  have hset := model.castUpdate_set out now u hall hok
  refine ⟨u, hok, model.castUpdate_updatedAt out now u hall hok, ?_,
    model.castUpdate_createdAt out now u hall hok, ?_, ?_⟩
  · rw [hset "trackingNumber" trackingNumberPath (by simp [shipmentSchema]), given_missing htn]
  · intro f max hf
    obtain ⟨required, label, hmem⟩ := mem_schema_text hf
    rw [hset f _ hmem]
    rcases h.text f max hf with ⟨hn, hn'⟩ | ⟨t, hto, ht, hft⟩
    · exact Or.inl ⟨hn, given_missing hn'⟩
    · exact Or.inr ⟨t, hto, given_text ht hft, hft⟩
  · rw [hset "status" statusPath (by simp [shipmentSchema])]
    rcases h.status with ⟨hn, hn'⟩ | ⟨t, hts, hto, ht⟩
    · exact Or.inl ⟨hn, given_missing hn'⟩
    · refine Or.inr ⟨t, hts, hto, ?_⟩
      rw [PathSchema.given, ht]
      rfl

end Update

/-- The document of an accepted body holds what the validator handed on. -/
theorem FromBody.text?_eq {draws : Draws} {o out : JsObject} {s : Shipment} (h : FromBody draws o s)
    (hout : CreateOutput o out) {f : String} (hf : f ∈ bodyKeys) : Obj.get? out f = (s.text? f).map .str := by
  rcases mem_bodyKeys hf with ⟨max, hmem⟩ | rfl
  · obtain ⟨t, ho, hd, -⟩ := hout.text f max hmem
    obtain ⟨t', ho', hs, -⟩ := h.text f max hmem
    rw [ho] at ho'
    cases ho'
    rw [hd, hs, Option.map_some]
  · have hstatus : s.text? "status" = some s.status := rfl
    rw [hstatus]
    rcases hout.status with ⟨ho, hd⟩ | ⟨t, -, ho, hd⟩
    · rcases h.status with ⟨-, hs⟩ | ⟨t', -, ho', -⟩
      · rw [hd, hs, Option.map_some]
      · rw [ho] at ho'
        cases ho'
    · rcases h.status with ⟨ho', -⟩ | ⟨t', -, ho', hs⟩
      · rw [ho] at ho'
        cases ho'
      · rw [ho] at ho'
        cases ho'
        rw [hd, hs, Option.map_some]

/-- The update of an accepted body sets what the validator handed on. -/
theorem BodyUpdate.set_eq {o out : JsObject} {u : Update} (h : BodyUpdate o u) (hout : UpdateOutput o out) {f : String}
    (hf : f ∈ bodyKeys) : Obj.get? out f = (u.set f).map .str := by
  rcases mem_bodyKeys hf with ⟨max, hmem⟩ | rfl
  · rcases hout.text f max hmem with ⟨ho, hd⟩ | ⟨t, ho, hd, -⟩
    · rcases h.text f max hmem with ⟨-, hu⟩ | ⟨t', ho', -⟩
      · rw [hd, hu, Option.map_none]
      · rw [ho] at ho'
        cases ho'
    · rcases h.text f max hmem with ⟨ho', -⟩ | ⟨t', ho', hu, -⟩
      · rw [ho] at ho'
        cases ho'
      · rw [ho] at ho'
        cases ho'
        rw [hd, hu, Option.map_some]
  · rcases hout.status with ⟨ho, hd⟩ | ⟨t, -, ho, hd⟩
    · rcases h.status with ⟨-, hu⟩ | ⟨t', -, ho', -⟩
      · rw [hd, hu, Option.map_none]
      · rw [ho] at ho'
        cases ho'
    · rcases h.status with ⟨ho', -⟩ | ⟨t', -, ho', hu⟩
      · rw [ho] at ho'
        cases ho'
      · rw [ho] at ho'
        cases ho'
        rw [hd, hu, Option.map_some]

/-- The data that an accepted body is saved with. -/
def CreateData (draws : Draws) (o data : JsObject) : Prop := ∃ out, CreateOutput o out ∧ data = saveData draws out

/-- Saving the data of an accepted body inserts the shipment it asks for, or the tracking number is taken. -/
theorem executes_save {data : JsObject} (h : ∃ draws o, CreateData draws o data) {db db' : Db}
    {r : (Command.save data).Answer} (hx : Db.Executes M model (.save data) db r db') :
    (∃ field value, r = .error (duplicateKey field value) ∧ db' = db) ∨
      ∃ s, r = .ok s ∧ s._id ∉ db.issued ∧ s.createdAt = s.updatedAt ∧
        (∀ draws o, CreateData draws o data → FromBody draws o s) ∧ Db.Inserted db s db' := by
  obtain ⟨x, hx⟩ := hx
  obtain ⟨draws, o, out, hout, rfl⟩ := h
  obtain ⟨s, hok, hid, hc, hu, -⟩ := build_saveData model draws hout x.newId x.now
  -- the document depends on the data alone, whichever body the data came from
  have hbody : ∀ draws' o', CreateData draws' o' (saveData draws out) → FromBody draws' o' s := by
    rintro draws' o' ⟨out', hout', he⟩
    obtain ⟨s', hok', -, -, -, hs'⟩ := build_saveData model draws' hout' x.newId x.now
    rw [← he, hok] at hok'
    cases hok'
    exact hs'
  simp only [Db.exec, hok] at hx
  rcases Db.insert_cases hx with hl | ⟨hr, hins⟩
  · exact Or.inl hl
  · exact Or.inr ⟨s, hr, hid ▸ x.newId_fresh, hc.trans hu.symm, hbody, hins⟩

/-- The update of an accepted body finds nothing, or is applied to the shipment with the identifier.  It leaves the
tracking number alone, so it can fail only where two documents shared one already. -/
theorem executes_update {id : Text} (hid : isObjectIdText id = true) {data : JsObject}
    (h : ∃ o, UpdateOutput o data) {db db' : Db} {r : (Command.findByIdAndUpdate id data).Answer}
    (hx : Db.Executes M model (.findByIdAndUpdate id data) db r db') :
    (r = .ok none ∧ db.get? (hexValue id) = none ∧ db' = db) ∨
      (∃ s d value, db.get? (hexValue id) = some s ∧ d ∈ db.docs ∧ d._id ≠ s._id ∧ d.trackingNumber = s.trackingNumber ∧
        r = .error (duplicateKey "trackingNumber" value) ∧ db' = db) ∨
      ∃ u s, (∀ o, UpdateOutput o data → BodyUpdate o u) ∧ r = .ok (some (u.apply s)) ∧
        Db.Updated db (hexValue id) u s db' := by
  obtain ⟨x, hx⟩ := hx
  obtain ⟨o, ho⟩ := h
  obtain ⟨u, hok, -, hu⟩ := castUpdate_output model ho x.now
  have hbody : ∀ o', UpdateOutput o' data → BodyUpdate o' u := by
    intro o' ho'
    obtain ⟨u', hok', -, hu'⟩ := castUpdate_output model ho' x.now
    rw [hok] at hok'
    cases hok'
    exact hu'
  simp only [Db.exec, model.castObjectId_hex id hid, hok] at hx
  rcases Db.update_cases hx with hl | ⟨s, d, hg, hd, hne, he, hr, hdb⟩ | ⟨s, hr, hup⟩
  · exact Or.inl hl
  · refine Or.inr (Or.inl ⟨s, d, _, hg, hd, Db.id_of_get? hg ▸ hne, ?_, hr, hdb⟩)
    rw [he]
    show (u.set "trackingNumber").getD s.trackingNumber = s.trackingNumber
    rw [hu.trackingNumber]
    rfl
  · exact Or.inr (Or.inr ⟨u, s, hbody, hr, hup⟩)

end ShipmentManager
