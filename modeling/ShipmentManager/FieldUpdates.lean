import ShipmentManager.Atomicity
import ShipmentManager.Lib.LastWrite

/-!
# The fields of a shipment under concurrent updates

A committed update writes the fields that its validated body names and no other (`Effect.field`): nothing that was read
earlier is written back.  So whatever the order of the steps of any number of updates, a field has at the end the value
of the last committed write that names it (`no_lost_field_updates`).
-/

namespace ShipmentManager

open Interleaving

/-- The text that a validated body gives to a field. -/
def givenText (data : JsObject) (field : String) : Option Text :=
  match Obj.get? data field with
  | some (.str t) => some t
  | _ => none

/-- The validated body of a step that committed an update of the shipment. -/
def committedBody (id : ObjectId) : (c : Command) → c.Answer → Option JsObject
  | .findByIdAndUpdate text data, .ok (some _) => if hexValue text = id then some data else none
  | _, _ => none

/-- The value of a field of the stored shipment. -/
def Db.field? (db : Db) (id : ObjectId) (field : String) : Option Text := (db.get? id).bind fun s => s.text? field

/-- An update sets a field to what the validated body gives to it. -/
theorem set_of_body {o data : JsObject} {u : Update} (hout : UpdateOutput o data) (hb : BodyUpdate o u) {f : String}
    (hf : f ∈ bodyKeys) : u.set f = givenText data f := by
  unfold givenText
  rw [hb.set_eq hout hf]
  cases u.set f <;> rfl

theorem text?_isSome (s : Shipment) {f : String} (hf : f ∈ bodyKeys) : ∃ t, s.text? f = some t := by
  simp only [bodyKeys, List.mem_cons, List.not_mem_nil, or_false] at hf
  rcases hf with rfl | rfl | rfl | rfl | rfl <;> exact ⟨_, rfl⟩

/-- What one step makes of a field of a shipment that is there before and after it. -/
theorem Effect.field {c : Command} {r : c.Answer} {db db' : Db} (h : Effect c r db db') {id : ObjectId}
    (before : db.get? id ≠ none) (after : db'.get? id ≠ none) {f : String} (hf : f ∈ bodyKeys) :
    db'.field? id f = ((committedBody id c r).bind fun data => givenText data f).or (db.field? id f) := by
  obtain ⟨x, hx⟩ := Option.ne_none_iff_exists'.1 before
  unfold Db.field?
  cases h with
  | inserted data s _ _ fresh times sent body hi =>
    have hne : s._id ≠ id := by
      rintro rfl
      exact fresh (Db.issued_of_get? hx)
    rw [hi.get?, if_neg hne]
    rfl
  | updated text data u s _ _ sent body hu =>
    rw [hu.get?]
    by_cases hid : hexValue text = id
    · subst hid
      obtain ⟨o, ho⟩ := sent
      obtain ⟨t, ht⟩ := text?_isSome s hf
      have hset := set_of_body ho (body o ho) hf
      simp only [committedBody, ↓reduceIte, Option.bind_some, hu.present, Update.text?_apply, ht, Option.map_some, hset]
      cases givenText data f <;> rfl
    · simp only [committedBody, hid, ↓reduceIte, Option.bind_none, Option.none_or]
  | deleted text s _ _ hd =>
    have hne : hexValue text ≠ id := by
      rintro rfl
      rw [hd.get?, if_pos rfl] at after
      exact after rfl
    rw [hd.get?, if_neg hne]
    rfl
  | _ => rfl

/-- A shipment that a step does not delete is still there after it. -/
theorem Effect.present {c : Command} {r : c.Answer} {db db' : Db} (h : Effect c r db db') {id : ObjectId}
    (before : db.get? id ≠ none) (kept : ¬ Deletes c r id) : db'.get? id ≠ none := by
  cases h with
  | inserted data s _ _ fresh times sent body hi =>
    rw [hi.get?]
    split
    · exact Option.some_ne_none s
    · exact before
  | updated text data u s _ _ sent body hu =>
    rw [hu.get?]
    split
    · exact Option.some_ne_none _
    · exact before
  | deleted text s _ _ hd =>
    have hid : s._id = hexValue text := Db.id_of_get? hd.present
    have hne : hexValue text ≠ id := fun h => kept (hid.trans h)
    rw [hd.get?, if_neg hne]
    exact before
  | _ => exact before

section Run

variable {P : Platform} {db : Db} {w : ServerWorld P} {id : ObjectId}

/-- The committed updates of the shipment in the order of their writes: the request and its validated body. -/
def writesTo (w : ServerWorld P) (id : ObjectId) : List (Nat × JsObject) :=
  w.log.filterMap fun p => (committedBody id p.2.cmd p.2.answer).map fun data => (p.1, data)

/-- The validated bodies of the committed updates of the shipment, in the order of their writes. -/
def writtenBodies (w : ServerWorld P) (id : ObjectId) : List JsObject := (writesTo w id).map Prod.snd

/-- The request `i` is a `PUT` on the shipment with the validated body `data`, and was answered with success. -/
def SuccessfulPut (w : ServerWorld P) (id : ObjectId) (i : Nat) (data : JsObject) : Prop :=
  ∃ t text response, w.tasks[i]? = some t ∧ plan P t.origin = .ok (.update text data) ∧ hexValue text = id ∧
    t.prog = .done response ∧ response.status < 400

/-- No step deletes the shipment. -/
def NeverDeleted (w : ServerWorld P) (id : ObjectId) : Prop := ∀ e ∈ w.events, ¬ Deletes e.cmd e.answer id

/-- No two successful requests name the same field. -/
def DisjointFields (w : ServerWorld P) (id : ObjectId) : Prop :=
  ∀ i j data data', i ≠ j → SuccessfulPut w id i data → SuccessfulPut w id j data' →
    ∀ f ∈ bodyKeys, givenText data f = none ∨ givenText data' f = none

private theorem committedBody_eq_some {e : DbEvent} {data : JsObject}
    (h : committedBody id e.cmd e.answer = some data) :
    ∃ text s before after, hexValue text = id ∧ e = ⟨.findByIdAndUpdate text data, .ok (some s), before, after⟩ := by
  obtain ⟨c, r, before, after⟩ := e
  cases c with
  | findByIdAndUpdate text data' =>
    rcases r with e | _ | s
    · cases h
    · cases h
    · by_cases hid : hexValue text = id
      · simp only [committedBody, hid, ↓reduceIte, Option.some.injEq] at h
        subst h
        exact ⟨text, s, before, after, hid, rfl⟩
      · simp [committedBody, hid] at h
  | _ => cases h

private theorem mem_writesTo {i : Nat} {data : JsObject} : (i, data) ∈ writesTo w id ↔
    ∃ text s before after, hexValue text = id ∧
      (i, (⟨.findByIdAndUpdate text data, .ok (some s), before, after⟩ : DbEvent)) ∈ w.log := by
  unfold writesTo
  rw [List.mem_filterMap]
  constructor
  · rintro ⟨⟨j, e⟩, hlog, h⟩
    obtain ⟨data', hbody, heq⟩ := Option.map_eq_some_iff.1 h
    cases heq
    obtain ⟨text, s, before, after, hid, rfl⟩ := committedBody_eq_some hbody
    exact ⟨text, s, before, after, hid, hlog⟩
  · rintro ⟨text, s, before, after, hid, hlog⟩
    exact ⟨_, hlog, by simp only [committedBody, hid, ↓reduceIte, Option.map_some]⟩

/-- A request whose update is committed is answered with success. -/
private theorem successful_of_committed (hw : Reachable P db w) {i : Nat} {data : JsObject}
    (h : (i, data) ∈ writesTo w id) : SuccessfulPut w id i data := by
  obtain ⟨text, s, before, after, hid, hlog⟩ := mem_writesTo.1 h
  obtain ⟨t, p, ht, hplan, -, -, hstep⟩ := Reachable.task_step hw hlog
  generalize hq : t.prog = q at hstep
  cases hstep with
  | write => exact ⟨t, text, _, ht, hplan, hid, hq, by show 200 < 400; omega⟩

/-- A successful request has written once. -/
private theorem writeCount_of_successful (hw : Reachable P db w) {i : Nat} {data : JsObject}
    (h : SuccessfulPut w id i data) : writeCount (w.own i) = 1 := by
  obtain ⟨t, text, response, ht, hplan, -, hdone, hok⟩ := h
  have hruns := (Interleaving.Reachable.sound hw).runs i t ht
  rw [app_eq, hplan] at hruns
  cases plan_checked hplan with
  | update raw _ o _ route decoded valid_id parsed valid =>
    have hall := update_steps route decoded parsed valid hruns (Reachable.effects hw i)
    refine (hall.succeeded response hdone ?_).1 hok
    rw [route]
    trivial

/-- The update of a request that is answered with success is committed. -/
private theorem committed_of_successful (hw : Reachable P db w) {i : Nat} {data : JsObject}
    (h : SuccessfulPut w id i data) : (i, data) ∈ writesTo w id := by
  have hone := writeCount_of_successful hw h
  obtain ⟨t, text, response, ht, hplan, hid, hdone, hok⟩ := h
  have hruns := (Interleaving.Reachable.sound hw).runs i t ht
  rw [app_eq, hplan] at hruns
  replace hruns : Prog.Runs (serve P (.update text data)) (w.own i) t.prog := hruns
  obtain ⟨⟨c, r, before, after⟩, he, hwrite⟩ := List.countP_pos_iff.1 (hone ▸ Nat.one_pos)
  have hstep := own_step hruns he
  generalize t.prog = q at hstep
  cases hstep with
  | readFailed => cases hwrite
  | readMissing => cases hwrite
  | readFound => cases hwrite
  | write _ _ r =>
    rcases r with e | _ | s
    · cases hwrite
    · cases hwrite
    · exact mem_writesTo.2 ⟨text, s, before, after, hid, World.mem_own.1 he⟩

private theorem mem_writesTo_iff (hw : Reachable P db w) {i : Nat} {data : JsObject} :
    (i, data) ∈ writesTo w id ↔ SuccessfulPut w id i data :=
  ⟨successful_of_committed hw, committed_of_successful hw⟩

/-- No request has two committed updates. -/
private theorem nodup_writesTo (hw : Reachable P db w) : ((writesTo w id).map Prod.fst).Nodup := by
  rw [List.nodup_iff_count_le_one]
  intro i
  by_cases hi : i ∈ (writesTo w id).map Prod.fst
  · obtain ⟨⟨j, data⟩, hmem, rfl⟩ := List.mem_map.1 hi
    have hone := writeCount_of_successful hw (successful_of_committed hw hmem)
    refine le_trans ?_ hone.le
    unfold writeCount World.own ownEvents writesTo
    rw [List.count_eq_countP, List.countP_map, List.countP_filterMap, List.countP_map, List.countP_filter]
    refine List.countP_mono_left fun p _ h => ?_
    obtain ⟨k, e⟩ := p
    cases hbody : committedBody id e.cmd e.answer with
    | none => simp [hbody] at h
    | some data' =>
      obtain ⟨text, s, before, after, -, rfl⟩ := committedBody_eq_some hbody
      simpa [hbody, isWrite] using h
  · rw [List.count_eq_zero_of_not_mem hi]
    omega

private theorem exclusive_of_disjoint (hw : Reachable P db w) (h : DisjointFields w id) {f : String}
    (hf : f ∈ bodyKeys) : LastWrite.Exclusive givenText (writtenBodies w id) f := by
  have hnodup : ((writesTo w id).map Prod.fst).Nodup := nodup_writesTo hw
  have hpair := List.pairwise_map.1 hnodup
  refine List.pairwise_map.2 (hpair.imp_of_mem fun {a b} ha hb hab => ?_)
  exact h a.1 b.1 a.2 b.2 hab (successful_of_committed hw ha) (successful_of_committed hw hb) f hf

/-- The shipment is there all along. -/
private theorem present_throughout (hw : Reachable P db w) (initial : db.get? id ≠ none) (kept : NeverDeleted w id)
    (n : Nat) : (stateAt db w.events n).get? id ≠ none := by
  have hchain := (Interleaving.Reachable.sound hw).chained
  refine hchain.invariant (fun db => db.get? id ≠ none) (fun e he h => ?_) initial n
  exact (Reachable.effect hw he).present h (kept e he)

/-- At the end a field has the value that was written last. -/
private theorem field_at_end (hw : Reachable P db w) (initial : db.get? id ≠ none) (kept : NeverDeleted w id)
    {f : String} (hf : f ∈ bodyKeys) :
    w.store.field? id f = (LastWrite.last givenText (writtenBodies w id) f).or (db.field? id f) := by
  have hchain := (Interleaving.Reachable.sound hw).chained
  have hstep : ∀ e ∈ w.events, e.after.field? id f =
      ((committedBody id e.cmd e.answer).bind fun data => givenText data f).or (e.before.field? id f) := by
    intro e he
    obtain ⟨n, hn, rfl⟩ := List.getElem_of_mem he
    obtain ⟨hbefore, hafter⟩ := hchain.stateAt_getElem (List.getElem?_eq_getElem hn)
    have hpresent := present_throughout hw initial kept
    exact (Reachable.effect hw he).field (hbefore ▸ hpresent n) (hafter ▸ hpresent (n + 1)) hf
  rw [hchain.last_write (fun db => db.field? id f) _ hstep]
  unfold LastWrite.last writtenBodies writesTo World.events
  rw [List.filterMap_map, List.filterMap_map, List.filterMap_filterMap]
  congr 3
  funext p
  cases hbody : committedBody id p.2.cmd p.2.answer with
  | none => simp [hbody]
  | some data => simp [hbody]

/-- The committed updates of a shipment are those of the successful requests, one each, and each field has the value of
the last one that names it. -/
structure LastWritesKept (w : ServerWorld P) (id : ObjectId) (s₀ s : Shipment) : Prop where
  committed : ∀ i data, (i, data) ∈ writesTo w id ↔ SuccessfulPut w id i data
  once : ((writesTo w id).map Prod.fst).Nodup
  field : ∀ f ∈ bodyKeys, s.text? f = (LastWrite.last givenText (writtenBodies w id) f).or (s₀.text? f)

/-- Where no two requests name the same field, every update is there at the end, and in every run that commits the same
updates in another order the fields end up the same. -/
structure UpdatesKept (db : Db) (w : ServerWorld P) (id : ObjectId) (s : Shipment) : Prop where
  present : ∀ i data, SuccessfulPut w id i data → ∀ f ∈ bodyKeys, ∀ t, givenText data f = some t → s.text? f = some t
  order : ∀ w' : ServerWorld P, Reachable P db w' → NeverDeleted w' id →
    (writtenBodies w id).Perm (writtenBodies w' id) →
    ∃ s', w'.store.get? id = some s' ∧ ∀ f ∈ bodyKeys, s'.text? f = s.text? f

private theorem lastWritesKept (hw : Reachable P db w) {s₀ : Shipment} (initial : db.get? id = some s₀)
    (kept : NeverDeleted w id) : ∃ s, w.store.get? id = some s ∧ LastWritesKept w id s₀ s := by
  have hne : db.get? id ≠ none := by
    rw [initial]
    exact Option.some_ne_none s₀
  have hend := present_throughout hw hne kept w.events.length
  rw [(Interleaving.Reachable.sound hw).chained.stateAt_end le_rfl] at hend
  obtain ⟨s, hs⟩ := Option.ne_none_iff_exists'.1 hend
  refine ⟨s, hs, fun i data => mem_writesTo_iff hw, nodup_writesTo hw, fun f hf => ?_⟩
  have hfield := field_at_end hw hne kept hf
  unfold Db.field? at hfield
  rw [hs, initial] at hfield
  exact hfield

/-- Each field has at the end the value of the last committed write that names it, or its initial value. -/
theorem no_lost_field_updates (hw : Reachable P db w) {s₀ : Shipment} (initial : db.get? id = some s₀)
    (kept : NeverDeleted w id) : ∃ s, w.store.get? id = some s ∧ LastWritesKept w id s₀ s ∧
      (DisjointFields w id → UpdatesKept db w id s) := by
  obtain ⟨s, hs, hlast⟩ := lastWritesKept hw initial kept
  refine ⟨s, hs, hlast, fun hdisjoint => ⟨fun i data hput f hf t ht => ?_, fun w' hw' kept' hperm => ?_⟩⟩
  · have hexclusive := exclusive_of_disjoint hw hdisjoint hf
    have hmem : data ∈ writtenBodies w id := List.mem_map.2 ⟨(i, data), committed_of_successful hw hput, rfl⟩
    rw [hlast.field f hf, LastWrite.last_of_exclusive hexclusive hmem ht]
    rfl
  · obtain ⟨s', hs', hlast'⟩ := lastWritesKept hw' initial kept'
    refine ⟨s', hs', fun f hf => ?_⟩
    rw [hlast.field f hf, hlast'.field f hf, LastWrite.last_perm (exclusive_of_disjoint hw hdisjoint hf) hperm]

end Run

/-- `PUT` of an origin. -/
def putOrigin (id : ObjectId) (origin : String) : Arrival referencePlatform :=
  sampleRequest (.update (objectIdToText id)) (.json (.obj [("origin", .str (js origin))]))

/-- No two of the bodies name the same field. -/
def exclusiveBodies (l : List (Nat × JsObject)) : Bool :=
  l.all fun a => l.all fun b => a.1 = b.1 || bodyKeys.all fun f => givenText a.2 f = none || givenText b.2 f = none

/-- Two updates of different fields that both read the shipment before either of them writes. -/
def crossingUpdates : List (Move (Arrival referencePlatform) Choice) :=
  [.arrive (putStatus 1 .cancelled), .arrive (putOrigin 1 "Paris"), .perform 0 false {}, .perform 1 false {},
    .perform 1 false {}, .perform 0 false {}]

set_option maxRecDepth 4000 in
theorem no_lost_field_updates_crossing : ∃ w, Reachable referencePlatform (sampleStore .pending) w ∧
    (writtenBodies w 1).length = 2 ∧ DisjointFields w 1 ∧ ∃ s, w.store.get? 1 = some s ∧
      LastWritesKept w 1 (sampleShipment 1 .pending) s ∧ UpdatesKept (sampleStore .pending) w 1 s := by
  obtain ⟨w, hw, hq⟩ := exists_run (sampleStore .pending) crossingUpdates (fun w =>
    ((writtenBodies w 1).length = 2 && w.events.all fun e => e.cmd.deletes?.isNone) &&
      exclusiveBodies (writesTo w 1)) (by decide)
  simp only [Bool.and_eq_true, decide_eq_true_eq, List.all_eq_true] at hq
  obtain ⟨⟨hlength, hdeletes⟩, hexclusive⟩ := hq
  have kept : NeverDeleted w 1 := by
    intro e he hdel
    have hnone := hdeletes e he
    obtain ⟨c, r, before, after⟩ := e
    cases c with
    | findByIdAndDelete => cases hnone
    | _ => exact hdel
  have initial : (sampleStore .pending).get? 1 = some (sampleShipment 1 .pending) := by decide
  obtain ⟨s, hs, hlast, hupdates⟩ := no_lost_field_updates hw initial kept
  have hdisjoint : DisjointFields w 1 := by
    intro i j data data' hij hput hput' f hf
    simp only [exclusiveBodies, List.all_eq_true, Bool.or_eq_true, decide_eq_true_eq] at hexclusive
    have hpair := hexclusive _ ((hlast.committed i data).2 hput) _ ((hlast.committed j data').2 hput')
    exact (hpair.resolve_left hij) f hf
  exact ⟨w, hw, hlength, hdisjoint, s, hs, hlast, hupdates hdisjoint⟩

end ShipmentManager
