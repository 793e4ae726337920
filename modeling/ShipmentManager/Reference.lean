import Mathlib.Data.List.Lex
import Mathlib.Data.List.Sort
import ShipmentManager.Lib.Replay
import ShipmentManager.Routes

/-!
# A platform to run on

One computable platform that satisfies every law the model assumes, so that runs can be replayed and no theorem about
all platforms is empty.  It follows the documented behaviour where the runs need it: decimal numerals and calendar
dates, patterns of ordinary characters and of `.`, and bodies that are parsed, malformed or too large.
-/

namespace ShipmentManager

/-! ### Joi -/

def daysOfCivil (year month day : Int) : Int :=
  let y := if month ≤ 2 then year - 1 else year
  let yoe := y % 400
  let doy := (153 * (if month > 2 then month - 3 else month + 9) + 2) / 5 + day - 1
  y / 400 * 146097 + (yoe * 365 + yoe / 4 - yoe / 100 + doy) - 719468

/-- The time of a date `YYYY-MM-DD`, at its start in UTC. -/
def dateOnly? (t : Text) : Option Int :=
  match parseIntText (t.take 4), parseIntText ((t.drop 5).take 2), parseIntText ((t.drop 8).take 2) with
  | some year, some month, some day =>
    let days := daysOfCivil year month day
    if (toISOString (days * 86400000)).take 10 = t then some (days * 86400000) else none
  | _, _, _ => none

def integerOf (v : JsValue) : Option Int :=
  (match v with
    | .num q => if q.den = 1 then some q.num else none
    | .str t => (parseIntText t).filter fun n => decimalInt n = t
    | _ => none).filter fun n => n.natAbs < 2 ^ 53

def isoDateOf (v : JsValue) : Option Int :=
  (match v with
    | .date ms => some ms
    | .str t => dateOnly? t
    | _ => none).filter fun ms => ms.natAbs ≤ 8640000000000000

def referenceConversions : JoiConversions where
  integerOf := integerOf
  isoDateOf := isoDateOf
  integerOf_safe v n h := by
    obtain ⟨-, hn⟩ := Option.filter_eq_some_iff.1 h
    simpa using hn
  isoDateOf_range v ms h := by
    obtain ⟨-, hms⟩ := Option.filter_eq_some_iff.1 h
    simpa using hms

/-- The converted values of the keys of a schema. -/
def ObjectSchema.output (s : ObjectSchema) (c : JoiConversions) (o : JsObject) : JsObject :=
  s.keys.filterMap fun p => (s.outputAt c o p.1).map fun v => (p.1, v)

private theorem get?_filterMap {α : Type} (f : String → Option JsValue) (keys : Obj α) (k : String) :
    Obj.get? (keys.filterMap fun p => (f p.1).map fun v => (p.1, v)) k =
      if (Obj.get? keys k).isSome then f k else none := by
  induction keys with
  | nil => rfl
  | cons p keys ih =>
    obtain ⟨k', a⟩ := p
    rw [Obj.get?_cons]
    by_cases hk : k' = k
    · subst hk
      rw [if_pos rfl, Option.isSome_some, if_pos rfl]
      cases hf : f k' with
      | none =>
        rw [List.filterMap_cons, hf]
        simp only [Option.map_none, ih, hf, ite_self]
      | some v =>
        rw [List.filterMap_cons, hf]
        simp only [Option.map_some, Obj.get?_cons, ↓reduceIte]
    · rw [if_neg hk, ← ih]
      cases hf : f k' with
      | none =>
        rw [List.filterMap_cons, hf]
        rfl
      | some v =>
        rw [List.filterMap_cons, hf]
        simp only [Option.map_some, Obj.get?_cons, if_neg hk]

theorem ObjectSchema.get?_output (s : ObjectSchema) (c : JoiConversions) (o : JsObject) (k : String) :
    Obj.get? (s.output c o) k = s.outputAt c o k := by
  rw [output, get?_filterMap]
  cases hk : Obj.get? s.keys k with
  | none => simp [outputAt, hk]
  | some ks => simp

def referenceValidate (s : ObjectSchema) : JsValue → Except (List JoiDetail) JsObject
  | .obj o =>
    if s.accepts referenceConversions o then .ok (s.output referenceConversions o)
    else
      .error ((s.keys.filter fun p => !s.keyPasses referenceConversions o p.1 p.2).map fun p =>
        ⟨[p.1], js ("\"" ++ p.1 ++ "\" is invalid")⟩)
  | _ => .error [⟨[], js "\"value\" must be of type object"⟩]

def referenceJoi : Joi where
  toJoiConversions := referenceConversions
  validate := referenceValidate
  validate_object s v out h := by
    cases v with
    | obj o => exact Or.inl ⟨o, rfl⟩
    | _ => cases h
  validate_accepts s o := by
    unfold referenceValidate
    by_cases h : s.accepts referenceConversions o = true
    · simp [h]
    · simp [h]
  validate_output s o out h k := by
    unfold referenceValidate at h
    simp only at h
    split at h
    · cases h
      exact s.get?_output _ _ _
    · cases h

/-! ### Mongoose -/

/-- The string at a path of a new document. -/
def initialAt (data : JsObject) (path : String) : Text :=
  ((Obj.get? shipmentSchema path).bind fun p => p.initial data path).getD []

def referenceBuild (data : JsObject) (id : ObjectId) (now : Int) : Except JsError Shipment :=
  let time (path : String) : Int :=
    match Obj.get? data path with
    | some (.date ms) => ms
    | _ => now
  if shipmentSchema.all fun p => p.2.valid (p.2.initial data p.1) then
    .ok
      { _id :=
          match Obj.get? data "_id" with
          | some (.str t) => hexValue t
          | _ => id
        trackingNumber := initialAt data "trackingNumber"
        senderName := initialAt data "senderName"
        receiverName := initialAt data "receiverName"
        origin := initialAt data "origin"
        destination := initialAt data "destination"
        status := initialAt data "status"
        createdAt := time "createdAt"
        updatedAt := time "updatedAt" }
  else .error (.validationError [] (js "shipments validation failed"))

def referenceCastUpdate (data : JsObject) (now : Int) : Except JsError Update :=
  if shipmentSchema.all fun p => (p.2.given data p.1).all fun t => p.2.valid (some t) then
    .ok
      { set := fun path => (Obj.get? shipmentSchema path).bind fun p => p.given data path
        createdAt :=
          match Obj.get? data "createdAt" with
          | some (.date ms) => some ms
          | _ => none
        updatedAt :=
          match Obj.get? data "updatedAt" with
          | some (.date ms) => ms
          | _ => now }
  else .error (.validationError [] (js "Validation failed"))

private theorem get?_schema {path : String} {p : PathSchema} (h : (path, p) ∈ shipmentSchema) :
    Obj.get? shipmentSchema path = some p ∧ p.required.isNone = false := by
  simp only [shipmentSchema, List.mem_cons, Prod.mk.injEq, List.not_mem_nil, or_false] at h
  rcases h with ⟨rfl, rfl⟩ | ⟨rfl, rfl⟩ | ⟨rfl, rfl⟩ | ⟨rfl, rfl⟩ | ⟨rfl, rfl⟩ | ⟨rfl, rfl⟩ <;> exact ⟨rfl, rfl⟩

private theorem referenceBuild_ok {data : JsObject} {id : ObjectId} {now : Int} {s : Shipment}
    (h : referenceBuild data id now = .ok s) :
    (shipmentSchema.all fun p => p.2.valid (p.2.initial data p.1)) = true ∧
      ∀ path p, (path, p) ∈ shipmentSchema → s.text? path = some (initialAt data path) := by
  unfold referenceBuild at h
  simp only at h
  split at h
  · rename_i hv
    cases h
    refine ⟨hv, fun path p hp => ?_⟩
    simp only [shipmentSchema, List.mem_cons, Prod.mk.injEq, List.not_mem_nil, or_false] at hp
    rcases hp with ⟨rfl, -⟩ | ⟨rfl, -⟩ | ⟨rfl, -⟩ | ⟨rfl, -⟩ | ⟨rfl, -⟩ | ⟨rfl, -⟩ <;> rfl
  · cases h

def referenceModel : ShipmentModel where
  isValidObjectId := isObjectIdText
  isValidObjectId_hex _ h := h
  castObjectId t := if isObjectIdText t then some (hexValue t) else none
  castObjectId_hex t h := by rw [if_pos h]
  build := referenceBuild
  build_accepts data id now _ := by
    constructor
    · rintro ⟨s, hs⟩ path p hp
      exact List.all_eq_true.1 (referenceBuild_ok hs).1 (path, p) hp
    · intro h
      unfold referenceBuild
      simp only
      rw [if_pos (List.all_eq_true.2 fun p hp => h p.1 p.2 hp)]
      exact ⟨_, rfl⟩
  build_text data id now s _ h path p hp := by
    obtain ⟨hv, ht⟩ := referenceBuild_ok h
    obtain ⟨hget, hreq⟩ := get?_schema hp
    have hvalid := List.all_eq_true.1 hv (path, p) hp
    rw [ht path p hp, initialAt, hget, Option.bind_some]
    cases hi : p.initial data path with
    | none =>
      simp only [hi, PathSchema.valid, hreq] at hvalid
      cases hvalid
    | some t => rfl
  build_id data id now s hd h := by
    unfold referenceBuild at h
    simp only [hd.other "_id" rfl] at h
    split at h
    · cases h
      rfl
    · cases h
  build_createdAt data id now s hd h := by
    unfold referenceBuild at h
    simp only [hd.other "createdAt" rfl] at h
    split at h
    · cases h
      rfl
    · cases h
  build_updatedAt data id now s hd h := by
    unfold referenceBuild at h
    simp only [hd.other "updatedAt" rfl] at h
    split at h
    · cases h
      rfl
    · cases h
  castUpdate := referenceCastUpdate
  castUpdate_accepts data now _ := by
    unfold referenceCastUpdate
    constructor
    · rintro ⟨u, hu⟩ path p hp t ht
      split at hu
      · rename_i hall
        have := List.all_eq_true.1 hall (path, p) hp
        simpa [ht] using this
      · cases hu
    · intro h
      rw [if_pos]
      · exact ⟨_, rfl⟩
      · refine List.all_eq_true.2 fun p hp => ?_
        cases hg : p.2.given data p.1 with
        | none => rfl
        | some t => exact h p.1 p.2 hp t hg
  castUpdate_set data now u _ h path p hp := by
    unfold referenceCastUpdate at h
    split at h
    · cases h
      simp only [(get?_schema hp).1, Option.bind_some]
    · cases h
  castUpdate_createdAt data now u hd h := by
    unfold referenceCastUpdate at h
    split at h
    · cases h
      simp only [hd.other "createdAt" rfl]
    · cases h
  castUpdate_updatedAt data now u hd h := by
    unfold referenceCastUpdate at h
    split at h
    · cases h
      simp only [hd.other "updatedAt" rfl]
    · cases h

/-! ### MongoDB -/

/-- A pattern of ordinary characters and of `.`. -/
def simplePattern : List Char → Bool
  | [] => true
  | c :: p =>
    c.toNat ≠ 0 && (c = '.' || !isMetachar c) && !(c = '{' && quantifierFollows p) && simplePattern p

theorem simplePattern_of_plain {p : List Char} (h : plainPattern p = true) : simplePattern p = true := by
  induction p with
  | nil => rfl
  | cons c p ih =>
    simp only [plainPattern, Bool.and_eq_true] at h
    simp only [simplePattern, Bool.and_eq_true]
    exact ⟨⟨⟨h.1.1.1, by simp [h.1.1.2]⟩, h.1.2⟩, ih h.2⟩

/-- A pattern matches the beginning of a string. -/
def matchesHere : List Char → List Char → Bool
  | [], _ => true
  | _ :: _, [] => false
  | c :: p, d :: s => (if c = '.' then d ≠ '\n' else c.toLower = d.toLower) && matchesHere p s

def referenceSearch (p s : List Char) : Bool := (List.range (s.length + 1)).any fun i => matchesHere p (s.drop i)

def referenceKeyLe : SortKey → SortKey → Bool
  | .missing, _ => true
  | .text _, .missing => false
  | .text a, .text b => a.map UInt16.toNat ≤ b.map UInt16.toNat
  | .text _, .date _ => true
  | .date _, .missing => false
  | .date _, .text _ => false
  | .date a, .date b => a ≤ b

def referenceMongo : Mongo where
  caseEq c d := c.toLower = d.toLower
  validPattern := simplePattern
  search := referenceSearch
  MatchAt p s i j := i ≤ s.length ∧ j = i + p.length ∧ matchesHere p (s.drop i) = true
  search_iff p s _ := by
    simp only [referenceSearch, List.any_eq_true, List.mem_range]
    constructor
    · rintro ⟨i, hi, hm⟩
      exact ⟨i, i + p.length, by omega, rfl, hm⟩
    · rintro ⟨i, j, hi, -, hm⟩
      exact ⟨i, by omega, hm⟩
  validPattern_plain _ h _ := simplePattern_of_plain h
  matchAt_nil s i j := by
    simp only [List.length_nil, Nat.add_zero, matchesHere, and_true]
    omega
  matchAt_cons c p s i j h := by
    have hdot : c ≠ '.' := by
      rintro rfl
      simp [plainPattern, isMetachar] at h
    constructor
    · rintro ⟨hi, hj, hm⟩
      cases hd : s.drop i with
      | nil =>
        rw [hd] at hm
        cases hm
      | cons d t =>
        have hlt : i < s.length := by
          have := congrArg List.length hd
          rw [List.length_drop, List.length_cons] at this
          omega
        rw [List.drop_eq_getElem_cons hlt] at hd hm
        simp only [matchesHere, if_neg hdot, Bool.and_eq_true] at hm
        refine ⟨s[i], List.getElem?_eq_getElem hlt, hm.1, by omega, ?_, hm.2⟩
        rw [hj, List.length_cons]
        omega
    · rintro ⟨d, hd, hc, -, hj, hm⟩
      obtain ⟨hlt, rfl⟩ := List.getElem?_eq_some_iff.1 hd
      refine ⟨by omega, ?_, ?_⟩
      · rw [hj, List.length_cons]
        omega
      · rw [List.drop_eq_getElem_cons hlt]
        simp only [matchesHere, if_neg hdot, Bool.and_eq_true]
        exact ⟨hc, hm⟩
  keyLe := referenceKeyLe
  keyLe_total a b := by
    cases a <;> cases b <;> simp [referenceKeyLe, le_total]
  keyLe_trans a b c := by
    cases a <;> cases b <;> cases c <;> simp only [referenceKeyLe, decide_eq_true_eq, Bool.false_eq_true,
      IsEmpty.forall_iff, implies_true, forall_const]
    · exact le_trans
    · exact le_trans
  keyLe_antisymm a b := by
    have hinj : Function.Injective (List.map UInt16.toNat) := List.map_injective_iff.2 fun _ _ => UInt16.toNat_inj.1
    cases a <;> cases b <;> simp only [referenceKeyLe, decide_eq_true_eq, reduceCtorEq, Bool.false_eq_true,
      IsEmpty.forall_iff, implies_true, forall_const]
    · exact fun h h' => congrArg _ (hinj (le_antisymm h h'))
    · exact fun h h' => congrArg _ (le_antisymm h h')

/-! ### The language and Express -/

def referenceEngine : Engine where
  stringOf
    | .str t => t
    | .num q => decimalInt q.num
    | .null => js "null"
    | .bool b => if b then js "true" else js "false"
    | .date ms => toISOString ms
    | .arr _ => []
    | .obj _ => js "[object Object]"
  stringOf_str _ := rfl
  stringOf_int _ _ := rfl
  parseDate := dateOnly?

/-- A body as it arrives: none, a JSON text that is parsed, one that is malformed, or one above the limit. -/
inductive RequestBody where
  | empty
  | json (value : JsValue)
  | malformed
  | tooLarge

/-- The query string as `name=value` pairs. -/
def parsePairs (t : Text) : JsObject :=
  (t.splitOn 38).filterMap fun pair =>
    match pair.splitOn 61 with
    | [name, value] => some (String.ofList (name.map fun u => Char.ofNat u.toNat), .str value)
    | _ => none

def referenceExpress : Express where
  Body := RequestBody
  json _ body :=
    match body with
    | .empty => .ok none
    | .json (.obj fields) => .ok (some (.obj fields))
    | .json (.arr items) => .ok (some (.arr items))
    | .json _ => .error (.syntaxError (some 400) (js "Unexpected token"))
    | .malformed => .error (.syntaxError (some 400) (js "Unexpected token"))
    | .tooLarge => .error (.httpError 413 (js "request entity too large"))
  json_strict limit b v h := by
    split at h
    · cases h
    · cases h
      exact Or.inl ⟨_, rfl⟩
    · cases h
      exact Or.inr ⟨_, rfl⟩
    · cases h
    · cases h
    · cases h
  json_error limit b e h := by
    cases b with
    | empty => cases h
    | json value =>
      cases value with
      | obj fields => cases h
      | arr items => cases h
      | _ =>
        cases h
        exact Or.inl ⟨_, rfl⟩
    | malformed =>
      cases h
      exact Or.inl ⟨_, rfl⟩
    | tooLarge =>
      cases h
      exact Or.inr ⟨413, _, by omega, by omega, rfl⟩
  urlencoded _ _ := .ok none
  urlencoded_object _ _ _ h := by cases h
  urlencoded_error _ _ _ h := by cases h
  decodeParam t :=
    if t.contains 37 then .error (.uriError (some 400) (js "Failed to decode param '" ++ t ++ js "'")) else .ok t
  decodeParam_error t e h := by
    split at h
    · cases h
      exact ⟨_, rfl⟩
    · cases h
  parseQuery := parsePairs

def referencePlatform : Platform where
  joi := referenceJoi
  model := referenceModel
  mongo := referenceMongo
  engine := referenceEngine
  express := referenceExpress
  isProduction := true

/-! ### The environment's choices -/

/-- What the environment chooses for one command: a new identifier, the time, and in which order documents with the same
sort key come. -/
structure Choice where
  newId : ObjectId := 0
  now : Int := 0
  reversed : Bool := false

def Choice.oracle (x : Choice) (db : Db) : Oracle referenceMongo db where
  newId := if x.newId ∈ db.issued then db.freshId else x.newId
  newId_fresh := by
    split
    · exact db.freshId_fresh
    · assumption
  now := x.now
  arrange path order l := (if x.reversed then l.reverse else l).insertionSort fun a b =>
    referenceMongo.sortLe order (a.sortKey path) (b.sortKey path) = true
  arrange_perm path order l := by
    refine (List.perm_insertionSort _ _).trans ?_
    split
    · exact List.reverse_perm l
    · exact List.Perm.refl l
  arrange_sorted path order l := by
    let r : Shipment → Shipment → Prop := fun a b =>
      referenceMongo.sortLe order (a.sortKey path) (b.sortKey path) = true
    have htotal : Std.Total r := ⟨fun a b => by
      cases order
      · exact referenceMongo.keyLe_total _ _
      · exact referenceMongo.keyLe_total _ _⟩
    have htrans : IsTrans Shipment r := ⟨fun a b c hab hbc => by
      cases order
      · exact referenceMongo.keyLe_trans _ _ _ hab hbc
      · exact referenceMongo.keyLe_trans _ _ _ hbc hab⟩
    exact List.pairwise_insertionSort r _

/-- Executes a command with a choice. -/
def Choice.run (x : Choice) (c : Command) (db : Db) : c.Answer × Db :=
  db.exec referenceMongo referenceModel (x.oracle db) c

theorem Choice.executes (x : Choice) (c : Command) (db : Db) :
    Db.Executes referenceMongo referenceModel c db (x.run c db).1 (x.run c db).2 :=
  ⟨x.oracle db, rfl⟩

/-! ### Runs -/

/-- The world that some moves lead to. -/
def replay (db : Db) (moves : List (Interleaving.Move (Arrival referencePlatform) Choice)) :
    Option (ServerWorld referencePlatform) :=
  (Interleaving.World.init db).replay Choice.run (app referencePlatform) moves

/-- A run that is replayed and checked exists. -/
theorem exists_run (db : Db) (moves : List (Interleaving.Move (Arrival referencePlatform) Choice))
    (q : ServerWorld referencePlatform → Bool) (h : (replay db moves).any q = true) :
    ∃ w, Reachable referencePlatform db w ∧ q w = true :=
  Interleaving.exists_of_replay Choice.executes db moves q h

/-- The store that holds the given shipments. -/
def storeOf (docs : List Shipment) (h : (docs.map Shipment._id).Nodup) : Db where
  shipments := ⟨docs, h⟩
  issued := docs.map Shipment._id
  issued_of_mem _ hs := List.mem_map_of_mem hs

def sampleShipment (id : ObjectId) (status : ShipmentStatus) : Shipment where
  _id := id
  trackingNumber := js "SHP-20240101-" ++ decimal id
  senderName := js "Ann"
  receiverName := js "Bob"
  origin := js "Rome"
  destination := js "Oslo"
  status := status.value
  createdAt := 0
  updatedAt := 0

/-- A store with one shipment. -/
def sampleStore (status : ShipmentStatus) : Db := storeOf [sampleShipment 1 status] (List.nodup_singleton _)

def sampleRequest (route : Route) (body : RequestBody) : Arrival referencePlatform where
  request := ⟨route, body⟩
  draws := ⟨⟨2024, 0, 1⟩, fun _ => 0⟩

/-- `PUT` of a status. -/
def putStatus (id : ObjectId) (status : ShipmentStatus) : Arrival referencePlatform :=
  sampleRequest (.update (objectIdToText id)) (.json (.obj [("status", .str status.value)]))

def deleteRequest (id : ObjectId) : Arrival referencePlatform := sampleRequest (.delete (objectIdToText id)) .empty

def listRequest (query : String) : Arrival referencePlatform := sampleRequest (.getAll (js query)) .empty

/-- `POST` of a shipment without a status. -/
def postRequest : Arrival referencePlatform :=
  sampleRequest .create (.json (.obj [("senderName", .str (js " Ann ")), ("receiverName", .str (js "Bob")),
    ("origin", .str (js "Rome")), ("destination", .str (js "Oslo")), ("trackingNumber", .str (js "mine"))]))

end ShipmentManager
