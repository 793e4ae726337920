import ShipmentManager.Lib.Collection
import ShipmentManager.Mongoose

/-!
# The database

Query objects and what they match, the store of shipments, and the atomic commands that the repository sends.

* The pattern language, the order of sort keys and the conversions of the language are parameters (`Mongo`); of patterns
  only the documented reading of ordinary characters is assumed: such a character matches itself up to case, a sequence
  matches a sequence, and a match may start anywhere.
* `Oracle`: what the environment chooses when a command is executed.  Its fields carry the assumptions: a new identifier
  was never issued before, and a query returns the matching documents in some order that respects the sort keys.
* `exec`: the answer of a command and the store after it; the unique indexes on `_id` and `trackingNumber` are checked
  in the same atomic step.  Texts are stored as they are sent: for a text with a lone surrogate the driver would store a
  replacement character in its place.
-/

namespace ShipmentManager

def isHighSurrogate (u : UInt16) : Bool := 0xD800 ≤ u && u < 0xDC00

def isLowSurrogate (u : UInt16) : Bool := 0xDC00 ≤ u && u < 0xE000

/-- The character that replaces a lone surrogate. -/
def replacementChar : Char := Char.ofNat 0xFFFD

/-- The characters of a string after a high surrogate that is still open. -/
def decodeFrom : Option UInt16 → Text → List Char
  | none, [] => []
  | some _, [] => [replacementChar]
  | none, u :: t =>
    if isHighSurrogate u then decodeFrom (some u) t
    else (if isLowSurrogate u then replacementChar else Char.ofNat u.toNat) :: decodeFrom none t
  | some h, u :: t =>
    if isLowSurrogate u then
      Char.ofNat (0x10000 + (h.toNat - 0xD800) * 0x400 + (u.toNat - 0xDC00)) :: decodeFrom none t
    else if isHighSurrogate u then replacementChar :: decodeFrom (some u) t
    else replacementChar :: Char.ofNat u.toNat :: decodeFrom none t

/-- The characters of a string as the database sees it. -/
def toChars (t : Text) : List Char := decodeFrom none t

private theorem decodeFrom_length_le (h : Option UInt16) (t : Text) :
    (decodeFrom h t).length ≤ t.length + h.toList.length := by
  induction t generalizing h with
  | nil => cases h <;> simp [decodeFrom]
  | cons u t ih =>
    have hopen := ih (some u)
    have hnone := ih none
    simp only [Option.toList_some, Option.toList_none, List.length_cons, List.length_nil] at hopen hnone ⊢
    cases h with
    | none =>
      rw [decodeFrom]
      split
      · omega
      · rw [List.length_cons]
        omega
    | some h =>
      rw [decodeFrom]
      simp only [Option.toList_some, List.length_cons, List.length_nil]
      split
      · rw [List.length_cons]
        omega
      · split <;> simp only [List.length_cons] <;> omega

theorem toChars_length_le (t : Text) : (toChars t).length ≤ t.length := decodeFrom_length_le none t

/-- The characters that are operators of the pattern language wherever they stand. -/
def isMetachar (c : Char) : Bool := ['\\', '^', '$', '.', '|', '?', '*', '+', '(', ')', '['].contains c

/-- What follows an opening brace that makes it a quantifier: `n}`, `n,}` or `n,m}`. -/
def quantifierFollows (p : List Char) : Bool :=
  match p.takeWhile Char.isDigit, p.dropWhile Char.isDigit with
  | _ :: _, '}' :: _ => true
  | _ :: _, ',' :: rest => (rest.dropWhile Char.isDigit).head? = some '}'
  | _, _ => false

/-- A pattern of ordinary characters only: no operator, no quantifier and no NUL, which a pattern may not contain. -/
def plainPattern : List Char → Bool
  | [] => true
  | c :: p => c.toNat ≠ 0 && !isMetachar c && !(c = '{' && quantifierFollows p) && plainPattern p

/-- What documents are sorted by. -/
inductive SortKey where
  | missing
  | text (t : Text)
  | date (ms : Int)
  deriving DecidableEq

structure Mongo where
  /-- Equality of characters under the option `i`. -/
  caseEq : Char → Char → Bool
  validPattern : List Char → Bool
  /-- A valid pattern is found in a string. -/
  search : List Char → List Char → Bool
  /-- A pattern matches a part of a string, from one position to another. -/
  MatchAt : List Char → List Char → Nat → Nat → Prop
  search_iff : ∀ p s, validPattern p = true → (search p s = true ↔ ∃ i j, MatchAt p s i j)
  /-- A pattern of at most 32764 bytes is not too long. -/
  validPattern_plain : ∀ p, plainPattern p = true → p.length ≤ 8191 → validPattern p = true
  matchAt_nil : ∀ s i j, MatchAt [] s i j ↔ i = j ∧ i ≤ s.length
  matchAt_cons : ∀ c p s i j, plainPattern (c :: p) = true →
    (MatchAt (c :: p) s i j ↔ ∃ d, s[i]? = some d ∧ caseEq c d = true ∧ MatchAt p s (i + 1) j)
  /-- The order of sort keys. -/
  keyLe : SortKey → SortKey → Bool
  keyLe_total : ∀ a b, keyLe a b = true ∨ keyLe b a = true
  keyLe_trans : ∀ a b c, keyLe a b = true → keyLe b c = true → keyLe a c = true
  keyLe_antisymm : ∀ a b, keyLe a b = true → keyLe b a = true → a = b

/-- A date value; `none` is an invalid date. -/
abbrev JsDate := Option Int

/-- The conditions of a query object; a pattern has the option `i`. -/
inductive Condition where
  | eq (value : Text)
  | regex (pattern : Text)
  | or (alternatives : List (String × Text))
  | range (bounds : Obj JsDate)

abbrev Query := Obj Condition

def Shipment.date? (s : Shipment) : String → Option Int
  | "createdAt" => some s.createdAt
  | "updatedAt" => some s.updatedAt
  | _ => none

def Mongo.matchesPattern (M : Mongo) (s : Shipment) (field : String) (pattern : Text) : Bool :=
  (s.text? field).any fun t => M.search (toChars pattern) (toChars t)

def inBound (value : Int) : String → JsDate → Bool
  | "$gte", some bound => bound ≤ value
  | "$lte", some bound => value ≤ bound
  | _, _ => false

def Condition.holds (M : Mongo) (s : Shipment) (field : String) : Condition → Bool
  | eq value => s.text? field = some value
  | regex pattern => M.matchesPattern s field pattern
  | or alternatives => alternatives.any fun a => M.matchesPattern s a.1 a.2
  | range bounds => (s.date? field).any fun v => bounds.all fun b => inBound v b.1 b.2

/-- A document matches a query object when it satisfies all its conditions. -/
def Query.matches (M : Mongo) (q : Query) (s : Shipment) : Bool := List.all q fun c => c.2.holds M s c.1

/-- The patterns of a condition. -/
def Condition.patterns : Condition → List Text
  | regex pattern => [pattern]
  | or alternatives => alternatives.map Prod.snd
  | _ => []

/-- All patterns of a query object are valid. -/
def Query.patternsValid (M : Mongo) (q : Query) : Bool :=
  List.all q fun c => c.2.patterns.all fun p => M.validPattern (toChars p)

/-- No date bound of a query object is an invalid date. -/
def Query.datesValid (q : Query) : Bool :=
  List.all q fun c =>
    match c.2 with
    | .range bounds => bounds.all fun b => b.2.isSome
    | _ => true

/-- The value that a document is sorted by. -/
def Shipment.sortKey (s : Shipment) (path : Text) : SortKey :=
  if path = js "createdAt" then .date s.createdAt
  else if path = js "updatedAt" then .date s.updatedAt
  else
    match shipmentSchema.find? fun p => js p.1 = path with
    | some p => ((s.text? p.1).map SortKey.text).getD .missing
    | none => .missing

def Mongo.sortLe (M : Mongo) : SortOrder → SortKey → SortKey → Bool
  | .asc, a, b => M.keyLe a b
  | .desc, a, b => M.keyLe b a

/-- The store: the documents, and every identifier ever given to one. -/
structure Db where
  shipments : Collection Shipment._id
  issued : List ObjectId
  issued_of_mem : ∀ s ∈ shipments.docs, s._id ∈ issued

def Db.empty : Db := ⟨Collection.empty, [], by simp [Collection.empty]⟩

def Db.docs (db : Db) : List Shipment := db.shipments.docs

private theorem foldr_max_fresh (l : List Nat) : l.foldr max 0 + 1 ∉ l := by
  have key : ∀ n ∈ l, n ≤ l.foldr max 0 := by
    intro n hn
    induction l with
    | nil => cases hn
    | cons m l ih =>
      rw [List.foldr_cons]
      rcases List.mem_cons.1 hn with rfl | hn
      · omega
      · have := ih hn
        omega
  intro h
  have := key _ h
  omega

/-- An identifier that was never given out. -/
def Db.freshId (db : Db) : ObjectId := db.issued.foldr max 0 + 1

theorem Db.freshId_fresh (db : Db) : db.freshId ∉ db.issued := foldr_max_fresh db.issued

/-- What the repository sends to the database. -/
inductive Command where
  | save (data : JsObject)
  | findById (id : Text)
  | findOne (trackingNumber : Text)
  | find (query : Query) (sortBy : Text) (order : SortOrder) (skip limit : Int)
  | countDocuments (query : Query)
  | findByIdAndUpdate (id : Text) (set : JsObject)
  | findByIdAndDelete (id : Text)

/-- What a command returns when it does not fail. -/
def Command.Out : Command → Type
  | save _ => Shipment
  | findById _ => Option Shipment
  | findOne _ => Option Shipment
  | find _ _ _ _ _ => List Shipment
  | countDocuments _ => Int
  | findByIdAndUpdate _ _ => Option Shipment
  | findByIdAndDelete _ => Option Shipment

abbrev Command.Answer (c : Command) : Type := Except JsError c.Out

/-- The environment's choices at one step. -/
structure Oracle (M : Mongo) (db : Db) where
  newId : ObjectId
  newId_fresh : newId ∉ db.issued
  now : Int
  arrange : Text → SortOrder → List Shipment → List Shipment
  arrange_perm : ∀ path order l, (arrange path order l).Perm l
  arrange_sorted : ∀ path order l,
    (arrange path order l).Pairwise fun a b => M.sortLe order (a.sortKey path) (b.sortKey path) = true

/-- `skip` and `limit`; the limit 0 is no limit. -/
def slice {α : Type} (l : List α) (skip limit : Int) : List α :=
  if limit = 0 then l.drop skip.toNat else (l.drop skip.toNat).take limit.natAbs

def duplicateKey (field : String) (value : Text) : JsError :=
  .mongoServerError (some 11000) (some [(field, value)]) (js "E11000 duplicate key error")

def invalidPattern : JsError := .mongoServerError (some 51091) none (js "Regular expression is invalid")

def negativeSkip : JsError := .mongoServerError (some 51024) none (js "BSON field 'skip' value must be >= 0")

def castFailed (path : String) (value : Text) : JsError :=
  .castError (js path) value (js "Cast failed for value at path " ++ js path)

/-- The error that a query raises whatever the documents are. -/
def Query.error? (M : Mongo) (q : Query) : Option JsError :=
  if !q.datesValid then some (castFailed "createdAt" (js "Invalid Date"))
  else if !q.patternsValid M then some invalidPattern
  else none

namespace Db

/-- Inserts a document, unless an index holds its `_id` or its tracking number already. -/
def insert (db : Db) (s : Shipment) : Except JsError Shipment × Db :=
  if db.docs.any fun d => d.trackingNumber = s.trackingNumber then
    (.error (duplicateKey "trackingNumber" s.trackingNumber), db)
  else if h : db.shipments.get? s._id = none then
    (.ok s,
      { shipments := db.shipments.insert s h
        issued := s._id :: db.issued
        issued_of_mem := by
          intro d hd
          rcases Collection.mem_insert.1 hd with hd | rfl
          · exact List.mem_cons_of_mem _ (db.issued_of_mem d hd)
          · exact List.mem_cons_self .. })
  else (.error (duplicateKey "_id" (objectIdToText s._id)), db)

/-- Applies an update to the document with an identifier, unless the index of tracking numbers forbids it. -/
def update (db : Db) (id : ObjectId) (u : Update) : Except JsError (Option Shipment) × Db :=
  match db.shipments.get? id with
  | none => (.ok none, db)
  | some s =>
    if db.docs.any fun d => d._id ≠ id ∧ d.trackingNumber = (u.apply s).trackingNumber then
      (.error (duplicateKey "trackingNumber" (u.apply s).trackingNumber), db)
    else
      (.ok (some (u.apply s)),
        { shipments := db.shipments.modify id u.apply u.apply_id
          issued := db.issued
          issued_of_mem := by
            intro d hd
            rcases Collection.mem_modify.1 hd with ⟨hd, -⟩ | ⟨a, ha, -, rfl⟩
            · exact db.issued_of_mem d hd
            · exact db.issued_of_mem a ha })

/-- Removes the document with an identifier. -/
def delete (db : Db) (id : ObjectId) : Except JsError (Option Shipment) × Db :=
  match db.shipments.get? id with
  | none => (.ok none, db)
  | some s =>
    (.ok (some s),
      { shipments := db.shipments.erase id
        issued := db.issued
        issued_of_mem := fun d hd => db.issued_of_mem d (Collection.mem_erase.1 hd).1 })

variable (M : Mongo) (model : ShipmentModel)

/-- Executes a command with the environment's choices. -/
def exec (db : Db) (o : Oracle M db) : (c : Command) → c.Answer × Db
  | .save data =>
    match model.build data o.newId o.now with
    | .error e => (.error e, db)
    | .ok s => db.insert s
  | .findById id =>
    match model.castObjectId id with
    | none => (.error (castFailed "_id" id), db)
    | some i => (.ok (db.shipments.get? i), db)
  -- the schema trims the value of a query, too
  | .findOne trackingNumber => (.ok (db.docs.find? fun s => s.trackingNumber = trim trackingNumber), db)
  | .find query sortBy order skip limit =>
    match query.error? M with
    | some e => (.error e, db)
    | none =>
      if skip < 0 then (.error negativeSkip, db)
      else (.ok (slice (o.arrange sortBy order (db.docs.filter fun s => query.matches M s)) skip limit), db)
  | .countDocuments query =>
    match query.error? M with
    | some e => (.error e, db)
    | none => (.ok (Int.ofNat (db.docs.countP fun s => query.matches M s)), db)
  | .findByIdAndUpdate id set =>
    match model.castObjectId id with
    | none => (.error (castFailed "_id" id), db)
    | some i =>
      match model.castUpdate set o.now with
      | .error e => (.error e, db)
      | .ok u => db.update i u
  | .findByIdAndDelete id =>
    match model.castObjectId id with
    | none => (.error (castFailed "_id" id), db)
    | some i => db.delete i

/-- A command can be executed with this answer, leaving this store. -/
def Executes (c : Command) (db : Db) (r : c.Answer) (db' : Db) : Prop :=
  ∃ o : Oracle M db, db.exec M model o c = (r, db')

end Db

end ShipmentManager
