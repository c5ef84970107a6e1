import InverterDashboard.Bounded.Journal
import InverterDashboard.Push.Payload

/-
  `PushStore`: the three tables behind Web Push, and the transactions on them.

  Rows are kept in the order in which they were inserted. A transaction that raises is rolled
  back, so an operation either returns the new tables or leaves the old ones; the files, the lock
  and the metadata table are left out. Where SQL leaves the choice between rows open
  (`ORDER BY next_at LIMIT 1` on equal times), the operation takes the choice as an argument.
-/

namespace InverterDashboard.Push

open Python Cerbo Bounded

def maxSubscriptions : Nat := 64

def maxEvents : Nat := 4096

def maxDeliveries : Nat := 1024

/-! ## Tables -/

/-- A validated push subscription: its endpoint and its two keys. -/
structure Subscription where
  endpoint : Str
  p256dh : Str
  auth : Str
  deriving DecidableEq

/-- A row of `subscriptions`. -/
structure Registration where
  id : Str
  subscription : Subscription
  preferences : Preferences
  updatedAt : ℚ
  lastTestAt : ℚ
  deriving DecidableEq

/-- A row of `events`. -/
structure EventRow where
  id : Str
  observedAt : ℚ
  deriving DecidableEq

/-- A row of `deliveries`. -/
structure Delivery where
  eventId : Str
  subscriptionId : Str
  payload : EventPayload
  expiresAt : ℚ
  nextAt : ℚ
  attempts : Nat
  epoch : Str
  deriving DecidableEq

structure PushStore where
  subscriptions : List Registration
  events : List EventRow
  deliveries : List Delivery
  deriving DecidableEq

/-- The tables of a new database. -/
def PushStore.empty : PushStore := ⟨[], [], []⟩

/-- Why a transaction is rolled back. -/
inductive StoreError where
  /-- `SubscriptionConflict`. -/
  | conflict
  /-- `ValueError("Push subscription limit reached")`. -/
  | subscriptionLimit
  /-- `ValueError("Push payload exceeds limit")`. -/
  | payloadLimit
  /-- `UnicodeEncodeError`. -/
  | unencodable
  /-- `sqlite3.IntegrityError`. -/
  | foreignKey
  deriving DecidableEq

/-- The row of a delivery that two arguments name. -/
def Delivery.isFor (eventId subscriptionId : Str) (d : Delivery) : Bool :=
  d.eventId = eventId && d.subscriptionId = subscriptionId

/-- `ORDER BY observed_at DESC, id DESC`. -/
def EventRow.before (a b : EventRow) : Bool :=
  b.observedAt < a.observedAt || (a.observedAt = b.observedAt && leText b.id a.id)

/-- The order in which `_remember` keeps event identities. -/
def ranked (a b : EventRow) : Prop := EventRow.before a b = true

instance : DecidableRel ranked := fun a b => inferInstanceAs (Decidable (EventRow.before a b = true))

namespace PushStore

/-! ## Subscriptions -/

/-- `get`. -/
def get (s : PushStore) (identifier : Str) : Option Registration :=
  s.subscriptions.find? (·.id = identifier)

/-- The digest that identifies an endpoint. Endpoints are ASCII and always encode. -/
def identifierOf (endpoint : Str) : Str := sha256Hex (endpoint.utf8.getD [])

/-- The rows after an upsert: a known identifier keeps its place and its `last_test_at`. -/
def upsert (rows : List Registration) (identifier : Str) (subscription : Subscription)
    (preferences : Preferences) (now : ℚ) : List Registration :=
  if rows.any (·.id = identifier) then
    rows.map fun row =>
      if row.id = identifier then
        { row with subscription := subscription, preferences := preferences, updatedAt := now }
      else row
  else rows ++ [⟨identifier, subscription, preferences, now, 0⟩]

/-- The tables after an accepted registration: its pending deliveries are gone. -/
def registered (s : PushStore) (identifier : Str) (subscription : Subscription)
    (preferences : Preferences) (now : ℚ) : PushStore :=
  { s with
    subscriptions := upsert s.subscriptions identifier subscription preferences now
    deliveries := s.deliveries.filter (·.subscriptionId ≠ identifier) }

/-- `register`. -/
def register (s : PushStore) (subscription : Subscription) (preferences : Preferences) (now : ℚ) :
    Except StoreError (Str × PushStore) :=
  let identifier := identifierOf subscription.endpoint
  match s.get identifier with
  | some current =>
    if current.subscription ≠ subscription then .error .conflict
    else .ok (identifier, s.registered identifier subscription preferences now)
  | none =>
    if maxSubscriptions ≤ s.subscriptions.length then .error .subscriptionLimit
    else .ok (identifier, s.registered identifier subscription preferences now)

/-- `delete`, with the deliveries of the subscription: `ON DELETE CASCADE`. -/
def delete (s : PushStore) (identifier : Str) : PushStore :=
  { s with
    subscriptions := s.subscriptions.filter (·.id ≠ identifier)
    deliveries := s.deliveries.filter (·.subscriptionId ≠ identifier) }

/-- `allow_test`. -/
def allowTest (s : PushStore) (identifier : Str) (now : ℚ) : Bool × PushStore :=
  let due := fun (row : Registration) => row.id = identifier && decide (row.lastTestAt ≤ now - 60)
  (s.subscriptions.any due,
    { s with subscriptions := s.subscriptions.map fun row =>
        if due row then { row with lastTestAt := now } else row })

/-! ## Event identities -/

def eventIds (s : PushStore) : List Str := s.events.map EventRow.id

/-- `_remember`: whether the identity is new, and the tables. -/
def remember (s : PushStore) (identifier : Str) (now : ℚ) : Bool × PushStore :=
  (identifier ∉ s.eventIds,
    { s with events := record ranked maxEvents EventRow.id s.events ⟨identifier, now⟩ })

/-! ## Deliveries -/

/-- `EXPIRE_DELIVERIES_SQL`. -/
def expire (s : PushStore) (now : ℚ) : PushStore :=
  { s with deliveries := s.deliveries.filter fun d => now < d.expiresAt }

/-- `has_delivery_capacity`. -/
def hasDeliveryCapacity (s : PushStore) (now : ℚ) : Bool × PushStore :=
  let s := s.expire now
  (s.deliveries.length < maxDeliveries, s)

/-- The row that `enqueue` inserts for one target. -/
def newDelivery (eventId : Str) (payload : EventPayload) (now : ℚ) (epoch target : Str) :
    Delivery where
  eventId := eventId
  subscriptionId := target
  payload := payload
  expiresAt := min (now + 300) (payload.sourceTimestampMs / 1000 + 300)
  nextAt := now
  attempts := 0
  epoch := epoch

/-- `INSERT OR IGNORE INTO deliveries`: a row with the same primary key stays. -/
def insertDelivery (rows : List Delivery) (row : Delivery) : List Delivery :=
  if rows.any (Delivery.isFor row.eventId row.subscriptionId) then rows else rows ++ [row]

/-- The rows after one insertion for each target. -/
def insertDeliveries (rows : List Delivery) (eventId : Str) (payload : EventPayload) (now : ℚ)
    (epoch : Str) (targets : List Str) : List Delivery :=
  targets.foldl (fun rows target => insertDelivery rows (newDelivery eventId payload now epoch target))
    rows

/-- The targets there is room for. -/
def targetsWithin (s : PushStore) (targets : List Str) : List Str :=
  targets.take (maxDeliveries - s.deliveries.length)

/-- The transaction of `enqueue`. -/
def reserve (s : PushStore) (eventId : Str) (payload : EventPayload) (targets : List Str) (now : ℚ)
    (epoch : Str) : Except StoreError (Bool × PushStore) :=
  match (s.expire now).remember eventId now with
  | (false, s) => .ok (false, s)
  | (true, s) =>
    let targets := s.targetsWithin targets
    if targets.all fun t => (s.get t).isSome then
      .ok (true, { s with
        deliveries := insertDeliveries s.deliveries eventId payload now epoch targets })
    else .error .foreignKey

/-- `enqueue`. -/
def enqueue (s : PushStore) (eventId : Str) (payload : EventPayload) (targets : List Str) (now : ℚ)
    (epoch : Str) : Except StoreError (Bool × PushStore) :=
  match payload.size? with
  | none => .error .unencodable
  | some size =>
    if maxPayloadBytes < size then .error .payloadLimit
    else s.reserve eventId payload targets now epoch

/-- The epoch of test deliveries, which no retirement touches. -/
def testEpoch : Str := Str.lit "test"

/-- `retire_epochs`. -/
def retireEpochs (s : PushStore) (epoch : Str) : PushStore :=
  { s with deliveries := s.deliveries.filter fun d => d.epoch = epoch || d.epoch = testEpoch }

/-- The rows that are due first: `WHERE next_at<=? ORDER BY next_at`, with its ties. -/
def dueFirst (s : PushStore) (now : ℚ) : List Delivery :=
  let due := s.deliveries.filter fun d => d.nextAt ≤ now
  due.filter fun d => due.all fun e => d.nextAt ≤ e.nextAt

/-- The row `next_delivery` returns; `tie` chooses between rows that are due equally early. -/
def due (s : PushStore) (now : ℚ) (tie : Nat) : Option Delivery :=
  let rows := s.dueFirst now
  rows[tie % rows.length]?

/-- Sets the time of the next attempt: the claim of a row. -/
def claim (s : PushStore) (d : Delivery) (nextAt : ℚ) : PushStore :=
  { s with deliveries := s.deliveries.map fun e =>
      if e.isFor d.eventId d.subscriptionId then { e with nextAt := nextAt } else e }

/-- `next_delivery(now, claim=True)`: the row as it was before the claim. -/
def nextDelivery (s : PushStore) (now : ℚ) (tie : Nat) : Option Delivery × PushStore :=
  let s := s.expire now
  match s.due now tie with
  | none => (none, s)
  | some d => (some d, s.claim d (now + 30))

/-- `owns_delivery`. -/
def ownsDelivery (s : PushStore) (delivery : Delivery) (now : ℚ) : Bool :=
  match s.deliveries.find? (Delivery.isFor delivery.eventId delivery.subscriptionId) with
  | none => false
  | some row =>
    row.epoch = delivery.epoch && row.attempts = delivery.attempts && decide (now < row.expiresAt)

/-- `UPDATE deliveries SET attempts=attempts+1,next_at=?`, for one row. -/
def retried (theRow : Delivery → Bool) (time : ℚ) (d : Delivery) : Delivery :=
  if theRow d then { d with attempts := d.attempts + 1, nextAt := time } else d

/-- `finish`. -/
def finish (s : PushStore) (delivery : Delivery) (retryAt : Option ℚ) : PushStore :=
  let theRow := Delivery.isFor delivery.eventId delivery.subscriptionId
  match retryAt with
  | none => { s with deliveries := s.deliveries.filter fun d => !theRow d }
  | some time =>
    if 2 ≤ delivery.attempts then { s with deliveries := s.deliveries.filter fun d => !theRow d }
    else { s with deliveries := s.deliveries.map (retried theRow time) }

end PushStore

end InverterDashboard.Push
