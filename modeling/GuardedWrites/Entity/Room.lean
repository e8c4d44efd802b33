import GuardedWrites.Entity.Versioned

/-!
# Rooms

The rooms of a hostel, the entity that many callers change at once, and partial changes of a room.

* `Room.change` — the room after a change: every field that the change sets replaces the old one.
-/

namespace GuardedWrites

/-- Whether a room can be booked. -/
inductive RoomStatus where
  | available
  | maintenance
  | retired
deriving DecidableEq

/-- A bookable room. -/
structure Room where
  id : String
  name : String
  capacity : UInt32
  pricePerNightCents : UInt64
  status : RoomStatus
deriving DecidableEq

/-- A partial change of a room; what is none stays. -/
structure RoomChanges where
  name : Option String
  capacity : Option UInt32
  pricePerNightCents : Option UInt64
  status : Option RoomStatus
deriving DecidableEq

namespace RoomStatus

/-- The name of a status. -/
def text : RoomStatus → String
  | .available => "available"
  | .maintenance => "maintenance"
  | .retired => "retired"

/-- The statuses by name. -/
def names : List (String × RoomStatus) :=
  [("available", .available), ("maintenance", .maintenance), ("retired", .retired)]

end RoomStatus

namespace Room

/-- The room after a change. -/
def change (r : Room) (c : RoomChanges) : Room :=
  { r with
    name := c.name.getD r.name
    capacity := c.capacity.getD r.capacity
    pricePerNightCents := c.pricePerNightCents.getD r.pricePerNightCents
    status := c.status.getD r.status }

/-- The members of a room in the order of its declaration. -/
def members (r : Room) : List (String × Json) :=
  [("id", .str r.id), ("name", .str r.name), ("capacity", .ofNat r.capacity.toNat),
    ("price_per_night_cents", .ofNat r.pricePerNightCents.toNat), ("status", .str r.status.text)]

end Room

/-- The members that a change sets. -/
def RoomChanges.members (c : RoomChanges) : List (String × Json) :=
  (c.name.map fun s => ("name", Json.str s)).toList ++
  (c.capacity.map fun n => ("capacity", Json.ofNat n.toNat)).toList ++
  (c.pricePerNightCents.map fun n => ("price_per_night_cents", Json.ofNat n.toNat)).toList ++
  (c.status.map fun s => ("status", Json.str s.text)).toList

open Written

instance : Format RoomStatus where
  write s := .str s.text
  read := choice? RoomStatus.names

instance : Format Room where
  write r := .obj r.members
  read w := do
    let p ← w.parts? ["id", "name", "capacity", "price_per_night_cents", "status"] false
    let id ← p.required 0 text?
    let name ← p.required 1 text?
    let capacity ← p.required 2 nat32?
    let price ← p.required 3 nat?
    let status ← p.required 4 Format.read
    return ⟨id, name, .ofNat capacity, .ofNat price, status⟩

instance : Format RoomChanges where
  write c := .obj c.members
  read w := do
    let p ← w.parts? ["name", "capacity", "price_per_night_cents", "status"] false
    let name ← p.orNull 0 (option? text?)
    let capacity ← p.orNull 1 (option? nat32?)
    let price ← p.orNull 2 (option? nat?)
    let status ← p.orNull 3 (option? Format.read)
    return ⟨name, capacity.map .ofNat, price.map .ofNat, status⟩

instance {α : Type} [Format α] : Format (Versioned α) where
  write v := .obj [("entity", Format.write v.entity), ("version", .ofNat v.version.toNat)]
  read w := do
    let p ← w.parts? ["entity", "version"] false
    let entity ← p.required 0 Format.read
    let version ← p.required 1 nat?
    return ⟨entity, .ofNat version⟩

/-- The members of a room by name, each with what may be wrong with its value. -/
def Room.checks : List (String × (Json → Option Mismatch)) :=
  [("id", Mismatch.text?), ("name", Mismatch.text?),
    ("capacity", Mismatch.natBelow? UInt32.size "u32"),
    ("price_per_night_cents", Mismatch.natBelow? UInt64.size "u64"),
    ("status", Mismatch.name? (RoomStatus.names.map Prod.fst))]

/-- What is wrong with a value that is no room. The members that are there are judged first, in the
order in which they stand; then the first one that is missing. -/
def Room.mismatch : Json → Mismatch
  | .obj fs =>
    let wrong := fs.findSome? fun m => (Room.checks.lookup m.1).bind fun check => check m.2
    let absent := (Room.checks.map Prod.fst).find? fun name => !Fields.has name fs
    (wrong.or (absent.map .missing)).getD (.kind (.obj fs) "struct Room")
  | v => .kind v "struct Room"

instance : Entity Room where
  Changes := RoomChanges
  table := "rooms"
  id := Room.id
  toJson r := .obj (Fields.ofList r.members)
  ofJson v := ((Format.ofJson? v).map .ok).getD (.error (Room.mismatch v))
  changesToJson c := .obj (Fields.ofList c.members)

end GuardedWrites
