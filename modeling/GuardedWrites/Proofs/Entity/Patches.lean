import GuardedWrites.Entity.Room
import GuardedWrites.Proofs.Database.History
import GuardedWrites.Proofs.Json.Members

/-!
# Patches of rows are changes of rooms

A room is kept as a row, and a change of a room as a patch of its fields. Patching the row and
changing the room come to the same: what is read off the patched row is the changed room, with its
id, at a version that counts the patches.

* `Row.Holds` — a row that holds a room: its id, and the fields that the room has;
* `Row.Holds.apply` — the patch of a change makes it hold the changed room;
* `Row.Holds.decode` — what a row holds is what is read off it;
* `Room.patches_are_changes` — any number of changes of any room, one after another.
-/

namespace GuardedWrites

/-! ### Members that may be missing -/

namespace Fields

variable {α : Type} {name key : String} {write : α → Json} {a : Option α}

theorem get?_append (fs gs : Fields) : get? name (fs ++ gs) = (get? name fs).or (get? name gs) := by
  induction fs with
  | nil => rfl
  | cons m fs ih =>
    obtain ⟨other, v⟩ := m
    rw [List.cons_append, get?, get?, ih]
    split <;> rfl

theorem get?_optional :
    get? name (a.map fun x => (key, write x)).toList =
      if key = name then a.map write else none := by
  cases a with
  | none => exact (ite_self none).symm
  | some x => rfl

theorem optional_sublist : ((a.map fun x => (key, write x)).toList.map Prod.fst).Sublist [key] := by
  cases a with
  | none => exact List.nil_sublist _
  | some x => exact List.Sublist.refl _

end Fields

/-! ### The members of a room -/

namespace Room

variable {r : Room} {c : RoomChanges} {fs : Fields} {name : String}

theorem nodup_members (r : Room) : (r.members.map Prod.fst).Nodup := by
  show ["id", "name", "capacity", "price_per_night_cents", "status"].Nodup
  decide

theorem nodup_changes (c : RoomChanges) : (c.members.map Prod.fst).Nodup := by
  have hnames : ["name", "capacity", "price_per_night_cents", "status"].Nodup := by decide
  refine hnames.sublist ?_
  simp only [RoomChanges.members, List.map_append]
  exact ((Fields.optional_sublist.append Fields.optional_sublist).append
    Fields.optional_sublist).append
    Fields.optional_sublist

theorem get?_members (r : Room) (name : String) : Fields.get? name r.members =
    if "id" = name then some (.str r.id) else if "name" = name then some (.str r.name)
    else if "capacity" = name then some (.ofNat r.capacity.toNat)
    else if "price_per_night_cents" = name then some (.ofNat r.pricePerNightCents.toNat)
    else if "status" = name then some (.str r.status.text) else none := rfl

theorem get?_changes (c : RoomChanges) (name : String) : Fields.get? name c.members =
    (((if "name" = name then c.name.map .str else none).or
      (if "capacity" = name then c.capacity.map fun n => .ofNat n.toNat else none)).or
      (if "price_per_night_cents" = name
        then c.pricePerNightCents.map fun n => .ofNat n.toNat else none)).or
      (if "status" = name then c.status.map fun s => .str s.text else none) := by
  unfold RoomChanges.members
  rw [Fields.get?_append, Fields.get?_append, Fields.get?_append]
  rw [Fields.get?_optional, Fields.get?_optional, Fields.get?_optional, Fields.get?_optional]

/-- The changed room has what the change sets, and else what the room had. -/
theorem get?_change (r : Room) (c : RoomChanges) (name : String) :
    Fields.get? name (r.change c).members =
      (Fields.get? name c.members).or (Fields.get? name r.members) := by
  rw [get?_members, get?_members, get?_changes]
  by_cases hname : "name" = name
  · subst hname
    cases hc : c.name <;> simp [change, hc]
  by_cases hcapacity : "capacity" = name
  · subst hcapacity
    cases hc : c.capacity <;> simp [change, hc]
  by_cases hprice : "price_per_night_cents" = name
  · subst hprice
    cases hc : c.pricePerNightCents <;> simp [change, hc]
  by_cases hstatus : "status" = name
  · subst hstatus
    cases hc : c.status <;> simp [change, hc]
  · simp [change, hname, hcapacity, hprice, hstatus]

/-- A change sets neither the id nor the version. -/
theorem get?_changes_eq_none (h : name ∉ ["name", "capacity", "price_per_night_cents", "status"]) :
    Fields.get? name c.members = none := by
  simp only [List.mem_cons, List.not_mem_nil, or_false, not_or] at h
  obtain ⟨hname, hcapacity, hprice, hstatus⟩ := h
  simp [RoomChanges.members, Fields.get?_append, Fields.get?_optional, Ne.symm hname,
    Ne.symm hcapacity, Ne.symm hprice, Ne.symm hstatus]

theorem patch_eq (c : RoomChanges) :
    Entity.patch (α := Room) c = .ok (Fields.ofList c.members) := by
  have hnone : ∀ name ∉ ["name", "capacity", "price_per_night_cents", "status"],
      (Fields.ofList c.members).has name = false := by
    intro name hname
    rw [Fields.has_eq_isSome, Fields.get?_ofList (nodup_changes c), get?_changes_eq_none hname]
    rfl
  show Entity.patchOfJson (.obj (Fields.ofList c.members)) = _
  simp only [Entity.patchOfJson, Entity.members, bind, Except.bind,
    hnone Entity.versionField (by decide),
    hnone Entity.idField (by decide), Bool.false_eq_true, if_false]

/-- A status is read off its name. -/
theorem read_status (s : RoomStatus) : Format.read (Written.ofJson (.str s.text)) = some s := by
  cases s <;> rfl

/-- An object that has the members of a room is read as that room. -/
theorem read_members (hfs : fs.Ascending) (h : ∀ name, fs.get? name = Fields.get? name r.members) :
    Format.ofJson? (.obj fs) = some r := by
  let names := ["id", "name", "capacity", "price_per_night_cents", "status"]
  have hparts : (Written.ofJson (.obj fs)).parts? names false = some (.ofFields names fs) :=
      Written.parts?_ofJson hfs names
  have hid : (Written.Parts.ofFields names fs).required 0 Written.text? = some r.id :=
    Written.Parts.required_ofFields _ rfl (h "id")
  have hname : (Written.Parts.ofFields names fs).required 1 Written.text? = some r.name :=
    Written.Parts.required_ofFields _ rfl (h "name")
  have hcapacity : (Written.Parts.ofFields names fs).required 2 Written.nat32? =
      some r.capacity.toNat :=
    (Written.Parts.required_ofFields _ rfl (h "capacity")).trans
      (if_pos (Nat.le_pred_of_lt r.capacity.toNat_lt))
  have hprice : (Written.Parts.ofFields names fs).required 3 Written.nat? =
      some r.pricePerNightCents.toNat :=
    (Written.Parts.required_ofFields _ rfl (h "price_per_night_cents")).trans
      (if_pos (Nat.le_pred_of_lt r.pricePerNightCents.toNat_lt))
  have hstatus : (Written.Parts.ofFields names fs).required 4 Format.read = some r.status :=
    (Written.Parts.required_ofFields _ rfl (h "status")).trans (read_status r.status)
  refine Option.bind_eq_some_iff.2 ⟨_, hparts, ?_⟩
  refine Option.bind_eq_some_iff.2 ⟨_, hid, ?_⟩
  refine Option.bind_eq_some_iff.2 ⟨_, hname, ?_⟩
  refine Option.bind_eq_some_iff.2 ⟨_, hcapacity, ?_⟩
  refine Option.bind_eq_some_iff.2 ⟨_, hprice, ?_⟩
  refine Option.bind_eq_some_iff.2 ⟨_, hstatus, ?_⟩
  show some (Room.mk r.id r.name (.ofNat r.capacity.toNat)
    (.ofNat r.pricePerNightCents.toNat) r.status) = some r
  rw [UInt32.ofNat_toNat, UInt64.ofNat_toNat]

@[simp] theorem id_foldl_change (cs : List RoomChanges) (r : Room) :
    (cs.foldl change r).id = r.id := by
  induction cs generalizing r with
  | nil => rfl
  | cons c cs ih => exact ih (r.change c)

end Room

/-! ### Rows that hold rooms -/

namespace Row

variable {row : Row} {r : Room}

/-- A row that holds a room: under the id of the room, with the other fields that the room has. -/
structure Holds (row : Row) (r : Room) : Prop where
  id : row.id = r.id
  ascending : row.fields.Ascending
  fields : ∀ name ≠ Entity.idField, row.fields.get? name = Fields.get? name r.members

namespace Holds

theorem ofRoom (r : Room) (count : Option Nat) :
    (Row.mk r.id ((Fields.ofList r.members).erase Entity.idField) count).Holds r where
  id := rfl
  ascending := (Fields.Ascending.ofList _).erase _
  fields name hname := by
    rw [Fields.get?_erase, if_neg hname.symm, Fields.get?_ofList r.nodup_members]

/-- A patch makes the row hold the changed room. -/
theorem apply (h : row.Holds r) (c : RoomChanges) :
    (row.apply (Fields.ofList c.members)).Holds (r.change c) where
  id := h.id
  ascending := h.ascending.merge _
  fields name hname := by
    show (row.fields.merge _).get? name = _
    rw [Fields.get?_merge (Fields.Ascending.ofList _).nodup,
      Fields.get?_ofList (Room.nodup_changes c), h.fields name hname, Room.get?_change]

theorem foldl_apply (h : row.Holds r) (cs : List RoomChanges) :
    ((cs.map fun c => Fields.ofList c.members).foldl Row.apply row).Holds
      (cs.foldl Room.change r) := by
  induction cs generalizing row r with
  | nil => exact h
  | cons c cs ih => exact ih (h.apply c)

/-- What the row holds is read off it: the id of the row is put back among its fields. -/
theorem decode (h : row.Holds r) : Entity.decode row = .ok ⟨r, row.effectiveVersion⟩ := by
  have hmembers : ∀ name, (row.fields.insert Entity.idField (.str row.id)).get? name =
      Fields.get? name r.members := by
    intro name
    by_cases hname : Entity.idField = name
    · subst hname
      rw [Fields.get?_insert, if_pos rfl, h.id]
      rfl
    · rw [Fields.get?_insert, if_neg hname, h.fields name (Ne.symm hname)]
  have hread : Entity.ofJson (.obj (row.fields.insert Entity.idField (.str row.id))) = .ok r := by
    show ((Format.ofJson? _).map Except.ok).getD _ = _
    rw [Room.read_members (h.ascending.insert _ _) hmembers]
    rfl
  rw [Entity.decode, hread]

end Holds

end Row

namespace Room

/-- A room has no version among its members, so it can be kept as a row. -/
theorem encode_eq (r : Room) :
    Entity.encode r = .ok (.new r.id ((Fields.ofList r.members).erase Entity.idField)) := by
  have hversion :
      ((Fields.ofList r.members).erase Entity.idField).has Entity.versionField = false := by
    have hnames : Entity.versionField ∉
        ["id", "name", "capacity", "price_per_night_cents", "status"] := by
      decide
    rw [Fields.has_eq_isSome, Fields.get?_erase, if_neg (by decide),
      Fields.get?_ofList r.nodup_members,
      Fields.get?_eq_none (show _ ∉ r.members.map Prod.fst from hnames)]
    rfl
  show (bind (Entity.members (.obj (Fields.ofList r.members))) fun fs => _) = _
  simp only [Entity.members, bind, Except.bind, hversion, Bool.false_eq_true, if_false]
  rfl

theorem mapM_patch (cs : List RoomChanges) :
    cs.mapM (Entity.patch (α := Room)) = .ok (cs.map fun c => Fields.ofList c.members) := by
  induction cs with
  | nil => rfl
  | cons c cs ih =>
    simp only [List.mapM_cons, patch_eq, ih, bind, Except.bind, pure, Except.pure, List.map_cons]

/-- **Patching rows is changing rooms.** The row of a room and the patches of its changes are always
there, and what is read off the patched row is the room after the changes, in their order, at a
version that counts them, in the arithmetic of 64 bits. A row without a version counts them the
same. -/
theorem patches_are_changes (r : Room) (cs : List RoomChanges) : ∃ row patches,
    Entity.encode r = .ok row ∧ cs.mapM (Entity.patch (α := Room)) = .ok patches ∧
    (∀ count, count = row.count ∨ count = none →
      Entity.decode (patches.foldl Row.apply { row with count := count }) =
        .ok ⟨cs.foldl change r, .ofNat (1 + cs.length)⟩) ∧
    (cs.foldl change r).id = r.id := by
  refine ⟨_, _, encode_eq r, mapM_patch cs, fun count hcount => ?_, id_foldl_change cs r⟩
  have hheld := ((Row.Holds.ofRoom r count).foldl_apply cs).decode
  rw [Row.effectiveVersion_eq, Database.effectiveCount_foldl_apply, List.length_map] at hheld
  rcases hcount with rfl | rfl <;> exact hheld

end Room

end GuardedWrites
