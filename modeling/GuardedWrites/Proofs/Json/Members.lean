import GuardedWrites.Json.Format

/-!
# Objects as records

The members of an object that holds data stand in the order of their names, and every change of them
keeps it so. Such an object has one value for each name, and a record is read from it by looking the
names up.

* `Fields.Ascending` — the names are in order; `Fields.Ascending.insert` and its kin say that they
  stay so;
* `Fields.get?_merge` — a look-up after a patch;
* `Written.Parts.ofFields`, `Written.parts?_ofJson` — the parts of a record in an object.
-/

namespace GuardedWrites

namespace Fields

/-- The names are in ascending order, so each of them stands once. -/
def Ascending (fs : Fields) : Prop := fs.Pairwise fun a b => a.1 < b.1

variable {fs patch : Fields} {name : String} {value : Json}

theorem mem_insert {m : String × Json} (h : m ∈ insert name value fs) :
    m = (name, value) ∨ m ∈ fs := by
  induction fs with
  | nil => exact .inl (List.mem_singleton.1 h)
  | cons e rest ih =>
    obtain ⟨other, v⟩ := e
    simp only [insert] at h
    split at h
    · exact (List.mem_cons.1 h).imp_right (List.mem_cons_of_mem _)
    · split at h
      · exact List.mem_cons.1 h
      · rcases List.mem_cons.1 h with rfl | h
        · exact .inr List.mem_cons_self
        · exact (ih h).imp_right (List.mem_cons_of_mem _)

namespace Ascending

theorem nil : Ascending [] := List.Pairwise.nil

theorem insert (h : fs.Ascending) (name : String) (value : Json) :
    (fs.insert name value).Ascending := by
  induction fs with
  | nil => exact List.pairwise_singleton _ _
  | cons e rest ih =>
    obtain ⟨other, v⟩ := e
    obtain ⟨hfirst, hrest⟩ := List.pairwise_cons.1 h
    by_cases hsame : other = name
    · subst hsame
      rw [Fields.insert, if_pos rfl]
      exact List.pairwise_cons.2 ⟨hfirst, hrest⟩
    · by_cases hlt : name < other
      · rw [Fields.insert, if_neg hsame, if_pos hlt]
        refine List.pairwise_cons.2 ⟨fun m hm => ?_, h⟩
        rcases List.mem_cons.1 hm with rfl | hm
        · exact hlt
        · exact String.lt_trans hlt (hfirst m hm)
      · rw [Fields.insert, if_neg hsame, if_neg hlt]
        refine List.pairwise_cons.2 ⟨fun m hm => ?_, ih hrest⟩
        rcases mem_insert hm with rfl | hm
        · -- the order of names is total
          refine Decidable.byContradiction fun hge => hsame ?_
          exact String.le_antisymm (String.not_lt.1 hlt) (String.not_lt.1 hge)
        · exact hfirst m hm

theorem erase (h : fs.Ascending) (name : String) : (fs.erase name).Ascending := h.filter _

theorem merge (h : fs.Ascending) (patch : Fields) : (fs.merge patch).Ascending := by
  unfold Fields.merge
  induction patch generalizing fs with
  | nil => exact h
  | cons m patch ih => exact ih (h.insert m.1 m.2)

theorem ofList (members : List (String × Json)) :
    (Fields.ofList members).Ascending := nil.merge members

theorem nodup (h : fs.Ascending) : (fs.map Prod.fst).Nodup := by
  refine List.pairwise_map.2 (List.Pairwise.imp ?_ h)
  rintro a b hlt he
  exact String.lt_irrefl _ (he ▸ hlt)

end Ascending

theorem get?_eq_none (h : name ∉ fs.map Prod.fst) : get? name fs = none := by
  induction fs with
  | nil => rfl
  | cons m rest ih =>
    obtain ⟨hm, hrest⟩ := not_or.1 (mt List.mem_cons.2 h)
    rw [get?, if_neg (Ne.symm hm), ih hrest]

/-- After a patch a name has the value that the patch gives it, if it gives it one. -/
theorem get?_merge (h : (patch.map Prod.fst).Nodup) :
    (fs.merge patch).get? name = (patch.get? name).or (fs.get? name) := by
  unfold merge
  induction patch generalizing fs with
  | nil => rfl
  | cons m patch ih =>
    obtain ⟨hm, hpatch⟩ := List.nodup_cons.1 h
    rw [List.foldl_cons, ih hpatch, get?_insert, get?]
    by_cases hname : m.1 = name
    · subst hname
      rw [if_pos rfl, if_pos rfl, get?_eq_none hm]
      rfl
    · rw [if_neg hname, if_neg hname]

theorem get?_ofList {members : List (String × Json)} (h : (members.map Prod.fst).Nodup) :
    (ofList members).get? name = Fields.get? name members := by
  show (merge [] members).get? name = _
  rw [get?_merge h]
  exact Option.or_none

end Fields

namespace Written

variable {fs : Fields} {names : List String} {name : String}

/-- A member as it is written. -/
def ofMember (m : String × Json) : String × Written := (m.1, ofJson m.2)

theorem named?_ofMembers (fs : Fields) : named? (ofMembers fs) = some (fs.map ofMember) := by
  induction fs with
  | nil => rfl
  | cons m rest ih =>
    obtain ⟨name, v⟩ := m
    rw [ofMembers, named?, ih]
    rfl

/-- Of names that are all different none stands twice. -/
theorem length_filter_le_one {ms : List (String × Written)} (h : (ms.map Prod.fst).Nodup)
    (name : String) :
    (ms.filter fun m => m.1 == name).length ≤ 1 := by
  have hcount := List.nodup_iff_count.1 h name
  rw [List.count_eq_countP, List.countP_map, List.countP_eq_length_filter] at hcount
  exact hcount

/-- A name that is asked for is looked up. -/
theorem find?_known (hname : name ∈ names) :
    ((fs.map ofMember).filter fun m => names.contains m.1).find? (fun m => m.1 == name) =
      (fs.get? name).map fun v => (name, ofJson v) := by
  induction fs with
  | nil => rfl
  | cons m rest ih =>
    obtain ⟨other, v⟩ := m
    by_cases hother : other = name
    · subst hother
      have hknown : names.contains other = true := List.contains_iff_mem.2 hname
      simp [ofMember, Fields.get?, hname]
    · rw [Fields.get?, if_neg hother, ← ih]
      by_cases hknown : other ∈ names
      · simp [ofMember, hknown, hother]
      · simp [ofMember, hknown]

/-- The parts of a record in an object that holds data: each name is looked up. -/
def Parts.ofFields (names : List String) (fs : Fields) : Parts :=
  ⟨fun i => (names[i]?).bind fun name => (fs.get? name).map ofJson, false⟩

theorem Parts.required_ofFields {α : Type} {i : Nat} {v : Json} (read : Written → Option α)
    (hi : names[i]? = some name) (hv : fs.get? name = some v) :
    (ofFields names fs).required i read = read (ofJson v) := by
  show ((names[i]?).bind fun name => (fs.get? name).map ofJson).bind read = _
  rw [hi, Option.bind_some, hv, Option.map_some, Option.bind_some]

theorem parts?_ofJson (h : fs.Ascending) (names : List String) :
    (ofJson (.obj fs)).parts? names false = some (.ofFields names fs) := by
  have hnodup : (((fs.map ofMember).filter fun m => names.contains m.1).map Prod.fst).Nodup := by
    refine List.Nodup.sublist (List.filter_sublist.map Prod.fst) ?_
    rw [List.map_map]
    exact h.nodup
  have honce : (names.any fun n =>
      decide (1 < (((fs.map ofMember).filter fun m => names.contains m.1).filter fun m =>
        m.1 == n).length)) = false := by
    refine List.any_eq_false.2 fun n _ => ?_
    simpa using length_filter_le_one hnodup n
  rw [ofJson, parts?]
  simp only [named?_ofMembers, Option.bind_eq_bind, Option.bind_some, Bool.false_and,
    Bool.false_eq_true, if_false, honce]
  refine congrArg (fun at? => some (⟨at?, false⟩ : Parts)) (funext fun i => ?_)
  cases hi : names[i]? with
  | none => rfl
  | some name =>
    rw [Option.bind_some, Option.bind_some, find?_known (List.mem_of_getElem? hi), Option.map_map]
    rfl

end Written

end GuardedWrites
