import GuardedWrites.Rate.Breaker
import GuardedWrites.Rate.Outcome
import GuardedWrites.Rate.Rule

/-!
# Rules and reports as JSON

A rule is one object: its algorithm is named by the member `type`, the parameters stand beside it,
and the id, if there is one, comes first. A member that belongs to no part must at least be
readable.
-/

namespace GuardedWrites

open Written

instance : Format WindowLimit where
  write l := .obj [("max", .ofNat l.max), ("window_secs", .ofNat l.windowSecs)]
  read w := do
    let p ← w.parts? ["max", "window_secs"] false
    let max ← p.required 0 nat?
    let secs ← p.required 1 nat?
    return ⟨max, secs⟩

instance : Format (BucketLimit Float) where
  write l := .obj [("capacity", .ofNat l.capacity), ("refill_rate_per_sec", .ofFloat l.refillRate)]
  read w := do
    let p ← w.parts? ["capacity", "refill_rate_per_sec"] false
    let capacity ← p.required 0 nat?
    let rate ← p.required 1 float?
    return ⟨capacity, rate⟩

namespace Algorithm

/-- The algorithms by name. -/
inductive Kind where
  | window
  | bucket

/-- The names of the algorithms. -/
def kinds : List (String × Kind) := [("sliding_window", .window), ("token_bucket", .bucket)]

/-- The members of a rule for its algorithm. -/
def members : Algorithm Float → List (String × Json)
  | .window l =>
    [("type", .str "sliding_window"), ("max", .ofNat l.max), ("window_secs", .ofNat l.windowSecs)]
  | .bucket l =>
    [("type", .str "token_bucket"), ("capacity", .ofNat l.capacity),
      ("refill_rate_per_sec", .ofFloat l.refillRate)]

/-- The parameters of an algorithm. -/
def readKind (w : Written) : Kind → Option (Algorithm Float)
  | .window => (Format.read w).map .window
  | .bucket => (Format.read w).map .bucket

/-- The algorithm among the members of an object; `kind?` reads the member that names it. -/
def ofMembers? (kind? : Written → Option Kind) (members : List (Option String × Written)) :
    Option (Algorithm Float) := do
  let ms ← named? members
  let kind ← match ms.filter fun m => m.1 == "type" with
    | [m] => kind? m.2
    | _ => none
  let rest := ms.filter fun m => m.1 != "type"
  if rest.all fun m => m.2.value?.isSome then
    readKind (.obj false (rest.map fun m => (some m.1, m.2))) kind
  else none

/-- An algorithm by its name. -/
def kindName? : Written → Option Kind
  | .str (some s) => kinds.lookup s
  | _ => none

/-- An algorithm by its name or by its place among the algorithms. -/
def kindNameOrPlace? : Written → Option Kind
  | .num (some (.natural n)) => (kinds[n]?).map Prod.snd
  | w => kindName? w

end Algorithm

instance : Format (Algorithm Float) where
  write a := .obj a.members
  read
    | .obj false members => Algorithm.ofMembers? Algorithm.kindName? members
    | .arr false (name :: rest) => do
      let kind ← Algorithm.kindName? name
      if rest.all fun w => w.value?.isSome then Algorithm.readKind (.arr false rest) kind else none
    | _ => none

instance : Format (Rule Float) where
  write r := .obj ((r.id.map fun id => ("id", Json.str id)).toList ++ r.algorithm.members)
  read
    | .obj false members => do
      let ms ← named? members
      let id ← match ms.filter fun m => m.1 == "id" with
        | [] => some none
        | [m] => option? text? m.2
        | _ => none
      let algorithm ← Algorithm.ofMembers? Algorithm.kindNameOrPlace?
        (members.filter fun m => m.1 != some "id")
      return ⟨id, algorithm⟩
    | _ => none

instance : Format Verdict where
  write v := .obj [("allowed", .bool v.allowed), ("remaining", .ofNat v.remaining),
    ("retry_after_secs", .ofFloat v.retryAfterSecs)]
  read w := do
    let p ← w.parts? ["allowed", "remaining", "retry_after_secs"] false
    let allowed ← p.required 0 bool?
    let remaining ← p.required 1 nat?
    let secs ← p.required 2 float?
    return ⟨allowed, remaining, secs⟩

instance : Format RuleStatus where
  write s := .obj [("label", .str s.label), ("limit", .ofNat s.limit), ("used", .ofNat s.used),
    ("remaining", .ofNat s.remaining), ("retry_after_secs", .ofFloat s.retryAfterSecs)]
  read w := do
    let p ← w.parts? ["label", "limit", "used", "remaining", "retry_after_secs"] false
    let label ← p.required 0 text?
    let limit ← p.required 1 nat?
    let used ← p.required 2 nat?
    let remaining ← p.required 3 nat?
    let secs ← p.required 4 float?
    return ⟨label, limit, used, remaining, secs⟩

/-- The name of the place that answered. -/
def ServedBy.name : ServedBy → String
  | .remote => "Remote"
  | .here => "Local"

instance : Format ServedBy where
  write s := .str s.name
  read := choice? [("Remote", .remote), ("Local", .here)]

instance : Format StatusReport where
  write r := .obj [("key", .str r.key), ("rules", .arr (r.rules.map Format.write)),
    ("served_by", Format.write r.servedBy)]
  read w := do
    let p ← w.parts? ["key", "rules", "served_by"] false
    let key ← p.required 0 text?
    let rules ← p.required 1 (list? Format.read)
    let servedBy ← p.required 2 Format.read
    return ⟨key, rules, servedBy⟩

/-- The name of a state of health. -/
def Health.name : Health → String
  | .healthy => "Healthy"
  | .degraded => "Degraded"
  | .probing => "Probing"

instance : Format Health where
  write h := .str h.name
  read := choice? [("Healthy", .healthy), ("Degraded", .degraded), ("Probing", .probing)]

instance : Format HealthConfig where
  write c := .obj [("failure_threshold", .ofNat c.failureThreshold),
    ("reprobe_after", .ofOption Format.write c.reprobeAfter)]
  read w := do
    let p ← w.parts? ["failure_threshold", "reprobe_after"] false
    let threshold ← p.orElse 0 HealthConfig.standard.failureThreshold nat32?
    let reprobe ← p.orElse 1 HealthConfig.standard.reprobeAfter (option? Format.read)
    return ⟨threshold, reprobe⟩

end GuardedWrites
