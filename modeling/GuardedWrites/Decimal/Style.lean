import GuardedWrites.Decimal.Shortest

/-!
# Writing numbers with a fraction

A `Style` holds the decisions of one output format: which decimal exponents are written
positionally, whether a whole number keeps its `.0`, and the words for values that are no numbers.
`Style.plain` is used in labels, `Style.json` in JSON text, `Style.argument` in commands to a
server.
-/

namespace GuardedWrites.Decimal

/-- How one format writes numbers. -/
structure Style where
  positional : Int → Bool
  keepPoint : Bool
  plusSign : Bool
  tie : Tie
  notANumber : String
  infinite : String

/-- A run of zeros. -/
def zeros (n : Nat) : String := String.ofList (List.replicate n '0')

/-- The digits of a decimal with the point in its place. -/
def positionalText (keepPoint : Bool) (d : Scientific) : String :=
  let ds := (toString d.digits).toList
  if 0 ≤ d.exponent then
    String.ofList ds ++ zeros d.exponent.toNat ++ (if keepPoint then ".0" else "")
  else
    let places := (-d.exponent).toNat
    if places < ds.length then
      String.ofList (ds.take (ds.length - places)) ++ "." ++
        String.ofList (ds.drop (ds.length - places))
    else
      "0." ++ zeros (places - ds.length) ++ String.ofList ds

/-- The digits of a decimal with the point after the first one, and an exponent; one that is not
negative may have a plus sign. -/
def exponentText (plusSign : Bool) (d : Scientific) : String :=
  let ds := (toString d.digits).toList
  let e := d.exponent + ds.length - 1
  let tail := ds.drop 1
  String.ofList (ds.take 1) ++ (if tail.isEmpty then "" else "." ++ String.ofList tail) ++
    "e" ++ (if e < 0 then "-" else if plusSign then "+" else "") ++ toString e.natAbs

namespace Style

/-- The text of a number. -/
def write (n : Style) (x : Float) : String :=
  match Binary.ofFloat? x with
  | none => if x.isNaN then n.notANumber else (if x < 0 then "-" else "") ++ n.infinite
  | some b =>
    let sign := if b.negative then "-" else ""
    if b.significand = 0 then sign ++ (if n.keepPoint then "0.0" else "0")
    else
      let d := shortest n.tie b
      let e := d.exponent + (toString d.digits).length - 1
      sign ++ (if n.positional e then positionalText n.keepPoint d else exponentText n.plusSign d)

/-- Labels: always positional, whole numbers without a point, a tie goes up. -/
def plain : Style := ⟨fun _ => true, false, false, .up, "NaN", "inf"⟩

/-- JSON: positional from `1e-5` up to below `1e+16`, always with a point or an exponent; a value
that is no number is written as null. -/
def json : Style := ⟨fun e => -5 ≤ e && e < 16, true, true, .toEven, "null", "null"⟩

/-- Arguments of commands: as in JSON, but without the plus sign of an exponent and with words for
values that are no numbers. -/
def argument : Style := ⟨json.positional, true, false, .toEven, "NaN", "inf"⟩

end Style

/-- The text of a number with two places, a half going to the even neighbour. -/
def twoPlaces (x : Float) : String :=
  match Binary.ofFloat? x with
  | none => if x.isNaN then "NaN" else (if x < 0 then "-inf" else "inf")
  | some b =>
    let r := b.ratio 100
    let hundredths := roundDiv .toEven r.1 r.2
    let cents := hundredths % 100
    (if b.negative then "-" else "") ++ toString (hundredths / 100) ++ "." ++
      (if cents < 10 then "0" else "") ++ toString cents

end GuardedWrites.Decimal
