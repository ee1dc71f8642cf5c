import PollScript.Decimal.Shortest

/-!
# Layouts of decimals

How the shortest decimal of a double is written: where positional notation
ends, whether a whole number keeps a fraction, and the words for the values
that are not numbers. A layout collects these decisions in one record.

Results:

* `text_zero`: zero is written without a fraction.
-/

namespace PollScript.Decimal

/-- The decisions of a number format. -/
structure Layout where
  tie : Tie
  wholeSuffix : List Char
  /-- Whether a number whose leading digit stands at this power of ten is
      written without an exponent. -/
  positional : Int → Bool

/-- Positional notation throughout, and no fraction after a whole number. -/
def Layout.plain : Layout where
  tie := .up
  wholeSuffix := []
  positional _ := true

/-- Digits in positional notation. -/
def Digits.positional (d : Digits) (wholeSuffix : List Char) : List Char :=
  if d.point ≤ 0 then
    ['0', '.'] ++ List.replicate (-d.point).toNat '0' ++ d.digits
  else if (d.digits.length : Int) ≤ d.point then
    d.digits ++ List.replicate (d.point.toNat - d.digits.length) '0' ++ wholeSuffix
  else
    d.digits.take d.point.toNat ++ ['.'] ++ d.digits.drop d.point.toNat

/-- Digits with one of them before the point, and an exponent whose sign is
    always written. -/
def Digits.scientific (d : Digits) : List Char :=
  let place := d.point - 1
  let fraction := match d.digits.drop 1 with
    | [] => []
    | rest => '.' :: rest
  d.digits.take 1 ++ fraction ++ ['e', if place < 0 then '-' else '+'] ++
    Nat.toDigits 10 place.natAbs

/-- Digits in the notation that the layout prescribes. -/
def Layout.magnitude (layout : Layout) (d : Digits) : List Char :=
  if layout.positional (d.point - 1) then d.positional layout.wholeSuffix else d.scientific

/-- The minus sign of a negative number. -/
def signText : Float.Model.UnpackedFloat.Sign → List Char
  | .negative => ['-']
  | .positive => []

/-- The text of an unpacked double. -/
def Layout.chars (layout : Layout) : Float.Model.UnpackedFloat → List Char
  | .notANumber => ['N', 'a', 'N']
  | .infinity sign => signText sign ++ ['i', 'n', 'f']
  | .zero sign => signText sign ++ ['0'] ++ layout.wholeSuffix
  | .finite sign significand exponent _ =>
    signText sign ++ layout.magnitude (shortest layout.tie significand exponent)

def Layout.text (layout : Layout) (x : Float) : String :=
  String.ofList (layout.chars x.toModel.unpack)

/-- The shortest text of a double in positional notation. -/
def display (x : Float) : String :=
  Layout.plain.text x

/-- Zero is written without a fraction. -/
theorem text_zero : display 0 = "0" := by decide +kernel

end PollScript.Decimal
