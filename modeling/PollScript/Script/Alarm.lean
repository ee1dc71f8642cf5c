/-!
# Alarm levels

A reading is compared with three thresholds and gets one of four levels. The
rule is a list of clauses, each a half-open band with its level. It is used
twice: it classifies a reading, and it is printed as the helper function that
scripts call.
-/

namespace PollScript.Script

inductive AlarmLevel where
  | lv0
  | lv1
  | lv2
  | lv3
deriving DecidableEq, Repr

def AlarmLevel.name : AlarmLevel → String
  | .lv0 => "LV0"
  | .lv1 => "LV1"
  | .lv2 => "LV2"
  | .lv3 => "LV3"

namespace Alarm

inductive Threshold where
  | lv1
  | lv2
  | lv3
deriving DecidableEq, Repr

/-- The name of a threshold, as a parameter of the helper function (`param`). -/
def Threshold.parameter : Threshold → String
  | .lv1 => "lv1"
  | .lv2 => "lv2"
  | .lv3 => "lv3"

/-- The thresholds at which the lowest, the middle and the highest alarm begin.
    -/
structure Thresholds where
  lv1 : Float
  lv2 : Float
  lv3 : Float
deriving DecidableEq

def Thresholds.get (thresholds : Thresholds) : Threshold → Float
  | .lv1 => thresholds.lv1
  | .lv2 => thresholds.lv2
  | .lv3 => thresholds.lv3

/-- A band of readings with its level: from `lower` on, and below `upper` if
    there is an upper end. -/
structure Clause where
  level : AlarmLevel
  lower : Threshold
  upper : Option Threshold
deriving DecidableEq, Repr

/-- The rule (`CLAUSES`). The first clause whose band holds the reading decides,
    and a reading in no band has no alarm. -/
def clauses : List Clause :=
  [⟨.lv1, .lv1, some .lv2⟩, ⟨.lv2, .lv2, some .lv3⟩, ⟨.lv3, .lv3, none⟩]

/-- Whether a reading lies in the band of a clause. -/
def Clause.holds (clause : Clause) (value : Float) (thresholds : Thresholds) : Bool :=
  thresholds.get clause.lower ≤ value &&
    match clause.upper with
    | some upper => value < thresholds.get upper
    | none => true

/-- The level of a reading (`evaluate`). -/
def evaluate (value : Float) (thresholds : Thresholds) : AlarmLevel :=
  match clauses.find? (·.holds value thresholds) with
  | some clause => clause.level
  | none => .lv0

/-! ## The helper function -/

def helperName : String := "evaluate_alarm"

/-- The condition of a clause. -/
def Clause.condition (clause : Clause) : String :=
  "val >= " ++ clause.lower.parameter ++
    match clause.upper with
    | some upper => " and val < " ++ upper.parameter
    | none => ""

/-- One branch of the helper function. -/
def branch (indent introduction : String) (level : AlarmLevel) : String :=
  indent ++ introduction ++ ":\n" ++ indent ++ indent ++ "return \"" ++ level.name ++ "\"\n"

/-- A clause as a branch, of which only the first begins with `if`. -/
def Clause.branch (indent : String) (clause : Clause) (first : Bool) : String :=
  Alarm.branch indent ((if first then "if " else "elif ") ++ clause.condition) clause.level

/-- The branches of the clauses. -/
def branches (indent : String) : List Clause → String
  | [] => ""
  | first :: rest =>
    rest.foldl (fun code clause => code ++ clause.branch indent false) (first.branch indent true)

/-- The source of the helper function, with the given unit of indentation
    (`helper_definition`). -/
def helperDefinition (indent : String) : String :=
  "def " ++ helperName ++ "(val, lv1, lv2, lv3):\n" ++ branches indent clauses ++
    branch indent "else" .lv0

end Alarm

end PollScript.Script
