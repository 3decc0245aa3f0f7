import AlertFilter.Json.Printer
import AlertFilter.Text.LowerCase

/-!
# The field palette

The alert fields that the editor offers, with the range a slider covers. A step made from one starts
out with its label and with the knowledge whether an absolute value makes sense for it.
-/

namespace AlertFilter

structure Field where
  id : String
  label : String
  description : String
  path : String
  min : Binary64
  max : Binary64
  step : Binary64
  hasAbs : Bool

namespace Field

/-- The floating-point number nearest to `z / 10 ^ places`. -/
def decimal (z : Int) (places : Nat) : Binary64 :=
  (Binary64.ofRatio? (z < 0) ⟨z.natAbs, Nat.pow 10 places⟩).getD (.zero false)

def realBogus : Field :=
  { id := "rb"
    label := "Real/Bogus Score"
    description := "ML score indicating if the detected object is real (1) or an artifact (0)"
    path := "rb"
    min := decimal 0 0
    max := decimal 1 0
    step := decimal 1 1
    hasAbs := false }

def deepRealBogus : Field :=
  { id := "drb"
    label := "Deep Learning R/B Score"
    description := "Deep learning model score for real (1) vs artifact (0) classification"
    path := "drb"
    min := decimal 0 0
    max := decimal 1 0
    step := decimal 1 1
    hasAbs := false }

def galacticLatitude : Field :=
  { id := "galactic_latitude"
    label := "Galactic Latitude"
    description := "Angular distance from the galactic plane in degrees"
    path := "galactic_latitude"
    min := decimal (-90) 0
    max := decimal 90 0
    step := decimal 1 0
    hasAbs := true }

def julianDate : Field :=
  { id := "jd"
    label := "Julian Date"
    description := "Julian Date of the detection"
    path := "jd"
    min := decimal 2450000 0
    max := decimal 2459000 0
    step := decimal 1 0
    hasAbs := false }

def startJulianDate : Field :=
  { id := "jdstarthist"
    label := "Start Julian Date"
    description := "Start Julian Date of the detection history"
    path := "jdstarthist"
    min := decimal 2450000 0
    max := decimal 2459000 0
    step := decimal 1 0
    hasAbs := false }

def all : List Field := [realBogus, deepRealBogus, galacticLatitude, julianDate, startJulianDate]

def ofId? (id : String) : Option Field := all.find? (·.id = id)

def search (query : String) : List Field :=
  all.filter fun f => Text.matchesQuery query f.label || Text.matchesQuery query f.description

def toJson (f : Field) : Json :=
  .object [("id", .text f.id), ("label", .text f.label), ("description", .text f.description),
    ("field", .text f.path), ("min", .number (.float f.min)), ("max", .number (.float f.max)),
    ("step", .number (.float f.step)), ("hasAbs", .bool f.hasAbs)]

end Field

inductive CatalogError where
  | unknownOperator (code : String)
  | unknownField (id : String)

def CatalogError.message : CatalogError → String
  | .unknownOperator code => "Unknown operator: " ++ code
  | .unknownField id => "Unknown field: " ++ id

end AlertFilter
