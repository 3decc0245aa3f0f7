import AlertFilter.Json.Decoder
import AlertFilter.Text.Blank

/-!
# Connectors

Two neighbouring steps are joined by AND or by OR. Whatever is no OR is read as AND.
-/

namespace AlertFilter

inductive Connector where
  | and
  | or
deriving DecidableEq

namespace Connector

def symbol : Connector → String
  | and => "$and"
  | or => "$or"

def name : Connector → String
  | and => "AND"
  | or => "OR"

/-- Blanks around the word and the case of its ASCII letters do not count. -/
def ofText (s : String) : Connector :=
  if (Text.trim s).toList.map Char.toUpper = ['O', 'R'] then or else and

open Json

def toJson (c : Connector) : Json := .text c.name

/-- Any value is a connector. -/
def decode : Decoder Connector := fun origin d => do
  match ← Decoder.value origin d with
  | .text s => return ofText s
  | _ => return and

end Connector

end AlertFilter
