import OrgTree.Calendar.Date
import OrgTree.Json.Decode

/-! # The JSON form of dates: their written form as a text -/

namespace OrgTree.Date

/-- The written form as a JSON text. -/
def toJson (d : Date) : Json :=
  .str d.toText

/-- Reads a date from a JSON text. -/
def ofJson? : Json.Decoder Date := fun j =>
  (Json.text j).bind ofText?

end OrgTree.Date
