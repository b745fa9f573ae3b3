import XPathTaint.Json.Printer
import XPathTaint.Report.Plain
import XPathTaint.Report.Sarif

-- The formats of a report and the text that each gives.

namespace XPathTaint.Report

inductive Format where
  | plain
  | json
  | sarif
  deriving Repr, DecidableEq, Inhabited

/-- The formats by their names. -/
def Format.names : List (String × Format) := [("text", .plain), ("json", .json), ("sarif", .sarif)]

def Format.ofName? (name : String) : Option Format :=
  (Format.names.find? fun f => f.1 == name).map (·.2)

/-- The findings and their number. -/
def toJson (findings : List Finding) : Json :=
  .object [("findings", .array (findings.map Finding.toJson)), ("total", .nat findings.length)]

/-- The text of a report; only the plain one shows the numbers of the scan. -/
def write (format : Format) (findings : List Finding) (info : Option ScanInfo) : String :=
  match format with
  | .plain => plain findings info
  | .json => (toJson findings).pretty ++ "\n"
  | .sarif => (sarif findings).pretty ++ "\n"

end XPathTaint.Report
