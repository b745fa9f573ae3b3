import XPathTaint.Finding.Basic
import XPathTaint.Tool

-- The report as a SARIF log of version 2.1.0: one run with one rule, a result for each
-- finding, and where the untrusted value is read as the related location.

namespace XPathTaint.Report

def sarifSchema : String :=
  "https://schemastore.azurewebsites.net/schemas/json/" ++ "sarif-2.1.0" ++ ".json"

/-- What breaking the rule means. -/
def ruleSummary : String := "Untrusted request input used as an XPath expression"

def sarifLevel : Severity → String
  | .info => "note"
  | .low => "note"
  | .medium => "warning"
  | .high => "error"
  | .critical => "error"
  | .error => "error"

/-- A count as a signed number of 64 bits. -/
def signedWord (n : Nat) : Json :=
  let word := n % UInt64.size
  if word < 1 <<< 63 then .nat word else .number (.negative (UInt64.size - word))

def sarifText (s : String) : Json := .object [("text", .string s)]

def physicalLocation (uri : String) (line column : Nat) : Json :=
  .object [("artifactLocation", .object [("uri", .string uri)]),
    ("region", .object [("startColumn", signedWord column), ("startLine", signedWord line)])]

/-- The first step of a flow is where the untrusted value is read. -/
def relatedLocations (f : Finding) : List (String × Json) :=
  match f.trace with
  | [] => []
  | step :: _ => [("relatedLocations", .array [.object [
      ("message", sarifText ("Source: " ++ f.source)),
      ("physicalLocation", physicalLocation f.file step.line step.column)]])]

def sarifResult (f : Finding) : Json :=
  .object ([("level", .string (sarifLevel f.severity)),
    ("locations", .array [.object [("physicalLocation", physicalLocation f.file f.line f.column)]]),
    ("message", sarifText f.message)] ++ relatedLocations f ++ [("ruleId", .string f.ruleId)])

def sarifRule : Json :=
  .object [("id", .string ruleId), ("shortDescription", sarifText ruleSummary)]

def sarifDriver : Json :=
  .object [("name", .string Tool.name), ("rules", .array [sarifRule]),
    ("version", .string Tool.version)]

def sarif (findings : List Finding) : Json :=
  .object [("$schema", .string sarifSchema),
    ("runs", .array [.object [("results", .array (findings.map sarifResult)),
      ("tool", .object [("driver", sarifDriver)])]]),
    ("version", .string "2.1.0")]

end XPathTaint.Report
