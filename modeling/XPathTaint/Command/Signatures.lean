import XPathTaint.Environment
import XPathTaint.Registry.Registry
import XPathTaint.Report.Plain

-- The list of signatures for people, in colours where the environment allows them.

namespace XPathTaint.Command

/-- Whether colours are shown: the user may force them; otherwise they are shown on a
terminal, unless the user refuses them. -/
def showsColours (env : Environment) (isTerminal : Bool) : Bool :=
  if (env.get? "CLICOLOR_FORCE").any (· != "0") then true
  else if env.isSet "NO_COLOR" then false
  else isTerminal && (env.get? "CLICOLOR").all (· != "0")

/-- A text in a colour, if both rules allow it. -/
def tinted (env : Environment) (isTerminal : Bool) (code text : String) : String :=
  if env.allowsColour && showsColours env isTerminal then Report.coloured code text else text

/-- The colour of a kind of signature: yellow, bold red or green. -/
def kindCode (kind : String) : String :=
  if kind = "source" then "93" else if kind = "sink" then "1;91" else "92"

/-- A kind of signature, filled up to nine columns. -/
def padded (kind : String) : String :=
  kind ++ String.ofList (List.replicate (9 - kind.length) ' ')

/-- All signatures of a registry, and their number and severity in bold cyan. -/
def signatureList (reg : Registry) (env : Environment) (isTerminal : Bool) : String :=
  let rows := reg.describe
  let row (r : String × String) : String :=
    "[" ++ tinted env isTerminal (kindCode r.1) (padded r.1) ++ "] " ++ r.2
  let heading := toString rows.length ++ " signatures, severity " ++ reg.severity.written
  Report.closedLines (rows.map row) ++ "\n" ++ tinted env isTerminal "1;96" heading ++ "\n"

end XPathTaint.Command
