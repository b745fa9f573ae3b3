-- The variables of the environment, and what they say about colours.

namespace XPathTaint

abbrev Environment := List (String × String)

namespace Environment

/-- The names of all variables that are looked at. -/
def names : List String :=
  ["HOME", "NO_COLOR", "TERM", "CI", "CONTINUOUS_INTEGRATION", "CLICOLOR", "CLICOLOR_FORCE"]

def get? (env : Environment) (name : String) : Option String :=
  (env.find? fun v => v.1 == name).map (·.2)

def isSet (env : Environment) (name : String) : Bool := (env.get? name).isSome

/-- Terminals that show no colours. -/
def plainTerminals : List String := ["dumb", "unknown"]

/-- Whether output may be coloured: not when the user refuses it, not on a plain terminal,
and not where programs are built unattended. -/
def allowsColour (env : Environment) : Bool :=
  !env.isSet "NO_COLOR" && !(env.get? "TERM").any plainTerminals.contains &&
    !env.isSet "CI" && !env.isSet "CONTINUOUS_INTEGRATION"

end Environment

end XPathTaint
