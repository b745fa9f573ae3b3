import XPathTaint.Json.Reader
import XPathTaint.Scan.Options

-- The command line: which command is asked for and with which options. Options are given
-- at most once, except for exclusions, and their values are checked while they are read.

namespace XPathTaint.Command

inductive Request where
  | scan (options : Scan.Options)
  | signatures (catalog : Option String)
  | version
  | help
  deriving Repr, DecidableEq, Inhabited

/-- The paths that a request names. -/
def Request.paths : Request → List String
  | scan o => o.path :: [o.catalog, o.baseline, o.writeBaseline, o.metrics].filterMap id
  | signatures catalog => catalog.toList
  | version => []
  | help => []

/-! ## Options -/

/-- An option of a command. What it does to the settings may refuse the value, or a second
one. -/
structure OptionRule (σ : Type) where
  name : String
  takesValue : Bool
  apply : String → σ → Option σ

/-- What came of reading arguments. -/
inductive Reading (σ : Type) where
  | settings (s : σ)
  | help
  | refused

/-- Whether an argument is an option or the mark that ends options, and no value. -/
def looksLikeOption (arg : String) : Bool :=
  match arg.toList with
  | '-' :: _ :: _ => true
  | _ => false

/-- A long option without its dashes: its name, and its value behind an equals sign. -/
def splitOption (chars : List Char) : String × Option String :=
  let name := chars.takeWhile (· != '=')
  match chars.drop name.length with
  | _ :: value => (String.ofList name, some (String.ofList value))
  | [] => (String.ofList name, none)

def applyOr {σ : Type} (next : σ → Reading σ) : Option σ → Reading σ
  | some s => next s
  | none => .refused

/-- Reads arguments from the left. What is no option is given to `positional`; behind two
dashes nothing is an option. -/
def readArgs {σ : Type} (rules : List (OptionRule σ)) (positional : String → σ → Option σ) :
    List String → σ → Reading σ
  | [], s => .settings s
  | arg :: rest, s =>
    match arg.toList with
    | ['-', '-'] => applyOr .settings (rest.foldlM (fun s arg => positional arg s) s)
    | '-' :: '-' :: chars =>
      match splitOption chars with
      | ("help", none) => .help
      | (name, value) =>
        match rules.find? fun r => r.name == name with
        | none => .refused
        | some rule =>
          match rule.takesValue, value, rest with
          | false, none, rest => applyOr (readArgs rules positional rest) (rule.apply "" s)
          | false, some _, _ => .refused
          | true, some value, rest => applyOr (readArgs rules positional rest) (rule.apply value s)
          | true, none, [] => .refused
          | true, none, value :: rest =>
            if looksLikeOption value then .refused
            else applyOr (readArgs rules positional rest) (rule.apply value s)
    | '-' :: c :: _ => if c = 'h' then .help else .refused
    | _ => applyOr (readArgs rules positional rest) (positional arg s)

/-! ## Values -/

/-- A number of 64 bits in decimal digits, perhaps behind a plus sign. -/
def readCount? (s : String) : Option Nat :=
  let digits := match s.toList with
    | '+' :: rest => rest
    | rest => rest
  if digits.isEmpty || !digits.all Char.isDigit then none
  else
    let n := Json.natOfDigits digits
    if n < UInt64.size then some n else none

def readPositive? (s : String) : Option Nat :=
  (readCount? s).bind fun n => if n = 0 then none else some n

/-- A path is not empty. -/
def readPath? (s : String) : Option String := if s.isEmpty then none else some s

def pieces (s : String) : List String := (Text.splitAtChar ',' s.toList).map String.ofList

/-! ## Commands -/

/-- The arguments of a scan as far as they were read. -/
structure ScanArgs where
  path : Option String
  given : Scan.Options
  /-- The names of the options that were given. -/
  seen : List String

/-- An option with a value that may be given once. -/
def single {α : Type} (name : String) (read : String → Option α)
    (set : α → Scan.Options → Scan.Options) : OptionRule ScanArgs :=
  { name, takesValue := true
    apply := fun value s => do
      if s.seen.contains name then none
      some { s with given := set (← read value) s.given, seen := name :: s.seen } }

/-- An option without a value that may be given once. -/
def switch (name : String) (set : Scan.Options → Scan.Options) : OptionRule ScanArgs :=
  { single name some fun _ o => set o with takesValue := false }

def scanRules : List (OptionRule ScanArgs) :=
  [single "format" Report.Format.ofName? fun v o => { o with format := v },
    single "fail-on" (fun s => (Severity.read s).toOption) fun v o => { o with failOn := some v },
    single "threads" readPositive? fun _ o => o,
    { name := "exclude", takesValue := true
      apply := fun value s => do
        let found ← (pieces value).mapM Pattern.ofExclusion?
        some { s with given := { s.given with exclude := s.given.exclude ++ found } } },
    switch "no-default-exclude" fun o => { o with defaultExclusions := false },
    single "max-file-size" readCount? fun v o => { o with maxFileSize := v },
    single "catalog" readPath? fun v o => { o with catalog := some v },
    single "max-hops" readPositive? fun v o => { o with maxHops := some v },
    single "baseline" readPath? fun v o => { o with baseline := some v },
    single "write-baseline" readPath? fun v o => { o with writeBaseline := some v },
    single "suppress-comment" some fun v o => { o with suppressComment := some v },
    single "metrics" readPath? fun v o => { o with metrics := some v },
    switch "dump-ir" fun o => { o with dumpFacts := true },
    switch "debug" fun o => { o with debug := true },
    switch "quiet" fun o => { o with quiet := true }]

def scanPath (arg : String) (s : ScanArgs) : Option ScanArgs := do
  if s.path.isSome then none
  some { s with path := some (← readPath? arg) }

def readScan? (args : List String) : Option Request :=
  match readArgs scanRules scanPath args ⟨none, .ofPath "", []⟩ with
  | .settings s => s.path.map fun path => .scan { s.given with path }
  | .help => some .help
  | .refused => none

def signatureRules : List (OptionRule (Option String)) :=
  [{ name := "catalog", takesValue := true
     apply := fun value s => if s.isSome then none else (readPath? value).map some }]

def readSignatures? (args : List String) : Option Request :=
  match readArgs signatureRules (fun _ _ => none) args none with
  | .settings catalog => some (.signatures catalog)
  | .help => some .help
  | .refused => none

/-- The request of a command line; `none` where it is not well formed. -/
def Request.ofArgs? : List String → Option Request
  | [] => none
  | "scan" :: args => readScan? args
  | "signatures" :: args => readSignatures? args
  | ["help"] => some .help
  | ["help", command] => if ["scan", "signatures", "help"].contains command then some .help else none
  | "--version" :: _ => some .version
  | "--help" :: _ => some .help
  | arg :: _ =>
    match arg.toList with
    | '-' :: 'v' :: _ => some .version
    | '-' :: 'h' :: _ => some .help
    | _ => none

end XPathTaint.Command
