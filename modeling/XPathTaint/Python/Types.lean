import XPathTaint.Python.Expression

-- Types, as they stand behind the colon of an annotation or in the definition of a type,
-- and the patterns of cases.

namespace XPathTaint.Python

/-! ## Types -/

/-- What may follow a type that is built from a name and types in brackets. -/
def endsType (cs : List Char) : Bool :=
  match cs with
  | [] => true
  | c :: _ => "\n=,)];:\x7d".toList.contains c

/-- What joins types: a bar, a member, or a colon if the place allows one. -/
def typeJoint (l : Layout) (constrained : Bool) (type : Reader Node) : Reader (List Node) := do
  Reader.tailGap l
  match ← Reader.ahead with
  | '|' :: _ =>
    Reader.forward 1
    Reader.operandGap l false
    pure [← type]
  | '.' :: _ =>
    Reader.forward 1
    Reader.gap l
    let _ ← Reader.word
    pure []
  | _ =>
    Reader.require constrained
    Reader.colon
    Reader.operandGap l false
    pure [← type]

/-- A type behind a type that started at `start`, as often as one follows. -/
def typeTail (l : Layout) (constrained : Bool) (type : Reader Node) (start : Cursor) :
    (fuel : Nat) → Node → Reader Node
  | 0, node => pure node
  | fuel + 1, node => do
    match ← Reader.optionally (typeJoint l constrained type) with
    | none => pure node
    | some parts => do
      typeTail l constrained type start fuel
        (.group (← Reader.since start) .other (node :: parts))

/-- A type. With `constrained`, a colon and another type may follow it. -/
def typeWith (g : Grammar) (l : Layout) (constrained : Bool) : (fuel : Nat) → Reader Node
  | 0 => Reader.refuse
  | fuel + 1 => do
    let start ← Reader.here
    let whole := typeWith g l constrained fuel
    let generic ← Reader.optionally do
      let word ← Reader.word
      Reader.require !((constantWords ++ ["not", "lambda"]).contains word.text)
      Reader.tailGap l
      let opening ← Reader.here
      Reader.theSign '['
      let inner := l.bracketed
      let part := typeWith g inner true fuel
      Reader.operandGap inner false
      let first ← part
      let (rest, _) ← moreItems inner part g.fuel
      Reader.tailGap inner
      Reader.theSign ']'
      let parts := Node.group (← Reader.since opening) .other (first :: rest)
      let node := Node.group (← Reader.since start) .other [.name word, parts]
      let node ← typeTail l constrained whole start g.fuel node
      Reader.require (← Reader.foresees do
        Reader.tailGap l
        Reader.require (endsType (← Reader.ahead)))
      pure node
    match generic with
    | some node => pure node
    | none =>
      let plain ← (do
        let stars := ((← Reader.ahead).takeWhile (· = '*')).length
        if stars = 0 then
          let value ← g.expr l .all
          pure (.group value.span .other [value])
        else
          Reader.require (stars ≤ 2)
          Reader.forward stars
          Reader.operandGap l false
          let word ← Reader.word
          pure (.group (← Reader.since start) .other [.name word]))
      typeTail l constrained whole start g.fuel plain

/-- A colon and a type. -/
def typeMark (g : Grammar) (l : Layout) : Reader Unit := do
  Reader.tailGap l
  Reader.colon
  Reader.operandGap l false
  let _ ← typeWith g l true g.fuel

/-! ## Patterns of cases -/

/-- Names with dots between them; the piece of text that they fill. -/
def dottedName (l : Layout) : (fuel : Nat) → (start : Cursor) → Reader Span
  | 0, _ => Reader.refuse
  | fuel + 1, start => do
    let _ ← Reader.word
    let dot ← Reader.accepts do Reader.tailGap l; Reader.theSign '.'
    if dot then
      Reader.gap l
      dottedName l fuel start
    else Reader.since start

/-- A number of a pattern, with another behind a sign if it is complex. -/
def patternNumber (l : Layout) : Reader Unit := do
  let number : Reader Unit := do
    let n := numberLength (← Reader.ahead)
    Reader.require (0 < n)
    Reader.forward n
  if ← Reader.sign '-' then Reader.gap l
  number
  let _ ← Reader.accepts do
    Reader.tailGap l
    if !(← Reader.sign '+') then Reader.theSign '-'
    Reader.gap l
    number

/-- Things with commas between them up to a closing sign, the last comma bare if need be. -/
def separatedUntil (l : Layout) (closing : Char) (one : Reader Unit) : (fuel : Nat) → Reader Unit
  | 0 => Reader.refuse
  | fuel + 1 => do
    if ← Reader.sign closing then pure ()
    else
      one
      Reader.tailGap l
      if ← Reader.sign ',' then
        Reader.operandGap l true
        separatedUntil l closing one fuel
      else Reader.theSign closing

/-- A star or two before a name. -/
def patternStar (l : Layout) : Reader Unit := do
  Reader.theSign '*'
  let _ ← Reader.sign '*'
  Reader.gap l
  let _ ← Reader.word

mutual

/-- A pattern without `as`. -/
def simplePattern (g : Grammar) (l : Layout) : (fuel : Nat) → Reader Unit
  | 0 => Reader.refuse
  | fuel + 1 => do
    let cs ← Reader.ahead
    let inner := l.bracketed
    if startsString cs then let _ ← stringValue g l
    else
      match cs with
      | '*' :: _ => patternStar l
      | '[' :: _ =>
        Reader.forward 1
        Reader.operandGap inner true
        separatedUntil inner ']' (casePattern g inner fuel) g.fuel
      | '(' :: _ =>
        Reader.forward 1
        Reader.operandGap inner true
        separatedUntil inner ')' (casePattern g inner fuel) g.fuel
      | '\x7b' :: _ =>
        Reader.forward 1
        Reader.operandGap inner true
        let entry : Reader Unit := do
          if (← Reader.ahead).head? = some '*' then patternStar inner
          else
            simplePattern g inner fuel
            Reader.tailGap inner
            Reader.theSign ':'
            Reader.operandGap inner false
            casePattern g inner fuel
        separatedUntil inner '\x7d' entry g.fuel
      | c :: _ =>
        if c == '-' || c == '.' || c.isDigit then patternNumber l
        else
          let _ ← dottedName l g.fuel (← Reader.here)
          let _ ← Reader.accepts do
            Reader.tailGap l
            Reader.theSign '('
            Reader.operandGap inner true
            separatedUntil inner ')' (casePattern g inner fuel) g.fuel
      | [] => Reader.refuse
    let _ ← Reader.accepts do
      Reader.tailGap l
      Reader.theSign '|'
      Reader.operandGap l false
      simplePattern g l fuel

/-- A pattern of a case: a name with a value, or a pattern with the names it is bound to. -/
def casePattern (g : Grammar) (l : Layout) : (fuel : Nat) → Reader Unit
  | 0 => Reader.refuse
  | fuel + 1 => do
    let named ← Reader.accepts do
      let _ ← Reader.word
      Reader.tailGap l
      Reader.equals
      Reader.operandGap l false
      simplePattern g l fuel
    if !named then simplePattern g l fuel
    aliases l fuel

/-- Any number of `as` with a name. -/
def aliases (l : Layout) : (fuel : Nat) → Reader Unit
  | 0 => Reader.refuse
  | fuel + 1 => do
    let bound ← Reader.accepts do
      Reader.tailGap l
      Reader.keyword "as"
      Reader.gap l
      let _ ← Reader.word
    if bound then aliases l fuel else pure ()

end

end XPathTaint.Python
