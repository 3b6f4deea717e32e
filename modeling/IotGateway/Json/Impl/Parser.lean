import IotGateway.Json.Basic

/-!
This module contains the JSON stream parser: `jsonReset` and `jsonEat`.
-/

namespace Json

open CString

def isWhiteSpace (c : Char) : Bool := c = ' ' || c = '\r' || c = '\n' || c = '\t'

def isSign (c : Char) : Bool := c = '-' || c = '+'

def isNum (c : Char) : Bool := '0' ≤ c && c ≤ '9'

def isAlpha (c : Char) : Bool := ('a' ≤ c && c ≤ 'z') || ('A' ≤ c && c ≤ 'Z')

def isValidNameChar (c : Char) : Bool := isAlpha c || isNum c || c = '_' || c = '+'

/--
`isspace` of the C library.
-/
def isspace (c : Char) : Bool := c = ' ' || (9 ≤ c.toNat && c.toNat ≤ 13)

/--
`atoi` of the C library: `strtol` to base 10, which stops at the first other character and at the
limits of `long`, cast to `int`.
-/
def atoi (string : List Char) : Int :=
  let string := string.dropWhile isspace
  let magnitude (digits : List Char) : Int := Nat.ofDigitChars 10 (digits.takeWhile isNum) 0
  let long : Int :=
    match string with
    | '-' :: digits => max (-2 ^ 63) (-magnitude digits)
    | '+' :: digits => min (2 ^ 63 - 1) (magnitude digits)
    | digits => min (2 ^ 63 - 1) (magnitude digits)
  Int.bmod long (2 ^ 32)

def Atoi (string : List Char) : Int := if string = [] then -1 else atoi string

def ParserData.event (p : ParserData) (e : Event) : ParserData := { p with events := p.events ++ [e] }

def ParserData.storeName (p : ParserData) (index : Nat) (c : Char) : ParserData :=
  { p with
    mem := Function.update p.mem (nameAddr p.stack + index) c
    stores := p.stores ++ [.name p.stack index] }

def ParserData.storeValue (p : ParserData) (index : Nat) (c : Char) : ParserData :=
  { p with
    mem := Function.update p.mem (valueAddr p.stack + index) c
    stores := p.stores ++ [.value p.stack index] }

def jsonReset (p : ParserData) : ParserData :=
  let p := { p with allowComma := false, isSlash := false, state := .none, states := [], stack := 0 }
  let p := (p.storeName 0 NUL).storeValue 0 NUL
  { p with errbufIndex := 0, numchars := 0 }

/--
The string that `jsonError` copies out of the ring buffer.
-/
def ParserData.lastchars (p : ParserData) : List Char :=
  let len := min p.numchars MAXERRORBUFFER
  let start := if p.errbufIndex < len then p.errbufIndex + MAXERRORBUFFER - len else p.errbufIndex - len
  let locerrbuf := (List.range len).map fun i => p.mem (errbufAddr + (start + i) % MAXERRORBUFFER)
  locerrbuf.takeWhile (· ≠ NUL)

def jsonError (err : Err) (p : ParserData) : ParserData :=
  jsonReset (p.event (.error err err.text p.lastchars))

def appendName (c : Char) (p : ParserData) : ParserData :=
  let len := (p.name p.stack).length
  if len < MAXNAME then
    (p.storeName len c).storeName (len + 1) NUL
  else
    jsonError .nameTooLong p

def appendValue (c : Char) (p : ParserData) : ParserData :=
  let len := (p.value p.stack).length
  if len < MAXVALUE then
    (p.storeValue len c).storeValue (len + 1) NUL
  else
    jsonError .valueTooLong p

def setState (st : State) (p : ParserData) : ParserData :=
  let p := { p with state := st }
  match st with
  | .inName => p.storeName 0 NUL
  | .toValue => p.storeValue 0 NUL
  | .inObject | .inArray =>
    let p := { p with stack := p.stack + 1 }
    if p.stack < MAXSTACK then
      p.storeName 0 NUL
    else
      jsonError .internal p
  | _ => p

def toState (st : State) (p : ParserData) : ParserData :=
  let p := { p with states := p.state :: p.states }
  if p.states.length < MAXSTATES then
    setState st p
  else
    jsonError .internal p

def upState (p : ParserData) : ParserData :=
  match p.states with
  | st :: states =>
    let p := { p with state := st, states }
    match st with
    | .inObject | .inArray =>
      if 0 < p.stack then
        { p with stack := p.stack - 1, allowComma := true }
      else
        jsonError .internal p
    | .none => p.storeName 0 NUL
    | _ => p
  | [] => jsonError .internal p

/--
One pass of `jsonEatNoLog`, and whether it asks for another one.
-/
def eatOnce (c : Char) (p : ParserData) : ParserData × Bool :=
  match p.state with
  | .none =>
    if c = '{' then
      let p := p.event (.objectStart (p.name p.stack))
      let p := toState .toName (toState .inObject p)
      ({ p with allowComma := false }, false)
    else if c = '"' then
      (toState .inName p, false)
    else
      -- GENERATE_ERROR_ON_DISCARD is not defined
      (p, false)
  | .inObject =>
    if c = '}' then
      (upState (p.event (.objectComplete (p.name p.stack))), false)
    else if c = '"' then
      (toState .inName p, false)
    else if c = ',' && p.allowComma then
      (toState .toName { p with allowComma := false }, false)
    else if !isWhiteSpace c then
      (jsonError .parseObject p, false)
    else
      (p, false)
  | .toName =>
    if c = '"' then
      (setState .inName p, false)
    else if !isWhiteSpace c then
      (jsonError .parseName p, false)
    else
      (p, false)
  | .inName =>
    if c = '"' then
      (setState .toColumn p, false)
    else if isValidNameChar c then
      (appendName c p, false)
    else
      (jsonError .parseIllName p, false)
  | .toColumn =>
    if c = ':' then
      (setState .toValue p, false)
    else if !isWhiteSpace c then
      (jsonError .parseAssignment p, false)
    else
      (p, false)
  | .toValue =>
    if c = '"' then
      (setState .inString { p with isSlash := false }, false)
    else if isNum c || isSign c then
      (setState .inNum (appendValue c p), false)
    else if c = '[' then
      let p := p.event (.arrayStart (p.name p.stack))
      (toState .toName (setState .inArray p), false)
    else if c = '{' then
      let p := p.event (.objectStart (p.name p.stack))
      (toState .toName (setState .inObject p), false)
    else if !isWhiteSpace c then
      (jsonError .parseValue p, false)
    else
      (p, false)
  | .inString =>
    if !p.isSlash && c = '\\' then
      ({ p with isSlash := true }, false)
    else if p.isSlash then
      (appendValue c (appendValue '\\' { p with isSlash := false }), false)
    else if c = '"' then
      let p := p.event (.string (p.name p.stack) (p.value p.stack))
      (setState .outValue p, false)
    else
      (appendValue c p, false)
  | .inNum =>
    if isNum c then
      (appendValue c p, false)
    else
      let p := p.event (.integer (p.name p.stack) (Atoi (p.value p.stack)))
      (setState .outValue p, true)
  | .inArray =>
    if c = ']' then
      (upState (p.event (.arrayComplete (p.name p.stack))), false)
    else if c = '"' then
      (toState .inName p, false)
    else if c = ',' && p.allowComma then
      (toState .toName { p with allowComma := false }, false)
    else if !isWhiteSpace c then
      (jsonError .parseArray p, false)
    else
      (p, false)
  | .outValue =>
    if !isWhiteSpace c then
      if c = ',' then
        (toState .toName p, false)
      else
        (upState p, true)
    else
      (p, false)

def jsonEatNoLog.go (c : Char) : Nat → ParserData → ParserData
  | 0, p => p
  | fuel + 1, p =>
    let (p, again) := eatOnce c p
    if again then go c fuel p else p

/--
A bound on the number of passes: each but the last ends a number or takes an entry from `states`.
-/
def ParserData.passes (p : ParserData) : Nat :=
  2 * p.states.length
    + match p.state with
      | .inNum => 3
      | .outValue => 2
      | _ => 1

def jsonEatNoLog (c : Char) (p : ParserData) : ParserData := jsonEatNoLog.go c p.passes p

def jsonEat (p : ParserData) (c : Char) : ParserData :=
  let p := { p with numchars := p.numchars + 1 }
  let p :=
    if !isWhiteSpace c then
      { p with
        mem := Function.update p.mem (errbufAddr + p.errbufIndex) c
        errbufIndex := if MAXERRORBUFFER ≤ p.errbufIndex + 1 then 0 else p.errbufIndex + 1 }
    else
      p
  jsonEatNoLog c p

end Json
