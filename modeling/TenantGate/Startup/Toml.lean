import TenantGate.Net.Address
import TenantGate.Startup.Value

/-!
Configuration files. The whole file is checked, so that a file with a mistake anywhere is refused;
of what it holds the top-level keys with their values are kept.
-/
namespace TenantGate.Startup.Toml

def isBareKeyChar (c : Char) : Bool := c.isAlphanum || c == '_' || c == '-'

def isInlineBlank (c : Char) : Bool := c == ' ' || c == '\t'

def isPlain (c : Char) : Bool := c == '\t' || (0x20 ≤ c.toNat && c.toNat != 0x7F)

def skipInline (cs : List Char) : List Char := cs.dropWhile isInlineBlank

def skipComment? (cs : List Char) : Option (List Char) :=
  match cs with
  | '#' :: rest =>
    match rest.dropWhile isPlain with
    | [] => some []
    | '\n' :: more => some ('\n' :: more)
    | '\r' :: '\n' :: more => some ('\n' :: more)
    | _ => none
  | _ => some cs

def endLine? (cs : List Char) : Option (List Char) :=
  match skipComment? (skipInline cs) with
  | some [] => some []
  | some ('\n' :: rest) => some rest
  | some ('\r' :: '\n' :: rest) => some rest
  | _ => none

def skipLines? : Nat → List Char → Option (List Char)
  | 0, cs => some cs
  | fuel + 1, cs =>
    match skipComment? (skipInline cs) with
    | some ('\n' :: rest) => skipLines? fuel rest
    | some ('\r' :: '\n' :: rest) => skipLines? fuel rest
    | other => other

def scalar? (digits : List Char) (size : Nat) : Option Char :=
  if digits.length != size then none
  else
    match digits.mapM Net.hexDigit? with
    | some ds =>
      let n := ds.foldl (fun n d => n * 16 + d) 0
      if n < 0xD800 || (0xDFFF < n && n < 0x110000) then some (Char.ofNat n) else none
    | none => none

def escape? : List Char → Option (Char × List Char)
  | 'b' :: cs => some ('\x08', cs)
  | 't' :: cs => some ('\t', cs)
  | 'n' :: cs => some ('\n', cs)
  | 'f' :: cs => some ('\x0c', cs)
  | 'r' :: cs => some ('\r', cs)
  | '"' :: cs => some ('"', cs)
  | '\\' :: cs => some ('\\', cs)
  | 'u' :: cs => (scalar? (cs.take 4) 4).map fun c => (c, cs.drop 4)
  | 'U' :: cs => (scalar? (cs.take 8) 8).map fun c => (c, cs.drop 8)
  | _ => none

def lineEnd? : List Char → Option (List Char)
  | '\n' :: cs => some cs
  | '\r' :: '\n' :: cs => some cs
  | _ => none

def skipBlank (cs : List Char) : List Char :=
  cs.dropWhile fun c => isInlineBlank c || c == '\n' || c == '\r'

def shortText? (quote : Char) (read : List Char) : Nat → List Char → Option (String × List Char)
  | 0, _ => none
  | _ + 1, [] => none
  | fuel + 1, c :: cs =>
    if c == quote then some (String.ofList read.reverse, cs)
    else if c == '\\' && quote == '"' then
      match escape? cs with
      | some (c, cs) => shortText? quote (c :: read) fuel cs
      | none => none
    else if isPlain c then shortText? quote (c :: read) fuel cs
    else none

/-- A text of several lines behind its three opening quotes; up to two more quotes may stand right
before the three closing ones. -/
def longText? (quote : Char) (read : List Char) : Nat → List Char → Option (String × List Char)
  | 0, _ => none
  | _ + 1, [] => none
  | fuel + 1, c :: cs =>
    if c == quote then
      let run := (c :: cs).takeWhile (· == quote)
      if run.length < 3 then longText? quote (c :: read) fuel cs
      else if 5 < run.length then none
      else
        some (String.ofList (read.reverse ++ List.replicate (run.length - 3) quote),
          (c :: cs).drop run.length)
    else if c == '\\' && quote == '"' then
      match lineEnd? (skipInline cs) with
      | some rest => longText? quote read fuel (skipBlank rest)
      | none =>
        match escape? cs with
        | some (c, cs) => longText? quote (c :: read) fuel cs
        | none => none
    else
      match lineEnd? (c :: cs) with
      | some rest => longText? quote ('\n' :: read) fuel rest
      | none => if isPlain c then longText? quote (c :: read) fuel cs else none

def anyText? (cs : List Char) : Option (String × List Char) :=
  let long (quote : Char) (cs : List Char) : Option (String × List Char) :=
    longText? quote [] (cs.length + 1) ((lineEnd? cs).getD cs)
  match cs with
  | '"' :: '"' :: '"' :: rest => long '"' rest
  | '\'' :: '\'' :: '\'' :: rest => long '\'' rest
  | '"' :: rest => shortText? '"' [] (rest.length + 1) rest
  | '\'' :: rest => shortText? '\'' [] (rest.length + 1) rest
  | _ => none

def digits? (base : Nat) (cs : List Char) : Option (List Nat) :=
  let parts := Net.splitChars '_' cs
  if parts.any List.isEmpty then none
  else
    parts.flatten.mapM fun c => (Net.hexDigit? c).bind fun d => if d < base then some d else none

def numberOf (base : Nat) (ds : List Nat) : Nat := ds.foldl (fun n d => n * base + d) 0

def integer? (cs : List Char) : Option Int :=
  let fit (i : Int) : Option Int :=
    if -0x8000000000000000 ≤ i && i < 0x8000000000000000 then some i else none
  let based (base : Nat) (ds : List Char) : Option Int :=
    (digits? base ds).bind fun ds => fit (numberOf base ds)
  match cs with
  | '0' :: 'x' :: ds => based 16 ds
  | '0' :: 'o' :: ds => based 8 ds
  | '0' :: 'b' :: ds => based 2 ds
  | _ =>
    let (negative, ds) := Decimal.takeSign cs
    if 1 < ds.length && ds.head? == some '0' then none
    else
      (digits? 10 ds).bind fun ds =>
        fit (if negative then -(numberOf 10 ds : Int) else numberOf 10 ds)

def float? (cs : List Char) : Option Float :=
  let (negative, body) := Decimal.takeSign cs
  let signed (x : Float) : Float := if negative then -x else x
  if body == "inf".toList then some (signed (1.0 / 0.0))
  else if body == "nan".toList then some (signed (0.0 / 0.0))
  else
    let mantissa := body.takeWhile fun c => c != 'e' && c != 'E'
    let power := (body.drop mantissa.length).drop 1
    let powerFits := mantissa.length == body.length || (digits? 10 (Decimal.takeSign power).2).isSome
    let whole := mantissa.takeWhile (· != '.')
    let fraction := (mantissa.drop whole.length).drop 1
    let wholeFits := (digits? 10 whole).isSome && !(1 < whole.length && whole.head? == some '0')
    let fractionFits := whole.length == mantissa.length || (digits? 10 fraction).isSome
    let isFloat := mantissa.length != body.length || whole.length != mantissa.length
    if isFloat && powerFits && wholeFits && fractionFits then
      Decimal.float? (String.ofList (cs.filter (· != '_')))
    else none

/-- Whether a text has digits where the pattern has `d` and the same characters elsewhere. -/
def fitsShape : List Char → List Char → Bool
  | [], [] => true
  | 'd' :: pattern, c :: cs => c.isDigit && fitsShape pattern cs
  | p :: pattern, c :: cs => p == c && fitsShape pattern cs
  | _, _ => false

def isDay (cs : List Char) : Bool :=
  let part (start size : Nat) : Nat := (Decimal.takeDigits 0 ((cs.drop start).take size)).1
  fitsShape "dddd-dd-dd".toList cs && 1 ≤ part 5 2 && part 5 2 ≤ 12 && 1 ≤ part 8 2 &&
    part 8 2 ≤ 31

def isTime (cs : List Char) : Bool :=
  let part (start : Nat) : Nat := (Decimal.takeDigits 0 ((cs.drop start).take 2)).1
  let fraction := cs.drop 8
  fitsShape "dd:dd:dd".toList (cs.take 8) && part 0 ≤ 23 && part 3 ≤ 59 && part 6 ≤ 60 &&
    (fraction.isEmpty ||
      (fraction.head? == some '.' && 1 < fraction.length && (fraction.drop 1).all Char.isDigit))

def isZonedTime (cs : List Char) : Bool :=
  let time := cs.takeWhile fun c => c.isDigit || c == ':' || c == '.'
  let zone := cs.drop time.length
  isTime time &&
    (zone.isEmpty || zone == ['Z'] || zone == ['z'] || fitsShape "+dd:dd".toList zone ||
      fitsShape "-dd:dd".toList zone)

def isDateTime (cs : List Char) : Bool :=
  isTime cs || isDay cs ||
    (isDay (cs.take 10) && ((cs.drop 10).head?.map fun c => c == 'T' || c == 't' || c == ' ') ==
      some true && isZonedTime (cs.drop 11))

def dateText (cs : List Char) : String :=
  String.ofList (cs.map fun c => if c == 't' || c == ' ' then 'T' else if c == 'z' then 'Z' else c)

def word? (word : List Char) : Option Value :=
  if word == "true".toList then some (.boolean true)
  else if word == "false".toList then some (.boolean false)
  else
    match integer? word with
    | some i => some (.integer i)
    | none =>
      match float? word with
      | some x => some (.float x)
      | none => if isDateTime word then some (.text (dateText word)) else none

def isWordChar (c : Char) : Bool :=
  c.isAlphanum || c == '+' || c == '-' || c == '_' || c == '.' || c == ':'

/-- A word and the rest; a date may be followed by a blank and a time. -/
def takeWord (cs : List Char) : List Char × List Char :=
  let word := cs.takeWhile isWordChar
  let rest := cs.drop word.length
  match rest with
  | ' ' :: more =>
    let time := more.takeWhile isWordChar
    if isDay word && (time.head?.map Char.isDigit) == some true then
      (word ++ ' ' :: time, more.drop time.length)
    else (word, rest)
  | _ => (word, rest)

def simpleKey? (cs : List Char) : Option (String × List Char) :=
  match cs with
  | '"' :: rest => shortText? '"' [] (rest.length + 1) rest
  | '\'' :: rest => shortText? '\'' [] (rest.length + 1) rest
  | _ =>
    let key := cs.takeWhile isBareKeyChar
    if key.isEmpty then none else some (String.ofList key, cs.drop key.length)

def key? : Nat → List Char → Option (List String × List Char)
  | 0, _ => none
  | fuel + 1, cs => do
    let (first, rest) ← simpleKey? (skipInline cs)
    match skipInline rest with
    | '.' :: more =>
      let (keys, rest) ← key? fuel more
      return (first :: keys, rest)
    | rest => return ([first], rest)

inductive Kind where
  | header
  | byHeader
  | byKey
deriving Repr, DecidableEq

inductive Node where
  | value (v : Value)
  | table (kind : Kind) (entries : List (String × Node))
  | tables (earlier : Nat) (last : List (String × Node))

abbrev Entries := List (String × Node)

def put (key : String) (node : Node) : Entries → Entries
  | [] => [(key, node)]
  | (k, n) :: more => if k == key then (k, node) :: more else (k, n) :: put key node more

def assign? (value : Value) : List String → Entries → Option Entries
  | [], _ => none
  | [key], entries =>
    match entries.lookup key with
    | none => some (put key (.value value) entries)
    | some _ => none
  | key :: keys, entries =>
    match entries.lookup key with
    | none => (assign? value keys []).map fun inner => put key (.table .byKey inner) entries
    | some (.table kind inner) =>
      if kind == .header then none
      else (assign? value keys inner).map fun inner => put key (.table kind inner) entries
    | some (.tables n last) =>
      (assign? value keys last).map fun last => put key (.tables n last) entries
    | some (.value _) => none

def within? (change : Entries → Option Entries) : List String → Entries → Option Entries
  | [], entries => change entries
  | key :: keys, entries =>
    match entries.lookup key with
    | none => (within? change keys []).map fun inner => put key (.table .byHeader inner) entries
    | some (.table kind inner) =>
      (within? change keys inner).map fun inner => put key (.table kind inner) entries
    | some (.tables n last) =>
      (within? change keys last).map fun last => put key (.tables n last) entries
    | some (.value _) => none

def openTable? (key : String) (entries : Entries) : Option Entries :=
  match entries.lookup key with
  | none => some (put key (.table .header []) entries)
  | some (.table .byHeader inner) => some (put key (.table .header inner) entries)
  | _ => none

def openInList? (key : String) (entries : Entries) : Option Entries :=
  match entries.lookup key with
  | none => some (put key (.tables 0 []) entries)
  | some (.tables n _) => some (put key (.tables (n + 1) []) entries)
  | _ => none

mutual

def value? : Nat → List Char → Option (Value × List Char)
  | 0, _ => none
  | fuel + 1, cs =>
    match cs with
    | '[' :: rest => (items? fuel rest).map fun rest => (.list, rest)
    | '\x7b' :: rest =>
      match skipInline rest with
      | '\x7d' :: rest => some (.table true, rest)
      | rest => (members? [] fuel rest).map fun rest => (.table false, rest)
    | _ =>
      match anyText? cs with
      | some (s, rest) => some (.text s, rest)
      | none =>
        let (word, rest) := takeWord cs
        (word? word).map fun v => (v, rest)

def items? : Nat → List Char → Option (List Char)
  | 0, _ => none
  | fuel + 1, cs => do
    let cs ← skipLines? (cs.length + 1) cs
    match cs with
    | ']' :: rest => return rest
    | _ =>
      let (_, rest) ← value? fuel cs
      let rest ← skipLines? (rest.length + 1) rest
      match rest with
      | ']' :: rest => return rest
      | ',' :: rest => items? fuel rest
      | _ => none

/-- The members of an inline table behind its opening brace; what follows the table. -/
def members? (read : Entries) : Nat → List Char → Option (List Char)
  | 0, _ => none
  | fuel + 1, cs => do
    let (keys, rest) ← key? (cs.length + 1) cs
    match rest with
    | '=' :: rest =>
      let (v, rest) ← value? fuel (skipInline rest)
      let read ← assign? v keys read
      match skipInline rest with
      | '\x7d' :: rest => return rest
      | ',' :: rest => members? read fuel rest
      | _ => none
    | _ => none

end

structure Progress where
  root : Entries
  open? : List String

def statement? (p : Progress) (cs : List Char) : Option (Progress × List Char) :=
  match cs with
  | '[' :: '[' :: rest => do
    let (keys, rest) ← key? (rest.length + 1) rest
    let last ← keys.getLast?
    match rest with
    | ']' :: ']' :: rest =>
      let root ← within? (openInList? last) keys.dropLast p.root
      return (⟨root, keys⟩, rest)
    | _ => none
  | '[' :: rest => do
    let (keys, rest) ← key? (rest.length + 1) rest
    let last ← keys.getLast?
    match rest with
    | ']' :: rest =>
      let root ← within? (openTable? last) keys.dropLast p.root
      return (⟨root, keys⟩, rest)
    | _ => none
  | _ => do
    let (keys, rest) ← key? (cs.length + 1) cs
    match rest with
    | '=' :: rest =>
      let rest := skipInline rest
      let (v, rest) ← value? (rest.length + 1) rest
      let root ← within? (assign? v keys) p.open? p.root
      return (⟨root, p.open?⟩, rest)
    | _ => none

def statements? (p : Progress) : Nat → List Char → Option Entries
  | 0, _ => none
  | fuel + 1, cs => do
    let cs ← skipLines? (cs.length + 1) cs
    if cs.isEmpty then return p.root
    else
      let (p, rest) ← statement? p cs
      let rest ← endLine? rest
      statements? p fuel rest

def Node.toValue : Node → Value
  | .value v => v
  | .table _ entries => .table entries.isEmpty
  | .tables _ _ => .list

/-- The top-level keys of a file with their values, or nothing if the file has a mistake. -/
def parse? (text : String) : Option (List (String × Value)) :=
  let cs := match text.toList with
    | '\uFEFF' :: cs => cs
    | cs => cs
  (statements? ⟨[], []⟩ (cs.length + 1) cs).map fun root =>
    root.map fun (key, node) => (key, node.toValue)

end TenantGate.Startup.Toml
