import TenantGate.Json.Scan
import TenantGate.Json.Skip

/-!
JSON text without white space. Only what must be escaped is escaped: quotes, backslashes and the
characters below U+0020; everything else is written as it is.
-/
namespace TenantGate.Json

def hexDigit (n : Nat) : Char :=
  if n < 10 then Char.ofNat (0x30 + n) else Char.ofNat (0x61 + n - 10)

def escapeChar (c : Char) : String :=
  if c == '"' then "\\\""
  else if c == '\\' then "\\\\"
  else if c == '\x08' then "\\b"
  else if c == '\x0c' then "\\f"
  else if c == '\n' then "\\n"
  else if c == '\r' then "\\r"
  else if c == '\t' then "\\t"
  else if c.toNat < 0x20 then
    "\\u00" ++ String.ofList [hexDigit (c.toNat / 16), hexDigit (c.toNat % 16)]
  else c.toString

def stringText (s : String) : String :=
  s.toList.foldl (fun text c => text ++ escapeChar c) "\"" ++ "\""

def booleanText (b : Bool) : String := if b then "true" else "false"

def listText (items : List String) : String := "[" ++ String.intercalate "," items ++ "]"

def objectText (members : List (String × String)) : String :=
  let member (m : String × String) : String := stringText m.1 ++ ":" ++ m.2
  "\x7b" ++ String.intercalate "," (members.map member) ++ "\x7d"

/-!
A `Format` says how the values of a type are written as JSON and how they are read back. Records
are put together from their fields: one description gives the writer, the reader of an object, in
any order and with unknown members skipped, and the reader of a list of the fields in their order.
-/

structure Format (α : Type) where
  write : α → String
  read : Reader α

def refuseKind {α : Type} (expected : String) (c : Cursor) : Except Fault α :=
  let misfit (c : Cursor) (found : Found) : Except Fault α :=
    c.fail (.invalidType found expected)
  let ident (rest : List UInt8) (letters : List UInt8) (found : Found) : Except Fault α := do
    misfit (← expectBytes c.ahead letters rest) found
  match c.rest with
  | [] => c.blame .endOfValue
  | b :: rest =>
    if b == 0x6E then ident rest [0x75, 0x6C, 0x6C] .null
    else if b == 0x74 then ident rest [0x72, 0x75, 0x65] (.boolean true)
    else if b == 0x66 then ident rest [0x61, 0x6C, 0x73, 0x65] (.boolean false)
    else if b == 0x2D || isDigit b then do
      let (n, after) ← readNumber c
      misfit after n.found
    else if b == 0x22 then do
      let (s, after) ← readText "" c.ahead rest
      misfit after (.text s)
    else if b == 0x5B then misfit c .sequence
    else if b == 0x7B then misfit c .map
    else c.blame .expectedValue

def readString (expected : String) : Reader String := fun c =>
  let c := c.trim
  match c.rest with
  | 0x22 :: rest => readText "" c.ahead rest
  | _ => refuseKind expected c

def Format.string : Format String := ⟨stringText, readString "a string"⟩

def Format.boolean : Format Bool where
  write := booleanText
  read c :=
    let c := c.trim
    match c.rest with
    | 0x74 :: rest => do return (true, ← expectBytes c.ahead [0x72, 0x75, 0x65] rest)
    | 0x66 :: rest => do return (false, ← expectBytes c.ahead [0x61, 0x6C, 0x73, 0x65] rest)
    | _ => refuseKind "a boolean" c

def Format.natural (expected : String) (limit : Nat) : Format Nat where
  write := toString
  read c :=
    let c := c.trim
    match c.rest with
    | [] => c.blame .endOfValue
    | b :: _ =>
      if b == 0x2D || isDigit b then do
        let (n, after) ← readNumber c
        match n with
        | .natural value =>
          if value ≤ limit then .ok (value, after)
          else after.fail (.invalidValue n.found expected)
        | .negative _ => after.fail (.invalidValue n.found expected)
        | .float _ => after.fail (.invalidType n.found expected)
      else refuseKind expected c

def Format.optional {α : Type} (f : Format α) : Format (Option α) where
  write
    | none => "null"
    | some a => f.write a
  read c :=
    let c := c.trim
    match c.rest with
    | 0x6E :: rest => do return (none, ← expectBytes c.ahead [0x75, 0x6C, 0x6C] rest)
    | _ => do
      let (a, after) ← f.read c
      return (some a, after)

def nextItem (first : Bool) (c : Cursor) : Except Fault (Bool × Cursor) :=
  let c := c.trim
  match c.rest with
  | [] => c.blame .endOfList
  | b :: rest =>
    if b == 0x5D then .ok (false, c)
    else if first then .ok (true, c)
    else if b == 0x2C then
      let c := skipSpace c.ahead rest
      match c.rest with
      | [] => c.blame .endOfValue
      | b :: _ => if b == 0x5D then c.blame .trailingComma else .ok (true, c)
    else c.blame .expectedListEnd

def endList (c : Cursor) : Except Fault Cursor :=
  let c := c.trim
  match c.rest with
  | [] => c.blame .endOfList
  | b :: rest =>
    if b == 0x5D then .ok ⟨rest, c.ahead⟩
    else if b == 0x2C then
      let c := skipSpace c.ahead rest
      match c.rest with
      | 0x5D :: _ => c.blame .trailingComma
      | _ => c.blame .trailingCharacters
    else c.blame .trailingCharacters

/-- Whether a further member stands before the cursor, which is moved behind the opening quote of
its key. -/
def nextKey (first : Bool) (c : Cursor) : Except Fault (Bool × Cursor) :=
  let c := c.trim
  match c.rest with
  | [] => c.blame .endOfObject
  | b :: rest =>
    if b == 0x7D then .ok (false, c)
    else if b == 0x2C && !first then
      let c := skipSpace c.ahead rest
      match c.rest with
      | [] => c.blame .endOfValue
      | b :: rest =>
        if b == 0x22 then .ok (true, ⟨rest, c.ahead⟩)
        else if b == 0x7D then c.blame .trailingComma
        else c.blame .keyNotString
    else if first then
      if b == 0x22 then .ok (true, ⟨rest, c.ahead⟩) else c.blame .keyNotString
    else c.blame .expectedObjectEnd

def endObject (c : Cursor) : Except Fault Cursor :=
  let c := c.trim
  match c.rest with
  | [] => c.blame .endOfObject
  | b :: rest =>
    if b == 0x7D then .ok ⟨rest, c.ahead⟩
    else if b == 0x2C then c.blame .trailingComma
    else c.blame .trailingCharacters

def readColon (c : Cursor) : Except Fault Cursor :=
  let c := c.trim
  match c.rest with
  | [] => c.blame .endOfObject
  | b :: rest => if b == 0x3A then .ok ⟨rest, c.ahead⟩ else c.blame .expectedColon

def within {α : Type} (step : Step) (r : Except Fault α) : Except Fault α :=
  match r with
  | .error f => .error (f.under step)
  | .ok a => .ok a

def readItems {α : Type} (item : Reader α) (read : List α) (index : Nat) :
    Nat → Cursor → Except Fault (List α × Cursor)
  | 0, c => c.blame .endOfList
  | fuel + 1, c => do
    let (more, c) ← nextItem (index == 0) c
    if more then
      let (a, c) ← within (.item index) (item c)
      readItems item (a :: read) (index + 1) fuel c
    else return (read.reverse, c)

def Format.list {α : Type} (f : Format α) : Format (List α) where
  write items := listText (items.map f.write)
  read c :=
    let c := c.trim
    match c.rest with
    | 0x5B :: rest => do
      let (items, c) ← readItems f.read [] 0 (rest.length + 1) ⟨rest, c.ahead⟩
      return (items, ← endList c)
    | _ => refuseKind "a sequence" c

def readMembers {α : Type} (item : Reader α) (read : List (String × α)) (first : Bool) :
    Nat → Cursor → Except Fault (List (String × α) × Cursor)
  | 0, c => c.blame .endOfObject
  | fuel + 1, c => do
    let (more, c) ← nextKey first c
    if more then
      let (key, c) ← readText "" c.place c.rest
      let c ← readColon c
      let (a, c) ← within (.field key) (item c)
      readMembers item ((key, a) :: read) false fuel c
    else return (read.reverse, c)

def Format.members {α : Type} (f : Format α) : Format (List (String × α)) where
  write members := objectText (members.map fun (key, a) => (key, f.write a))
  read c :=
    let c := c.trim
    match c.rest with
    | 0x7B :: rest => do
      let (members, c) ← readMembers f.read [] true (rest.length + 1) ⟨rest, c.ahead⟩
      return (members, ← endObject c)
    | _ => refuseKind "a map" c

/-- What a record holds when a field is not given: nothing will do, `value` will do as long as the
record is an object, or `value` always does. -/
inductive Absence (α : Type) where
  | required
  | nullable (value : α)
  | defaulted (value : α)

/-- The fields of a record of type `τ` in their order, as nested pairs; `δ` is the same record with
some of its fields still to be read. A field that `hides` its value is not written. -/
inductive Fields : (τ δ : Type) → Type 1 where
  | none : Fields Unit Unit
  | field {α β γ : Type} (name : String) (absence : Absence α) (hides : α → Bool)
      (format : Format α) (more : Fields β γ) : Fields (α × β) (Option α × γ)

def Fields.blank : {τ δ : Type} → Fields τ δ → δ
  | _, _, .none => ()
  | _, _, .field _ _ _ _ more => (Option.none, more.blank)

def Fields.count : {τ δ : Type} → Fields τ δ → Nat
  | _, _, .none => 0
  | _, _, .field _ _ _ _ more => more.count + 1

def Fields.write : {τ δ : Type} → Fields τ δ → τ → List (String × String)
  | _, _, .none, () => []
  | _, _, .field name _ hides format more, (a, b) =>
    if hides a then more.write b else (name, format.write a) :: more.write b

/-- Where an object is left when its members turn out not to fit. -/
def placeLeaving (closer : UInt8) (c : Cursor) : Place :=
  let c := c.trim
  match c.rest with
  | b :: _ => if b == closer then c.ahead else c.place
  | [] => c.place

/-- Reads the value of the named field into the draft, or answers that there is no such field. -/
def Fields.readInto : {τ δ : Type} → Fields τ δ → String → δ → Cursor →
    Option (Except Fault (δ × Cursor))
  | _, _, .none, _, (), _ => Option.none
  | _, _, .field name _ _ format more, key, (a?, b), c =>
    if key == name then
      some <|
        match a? with
        | some _ => .error ⟨.duplicateField name, placeLeaving 0x7D c, []⟩
        | Option.none => do
          let c ← readColon c
          let (a, c) ← within (.field name) (format.read c)
          return ((some a, b), c)
    else
      (more.readInto key b c).map fun r => r.map fun (b, c) => ((a?, b), c)

/-- The record of a draft, or the name of the first field that it lacks. -/
def Fields.finish : {τ δ : Type} → Fields τ δ → δ → Except String τ
  | _, _, .none, () => .ok ()
  | _, _, .field name absence _ _ more, (a?, b) =>
    match a?, absence with
    | some a, _ => (more.finish b).map fun b => (a, b)
    | Option.none, .nullable a => (more.finish b).map fun b => (a, b)
    | Option.none, .defaulted a => (more.finish b).map fun b => (a, b)
    | Option.none, .required => .error name

def Fields.readObject {τ δ : Type} (fs : Fields τ δ) (draft : δ) (first : Bool) :
    Nat → Cursor → Except Fault (τ × Cursor)
  | 0, c => c.blame .endOfObject
  | fuel + 1, c => do
    let (more, c) ← nextKey first c
    if more then
      let (key, c) ← readText "" c.place c.rest
      match fs.readInto key draft c with
      | some r =>
        let (draft, c) ← r
        fs.readObject draft false fuel c
      | Option.none =>
        let c ← readColon c
        let c ← within (.field key) (skipValue c)
        fs.readObject draft false fuel c
    else
      match fs.finish draft with
      | .ok t => return (t, c)
      | .error name => .error ⟨.missingField name, placeLeaving 0x7D c, []⟩

def Fields.readList (expected : String) : {τ δ : Type} → Fields τ δ → (index : Nat) →
    (first : Bool) → Cursor → Except Fault (τ × Cursor)
  | _, _, .none, _, _, c => .ok ((), c)
  | _, _, .field _ absence _ format more, index, first, c => do
    let (found, c) ← nextItem first c
    if found then
      let (a, c) ← within (.item index) (format.read c)
      let (b, c) ← more.readList expected (index + 1) false c
      return ((a, b), c)
    else
      match absence with
      | .defaulted a =>
        let (b, c) ← more.readList expected (index + 1) first c
        return ((a, b), c)
      | _ => .error ⟨.invalidLength index expected, placeLeaving 0x5D c, []⟩

def Format.record {τ δ : Type} (name : String) (fs : Fields τ δ) : Format τ where
  write t := objectText (fs.write t)
  read c :=
    let c := c.trim
    match c.rest with
    | 0x5B :: rest => do
      let expected := "struct " ++ name ++ " with " ++ toString fs.count ++
        (if fs.count == 1 then " element" else " elements")
      let (t, c) ← fs.readList expected 0 true ⟨rest, c.ahead⟩
      return (t, ← endList c)
    | 0x7B :: rest => do
      let (t, c) ← fs.readObject fs.blank true (rest.length + 1) ⟨rest, c.ahead⟩
      return (t, ← endObject c)
    | _ => refuseKind ("struct " ++ name) c

def Format.map {α β : Type} (f : Format α) (into : α → β) (back : β → α) : Format β where
  write b := f.write (back b)
  read c := do
    let (a, c) ← f.read c
    return (into a, c)

def pick {α : Type} (alternatives : List (String × α)) (name : String) (c : Cursor) :
    Except Fault (α × Cursor) :=
  match alternatives.find? fun (known, _) => known == name with
  | some (_, a) => .ok (a, c)
  | none => c.fail (.unknownVariant name (alternatives.map Prod.fst))

/-- Alternatives without data: the name as a string, or an object with the name as its only key
and `null` as the value. -/
def Format.alternatives {α : Type} (expected : String) (nameOf : α → String)
    (alternatives : List (String × α)) : Format α where
  write a := stringText (nameOf a)
  read c :=
    let c := c.trim
    match c.rest with
    | [] => c.blame .endOfValue
    | b :: rest =>
      if b == 0x22 then do
        let (name, c) ← readText "" c.ahead rest
        pick alternatives name c
      else if b == 0x7B then do
        let (name, c) ← readString expected ⟨rest, c.ahead⟩
        let (a, c) ← pick alternatives name c
        let c ← readColon c
        let c := c.trim
        let c ← match c.rest with
          | 0x6E :: rest => expectBytes c.ahead [0x75, 0x6C, 0x6C] rest
          | _ => refuseKind "unit" c
        let c := c.trim
        match c.rest with
        | [] => c.fail .endOfObject
        | b :: rest => if b == 0x7D then .ok (a, ⟨rest, c.ahead⟩) else c.fail .expectedValue
      else c.blame .expectedValue

/-- Reads the value that the text starts with; what follows is not looked at. -/
def Format.readLeading {α : Type} (f : Format α) (bytes : List UInt8) : Except Fault α :=
  (f.read (.ofBytes bytes)).map Prod.fst

def Format.readBytes {α : Type} (f : Format α) (bytes : List UInt8) : Except Fault α := do
  let (a, c) ← f.read (.ofBytes bytes)
  let c := c.trim
  match c.rest with
  | [] => .ok a
  | _ :: _ => c.blame .trailingCharacters

def Format.readWhole {α : Type} (f : Format α) (text : String) : Except Fault α :=
  f.readBytes text.toUTF8.toList

end TenantGate.Json
