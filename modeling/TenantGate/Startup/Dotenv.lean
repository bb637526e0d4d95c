import TenantGate.Text.Printable

/-!
Environment files. Each line names a variable and its value; quotes keep blanks and line ends,
and `$` puts in another variable. What is set already is not set again. The first line with a
mistake ends the reading; the lines before it count.
-/
namespace TenantGate.Startup.Dotenv

inductive Spot where
  | complete
  | escape
  | blank
  | weak
  | weakEscape
  | strong
  | strongEscape
  | comment
deriving Repr, DecidableEq

def Spot.step (s : Spot) (c : Char) : Spot :=
  match s with
  | .blank =>
    if c == '#' then .comment
    else if c == '\\' then .escape
    else if c == '"' then .weak
    else if c == '\'' then .strong
    else .complete
  | .escape => .complete
  | .complete =>
    if Text.isBlank c && c != '\n' && c != '\r' then .blank
    else if c == '\\' then .escape
    else if c == '"' then .weak
    else if c == '\'' then .strong
    else .complete
  | .weak => if c == '\\' then .weakEscape else if c == '"' then .complete else .weak
  | .weakEscape => .weak
  | .strong => if c == '\\' then .strongEscape else if c == '\'' then .complete else .strong
  | .strongEscape => .strong
  | .comment => .comment

/-- The characters of a line in front of a comment, and where the reader stands behind it. -/
def scanLine (s : Spot) : List Char → List Char × Spot
  | [] => ([], s)
  | c :: cs =>
    match s.step c with
    | .comment => ([], .comment)
    | next =>
      let (kept, last) := scanLine next cs
      (c :: kept, last)

def cutLine : List Char → List Char × List Char
  | [] => ([], [])
  | '\n' :: cs => (['\n'], cs)
  | c :: cs =>
    let (line, rest) := cutLine cs
    (c :: line, rest)

def dropLineEnd (line : List Char) : List Char :=
  match line.reverse with
  | '\n' :: '\r' :: rest => rest.reverse
  | '\n' :: rest => rest.reverse
  | _ => line

/-- Lines joined as long as quotes are open; nothing stands for a file that ends inside quotes. -/
def logicalLines (held : List Char) (s : Spot) : Nat → List Char → List (Option (List Char))
  | 0, _ => []
  | fuel + 1, cs =>
    if cs.isEmpty then
      match s with
      | .complete => []
      | _ => [none]
    else
      let (line, rest) := cutLine cs
      if ((held ++ line).dropWhile Text.isBlank).head? == some '#' then
        some [] :: logicalLines [] .complete fuel rest
      else
        match scanLine s line with
        | (kept, .comment) => some (held ++ kept) :: logicalLines [] .complete fuel rest
        | (_, .complete) =>
          some (dropLineEnd (held ++ line)) :: logicalLines [] .complete fuel rest
        | (_, s) => logicalLines (held ++ line) s fuel rest

inductive Naming where
  | none
  | plain
  | braced
deriving Repr, DecidableEq

structure Reading where
  strong : Bool
  weak : Bool
  escaped : Bool
  ending : Bool
  naming : Naming
  name : List Char
  written : List Char

def Reading.fill (value : String → String) (r : Reading) : Reading :=
  { r with
    written := r.written ++ (value (String.ofList r.name)).toList
    name := []
    naming := .none }

def isNameChar (c : Char) : Bool := c.isAlphanum

def readValue? (value : String → String) (r : Reading) : List Char → Option String
  | [] =>
    if r.naming == .braced || r.strong || r.weak then none
    else some (String.ofList (r.fill value).written)
  | c :: cs =>
    let add (r : Reading) (c : Char) : Reading := { r with written := r.written ++ [c] }
    if r.ending then
      if c == ' ' || c == '\t' then readValue? value r cs
      else if c == '#' then
        if r.naming == .braced then none else some (String.ofList (r.fill value).written)
      else none
    else if r.escaped then
      if c == '\\' || c == '\'' || c == '"' || c == '$' || c == ' ' then
        readValue? value (add { r with escaped := false } c) cs
      else if c == 'n' then readValue? value (add { r with escaped := false } '\n') cs
      else none
    else if r.strong then
      if c == '\'' then readValue? value { r with strong := false } cs
      else readValue? value (add r c) cs
    else if r.naming != .none && isNameChar c then
      readValue? value { r with name := r.name ++ [c] } cs
    else if r.naming == .plain then
      if c == '\x7b' && r.name.isEmpty then readValue? value { r with naming := .braced } cs
      else if c == '$' then readValue? value { r.fill value with naming := .plain } cs
      else readValue? value (add (r.fill value) c) cs
    else if r.naming == .braced then
      if c == '\x7d' then readValue? value (r.fill value) cs
      else readValue? value { r with name := r.name ++ [c] } cs
    else if c == '$' then readValue? value { r with naming := .plain } cs
    else if r.weak then
      if c == '"' then readValue? value { r with weak := false } cs
      else if c == '\\' then readValue? value { r with escaped := true } cs
      else readValue? value (add r c) cs
    else if c == '\'' then readValue? value { r with strong := true } cs
    else if c == '"' then readValue? value { r with weak := true } cs
    else if c == '\\' then readValue? value { r with escaped := true } cs
    else if c == ' ' || c == '\t' then readValue? value { r with ending := true } cs
    else readValue? value (add r c) cs

def isKeyChar (c : Char) : Bool := c.isAlphanum || c == '_' || c == '.'

def takeKey? (cs : List Char) : Option (String × List Char) :=
  match cs with
  | c :: _ =>
    if c.isAlpha || c == '_' then
      let key := cs.takeWhile isKeyChar
      some (String.ofList key, (cs.drop key.length).dropWhile Text.isBlank)
    else none
  | [] => none

inductive Line where
  | nothing
  | mistake
  | assignment (name : String) (value : List Char)
deriving Repr

/-- A line as a name and the text of its value; the word `export` may stand in front. -/
def readLine (line : List Char) : Line :=
  let cs := (line.reverse.dropWhile Text.isBlank).reverse.dropWhile Text.isBlank
  if cs.isEmpty || cs.head? == some '#' then .nothing
  else
    match takeKey? cs with
    | some (key, '=' :: rest) => .assignment key (rest.dropWhile Text.isBlank)
    | some ("export", rest) =>
      match takeKey? rest with
      | some (key, '=' :: rest) => .assignment key (rest.dropWhile Text.isBlank)
      | _ => .mistake
    | _ => .mistake

structure Known where
  environment : List (String × String)
  said : List (String × String)

/-- The value that a name has for putting it in: that of the environment, else that of the file. -/
def Known.value (k : Known) (name : String) : String :=
  (k.environment.lookup name).getD ((k.said.lookup name).getD "")

/-- Notes what a line says; what the environment has is kept. -/
def Known.note (k : Known) (name value : String) : Known :=
  ⟨if (k.environment.lookup name).isSome then k.environment
    else k.environment ++ [(name, value)],
    (name, value) :: k.said⟩

def takeLines (k : Known) : List (Option (List Char)) → Known
  | [] => k
  | none :: _ => k
  | some line :: more =>
    match readLine line with
    | .nothing => takeLines k more
    | .mistake => k
    | .assignment name text =>
      if text.isEmpty || text.head? == some '#' then takeLines (k.note name "") more
      else
        match readValue? k.value ⟨false, false, false, false, .none, [], []⟩ text with
        | some value => takeLines (k.note name value) more
        | none => k

def load (environment : List (String × String)) (file : String) : List (String × String) :=
  let cs := match file.toList with
    | '\uFEFF' :: cs => cs
    | cs => cs
  (takeLines ⟨environment, []⟩ (logicalLines [] .complete (cs.length + 1) cs)).environment

end TenantGate.Startup.Dotenv
