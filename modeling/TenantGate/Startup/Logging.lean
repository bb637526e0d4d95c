import TenantGate.Decimal.Reading
import TenantGate.Json.Format
import TenantGate.Net.Address
import TenantGate.Text.Printable

/-!
How the host logs: which lines, and whether as JSON.
-/
namespace TenantGate.Startup

def defaultFilter : String := "info,api=debug,tower_http=info"

structure LogConfig where
  filter : String
  json : Bool
  spanEvents : Bool
deriving Repr, DecidableEq

namespace LogConfig

def standard : LogConfig := ⟨defaultFilter, false, false⟩

def withFilter (c : LogConfig) (filter : String) : LogConfig := { c with filter }

def withJson (c : LogConfig) (json : Bool) : LogConfig := { c with json }

def withSpanEvents (c : LogConfig) (spanEvents : Bool) : LogConfig := { c with spanEvents }

end LogConfig

/-!
Log lines: where a line comes from, how urgent it is, its message and its fields. A line is shown
either as text or as one JSON object; the time stands in front of neither here.
-/

inductive LogLevel where
  | error
  | warn
  | info
  | debug
  | trace
deriving Repr, DecidableEq

namespace LogLevel

def name : LogLevel → String
  | .error => "ERROR"
  | .warn => "WARN"
  | .info => "INFO"
  | .debug => "DEBUG"
  | .trace => "TRACE"

/-- How much is logged when lines up to this level are: one for errors only, five for all. -/
def verbosity : LogLevel → Nat
  | .error => 1
  | .warn => 2
  | .info => 3
  | .debug => 4
  | .trace => 5

end LogLevel

inductive LogValue where
  | text (s : String)
  | literal (s : String)
  | number (n : Nat)
  | flag (b : Bool)
deriving Repr, DecidableEq

namespace LogValue

def shown : LogValue → String
  | .text s => s
  | .literal s => Text.quote s
  | .number n => toString n
  | .flag b => Json.booleanText b

def json : LogValue → String
  | .text s => Json.stringText s
  | .literal s => Json.stringText s
  | .number n => toString n
  | .flag b => Json.booleanText b

end LogValue

structure LogLine where
  level : LogLevel
  target : String
  message : String
  fields : List (String × LogValue)
deriving Repr, DecidableEq

namespace LogLine

def fieldNames (l : LogLine) : List String := "message" :: l.fields.map fun f => f.1

def text (l : LogLine) : String :=
  l.level.name ++ " " ++ l.target ++ ": " ++ l.message ++
    String.join (l.fields.map fun (name, value) => " " ++ name ++ "=" ++ value.shown)

def json (l : LogLine) : String :=
  let fields := ("message", Json.stringText l.message) :: l.fields.map fun (name, value) =>
    (name, value.json)
  Json.objectText
    [("level", Json.stringText l.level.name), ("fields", Json.objectText fields),
      ("target", Json.stringText l.target)]

end LogLine

/-!
Log filters. A filter is a list of directives between commas, each of which says for a target, for
lines with certain fields, or for everything, down to which level lines are logged. The directive
that says most about where a line comes from decides about it.
-/

abbrev Threshold := Option LogLevel

def Threshold.admits (t : Threshold) (level : LogLevel) : Bool :=
  match t with
  | some least => level.verbosity ≤ least.verbosity
  | none => false

def thresholds : List (String × Threshold) :=
  [("off", none), ("error", some .error), ("warn", some .warn), ("info", some .info),
    ("debug", some .debug), ("trace", some .trace)]

def threshold? (cs : List Char) : Option Threshold :=
  let number := if cs.head? == some '-' then none else
    Decimal.integerWithin? 0 5 (String.ofList cs)
  match number with
  | some i => thresholds[i.toNat]?.map fun t => t.2
  | none => thresholds.lookup (String.ofList cs).toLower

structure Directive where
  target : Option (List Char)
  span : Option (List Char)
  fields : List (List Char)
  threshold : Threshold
deriving Repr, DecidableEq

namespace Directive

/-- Whether a character may start a directive; beyond ASCII every character may. -/
def isStart (c : Char) : Bool :=
  c.isAlphanum || c == '-' || c == ':' || c == '_' || 0x80 ≤ c.toNat

def withThreshold? (d : Directive) (cs : List Char) : Option Directive :=
  if cs.isEmpty then some d
  else (threshold? cs).map fun threshold => { d with threshold }

def afterSpan? (whole core : List Char) (i : Nat) (d : Directive) : Option Directive :=
  match core.drop i with
  | [] => some d
  | '=' :: _ => d.withThreshold? (whole.drop (i + 1))
  | _ => none

/-- The span behind the opening bracket in front of the place `i`, with its fields in braces. -/
def span? (whole core : List Char) (i : Nat) (d : Directive) : Option Directive :=
  let size := ((core.drop i).takeWhile fun c => c != ']' && c != '\x7b').length
  let span := (whole.drop i).take size
  match core.drop (i + size) with
  | ']' :: _ => afterSpan? whole core (i + size + 1) { d with span := some span }
  | '\x7b' :: more =>
    let length := (more.takeWhile (· != '\x7d')).length
    let field := (whole.drop (i + size + 1)).take length
    match more.drop length with
    | '\x7d' :: ']' :: _ =>
      if field.isEmpty then none
      else
        afterSpan? whole core (i + size + length + 3)
          { d with span := if span.isEmpty then none else some span, fields := [field] }
    | _ => none
  | _ => none

/-- A directive. Its marks are looked for in the text without the blanks around it, but what stands
between them is cut from the text with the blanks, so only trailing marks forgive a blank. -/
def parse? (whole : List Char) : Option Directive :=
  let core := Text.trimChars whole
  let all : Directive := ⟨none, none, [], some .trace⟩
  match core with
  | [] => none
  | '[' :: _ => span? whole core 1 all
  | c :: _ =>
    if !isStart c then none
    else
      let size := (core.takeWhile fun c => c != '=' && c != '[').length
      match core.drop size with
      | [] =>
        match threshold? whole with
        | some threshold => some { all with threshold }
        | none => some { all with target := some whole }
      | '=' :: _ =>
        { all with target := some (whole.take size) }.withThreshold? (whole.drop (size + 1))
      | _ => span? whole core (size + 1) { all with target := some (whole.take size) }

def speaksOfLines (d : Directive) : Bool :=
  d.span.isNone && d.fields.all fun field => !field.contains '='

/-- Whether a line comes from the target and has the fields that the directive names. -/
def isAbout (d : Directive) (line : LogLine) : Bool :=
  (d.target.map fun target => target.isPrefixOf line.target.toList).getD true &&
    d.fields.all fun field => line.fieldNames.contains (String.ofList field)

/-- How much of a target the directive names; no target is less than an empty one. -/
def reach (d : Directive) : Nat := (d.target.map fun target => target.length + 1).getD 0

/-- Whether `b` says at least as much about where a line comes from as `a` does. -/
def yieldsTo (a b : Directive) : Bool :=
  a.reach < b.reach || (a.reach == b.reach && a.fields.length ≤ b.fields.length)

/-- The one of two directives that decides; of equals the later one. -/
def chosen : Option Directive → Directive → Option Directive
  | none, d => some d
  | some best, d => if best.yieldsTo d then some d else some best

end Directive

structure LogFilter where
  directives : List Directive
deriving Repr, DecidableEq

namespace LogFilter

def errorsOnly : LogFilter := ⟨[⟨none, none, [], some .error⟩]⟩

def fallback : LogFilter := ⟨[⟨none, none, [], some .info⟩]⟩

def parse? (text : String) : Option LogFilter :=
  let pieces := (Net.splitChars ',' text.toList).filter fun piece => !piece.isEmpty
  if pieces.isEmpty then some errorsOnly else (pieces.mapM Directive.parse?).map LogFilter.mk

/-- The filter of a text; one with a mistake anywhere lets information pass. -/
def ofText (text : String) : LogFilter := (parse? text).getD fallback

def deciding (f : LogFilter) (line : LogLine) : Option Directive :=
  (f.directives.filter fun d => d.speaksOfLines && d.isAbout line).foldl Directive.chosen none

def admits (f : LogFilter) (line : LogLine) : Bool :=
  match f.deciding line with
  | some d => d.threshold.admits line.level
  | none => false

end LogFilter

end TenantGate.Startup
