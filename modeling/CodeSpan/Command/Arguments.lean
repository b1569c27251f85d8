import CodeSpan.Dialect.Kind
import CodeSpan.Locate.Query
import CodeSpan.Text.Occurrence

/-!
# Command lines

A command line names one of three commands. Options that hold for every command may stand
before its name or after it; where an option stands in both places, the later one counts. At
either place an option stands at most once. A value may be attached to its option; a separate
value must not look like an option. After two dashes only plain arguments follow.
-/

namespace CodeSpan.Command

inductive Verb where
  | locate
  | extract
  | resolve
deriving DecidableEq

namespace Verb

def name : Verb → List Char
  | .locate => "locate".toList
  | .extract => "extract".toList
  | .resolve => "resolve".toList

def ofName? (s : List Char) : Option Verb :=
  [locate, extract, resolve].find? fun v => v.name = s

def argumentCount : Verb → Nat
  | .locate => 2
  | .extract => 1
  | .resolve => 2

end Verb

inductive Flag where
  | workspace
  | dialect
  | window
  | verbose
  | version
  | help
  | hint
  | declaration
  | raw
  | line
  | column
  | purpose
  | copy
deriving DecidableEq

namespace Flag

def long : Flag → List Char
  | .workspace => "workspace".toList
  | .dialect => "dialect".toList
  | .window => "window".toList
  | .verbose => "verbose".toList
  | .version => "version".toList
  | .help => "help".toList
  | .hint => "hint".toList
  | .declaration => "declaration".toList
  | .raw => "raw".toList
  | .line => "line".toList
  | .column => "column".toList
  | .purpose => "purpose".toList
  | .copy => "copy".toList

def short? : Flag → Option Char
  | .workspace => some 'w'
  | .dialect => some 'd'
  | .verbose => some 'v'
  | .version => some 'V'
  | .help => some 'h'
  | .line => some 'l'
  | .column => some 'c'
  | .purpose => some 'p'
  | _ => none

def takesValue : Flag → Bool
  | .workspace | .dialect | .window | .hint | .line | .column | .purpose => true
  | _ => false

def shared : List Flag :=
  [.workspace, .dialect, .window, .verbose, .version, .help]

/-- The options allowed before the command, or after it. -/
def allowed : Option Verb → List Flag
  | none => shared
  | some .locate => shared ++ [.hint, .declaration, .raw]
  | some .extract => shared ++ [.line, .column]
  | some .resolve => shared ++ [.hint, .declaration, .purpose, .copy]

/-- A count may carry a plus sign and fits in 64 bits. -/
def count? (s : List Char) : Option Nat :=
  let digits := match s with
    | '+' :: digits => digits
    | digits => digits
  if digits.isEmpty || !digits.all Char.isDigit then none
  else
    let n := digits.foldl (fun n d => 10 * n + (d.toNat - '0'.toNat)) 0
    if n < UInt64.size then some n else none

def accepts (f : Flag) (value : List Char) : Bool :=
  match f with
  | .workspace => !value.isEmpty
  | .dialect => (DialectKind.ofName? value).isSome
  | .window | .line | .column => (count? value).isSome
  | _ => true

end Flag

/-- What ends the reading of a command line before its end. -/
inductive Stop where
  | rejected
  | version (verb : Option Verb)
  | help (verb : Option Verb)
deriving DecidableEq

/-- The options and arguments given at one place. -/
structure Given where
  values : List (Flag × List Char)
  flags : List Flag
  arguments : List (List Char)

namespace Given

def none : Given :=
  ⟨[], [], []⟩

def value? (g : Given) (f : Flag) : Option (List Char) :=
  g.values.lookup f

end Given

structure Progress where
  verb : Option Verb
  before : Given
  current : Given
  pending : Option Flag
  argumentsOnly : Bool

namespace Progress

def start : Progress :=
  ⟨none, .none, .none, none, false⟩

def enter (p : Progress) (v : Verb) : Progress :=
  { p with verb := some v, before := p.current, current := .none }

def addArgument (p : Progress) (arg : List Char) : Except Stop Progress :=
  match p.verb with
  | none => .error .rejected
  | some v =>
      if p.current.arguments.length < v.argumentCount then
        .ok { p with current :=
          { p.current with arguments := p.current.arguments ++ [arg] } }
      else .error .rejected

def addValue (p : Progress) (f : Flag) (value : List Char) : Except Stop Progress :=
  if f.accepts value && (p.current.value? f).isNone then
    .ok { p with
      pending := none
      current := { p.current with values := (f, value) :: p.current.values } }
  else .error .rejected

def addFlag (p : Progress) (f : Flag) : Except Stop Progress :=
  match f with
  | .version => .error (.version p.verb)
  | .help => .error (.help p.verb)
  | .verbose => .ok p
  | f =>
      if f ∈ p.current.flags then .error .rejected
      else .ok { p with current := { p.current with flags := f :: p.current.flags } }

def addLong (p : Progress) (body : List Char) : Except Stop Progress :=
  let name := body.takeWhile (· ≠ '=')
  match (Flag.allowed p.verb).find? fun f => f.long = name, body.dropWhile (· ≠ '=') with
  | none, _ => .error .rejected
  | some f, [] => if f.takesValue then .ok { p with pending := some f } else p.addFlag f
  | some f, _ :: value => if f.takesValue then p.addValue f value else .error .rejected

/-- A cluster of one-letter options; the first that takes a value takes the rest of it. -/
def addShort (p : Progress) : List Char → Except Stop Progress
  | [] => .ok p
  | c :: rest =>
      match (Flag.allowed p.verb).find? fun f => f.short? = some c with
      | none => .error .rejected
      | some f =>
          if f.takesValue then
            match rest with
            | [] => .ok { p with pending := some f }
            | '=' :: value => p.addValue f value
            | value => p.addValue f value
          else
            match p.addFlag f with
            | .error e => .error e
            | .ok p => p.addShort rest

def step (p : Progress) (arg : List Char) : Except Stop Progress :=
  if p.argumentsOnly then p.addArgument arg
  else match p.pending, arg with
    | some _, '-' :: _ :: _ => .error .rejected
    | some f, value => p.addValue f value
    | none, ['-', '-'] => .ok { p with argumentsOnly := true }
    | none, '-' :: '-' :: body => p.addLong body
    | none, '-' :: c :: body => p.addShort (c :: body)
    | none, arg =>
        match p.verb, Verb.ofName? arg with
        | none, some v => .ok (p.enter v)
        | _, _ => p.addArgument arg

end Progress

/-- The options that hold for every command. -/
structure Options where
  workspace : Option Path
  dialect : Option DialectKind
  window : Option Nat

inductive Action where
  | locate (file name : List Char) (hint : Option (List Char)) (mode : SearchMode) (raw : Bool)
  | extract (file : List Char) (line column : Nat)
  | resolve (file name : List Char) (hint : Option (List Char)) (mode : SearchMode)
      (purpose : Option (List Char)) (copy : Bool)

def Action.file : Action → List Char
  | .locate file _ _ _ _ => file
  | .extract file _ _ => file
  | .resolve file _ _ _ _ _ => file

structure Request where
  options : Options
  action : Action

namespace Progress

def value? (p : Progress) (f : Flag) : Option (List Char) :=
  p.current.value? f <|> p.before.value? f

def options (p : Progress) : Options where
  workspace := p.value? .workspace
  dialect := (p.value? .dialect).bind DialectKind.ofName?
  window := (p.value? .window).bind Flag.count?

def mode (p : Progress) : SearchMode :=
  if .declaration ∈ p.current.flags then .declaration else .usage

def action? (p : Progress) : Option Action :=
  match p.verb, p.current.arguments with
  | some .locate, [file, name] =>
      some (.locate file name (p.value? .hint) p.mode (.raw ∈ p.current.flags))
  | some .extract, [file] => do
      let line ← (p.value? .line).bind Flag.count?
      let column := ((p.value? .column).bind Flag.count?).getD 1
      some (.extract file line column)
  | some .resolve, [file, name] =>
      some (.resolve file name (p.value? .hint) p.mode (p.value? .purpose)
        (.copy ∈ p.current.flags))
  | _, _ => none

def finish (p : Progress) : Except Stop Request :=
  match p.pending, p.action? with
  | none, some action => .ok ⟨p.options, action⟩
  | _, _ => .error .rejected

end Progress

def parse (args : List (List Char)) : Except Stop Request := do
  let p ← args.foldlM Progress.step Progress.start
  p.finish

end CodeSpan.Command
