import Trackline.Settings.Basic

/-! Settings from the arguments of a command line. A value follows its option as an
argument of its own, or stands in the same argument, after an equals sign where the
name is long. Each option is given once at most, and there is nothing but options. -/
namespace Trackline

inductive Stop where
  | refused
  | information
  deriving DecidableEq, Repr

inductive Argument where
  | setting (setting : Setting) (value : Option String)
  | information
  /-- Two dashes: no option comes after them. -/
  | close
  | other
  deriving DecidableEq

namespace Argument

/-- An argument after two dashes: a name, and a value after an equals sign. -/
def ofLong (body : List Char) : Argument :=
  let name := String.ofList (body.takeWhile (· != '='))
  let value := match body.dropWhile (· != '=') with
    | [] => none
    | _ :: value => some (String.ofList value)
  if name = "help" ∨ name = "version" then (if value.isNone then .information else .other)
  else match Setting.ofLong? name with
    | some found => .setting found value
    | none => .other

/-- An argument after one dash: a letter, and a value behind it. -/
def ofShort (letter : Char) (behind : List Char) : Argument :=
  if letter = 'h' ∨ letter = 'V' then .information
  else match Setting.ofShort? letter with
    | some found =>
      .setting found <| match behind with
        | [] => none
        | '=' :: value => some (String.ofList value)
        | value => some (String.ofList value)
    | none => .other

def ofText (text : String) : Argument :=
  match text.toList with
  | ['-', '-'] => .close
  | '-' :: '-' :: body => ofLong body
  | '-' :: letter :: behind => ofShort letter behind
  | _ => .other

end Argument

/-- Whether an argument can be the value of the option before it: a single dash can,
what begins with a dash otherwise cannot. -/
def isValue (text : String) : Bool :=
  match text.toList with
  | '-' :: _ :: _ => false
  | _ => true

namespace Settings

def assign (s : Settings) (given : List Setting) (setting : Setting) (value : String) :
    Except Stop Settings :=
  if setting ∈ given then .error .refused
  else match s.set? setting value with
    | some s => .ok s
    | none => .error .refused

def read (s : Settings) (given : List Setting) : List String → Except Stop Settings
  | [] => .ok s
  | argument :: rest =>
    match Argument.ofText argument with
    | .information => .error .information
    | .close => if rest.isEmpty then .ok s else .error .refused
    | .other => .error .refused
    | .setting setting (some value) => do
      let s ← s.assign given setting value
      s.read (setting :: given) rest
    | .setting setting none =>
      match rest with
      | value :: rest =>
        if isValue value then do
          let s ← s.assign given setting value
          s.read (setting :: given) rest
        else .error .refused
      | [] => .error .refused

def ofArguments (arguments : List String) : Except Stop Settings := read {} [] arguments

end Settings
end Trackline
